import Tr6260.CJson
import Tr6260.FlashRecord

/-!
# Cloud timers

`ya_hardware_timer.c`: the list of timers, its record in flash, and the messages
that change both. The linked list is a `List`; `device_delete_list_timer` and
`device_add_list_timer` walk it from the header.

Three outcomes are not a return value of the code: text used from a field that
is not a string, and a `strcpy` over the end of its block. Functions that can
run into them return `none` (`Parsed.fault` while a message is read).
-/

namespace Tr6260

open FlashProg

/-- `MAX_TIMER_DEVICE_DATA`. -/
def maxTimerDeviceData : Nat := 4096 * 2 - 256

/-- `MAX_ACTION_LEN`. -/
def maxActionLen : Nat := 256

/-- `MAX_TIMER_NUM`. -/
def maxTimerNum : Nat := 20

/-- `MAX_TIMER_ID_LEN`. -/
def maxTimerIdLen : Nat := 16

/-- `YA_DEVICE_TIMER_ADDR` of this board. -/
def yaDeviceTimerAddr : Nat := 0xB5000

/-! ## The list -/

/-- The bytes of `timer_id`, compared as a whole by `memcmp`. -/
abbrev TimerId := { id : List UInt8 // id.length = maxTimerIdLen }

/-- When a timer is due, and its name. -/
structure TimerSetting where
  year : UInt16
  month : UInt8
  day : UInt8
  hour : UInt8
  minute : UInt8
  second : UInt8
  week : UInt8
  enable : UInt8
  timerId : TimerId
  deriving DecidableEq

/-- The node a caller of `device_add_list_timer` prepares: `action` points to text
somewhere else. -/
structure TimerNode extends TimerSetting where
  action : CString
  actionLen : UInt16

/-- `device_common_timer_t` as it stands in the list, with the block of its action:
the block holds `action_len` bytes and a terminated text. -/
structure DeviceCommonTimer extends TimerSetting where
  triggered : UInt8
  actionLen : UInt16
  action : List UInt8
  holds : actionLen.toNat ≤ action.length
  terminated : 0 ∈ action
  deriving DecidableEq

/-- The text of the action. -/
def DeviceCommonTimer.text (t : DeviceCommonTimer) : CString := .ofBytes t.action

/-- The outcomes of successive allocations. -/
abbrev Heap := Nat → Board

/-- The allocations after the first `n`. -/
def Heap.skip (heap : Heap) (n : Nat) : Heap := fun k => heap (n + k)

/-- Every allocation succeeds. -/
def Heap.AllocOk (heap : Heap) : Prop := ∀ k, (heap k).AllocOk

/-- `sizeof (device_common_timer_t)`. -/
def sizeofTimer : Nat := 44

/-- `memset (action, 0, sizeof (action_len + 1))`: the size of an `int`, whatever the
length is. In a block of less than four bytes the rest falls into the padding of
the heap block. -/
def memsetAction (block : List UInt8) : List UInt8 :=
  (List.replicate 4 0).take block.length ++ block.drop 4

theorem length_memsetAction (block : List UInt8) :
    (memsetAction block).length = block.length := by
  unfold memsetAction
  rw [List.length_append, List.length_take, List.length_replicate, List.length_drop]
  omega

/-- The list entry for a node, with the block `action` it was copied to. -/
def TimerNode.stored (node : TimerNode) (action : List UInt8)
    (size : action.length = node.actionLen.toNat + 1) (terminated : 0 ∈ action) :
    DeviceCommonTimer where
  toTimerSetting := node.toTimerSetting
  triggered := 0
  actionLen := node.actionLen + 1
  action := action
  holds := by
    rw [size, UInt16.toNat_add]
    exact Nat.mod_le _ _
  terminated := terminated

/-- `device_add_list_timer`: result and list. -/
def deviceAddListTimer (heap : Heap) (list : List DeviceCommonTimer) (node : TimerNode) :
    Option (Int × List DeviceCommonTimer) :=
  if list.any fun cur => cur.timerId = node.timerId then
    some (0, list)
  -- `index_timer` is a `uint8_t`
  else if list.length % 256 > maxTimerNum then
    some (-1, list)
  else
    match (heap 0).memoryAlloc sizeofTimer with
    | none => some (-1, list)
    | some _ =>
      match found : (heap 1).memoryAlloc (node.actionLen.toNat + 1) with
      | none => some (-1, list)
      | some block =>
        match copied : CString.strcpy (memsetAction block) node.action with
        | none => none
        | some action =>
          some (0, list ++ [node.stored action
            (by rw [CString.length_strcpy copied, length_memsetAction,
              (heap 1).memoryAlloc_length _ _ found])
            (CString.zero_mem_strcpy copied)])

/-- `device_delete_list_timer`: result and list. -/
def deviceDeleteListTimer (list : List DeviceCommonTimer) (timerId : TimerId) :
    Int × List DeviceCommonTimer :=
  if list.any fun cur => cur.timerId = timerId then
    (0, list.eraseP fun cur => cur.timerId = timerId)
  else
    (-1, list)

/-! ## The record in flash -/

/-- A 16-bit field, high byte first. -/
def be16Bytes (n : UInt16) : List UInt8 := [UInt8.ofNat (n.toNat / 256), UInt8.ofNat n.toNat]

/-- The bytes `device_save_timer_into_flash` writes for one timer. -/
def encodeTimer (t : DeviceCommonTimer) : List UInt8 :=
  be16Bytes t.year ++ [t.month, t.day, t.hour, t.minute, t.week, t.enable] ++ t.timerId.1 ++
    (t.second :: List.replicate 7 0) ++ be16Bytes t.actionLen ++ t.action.take t.actionLen.toNat

/-- The loop of `device_save_timer_into_flash` over the timers left, with the bytes
written so far; `none` is its error exit. -/
def saveTimerLoop : List DeviceCommonTimer → List UInt8 → Option (List UInt8)
  | [], buf => some buf
  | t :: rest, buf =>
    if buf.length + 8 + maxTimerIdLen + 8 + 2 + t.actionLen.toNat > maxTimerDeviceData then
      none
    else if t.actionLen.toNat < maxActionLen then
      saveTimerLoop rest (buf ++ encodeTimer t)
    else
      none

/-- `device_save_timer_into_flash`. The result of `ya_write_flash` is only logged. -/
def deviceSaveTimerIntoFlash (heap : Heap) (list : List DeviceCommonTimer) : FlashProg Int :=
  match (heap 0).memoryAlloc maxTimerDeviceData with
  | none => return -1
  | some _ =>
    match saveTimerLoop list [] with
    | none => return -1
    | some buf =>
      if buf.length > 0 then do
        let _ ← yaWriteFlash (heap 1) yaDeviceTimerAddr buf 2
        return 0
      else do
        let _ ← yaEraseFlash yaDeviceTimerAddr 1
        return 0

/-- A 16-bit field, high byte first. -/
def be16 (buf : List UInt8) (pos : Nat) : UInt16 :=
  (buf.getD pos 0).toUInt16 <<< 8 + (buf.getD (pos + 1) 0).toUInt16

/-- The node `device_read_timer_into_flash` fills from the bytes at `pos`. -/
def nodeAt (buf : List UInt8) (pos : Nat) (id : TimerId) : TimerNode where
  year := be16 buf pos
  month := buf.getD (pos + 2) 0
  day := buf.getD (pos + 3) 0
  hour := buf.getD (pos + 4) 0
  minute := buf.getD (pos + 5) 0
  week := buf.getD (pos + 6) 0
  enable := buf.getD (pos + 7) 0
  timerId := id
  second := buf.getD (pos + 24) 0
  actionLen := be16 buf (pos + 32)
  action := .ofBytes (buf.drop (pos + 34))

/-- `memcpy` of a `timer_id` out of the buffer. -/
def timerIdAt (buf : List UInt8) (pos : Nat) : TimerId :=
  ⟨(List.range maxTimerIdLen).map fun i => buf.getD (pos + 8 + i) 0, by simp⟩

/-- The loop of `device_read_timer_into_flash`. -/
def readTimerLoop (heap : Heap) (buf : List UInt8) (readLen pos : Nat)
    (list : List DeviceCommonTimer) : Option (Int × List DeviceCommonTimer) :=
  if pos < readLen then
    if pos + 16 + maxTimerIdLen + 2 > readLen then
      some (-1, list)
    else
      let node := nodeAt buf pos (timerIdAt buf pos)
      if pos + 34 + node.actionLen.toNat > readLen then
        some (-1, list)
      else if node.actionLen.toNat < maxActionLen then
        match deviceAddListTimer heap list node with
        | none => none
        | some (_, list) =>
          readTimerLoop (heap.skip 2) buf readLen (pos + 34 + node.actionLen.toNat) list
      else
        some (-1, list)
  else
    some (0, list)
termination_by readLen - pos

/-- `device_read_timer_into_flash`, appending to `list`. -/
def deviceReadTimerIntoFlash (heap : Heap) (list : List DeviceCommonTimer) :
    FlashProg (Option (Int × List DeviceCommonTimer)) :=
  match (heap 0).memoryAlloc maxTimerDeviceData with
  | none => return some (-1, list)
  | some _ => do
    match ← yaReadFlashWithVarLen (heap 1) yaDeviceTimerAddr maxTimerDeviceData 2 with
    | none => return some (-1, list)
    | some data =>
      if data.length = 0 then
        return some (-1, list)
      else
        -- the buffer was zeroed before the bytes were read into it
        return readTimerLoop (heap.skip 2)
          (data ++ List.replicate (maxTimerDeviceData - data.length) 0) data.length 0 list

/-! ## Messages -/

/-- Reading a message: a value, the exit `goto err`, or text taken from a `NULL`. -/
inductive Parsed (α : Type)
  | fault
  | err
  | ok (a : α)

instance : Monad Parsed where
  pure := Parsed.ok
  bind
    | .fault, _ => .fault
    | .err, _ => .err
    | .ok a, f => f a

/-- An item that must be there. -/
def requireItem (object : CJson) (name : List UInt8) : Parsed CJson :=
  match object.getObjectItem name with
  | none => .err
  | some value => .ok value

/-- The text of an item. -/
def textOf (item : CJson) : Parsed CString :=
  match item.valuestring with
  | none => .fault
  | some s => .ok s

/-- The text of an item that must be there. -/
def requireText (object : CJson) (name : List UInt8) : Parsed CString := do
  textOf (← requireItem object name)

/-- The text of an item that must be there and not be empty. -/
def requireNonempty (object : CJson) (name : List UInt8) : Parsed CString := do
  let s ← requireText object name
  if s.strlen = 0 then
    .err
  else
    .ok s

/-- `memcpy` of a name into a zeroed `timer_id`. -/
def padTimerId (s : CString) (short : s.strlen < maxTimerIdLen) : TimerId :=
  ⟨s.1 ++ List.replicate (maxTimerIdLen - s.strlen) 0, by
    have : s.1.length = s.strlen := rfl
    rw [List.length_append, List.length_replicate]
    omega⟩

/-- The identifier of a message item. -/
def itemTimerId (item : CJson) : Parsed TimerId := do
  let s ← requireText item (CString.ascii ['i', 'd'])
  if short : s.strlen < maxTimerIdLen then
    .ok (padTimerId s short)
  else
    .err

/-- The week mask: bit `i` for the digit `i + 1` anywhere in the text. -/
def weekMask (s : CString) : UInt8 :=
  (List.range 7).foldl
    (fun week i => if UInt8.ofNat (0x31 + i) ∈ s.1 then week + UInt8.ofNat (2 ^ i) else week) 0

/-- The second of an item: `0` without a text for it. -/
def itemSecond (timer : CJson) : Parsed UInt8 :=
  match timer.getObjectItem (CString.ascii ['s', 'e', 'c', 'o', 'n', 'd']) with
  | none => .ok 0
  | some value => do
    let s ← textOf value
    .ok (if s.strlen = 0 then 0 else toU8 s.atoi)

/-- Year, month and day of an item: zero for a text of less than eight bytes. -/
def itemDate (timer : CJson) : Parsed (UInt16 × UInt8 × UInt8) := do
  let date ← requireText timer (CString.ascii ['d', 'a', 't', 'e'])
  if date.strlen ≥ 8 then
    match date.sscanfDate with
    | none => .err
    | some (p1, p2, p3) => .ok (toU16 p1, toU8 p2, toU8 p3)
  else
    .ok (0, 0, 0)

/-- `cJSON_PrintUnformatted`, with memory for its text. -/
abbrev Printer := CJson → CString

/-- The part of `device_handle_cloud_timer` between the deletion of the old entry and
`device_add_list_timer`: everything but the identifier. -/
def itemNode (print : Printer) (item : CJson) (id : TimerId) : Parsed TimerNode := do
  let enable ← requireText item (CString.ascii ['e', 'n', 'a', 'b', 'l', 'e'])
  let timer ← requireItem item (CString.ascii ['t', 'i', 'm', 'e', 'r'])
  let week ← requireText timer (CString.ascii ['w', 'e', 'e', 'k'])
  let hour ← requireNonempty timer (CString.ascii ['h', 'o', 'u', 'r'])
  let minute ← requireNonempty timer (CString.ascii ['m', 'i', 'n', 'u', 't', 'e'])
  let second ← itemSecond timer
  let (year, month, day) ← itemDate timer
  let cmd ← requireItem item (CString.ascii ['c', 'm', 'd'])
  if (print cmd).strlen ≥ maxActionLen then
    .err
  else
    .ok {
      year, month, day
      hour := toU8 hour.atoi
      minute := toU8 minute.atoi
      second
      week := weekMask week
      -- `value` is unsigned: a negative number enables the timer as well
      enable := if enable.atoi = 0 then 0 else 1
      timerId := id
      action := print cmd
      actionLen := UInt16.ofNat (print cmd).strlen }

/-- A phase of `device_handle_cloud_timer`: `none` for a fault, otherwise whether it went
through (`false`: `goto err`) and the list. -/
abbrev Phase := Option (Bool × List DeviceCommonTimer)

/-- One item of `add` or `update`. -/
def handlePutItem (print : Printer) (heap : Heap) (item : CJson)
    (list : List DeviceCommonTimer) : Phase :=
  match itemTimerId item with
  | .fault => none
  | .err => some (false, list)
  | .ok id =>
    -- an entry of that name goes before the rest of the item is looked at
    let list := (deviceDeleteListTimer list id).2
    match itemNode print item id with
    | .fault => none
    | .err => some (false, list)
    | .ok node =>
      match deviceAddListTimer heap list node with
      | none => none
      | some (ret, list) => some (decide (ret = 0), list)

/-- The loop over the items of `add` and `update`; two allocations each. -/
def handlePutItems (print : Printer) (heap : Heap) :
    List CJson → List DeviceCommonTimer → Phase
  | [], list => some (true, list)
  | item :: items, list =>
    match handlePutItem print heap item list with
    | some (true, list) => handlePutItems print (heap.skip 2) items list
    | result => result

/-- The loop over the items of `delete`. -/
def handleDeleteItems : List CJson → List DeviceCommonTimer → Phase
  | [], list => some (true, list)
  | item :: items, list =>
    match itemTimerId item with
    | .fault => none
    | .err => some (false, list)
    | .ok id => handleDeleteItems items (deviceDeleteListTimer list id).2

/-- The items of a member of the message; their number is kept in a `uint16_t`. -/
def messageItems (root : CJson) (name : List UInt8) : List CJson :=
  match root.getObjectItem name with
  | none => []
  | some array => array.children.take (array.children.length % 2 ^ 16)

/-- The items of `add`, then those of `update`. -/
def putItems (root : CJson) : List CJson :=
  messageItems root (CString.ascii ['a', 'd', 'd']) ++
    messageItems root (CString.ascii ['u', 'p', 'd', 'a', 't', 'e'])

/-- The items of `delete`. -/
def deleteItems (root : CJson) : List CJson :=
  messageItems root (CString.ascii ['d', 'e', 'l', 'e', 't', 'e'])

/-- Whether the message has a member `deleteAll`. -/
def deletesAll (root : CJson) : Bool :=
  (root.getObjectItem (CString.ascii ['d', 'e', 'l', 'e', 't', 'e', 'A', 'l', 'l'])).isSome

/-- `save_enable`: some item was handled. -/
def saveEnable (root : CJson) : Bool :=
  !(putItems root).isEmpty || !(deleteItems root).isEmpty || deletesAll root

/-- What `device_handle_cloud_timer` does to the list before it saves. -/
def handleItems (print : Printer) (heap : Heap) (root : CJson)
    (list : List DeviceCommonTimer) : Phase :=
  match handlePutItems print heap (putItems root) list with
  | some (true, list) =>
    match handleDeleteItems (deleteItems root) list with
    | some (true, list) => some (true, if deletesAll root then [] else list)
    | result => result
  | result => result

/-- `device_handle_cloud_timer` on the tree `cJSON_Parse` returned (`none` for `NULL`):
result and list, with the flash operations of the save at its end. -/
def deviceHandleCloudTimer (print : Printer) (heap : Heap) (root : Option CJson)
    (list : List DeviceCommonTimer) : FlashProg (Option (Int × List DeviceCommonTimer)) :=
  match root with
  | none => return some (-1, list)
  | some root =>
    match handleItems print heap root list with
    | none => return none
    | some (false, list) => return some (-1, list)
    | some (true, list) =>
      if saveEnable root then do
        let _ ← deviceSaveTimerIntoFlash (heap.skip (2 * (putItems root).length)) list
        return some (0, list)
      else
        return some (0, list)

end Tr6260
