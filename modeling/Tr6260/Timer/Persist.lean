import Tr6260.Timer.Model

/-!
# Saving the timer list and reading it back

`device_save_timer_into_flash` stores `action_len` bytes of each action with that
length; `device_add_list_timer`, which the reader calls for every stored entry,
sets the length of the new entry one higher. A timer therefore never comes back
from a reboot with the `action_len` it had, and the list that comes back is
never the list that was saved unless it was empty.
-/

namespace Tr6260

open FlashProg ByteMem

/-! ## Encoding -/

theorem be16_be16Bytes (n : UInt16) (front rest : List UInt8) :
    be16 (front ++ be16Bytes n ++ rest) front.length = n := by
  have hi : (front ++ be16Bytes n ++ rest).getD front.length 0 = UInt8.ofNat (n.toNat / 256) := by
    simp [be16Bytes, List.getD_eq_getElem?_getD]
  have lo : (front ++ be16Bytes n ++ rest).getD (front.length + 1) 0 = UInt8.ofNat n.toNat := by
    simp [be16Bytes, List.getD_eq_getElem?_getD]
  rw [be16, hi, lo]
  apply UInt16.toNat_inj.mp
  have bound := n.toNat_lt
  simp only [UInt16.toNat_add, UInt16.toNat_shiftLeft, UInt8.toNat_toUInt16, UInt8.toNat_ofNat',
    Nat.shiftLeft_eq]
  rw [show UInt16.toNat 8 % 16 = 8 from rfl]
  omega

/-- The fixed part of an encoded timer in front of its length. -/
def encodeFront (t : DeviceCommonTimer) : List UInt8 :=
  be16Bytes t.year ++ [t.month, t.day, t.hour, t.minute, t.week, t.enable] ++ t.timerId.1 ++
    (t.second :: List.replicate 7 0)

theorem length_encodeFront (t : DeviceCommonTimer) : (encodeFront t).length = 32 := by
  have id := t.timerId.2
  unfold maxTimerIdLen at id
  simp only [encodeFront, be16Bytes, List.length_append, List.length_cons, List.length_nil,
    List.length_replicate, id]

theorem encodeTimer_eq (t : DeviceCommonTimer) :
    encodeTimer t = encodeFront t ++ be16Bytes t.actionLen ++ t.action.take t.actionLen.toNat :=
  rfl

theorem length_encodeTimer (t : DeviceCommonTimer) :
    (encodeTimer t).length = 34 + t.actionLen.toNat := by
  rw [encodeTimer_eq, List.length_append, List.length_append, length_encodeFront,
    List.length_take, Nat.min_eq_left t.holds]
  rfl

/-- The bytes of a whole list. -/
def encodeTimers (list : List DeviceCommonTimer) : List UInt8 := (list.map encodeTimer).flatten

theorem encodeTimers_cons (t : DeviceCommonTimer) (rest : List DeviceCommonTimer) :
    encodeTimers (t :: rest) = encodeTimer t ++ encodeTimers rest := rfl

theorem encodeTimers_eq_nil {list : List DeviceCommonTimer} :
    encodeTimers list = [] ↔ list = [] := by
  constructor
  · intro empty
    cases list with
    | nil => rfl
    | cons t rest =>
      have len := congrArg List.length empty
      rw [encodeTimers_cons, List.length_append, length_encodeTimer, List.length_nil] at len
      omega
  · rintro rfl
    rfl

/-- What the save accepts: short actions that fit the buffer together. -/
def Saveable (list : List DeviceCommonTimer) : Prop :=
  (∀ t ∈ list, t.actionLen.toNat < maxActionLen) ∧
    (encodeTimers list).length ≤ maxTimerDeviceData

theorem saveTimerLoop_of_saveable {list : List DeviceCommonTimer} {buf : List UInt8}
    (short : ∀ t ∈ list, t.actionLen.toNat < maxActionLen)
    (fits : (buf ++ encodeTimers list).length ≤ maxTimerDeviceData) :
    saveTimerLoop list buf = some (buf ++ encodeTimers list) := by
  induction list generalizing buf with
  | nil => rw [saveTimerLoop, encodeTimers, List.map_nil, List.flatten_nil, List.append_nil]
  | cons t rest ih =>
    have here := short t List.mem_cons_self
    rw [encodeTimers_cons, ← List.append_assoc] at fits ⊢
    have room := fits
    rw [List.length_append, List.length_append, length_encodeTimer] at room
    rw [saveTimerLoop, if_neg (by unfold maxTimerIdLen; omega), if_pos here,
      ih (fun u mem => short u (List.mem_cons_of_mem _ mem)) fits]

theorem saveTimerLoop_eq_some {list : List DeviceCommonTimer} {buf out : List UInt8}
    (start : buf.length ≤ maxTimerDeviceData) (done : saveTimerLoop list buf = some out) :
    out = buf ++ encodeTimers list ∧ (∀ t ∈ list, t.actionLen.toNat < maxActionLen) ∧
      out.length ≤ maxTimerDeviceData := by
  induction list generalizing buf with
  | nil =>
    cases done
    exact ⟨(List.append_nil _).symm, by simp, start⟩
  | cons t rest ih =>
    rw [saveTimerLoop] at done
    split at done
    next => cases done
    next room =>
    split at done
    next here =>
      obtain ⟨rfl, short, fits⟩ := ih (by
        rw [List.length_append, length_encodeTimer]
        unfold maxTimerIdLen at room
        omega) done
      refine ⟨by rw [encodeTimers_cons, List.append_assoc], fun u mem => ?_, fits⟩
      rcases List.mem_cons.mp mem with rfl | later
      · exact here
      · exact short u later
    next => cases done

/-- The save loop gives the bytes of a saveable list, and its error exit otherwise. -/
theorem saveTimerLoop_nil_buf (list : List DeviceCommonTimer) :
    (Saveable list ∧ saveTimerLoop list [] = some (encodeTimers list)) ∨
      (¬ Saveable list ∧ saveTimerLoop list [] = none) := by
  cases done : saveTimerLoop list [] with
  | some out =>
    obtain ⟨rfl, short, fits⟩ := saveTimerLoop_eq_some (Nat.zero_le _) done
    exact .inl ⟨⟨short, fits⟩, rfl⟩
  | none =>
    refine .inr ⟨fun saveable => ?_, rfl⟩
    rw [saveTimerLoop_of_saveable saveable.1 saveable.2] at done
    cases done

/-! ## The record after a save -/

/-- The timer record in flash: the bytes of the list, or no record for the empty list. -/
def TimerRecord (m : ByteMem) (list : List DeviceCommonTimer) : Prop :=
  if list = [] then m yaDeviceTimerAddr ≠ 0xAA
  else RecordAt m yaDeviceTimerAddr (encodeTimers list)

theorem timerAddr_aligned : yaDeviceTimerAddr % spiflashSectorSize = 0 := by decide

/-- A save with memory available: the record of a saveable list, nothing otherwise. -/
theorem deviceSaveTimerIntoFlash_run {heap : Heap} (alloc : heap.AllocOk)
    (list : List DeviceCommonTimer) (m : ByteMem) :
    (Saveable list ∧ TimerRecord ((deviceSaveTimerIntoFlash heap list).run m).2 list) ∨
      (¬ Saveable list ∧ (deviceSaveTimerIntoFlash heap list).run m = (-1, m)) := by
  obtain ⟨block, found, -⟩ := (alloc 0).block maxTimerDeviceData
  unfold deviceSaveTimerIntoFlash
  rw [found]
  rcases saveTimerLoop_nil_buf list with ⟨saveable, loop⟩ | ⟨refused, loop⟩
  · refine .inl ⟨saveable, ?_⟩
    rw [loop]
    dsimp only
    by_cases empty : list = []
    · subst empty
      rw [if_neg (by decide), run_bind, yaEraseFlash_run timerAddr_aligned, TimerRecord,
        if_pos rfl]
      have blank := erase_erased m yaDeviceTimerAddr (sectorCount 1 * spiflashSectorSize)
        yaDeviceTimerAddr (Nat.le_refl _) (by decide)
      rw [run_pure]
      dsimp only
      rw [blank]
      decide
    · have nonempty : encodeTimers list ≠ [] := fun none => empty (encodeTimers_eq_nil.mp none)
      have pos : 0 < (encodeTimers list).length := List.length_pos_iff.mpr nonempty
      have fits := saveable.2
      unfold maxTimerDeviceData at fits
      obtain ⟨m', written, stored, -⟩ := yaWriteFlash_run (alloc 1) timerAddr_aligned
        (show (2 : UInt8) ≠ 0 by decide) (by omega) (Nat.le_trans fits (by decide)) (by omega) m
      rw [if_pos pos, run_bind, written, TimerRecord, if_neg empty]
      exact stored
  · refine .inr ⟨refused, ?_⟩
    rw [loop]
    rfl

/-! ## Reading back -/

/-- The reader only appends. -/
theorem deviceAddListTimer_extends {heap : Heap} {list list' : List DeviceCommonTimer}
    {node : TimerNode} {ret : Int} (added : deviceAddListTimer heap list node = some (ret, list')) :
    list <+: list' := by
  unfold deviceAddListTimer at added
  split at added
  · cases added
    exact List.prefix_refl _
  split at added
  · cases added
    exact List.prefix_refl _
  split at added
  · cases added
    exact List.prefix_refl _
  split at added
  · cases added
    exact List.prefix_refl _
  split at added
  · cases added
  · cases added
    exact List.prefix_append _ _

theorem readTimerLoop_extends {buf : List UInt8} {readLen : Nat} {heap : Heap} {pos : Nat}
    {list list' : List DeviceCommonTimer} {ret : Int}
    (done : readTimerLoop heap buf readLen pos list = some (ret, list')) : list <+: list' := by
  fun_induction readTimerLoop heap buf readLen pos list with
  | case1 | case2 | case5 | case6 =>
    cases done
    exact List.prefix_refl _
  | case3 => cases done
  | case4 heap pos list _ _ _ _ _ ret' grown added ih =>
    exact (deviceAddListTimer_extends added).trans (ih done)

/-- Adding to the empty list. -/
theorem deviceAddListTimer_nil {heap : Heap} (alloc : heap.AllocOk)
    {list' : List DeviceCommonTimer} {node : TimerNode} {ret : Int}
    (added : deviceAddListTimer heap [] node = some (ret, list')) :
    ∃ t', list' = [t'] ∧ t'.actionLen = node.actionLen + 1 := by
  unfold deviceAddListTimer at added
  rw [if_neg (by simp), if_neg (by decide)] at added
  split at added
  next refused =>
    obtain ⟨block, found, -⟩ := (alloc 0).block sizeofTimer
    rw [found] at refused
    cases refused
  next =>
  split at added
  next refused =>
    obtain ⟨block, found, -⟩ := (alloc 1).block (node.actionLen.toNat + 1)
    rw [found] at refused
    cases refused
  next =>
  split at added
  · cases added
  · cases added
    exact ⟨_, rfl, rfl⟩

/-- The first timer read into an empty list, if any, is the first one in the buffer,
with a length one higher. -/
theorem readTimerLoop_head {heap : Heap} (alloc : heap.AllocOk) {buf : List UInt8}
    {readLen : Nat} {ret : Int}
    {list' : List DeviceCommonTimer}
    (done : readTimerLoop heap buf readLen 0 [] = some (ret, list')) :
    list' = [] ∨ ∃ t' rest, list' = t' :: rest ∧ t'.actionLen = be16 buf 32 + 1 := by
  rw [readTimerLoop] at done
  split at done
  next =>
    split at done
    next => cases done; exact .inl rfl
    next =>
    dsimp only at done
    split at done
    next => cases done; exact .inl rfl
    next =>
    split at done
    next =>
      split at done
      next => cases done
      next ret' list added =>
        obtain ⟨rest, rfl⟩ := readTimerLoop_extends done
        obtain ⟨t', rfl, len⟩ := deviceAddListTimer_nil alloc added
        exact .inr ⟨t', rest, rfl, len⟩
    next => cases done; exact .inl rfl
  next => cases done; exact .inl rfl

/-- Reading without a record leaves the list alone. -/
theorem deviceReadTimerIntoFlash_no_record {heap : Heap} {m : ByteMem}
    (magic : m yaDeviceTimerAddr ≠ 0xAA) (list : List DeviceCommonTimer) :
    (deviceReadTimerIntoFlash heap list).run m = (some (-1, list), m) := by
  unfold deviceReadTimerIntoFlash
  split
  next => rfl
  next =>
    rw [run_bind, yaReadFlashWithVarLen, readFlashRecord_no_magic _ _ _ _ magic]
    rfl

/-- The first timer read from the record of a list that begins with `t`. -/
theorem deviceReadTimerIntoFlash_head {heap : Heap} (alloc : heap.AllocOk) {m : ByteMem}
    {t : DeviceCommonTimer} {rest : List DeviceCommonTimer}
    (saveable : Saveable (t :: rest)) (record : TimerRecord m (t :: rest)) {ret : Int}
    {list' : List DeviceCommonTimer}
    (done : ((deviceReadTimerIntoFlash heap []).run m).1 = some (ret, list')) :
    list' = [] ∨ ∃ t' rest', list' = t' :: rest' ∧ t'.actionLen = t.actionLen + 1 := by
  have fits := saveable.2
  have small : maxTimerDeviceData < 65532 := by decide
  have stored : RecordAt m yaDeviceTimerAddr (encodeTimers (t :: rest)) := by
    simpa [TimerRecord] using record
  obtain ⟨block, found, -⟩ := (alloc 0).block maxTimerDeviceData
  unfold deviceReadTimerIntoFlash at done
  rw [found] at done
  dsimp only at done
  have read := yaReadFlashWithVarLen_run (alloc 1) stored (by omega)
    (show (2 : UInt8) ≠ 0 by decide) (show maxTimerDeviceData ≠ 0 by decide) (by decide) fits
  rw [run_bind, read] at done
  dsimp only at done
  by_cases readable : (encodeTimers (t :: rest)).length ≤ maxDataLen - 10
  · rw [if_pos readable] at done
    dsimp only at done
    have nonempty : (encodeTimers (t :: rest)).length ≠ 0 := by
      rw [encodeTimers_cons, List.length_append, length_encodeTimer]
      omega
    rw [if_neg nonempty] at done
    have head := readTimerLoop_head (fun k => alloc (2 + k)) done
    rwa [encodeTimers_cons, encodeTimer_eq, List.append_assoc, List.append_assoc,
      ← length_encodeFront t, be16_be16Bytes] at head
  · rw [if_neg readable] at done
    cases done
    exact .inl rfl

/-! ## Reboots -/

/-- What a reboot has to preserve: everything but the trigger counter and the
bytes behind the text. -/
def DeviceCommonTimer.view (t : DeviceCommonTimer) : TimerSetting × CString × UInt16 :=
  (t.toTimerSetting, t.text, t.actionLen)

/-- A save, and the read into an empty list after the restart. -/
def reboot (saving reading : Heap) (list : List DeviceCommonTimer) :
    FlashProg (Option (List DeviceCommonTimer)) := do
  let _ ← deviceSaveTimerIntoFlash saving list
  let result ← deviceReadTimerIntoFlash reading []
  return result.map Prod.snd

/-- `n` reboots, each with its own allocations. -/
def reboots (heaps : Nat → Heap × Heap) :
    Nat → List DeviceCommonTimer → FlashProg (Option (List DeviceCommonTimer))
  | 0, list => return some list
  | n + 1, list => do
    match ← reboots heaps n list with
    | none => return none
    | some list => reboot (heaps n).1 (heaps n).2 list

/-- Any number of reboots restores the list, whatever the flash held before, as long as
memory is available. -/
def SurvivesReboots (list : List DeviceCommonTimer) : Prop :=
  ∀ (heaps : Nat → Heap × Heap), (∀ n, (heaps n).1.AllocOk ∧ (heaps n).2.AllocOk) →
    ∀ (n : Nat) (m : ByteMem),
      ((reboots heaps n list).run m).1.map (List.map DeviceCommonTimer.view) =
        some (list.map DeviceCommonTimer.view)

theorem reboot_nil {saving reading : Heap} (alloc : saving.AllocOk) (m : ByteMem) :
    ((reboot saving reading []).run m).1 = some [] := by
  have saved : Saveable [] := ⟨by simp, by simp [encodeTimers]⟩
  rcases deviceSaveTimerIntoFlash_run alloc [] m with ⟨-, record⟩ | ⟨refused, -⟩
  · rw [TimerRecord, if_pos rfl] at record
    rw [reboot, run_bind, run_bind, deviceReadTimerIntoFlash_no_record record]
    rfl
  · exact absurd saved refused

theorem reboots_nil {heaps : Nat → Heap × Heap} (alloc : ∀ n, (heaps n).1.AllocOk) (n : Nat)
    (m : ByteMem) : ((reboots heaps n []).run m).1 = some [] := by
  induction n with
  | zero => rfl
  | succ n ih =>
    rw [reboots, run_bind, ih]
    exact reboot_nil (alloc n) _

/-- One reboot from a chip without a timer record never gives a non-empty list back. -/
theorem reboot_cons {saving reading : Heap} (alloc : saving.AllocOk) (alloc' : reading.AllocOk)
    {m : ByteMem} (magic : m yaDeviceTimerAddr ≠ 0xAA) (t : DeviceCommonTimer)
    (rest : List DeviceCommonTimer) {list' : List DeviceCommonTimer}
    (done : ((reboot saving reading (t :: rest)).run m).1 = some list') :
    list' = [] ∨ ∃ t' rest', list' = t' :: rest' ∧ t'.actionLen = t.actionLen + 1 := by
  rw [reboot, run_bind, run_bind] at done
  obtain ⟨⟨ret, list⟩, read, rfl⟩ := Option.map_eq_some_iff.mp done
  rcases deviceSaveTimerIntoFlash_run alloc (t :: rest) m with ⟨saveable, record⟩ | ⟨-, kept⟩
  · exact deviceReadTimerIntoFlash_head alloc' saveable record read
  · rw [kept, deviceReadTimerIntoFlash_no_record magic] at read
    cases read
    exact .inl rfl

/-- A first timer comes back with another length, or not at all. -/
theorem not_survivesReboots_cons (t : DeviceCommonTimer) (rest : List DeviceCommonTimer) :
    ¬ SurvivesReboots (t :: rest) := by
  intro survives
  have zeroed : Heap.AllocOk fun _ => Board.zeroed := fun _ => Board.zeroed_allocOk
  have once := survives (fun _ => (fun _ => Board.zeroed, fun _ => Board.zeroed))
    (fun _ => ⟨zeroed, zeroed⟩) 1 fun _ => 0xFF
  obtain ⟨list', done, same⟩ := Option.map_eq_some_iff.mp once
  rcases reboot_cons zeroed zeroed (by decide) t rest done with rfl | ⟨t', rest', rfl, longer⟩
  · cases same
  · have head := (List.cons.inj same).1
    have lens : t'.actionLen = t.actionLen := congrArg (fun v => v.2.2) head
    rw [longer] at lens
    exact absurd lens (by simp)

/-- The empty list is the only one that survives reboots. -/
theorem timerList_survivesReboots_iff (list : List DeviceCommonTimer) :
    SurvivesReboots list ↔ list = [] := by
  constructor
  · intro survives
    cases list with
    | nil => rfl
    | cons t rest => exact absurd survives (not_survivesReboots_cons t rest)
  · rintro rfl heaps alloc n m
    rw [reboots_nil (fun n => (alloc n).1) n m]
    rfl

/-- The lists that messages build from the empty one. -/
inductive TimerReach (print : Printer) : List DeviceCommonTimer → Prop
  | empty : TimerReach print []
  | message {list list' : List DeviceCommonTimer} {ret : Int} (before : TimerReach print list)
      (heap : Heap) (root : Option CJson) (m : ByteMem)
      (handled : ((deviceHandleCloudTimer print heap root list).run m).1 = some (ret, list')) :
      TimerReach print list'

/-- The list a message leaves does not depend on the flash. -/
theorem deviceHandleCloudTimer_result (print : Printer) (heap : Heap) (root : CJson)
    (list : List DeviceCommonTimer) (m : ByteMem) :
    ((deviceHandleCloudTimer print heap (some root) list).run m).1 =
      (handleItems print heap root list).map fun (passed, list) =>
        (if passed then 0 else -1, list) := by
  unfold deviceHandleCloudTimer
  dsimp only
  cases handleItems print heap root list with
  | none => rfl
  | some outcome =>
    obtain ⟨passed, list'⟩ := outcome
    cases passed with
    | false => rfl
    | true =>
      dsimp only
      split
      · rw [run_bind, run_pure]
        rfl
      · rfl

/-- `{"add":[{"id":"1","enable":"1","timer":{"week":"1","hour":"8","minute":"30",
"date":""},"cmd":1}]}`. -/
def addOneMessage : CJson :=
  .object [(.lit ['a', 'd', 'd'], .array [.object [
    (.lit ['i', 'd'], .string (.lit ['1'])),
    (.lit ['e', 'n', 'a', 'b', 'l', 'e'], .string (.lit ['1'])),
    (.lit ['t', 'i', 'm', 'e', 'r'], .object [
      (.lit ['w', 'e', 'e', 'k'], .string (.lit ['1'])),
      (.lit ['h', 'o', 'u', 'r'], .string (.lit ['8'])),
      (.lit ['m', 'i', 'n', 'u', 't', 'e'], .string (.lit ['3', '0'])),
      (.lit ['d', 'a', 't', 'e'], .string (.lit []))]),
    (.lit ['c', 'm', 'd'], .number (CString.ascii ['1']))]])]

/-- A list with the one timer of `addOneMessage` is reachable and does not survive. -/
theorem timerList_one_not_survivesReboots :
    ∃ list, TimerReach (fun _ => .lit ['1']) list ∧ list.length = 1 ∧ ¬ SurvivesReboots list := by
  have handled : ∃ t, handleItems (fun _ => .lit ['1']) (fun _ => Board.zeroed)
      addOneMessage [] = some (true, [t]) := ⟨_, rfl⟩
  obtain ⟨t, handled⟩ := handled
  have added : ((deviceHandleCloudTimer (fun _ => .lit ['1']) (fun _ => Board.zeroed)
      (some addOneMessage) []).run fun _ => 0xFF).1 = some (0, [t]) := by
    rw [deviceHandleCloudTimer_result, handled]
    rfl
  exact ⟨[t], .message .empty _ _ _ added, rfl, not_survivesReboots_cons t []⟩

end Tr6260
