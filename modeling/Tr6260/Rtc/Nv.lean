import Tr6260.LittleEndian
import Tr6260.Rtc.ListInvariant

/-!
# The timers in the NV

A timer is saved as it lies in memory: the fields of `rtc_timer_t`, packed, and its links. What is
kept of it is the image of the fields; the links are made anew. The number of timers is saved as a
text under a key of its own.
-/

namespace Tr6260

namespace Rtc

/-! ## Timers in memory -/

/-- The fields of a packed `rtc_timer_t` in front of its links. -/
def imageSize : Nat := 54

/-- `sizeof (rtc_timer_t)`. -/
def recordSize : Nat := imageSize + 8

/-- The bytes of a timer's fields. -/
abbrev TimerImage := { bytes : List UInt8 // bytes.length = imageSize }

/-- A number in an image. -/
def TimerImage.field (image : TimerImage) (offset width : Nat) : Nat :=
  ByteMem.leNat ((image.1.drop offset).take width)

/-- The timer of an image. The name is in front of these fields, the parameter among them. -/
def TimerImage.timer (image : TimerImage) : RtcTimer where
  timeout := image.field 10 4 ≠ 0
  type := match image.field 18 4 with
    | 0 => .countDown
    | 1 => .targetDay
    | _ => .targetMonth
  flag := match image.field 22 4 with
    | 0 => .oneShot
    | _ => .periodic
  status := match image.field 26 4 with
    | 0 => .inactive
    | 1 => .ready
    | 2 => .running
    | 3 => .stop
    | _ => .suspend
  setDateRemain := image.field 30 8
  setDate := image.field 38 8
  aimDate := image.field 46 8

/-- The timers with the images of their fields. -/
structure TimerMemory where
  rtc : RtcState
  image : TimerPtr → TimerImage
  shows : ∀ timer, rtc.timers timer = (image timer).timer

/-- The links are changed. -/
def TimerMemory.relink (m : TimerMemory) (rtc : RtcState) (same : rtc.timers = m.rtc.timers) :
    TimerMemory where
  rtc
  image := m.image
  shows timer := by
    rw [same]
    exact m.shows timer

/-- A timer becomes `TimerListHead`. -/
def TimerMemory.setHead (m : TimerMemory) (timer : TimerPtr) : TimerMemory :=
  m.relink { m.rtc with timerListHead := some timer } rfl

/-- The bytes of a timer. -/
def timerBytes (m : TimerMemory) (timer : TimerPtr) : List UInt8 :=
  (m.image timer).1 ++ ByteMem.leBytes 4 (m.rtc.next timer) ++ ByteMem.leBytes 4 (m.rtc.prev timer)

/-- The image at the start of some bytes. -/
def imageAt (bytes : List UInt8) : TimerImage :=
  ⟨(bytes ++ .replicate imageSize 0).take imageSize, by
    rw [List.length_take, List.length_append, List.length_replicate]
    omega⟩

/-- A block with the fields of an image, after `rt_list_init`. -/
def TimerMemory.place (m : TimerMemory) (timer : TimerPtr) (image : TimerImage) : TimerMemory where
  rtc := rtListInit
    { m.rtc with
      timers := Function.update m.rtc.timers timer image.timer
      live := timer :: m.rtc.live } timer
  image := Function.update m.image timer image
  shows other := by
    by_cases same : other = timer
    · subst same
      change Function.update m.rtc.timers other image.timer other = _
      rw [Function.update_self, Function.update_self]
    · change Function.update m.rtc.timers timer image.timer other = _
      rw [Function.update_of_ne same, Function.update_of_ne same, m.shows]

/-! ## The store and the heap -/

/-- What is stored under `RTC_TIMER_LIST_LEN` and `RTC_TIMER_LIST`. -/
structure TimerNv where
  timerListLen : List UInt8
  timerList : List UInt8

/-- What `pvPortMalloc` gives: whether there is an array of a size, and the blocks for timers. -/
structure Heap where
  array : Nat → Bool
  blocks : List TimerPtr

/-- An array is allocated and cleared with `memset`. Without memory the clearing goes to `NULL`. -/
def Heap.clears (heap : Heap) (size : Nat) : Bool := size = 0 || heap.array size

/-! ## Save -/

/-- `snprintf (.., "%d", length)`. -/
def lengthText (length : Nat) : List UInt8 := CString.ascii (Nat.toDigits 10 length)

/-- What is stored of the text: `retlen - 1` bytes of `nv_str`. -/
def storedText (length : Nat) : List UInt8 :=
  ((lengthText length).take 7 ++ [0]).take ((lengthText length).length - 1)

/-- The loop of `rtc_timer_list_nv_save` from `cur` on. -/
def saveLoop (m : TimerMemory) : (left : Nat) → (cur : TimerPtr) → List UInt8
  | 0, _ => []
  | left + 1, cur => timerBytes m cur ++ saveLoop m left (m.rtc.next cur)

/-- `rtc_timer_list_nv_save`. -/
def rtcTimerListNvSave (heap : Heap) (m : TimerMemory) : Option TimerNv :=
  match m.rtc.timerListHead with
  | none => some { timerListLen := storedText 0, timerList := [] }
  | some head => do
    let length ← rtListLen m.rtc head m.rtc.live.length head
    if heap.clears (recordSize * length) then
      some { timerListLen := storedText length, timerList := saveLoop m length head }
    else
      none

/-! ## Read -/

/-- `len` of `rtc_timer_list_nv_read`: the number in `nv_str`, which is not initialised, so that
behind the bytes that are read lie those of the stack. -/
def readLen (nv : TimerNv) (stack : List UInt8) : Int :=
  let text := nv.timerListLen.take 8
  CString.atoi (.ofBytes (text ++ stack.drop text.length))

/-- A new timer is linked in: the first one becomes the head, the others are put in front of it. -/
def linkTimer (m : TimerMemory) (i : Nat) (newtimer : TimerPtr) : Option TimerMemory :=
  if i = 0 then
    some (m.setHead newtimer)
  else
    m.rtc.timerListHead.map fun head => m.relink (rtListInsertBefore m.rtc head newtimer) rfl

/-- The loop of `rtc_timer_list_nv_read` from record `i` on, which lies at `start`. -/
def readLoop : (left i : Nat) → (start : List UInt8) → (blocks : List TimerPtr) → TimerMemory →
    Option TimerMemory
  | 0, _, _, _, m => some m
  | _ + 1, _, _, [], _ => none
  | left + 1, i, start, newtimer :: blocks, m =>
    if recordSize ≤ start.length then
      (linkTimer (m.place newtimer (imageAt start)) i newtimer).bind
        (readLoop left (i + 1) (start.drop recordSize) blocks)
    else
      -- behind the end of the array
      none

/-- The array after `memset` and the copy of what is stored. -/
def readArray (nv : TimerNv) (size : Nat) : List UInt8 :=
  nv.timerList.take size ++ .replicate (size - nv.timerList.length) 0

/-- `rtc_timer_list_nv_read`. -/
def rtcTimerListNvRead (heap : Heap) (nv : TimerNv) (stack : List UInt8) (m : TimerMemory) :
    Option TimerMemory :=
  let len := readLen nv stack
  if len = 0 then
    some m
  else
    let size := toU32 (recordSize * len)
    if heap.clears size then
      let start := readArray nv size
      if len = 1 then
        -- the array becomes the timer
        match heap.blocks with
        | [] => none
        | timer :: _ => some ((m.place timer (imageAt start)).setHead timer)
      else
        readLoop len.toNat 0 start heap.blocks m
    else
      none

end Rtc

end Tr6260
