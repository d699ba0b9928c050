import Mathlib.Data.List.Perm.Subperm
import Tr6260.Rtc.Nv

/-!
# A restart of the timers

Save writes the images of the timers in the order of the ring, and read links new timers with these
images in the same order, if it finds their number.
-/

namespace Tr6260

namespace Rtc

/-! ## Save -/

section Save

variable {m : TimerMemory} {p b head : TimerPtr} {rest ring : List TimerPtr}

theorem length_timerBytes (m : TimerMemory) (timer : TimerPtr) :
    (timerBytes m timer).length = recordSize := by
  rw [timerBytes, List.length_append, List.length_append, (m.image timer).2,
    ByteMem.length_leBytes, ByteMem.length_leBytes]
  rfl

/-- The length of a ring, counted from one of its timers on. -/
theorem rtListLen_run {s : RtcState} {fuel : Nat} (path : LinkPath s.next s.prev p rest head)
    (before : head ∉ rest) (enough : rest.length < fuel) :
    rtListLen s head fuel p = some (rest.length + 1) := by
  induction rest generalizing p fuel with
  | nil =>
    cases fuel with
    | zero => cases enough
    | succ fuel => rw [rtListLen, if_pos path.1, List.length_nil]
  | cons x rest ih =>
    cases fuel with
    | zero => cases enough
    | succ fuel =>
      have to_ : s.next p = x := path.1.1
      have notHead : s.next p ≠ head := fun same =>
        before (same ▸ to_ ▸ List.mem_cons_self)
      rw [rtListLen, if_neg notHead, to_, ih path.2 (fun inside => before (List.mem_cons_of_mem _ inside))
        (Nat.lt_of_succ_lt_succ enough)]
      rfl

/-- The loop passes the timers of the ring. -/
theorem saveLoop_run (path : LinkPath m.rtc.next m.rtc.prev p rest b) :
    saveLoop m (rest.length + 1) p = (p :: rest).flatMap (timerBytes m) := by
  induction rest generalizing p with
  | nil => rw [List.length_nil, saveLoop, saveLoop, List.flatMap_cons, List.flatMap_nil]
  | cons x rest ih =>
    have to_ : m.rtc.next p = x := path.1.1
    rw [List.length_cons, saveLoop, to_, ih path.2, List.flatMap_cons (x := p)]

/-- All the timers are saved. -/
theorem rtcTimerListNvSave_run {heap : Heap} (linked : m.rtc.RingIs ring) (distinct : ring.Nodup)
    (alive : ∀ timer ∈ ring, timer ∈ m.rtc.live)
    (room : heap.clears (recordSize * ring.length) = true) :
    rtcTimerListNvSave heap m =
      some { timerListLen := storedText ring.length, timerList := ring.flatMap (timerBytes m) } := by
  cases ring with
  | nil =>
    rw [rtcTimerListNvSave, ringIs_nil.mp linked]
    rfl
  | cons head rest =>
    rcases ringIs_cons.mp linked with ⟨first, path⟩
    have within : (head :: rest).length ≤ m.rtc.live.length :=
      (distinct.subperm alive).length_le
    have len := rtListLen_run path (List.nodup_cons.mp distinct).1
      (Nat.lt_of_succ_le within : rest.length < m.rtc.live.length)
    rw [List.length_cons] at room
    rw [rtcTimerListNvSave, first]
    dsimp only
    rw [len]
    change (if heap.clears (recordSize * (rest.length + 1)) then _ else none) = _
    rw [if_pos room, saveLoop_run path]
    rfl

/-- The text of a length without its last digit. -/
theorem storedText_eq {length : Nat} (short : length ≤ 9999999) :
    storedText length = (lengthText length).dropLast := by
  have digits : (lengthText length).length ≤ 7 := by
    rw [lengthText, CString.ascii, List.length_map]
    exact (Nat.length_toDigits_le_iff (by decide) (by decide)).mpr (by omega)
  rw [storedText, List.take_of_length_le digits, List.take_append_of_le_length (Nat.sub_le _ _),
    List.dropLast_eq_take]

end Save

/-! ## Read -/

section Read

variable {m m' : TimerMemory} {ring built : List TimerPtr} {timer : TimerPtr}

/-- A block that is not in the ring is placed beside it. -/
theorem place_ring (linked : m.rtc.RingIs ring) (fresh : timer ∉ ring) (image : TimerImage) :
    (m.place timer image).rtc.RingIs ring := by
  cases ring with
  | nil =>
    have none_ : m.rtc.timerListHead = none := ringIs_nil.mp linked
    exact ringIs_nil.mpr none_
  | cons head rest =>
    rcases ringIs_cons.mp linked with ⟨first, path⟩
    refine ringIs_cons.mpr ⟨first, path.congr ?_ ?_⟩
    · intro x inside
      have ne : x ≠ timer := fun same => fresh (same ▸ inside)
      exact Function.update_of_ne ne ..
    · intro x inside
      refine Function.update_of_ne (fun same : x = timer => fresh ?_) ..
      rw [← same]
      rcases List.mem_append.mp inside with behind | front
      · exact List.mem_cons_of_mem _ behind
      · rw [List.mem_singleton.mp front]
        exact List.mem_cons_self

/-- A block that is placed links to itself, and is a ring as the head. -/
theorem place_alone (m : TimerMemory) (timer : TimerPtr) (image : TimerImage) :
    ((m.place timer image).setHead timer).rtc.RingIs [timer] :=
  ringIs_cons.mpr ⟨rfl, Function.update_self .., Function.update_self ..⟩

/-- A new timer becomes the last one of the ring. -/
theorem linkTimer_run (linked : m.rtc.RingIs built) (distinct : built.Nodup) (fresh : timer ∉ built)
    (image : TimerImage) : ∃ m', linkTimer (m.place timer image) built.length timer = some m' ∧
      m'.rtc.RingIs (built ++ [timer]) ∧ m'.image = Function.update m.image timer image := by
  have placed := place_ring linked fresh image
  cases built with
  | nil => exact ⟨_, if_pos rfl, place_alone m timer image, rfl⟩
  | cons head rest =>
    rcases ringIs_cons.mp placed with ⟨first, path⟩
    refine ⟨(m.place timer image).relink (rtListInsertBefore (m.place timer image).rtc head timer) rfl,
      ?_, ?_, rfl⟩
    · rw [linkTimer, if_neg (List.length_pos_of_mem List.mem_cons_self).ne', first]
      rfl
    · exact ringIs_cons.mpr ⟨first, (rtListInsertBefore_ring path distinct fresh).1⟩

/-- What the loop has done: the blocks are linked behind those before, with the images of the
records. -/
structure Loaded (m m' : TimerMemory) (built taken : List TimerPtr) (start : List UInt8) : Prop where
  linked : m'.rtc.RingIs (built ++ taken)
  others : ∀ timer, timer ∉ taken → m'.image timer = m.image timer
  images : taken.map m'.image =
    (List.range taken.length).map fun k => imageAt (start.drop (recordSize * k))

theorem readLoop_loaded {left i : Nat} {start : List UInt8} {blocks : List TimerPtr}
    (run : readLoop left i start blocks m = some m') (linked : m.rtc.RingIs built)
    (position : i = built.length) (distinct : (built ++ blocks).Nodup) :
    left ≤ blocks.length ∧ Loaded m m' built (blocks.take left) start := by
  induction left generalizing i start blocks m built with
  | zero =>
    cases run
    rw [List.take_zero]
    exact ⟨Nat.zero_le _, by rwa [List.append_nil], fun _ _ => rfl, rfl⟩
  | succ left ih =>
    cases blocks with
    | nil => cases run
    | cons timer blocks =>
      rw [readLoop] at run
      split at run
      case isFalse => cases run
      case isTrue inside =>
        have fresh : timer ∉ built := fun there =>
          (List.nodup_append.mp distinct).2.2 _ there _ List.mem_cons_self rfl
        rcases linkTimer_run linked (List.nodup_append.mp distinct).1 fresh (imageAt start) with
          ⟨m₁, link, linked₁, images₁⟩
        subst position
        rw [link] at run
        have distinct' : (built ++ [timer] ++ blocks).Nodup := by
          rwa [List.append_assoc, List.singleton_append]
        rcases ih run linked₁ (by rw [List.length_append]; rfl) distinct' with
          ⟨within, linked', others, images⟩
        have notLater : timer ∉ blocks.take left := fun later =>
          (List.nodup_cons.mp (List.nodup_append.mp distinct).2.1).1 (List.mem_of_mem_take later)
        rw [List.take_succ_cons]
        refine ⟨Nat.succ_le_succ within, ?_, ?_, ?_⟩
        · rwa [List.append_assoc, List.singleton_append] at linked'
        · intro other outside
          rw [others other fun later => outside (List.mem_cons_of_mem _ later), images₁]
          have ne : other ≠ timer := fun same => outside (same ▸ List.mem_cons_self)
          exact Function.update_of_ne ne ..
        · rw [List.map_cons, List.length_cons, List.range_succ_eq_map, List.map_cons, List.map_map,
            others timer notLater, images₁, Function.update_self, images]
          congr 1
          apply List.map_congr_left
          intro k _
          rw [List.drop_drop]
          congr 2
          rw [Nat.mul_succ, Nat.add_comm]

/-- With enough blocks and records the loop comes to its end. -/
theorem readLoop_ends {left i : Nat} {start : List UInt8} {blocks : List TimerPtr}
    (linked : m.rtc.RingIs built) (position : i = built.length) (distinct : (built ++ blocks).Nodup)
    (enough : left ≤ blocks.length) (long : recordSize * left ≤ start.length) :
    ∃ m', readLoop left i start blocks m = some m' := by
  induction left generalizing i start blocks m built with
  | zero => exact ⟨m, rfl⟩
  | succ left ih =>
    cases blocks with
    | nil => cases enough
    | cons timer blocks =>
      have fresh : timer ∉ built := fun there =>
        (List.nodup_append.mp distinct).2.2 _ there _ List.mem_cons_self rfl
      rcases linkTimer_run linked (List.nodup_append.mp distinct).1 fresh (imageAt start) with
        ⟨m₁, link, linked₁, -⟩
      subst position
      have distinct' : (built ++ [timer] ++ blocks).Nodup := by
        rwa [List.append_assoc, List.singleton_append]
      rw [Nat.mul_succ] at long
      rw [readLoop, if_pos (by omega), link]
      refine ih linked₁ (by rw [List.length_append]; rfl) distinct' (Nat.le_of_succ_le_succ enough) ?_
      rw [List.length_drop]
      omega

/-- A state has one ring. -/
theorem RtcState.RingIs.unique {s : RtcState} {ring ring' : List TimerPtr} (linked : s.RingIs ring)
    (linked' : s.RingIs ring') (distinct : ring.Nodup) (distinct' : ring'.Nodup) : ring = ring' := by
  have heads := linked.head?.symm.trans linked'.head?
  cases ring with
  | nil => exact (List.head?_eq_none_iff.mp heads.symm).symm
  | cons head rest =>
    cases ring' with
    | nil => cases heads
    | cons head' rest' =>
      cases heads
      rw [(ringIs_cons.mp linked).2.unique (ringIs_cons.mp linked').2
        (List.nodup_cons.mp distinct).1 (List.nodup_cons.mp distinct').1]

theorem imageAt_timerBytes (m : TimerMemory) (timer : TimerPtr) (rest : List UInt8) :
    imageAt (timerBytes m timer ++ rest) = m.image timer := by
  apply Subtype.ext
  change (timerBytes m timer ++ rest ++ .replicate imageSize 0).take imageSize = _
  rw [timerBytes, List.append_assoc, List.append_assoc, List.append_assoc]
  exact List.take_left' (m.image timer).2

/-- The records of a saved ring. -/
theorem saved_images (m : TimerMemory) (ring : List TimerPtr) :
    ((List.range ring.length).map fun k =>
      imageAt ((ring.flatMap (timerBytes m)).drop (recordSize * k))) = ring.map m.image := by
  induction ring with
  | nil => rfl
  | cons timer ring ih =>
    rw [List.length_cons, List.range_succ_eq_map, List.map_cons, List.map_map, List.map_cons,
      List.flatMap_cons, Nat.mul_zero, List.drop_zero, imageAt_timerBytes, ← ih]
    congr 1
    apply List.map_congr_left
    intro k _
    change imageAt ((timerBytes m timer ++ _).drop (recordSize * (k + 1))) = _
    rw [Nat.mul_succ, Nat.add_comm, ← List.drop_drop]
    congr 2
    exact List.drop_left' (length_timerBytes m timer)

theorem length_saved (m : TimerMemory) (ring : List TimerPtr) :
    (ring.flatMap (timerBytes m)).length = recordSize * ring.length := by
  induction ring with
  | nil => rfl
  | cons timer ring ih =>
    rw [List.flatMap_cons, List.length_append, length_timerBytes, ih, List.length_cons,
      Nat.mul_succ, Nat.add_comm]

end Read

/-! ## A restart -/

/-- A ring of other timers with the same fields in the same order. -/
def Restored (m : TimerMemory) (ring : List TimerPtr) (m' : TimerMemory) : Prop :=
  ∃ ring', m'.rtc.RingIs ring' ∧ ring'.Nodup ∧ ring'.map m'.image = ring.map m.image

/-- The number that read finds in `nv_str`: that of the count's digits without the last one, and of
what the stack holds behind them. -/
def foundLen (length : Nat) (stack : List UInt8) : Int :=
  CString.atoi (.ofBytes ((lengthText length).dropLast ++ stack.drop ((lengthText length).length - 1)))

/-- The stack completes the count. An empty list also stays empty when the number is negative and
the size that it wraps to is allocated. -/
def CountFound (heap : Heap) (length : Nat) (stack : List UInt8) : Prop :=
  foundLen length stack = length ∨ length = 0 ∧ foundLen length stack < 0 ∧
    heap.clears (toU32 (recordSize * foundLen length stack)) = true

theorem readLen_stored {length : Nat} (short : length ≤ 9999999) (stack bytes : List UInt8) :
    readLen { timerListLen := storedText length, timerList := bytes } stack =
      foundLen length stack := by
  have digits : (lengthText length).length ≤ 7 := by
    rw [lengthText, CString.ascii, List.length_map]
    exact (Nat.length_toDigits_le_iff (by decide) (by decide)).mpr (by omega)
  have whole : (lengthText length).dropLast.take 8 = (lengthText length).dropLast := by
    apply List.take_of_length_le
    rw [List.length_dropLast]
    omega
  rw [readLen, storedText_eq short]
  dsimp only
  rw [whole, List.length_dropLast, foundLen]

section Restart

variable {m m₁ : TimerMemory} {ring : List TimerPtr} {heap : Heap} {nv : TimerNv}
  {stack : List UInt8}

/-- What read leaves has as many timers as it found, none for a negative number. -/
theorem rtcTimerListNvRead_length {m₂ : TimerMemory} {ring' : List TimerPtr}
    (empty : m₁.rtc.timerListHead = none) (blocks : heap.blocks.Nodup)
    (run : rtcTimerListNvRead heap nv stack m₁ = some m₂) (linked : m₂.rtc.RingIs ring')
    (distinct : ring'.Nodup) : ring'.length = (readLen nv stack).toNat ∧
      (readLen nv stack ≠ 0 → heap.clears (toU32 (recordSize * readLen nv stack)) = true) := by
  unfold rtcTimerListNvRead at run
  dsimp only at run
  split at run
  case isTrue zero =>
    cases run
    rw [(ringIs_nil.mpr empty).unique linked .nil distinct |>.symm, zero]
    exact ⟨rfl, fun some_ => absurd rfl some_⟩
  case isFalse some_ =>
    split at run
    case isFalse => cases run
    case isTrue clears =>
      refine ⟨?_, fun _ => clears⟩
      split at run
      case isTrue one =>
        rw [one]
        cases fresh : heap.blocks with
        | nil =>
          rw [fresh] at run
          cases run
        | cons timer blocks =>
          rw [fresh] at run
          cases run
          have alone := place_alone m₁ timer
          rw [← (alone _).unique linked (List.nodup_singleton _) distinct]
          rfl
      case isFalse =>
        rcases readLoop_loaded run (ringIs_nil.mpr empty) rfl blocks with ⟨within, loaded⟩
        have same := RtcState.RingIs.unique linked loaded.linked distinct
          (blocks.sublist (List.take_sublist _ _))
        rw [same, List.nil_append, List.length_take, Nat.min_eq_left within]

/-- With the right count the timers are read as they were saved. -/
theorem rtcTimerListNvRead_restored (empty : m₁.rtc.timerListHead = none)
    (blocks : heap.blocks.Nodup) (enough : ring.length ≤ heap.blocks.length)
    (room : heap.clears (recordSize * ring.length) = true) (short : ring.length ≤ 9999999)
    (stored : nv.timerList = ring.flatMap (timerBytes m)) (count : readLen nv stack = ring.length) :
    ∃ m₂, rtcTimerListNvRead heap nv stack m₁ = some m₂ ∧ Restored m ring m₂ := by
  unfold rtcTimerListNvRead
  dsimp only
  rw [count]
  split
  case isTrue zero =>
    have none_ : ring = [] := List.length_eq_zero_iff.mp (Int.ofNat_eq_zero.mp zero)
    subst none_
    exact ⟨m₁, rfl, [], ringIs_nil.mpr empty, .nil, rfl⟩
  case isFalse some_ =>
    have size : toU32 (recordSize * (ring.length : Int)) = recordSize * ring.length := by
      change ((62 * (ring.length : Int)) % 2 ^ 32).toNat = 62 * ring.length
      omega
    have start : readArray nv (recordSize * ring.length) = ring.flatMap (timerBytes m) := by
      rw [readArray, stored, ← length_saved m ring, List.take_length, Nat.sub_self,
        List.replicate_zero, List.append_nil]
    rw [size, if_pos room, start]
    split
    case isTrue one =>
      have single : ring.length = 1 := by omega
      rcases List.length_eq_one_iff.mp single with ⟨timer, rfl⟩
      cases fresh : heap.blocks with
      | nil =>
        rw [fresh] at enough
        cases enough
      | cons newtimer blocks =>
        refine ⟨_, rfl, [newtimer], place_alone m₁ newtimer _, List.nodup_singleton _, ?_⟩
        rw [List.flatMap_cons, imageAt_timerBytes]
        exact congrArg (fun image => [image]) (Function.update_self ..)
    case isFalse =>
      have long := Nat.le_of_eq (length_saved m ring).symm
      rcases readLoop_ends (ringIs_nil.mpr empty) rfl blocks enough long with ⟨m₂, run⟩
      rcases readLoop_loaded run (ringIs_nil.mpr empty) rfl blocks with ⟨-, loaded⟩
      refine ⟨m₂, run, _, loaded.linked, blocks.sublist (List.take_sublist _ _), ?_⟩
      rw [List.nil_append, loaded.images, List.length_take, Nat.min_eq_left enough, saved_images]

/-- After a restart the timers are read as they were saved if and only if the stack completes the
count. -/
theorem timers_survive (m m₁ : TimerMemory) (ring : List TimerPtr) (saving heap : Heap)
    (linked : m.rtc.RingIs ring) (distinct : ring.Nodup) (alive : ∀ timer ∈ ring, timer ∈ m.rtc.live)
    (short : ring.length ≤ 9999999) (copied : saving.clears (recordSize * ring.length) = true)
    (empty : m₁.rtc.timerListHead = none) (blocks : heap.blocks.Nodup)
    (enough : ring.length ≤ heap.blocks.length)
    (room : heap.clears (recordSize * ring.length) = true) :
    ∃ nv, rtcTimerListNvSave saving m = some nv ∧ ∀ stack,
      (∃ m₂, rtcTimerListNvRead heap nv stack m₁ = some m₂ ∧ Restored m ring m₂) ↔
        CountFound heap ring.length stack := by
  refine ⟨_, rtcTimerListNvSave_run linked distinct alive copied, fun stack => ?_⟩
  have found := readLen_stored short stack (ring.flatMap (timerBytes m))
  constructor
  · rintro ⟨m₂, run, ring', linked', distinct', images⟩
    have lengths := congrArg List.length images
    rw [List.length_map, List.length_map] at lengths
    rcases rtcTimerListNvRead_length empty blocks run linked' distinct' with ⟨count, clears⟩
    rw [found] at count clears
    rw [lengths] at count
    by_cases negative : foundLen ring.length stack < 0
    · refine .inr ⟨?_, negative, clears (Int.ne_of_lt negative)⟩
      rw [count]
      exact Int.toNat_of_nonpos (Int.le_of_lt negative)
    · refine .inl ?_
      omega
  · rintro (count | ⟨none_, negative, clears⟩)
    · exact rtcTimerListNvRead_restored empty blocks enough room short rfl (found.trans count)
    · have nothing : ring = [] := List.length_eq_zero_iff.mp none_
      subst nothing
      refine ⟨m₁, ?_, [], ringIs_nil.mpr empty, .nil, rfl⟩
      unfold rtcTimerListNvRead
      dsimp only
      rw [found, if_neg (Int.ne_of_lt negative), if_pos clears, if_neg (by omega),
        Int.toNat_of_nonpos (Int.le_of_lt negative)]
      rfl

/-! ## Two lists -/

/-- Memory without timers. -/
def noTimers : TimerMemory where
  rtc :=
    { timers := fun _ => (imageAt []).timer
      next := id
      prev := id
      live := []
      timerListHead := none
      alarmReg := 0
      ctrlReg := 9
      reads := 0 }
  image _ := imageAt []
  shows _ := rfl

/-- One timer, whose name is `t`. -/
def namedTimer : TimerMemory :=
  (noTimers.place 5 (imageAt [0x74])).setHead 5

def largeHeap : Heap where
  array _ := true
  blocks := [7, 8]

/-- A second one behind it. -/
def namedTimers : TimerMemory :=
  (linkTimer (namedTimer.place 6 (imageAt [0x75])) 1 6).getD namedTimer

theorem timers_survive_two : ∃ nv, rtcTimerListNvSave largeHeap namedTimers = some nv ∧
    ∃ m₂, rtcTimerListNvRead largeHeap nv [0x32, 0] noTimers = some m₂ ∧
      Restored namedTimers [5, 6] m₂ := by
  have linked : namedTimers.rtc.RingIs [5, 6] := by
    obtain ⟨m, linked, ring, -⟩ := linkTimer_run (place_alone noTimers 5 (imageAt [0x74]))
      (List.nodup_singleton 5) (show 6 ∉ [5] by decide) (imageAt [0x75])
    have same : namedTimers = m := congrArg (Option.getD · namedTimer) linked
    exact same ▸ ring
  rcases timers_survive namedTimers noTimers [5, 6] largeHeap largeHeap linked (by decide)
    (by decide) (by decide) rfl rfl (by decide) (by decide) rfl with ⟨nv, saved, restored⟩
  exact ⟨nv, saved, (restored [0x32, 0]).mpr (.inl (by decide))⟩

/-- On a stack of zeros no timer is found. -/
theorem timers_lost : ¬ ∀ (m m₁ : TimerMemory) (ring : List TimerPtr) (heap : Heap),
    m.rtc.RingIs ring → ring.Nodup → (∀ timer ∈ ring, timer ∈ m.rtc.live) → 1 ≤ ring.length →
    ring.length ≤ 9999999 → m₁.rtc.timerListHead = none → heap.blocks.Nodup →
    ring.length ≤ heap.blocks.length → heap.clears (recordSize * ring.length) = true →
    ∀ nv, rtcTimerListNvSave heap m = some nv → ∀ stack,
      ∃ m₂, rtcTimerListNvRead heap nv stack m₁ = some m₂ ∧ Restored m ring m₂ := by
  intro all
  rcases all namedTimer noTimers [5] largeHeap (place_alone noTimers 5 _) (List.nodup_singleton _)
    (fun _ inside => inside) (by decide) (by decide) rfl (by decide) (by decide) rfl _ rfl [0] with
    ⟨m₂, run, ring', linked, -, images⟩
  cases run
  have none_ : ring' = [] := by
    have first := linked.head?
    exact List.head?_eq_none_iff.mp first.symm
  subst none_
  cases images

end Restart

end Rtc

end Tr6260
