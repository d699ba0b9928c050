import Mathlib.Logic.Relation
import Tr6260.AmtNv.Write

/-!
# The parameter store as a map, over whole runs

Two results about `amtNv.c` as a whole. Without power loss the store is a map
from slots to data: after any sequence of writes a read returns what was last
written. With power loss between any two flash operations of a write, of a
compaction or of the initialisation itself, the next complete `amt_nv_init`
finds the interrupted slot with its old or its new value and every other slot
unchanged.
-/

namespace Tr6260

open FlashProg ByteMem

/-- A call of `amt_nv_write` for a declared slot: the data, and what the
surroundings contribute (the scratch memory of `amt_nv_gc`, the allocator). -/
structure AmtNvRequest where
  slot : AmtNvSlot
  data : SlotData slot
  ram : ByteMem
  malloc : Bool

namespace AmtNvRequest

/-- The call itself. -/
def call (part : AmtPartition) (r : AmtNvRequest) : FlashProg Int :=
  amtNvWrite part r.ram r.malloc (part.base + r.slot.start) r.data

/-- Its effect on the map: nothing when no memory is left. -/
def apply (r : AmtNvRequest) (v : SlotValues) : SlotValues :=
  if r.malloc then v.write r.slot r.data else v

/-- The result code of the call. -/
def result (r : AmtNvRequest) : Int := if r.malloc then drvSuccess else drvErrMemAlloc

/-- A call does on the flash what `apply` does on the map, and can be interrupted
anywhere. -/
theorem call_triple (part : AmtPartition) (r : AmtNvRequest) (v : SlotValues) :
    Triple (Idle part v) (r.call part) (fun res m => res = r.result ∧ Idle part (r.apply v) m)
      (fun m => Recoverable part v m ∨ Recoverable part (r.apply v) m) := by
  obtain ⟨slot, data, ram, malloc⟩ := r
  cases malloc with
  | true => exact amtNvWrite_triple ram data
  | false =>
    unfold call
    rw [amtNvWrite_no_memory]
    exact Triple.pure (fun m rest => ⟨rfl, rest⟩) fun m rest => .inl (.idle rest)

end AmtNvRequest

/-- A sequence of calls: their results and the final flash image. -/
def amtNvWrites (part : AmtPartition) : List AmtNvRequest → ByteMem → List Int × ByteMem
  | [], m => ([], m)
  | r :: rs, m =>
    let (res, m) := (r.call part).run m
    let (results, m) := amtNvWrites part rs m
    (res :: results, m)

/-- The data of the last write to `s` for which memory was available. -/
def lastWrite (s : AmtNvSlot) : List AmtNvRequest → Option (SlotData s)
  | [] => none
  | r :: rs =>
    match lastWrite s rs with
    | some data => some data
    | none => if same : r.slot = s then if r.malloc then some (same ▸ r.data) else none else none

/-- The map after a sequence of calls. -/
def applyAll (rs : List AmtNvRequest) (v : SlotValues) : SlotValues :=
  rs.foldl (fun v r => r.apply v) v

theorem AmtNvRequest.apply_slot (r : AmtNvRequest) (v : SlotValues) (s : AmtNvSlot) :
    r.apply v s = if same : r.slot = s then
      if r.malloc then some (same ▸ r.data) else v s else v s := by
  obtain ⟨slot, data, ram, malloc⟩ := r
  by_cases same : slot = s
  · subst same
    cases malloc <;> simp [AmtNvRequest.apply, SlotValues.write]
  · have other : s ≠ slot := fun eq => same eq.symm
    cases malloc <;> simp [AmtNvRequest.apply, SlotValues.write, same,
      Function.update_of_ne other]

theorem applyAll_slot (rs : List AmtNvRequest) (v : SlotValues) (s : AmtNvSlot) :
    applyAll rs v s = (lastWrite s rs).orElse fun _ => v s := by
  induction rs generalizing v with
  | nil => rfl
  | cons r rs ih =>
    rw [applyAll, List.foldl_cons]
    change applyAll rs (r.apply v) s = _
    rw [ih, r.apply_slot, lastWrite]
    cases lastWrite s rs with
    | some data => rfl
    | none =>
      by_cases same : r.slot = s
      · cases hm : r.malloc <;> simp [same]
      · simp [same]

/-- A run of calls from a store at rest. -/
theorem amtNvWrites_idle (part : AmtPartition) (rs : List AmtNvRequest) {v : SlotValues}
    {m : ByteMem} (rest : Idle part v m) :
    (amtNvWrites part rs m).1 = rs.map AmtNvRequest.result ∧
      Idle part (applyAll rs v) (amtNvWrites part rs m).2 := by
  induction rs generalizing v m with
  | nil => exact ⟨rfl, rest⟩
  | cons r rs ih =>
    obtain ⟨⟨res, rest'⟩, -⟩ := r.call_triple part v m rest
    obtain ⟨results, final⟩ := ih rest'
    refine ⟨?_, final⟩
    rw [List.map_cons, ← res, ← results]
    rfl

theorem Idle.read {part : AmtPartition} {v : SlotValues} {m : ByteMem} (rest : Idle part v m)
    (s : AmtNvSlot) : amtNvReadSlot part s m = readResult (v s) := by
  obtain ⟨σ, rep, rfl, -⟩ := rest
  exact amtNvReadSlot_eq rep s

/-- Erased flash is a store at rest without values. -/
theorem Idle.of_erased {part : AmtPartition} {m : ByteMem}
    (blank : m.Erased part.base amtPartionSize) (backup : BackupIdle m) :
    Idle part (fun _ => none) m := by
  refine ⟨fun _ => .empty, ⟨fun s => ?_, fun s => ?_, ?_⟩, rfl, backup⟩
  · have bound := s.start_add_offset_le
    refine erased_iff_holds.mp (blank.sub (Nat.le_add_right _ _) ?_)
    unfold amtPartionSize
    omega
  · have bound := s.start_add_offset_le
    refine erased_iff_holds.mp (blank.sub (by omega) ?_)
    unfold amtPartionSize amtNvBlockSize
    omega
  · refine blank.sub (Nat.le_add_right _ _) ?_
    unfold amtPartionSize amtNvSize
    omega

/-- The store is a correct slot map: from erased flash, after any sequence of
writes, each call has succeeded (unless it got no memory), every slot reads as the
data last written to it, slots never written read as an error, and reading changes
nothing. A further write changes no other slot. -/
theorem amtNvStore_slotMap (part : AmtPartition) (rs : List AmtNvRequest) (m : ByteMem)
    (blank : m.Erased part.base amtPartionSize) (backup : BackupIdle m) :
    (amtNvWrites part rs m).1 = rs.map AmtNvRequest.result ∧
    (∀ s, (amtNvRead part (part.base + s.start) s.len).run (amtNvWrites part rs m).2 =
      (readResult (lastWrite s rs), (amtNvWrites part rs m).2)) ∧
    ∀ (r : AmtNvRequest) (s : AmtNvSlot), s ≠ r.slot →
      amtNvReadSlot part s (amtNvWrites part (rs ++ [r]) m).2 =
        amtNvReadSlot part s (amtNvWrites part rs m).2 := by
  have start := Idle.of_erased blank backup
  obtain ⟨results, final⟩ := amtNvWrites_idle part rs start
  refine ⟨results, fun s => ?_, fun r s other => ?_⟩
  · obtain ⟨σ, rep, values, -⟩ := final
    rw [amtNvRead_run rep s]
    have here : (σ s).value = applyAll rs (fun _ => none) s := congrFun values s
    rw [here, applyAll_slot]
    cases lastWrite s rs <;> rfl
  · obtain ⟨-, final'⟩ := amtNvWrites_idle part (rs ++ [r]) start
    rw [final.read, final'.read, applyAll, List.foldl_append]
    change readResult (r.apply (applyAll rs fun _ => none) s) = _
    rw [r.apply_slot, dif_neg (Ne.symm other)]

/-- Two writes to one slot and one to another, on an erased chip. -/
theorem amtNvStore_slotMap_erased :
    let put (s : AmtNvSlot) (data : SlotData s) : AmtNvRequest := ⟨s, data, fun _ => 0, true⟩
    let rs := [put .pinFlag ⟨[0x30, 0x31], rfl⟩, put .psmFlag ⟨[0x32, 0x33], rfl⟩,
      put .pinFlag ⟨[0x34, 0x35], rfl⟩]
    amtNvReadSlot .default .pinFlag (amtNvWrites .default rs fun _ => 0xFF).2 =
      (drvSuccess, [0x34, 0x35]) := by
  intro put rs
  have map := amtNvStore_slotMap .default rs (fun _ => 0xFF) (fun _ _ _ => rfl) fun _ _ _ => rfl
  rw [amtNvReadSlot, map.2.1]
  rfl

/-! ## Power loss -/

/-- What can happen to the store. The flag tells whether power is on and the last
`amt_nv_init` was completed. -/
inductive AmtReach (part : AmtPartition) : Bool → ByteMem → Prop
  | erased {m : ByteMem} (blank : m.Erased part.base amtPartionSize) (backup : BackupIdle m) :
      AmtReach part true m
  | write {m : ByteMem} (on : AmtReach part true m) (r : AmtNvRequest) :
      AmtReach part true ((r.call part).run m).2
  | writeCut {m c : ByteMem} (on : AmtReach part true m) (r : AmtNvRequest)
      (cut : c ∈ (r.call part).cuts m) : AmtReach part false c
  | init {m : ByteMem} {on : Bool} (before : AmtReach part on m) :
      AmtReach part true ((amtNvInit part).run m).2
  | initCut {m c : ByteMem} {on : Bool} (before : AmtReach part on m)
      (cut : c ∈ (amtNvInit part).cuts m) : AmtReach part false c

/-- In every run there are values that count; with power on the store is at rest. -/
theorem AmtReach.recoverable {part : AmtPartition} {on : Bool} {m : ByteMem}
    (reached : AmtReach part on m) :
    ∃ v, Recoverable part v m ∧ (on = true → Idle part v m) := by
  induction reached with
  | erased blank backup =>
    have rest := Idle.of_erased blank backup
    exact ⟨_, .idle rest, fun _ => rest⟩
  | write on r ih =>
    obtain ⟨v, -, rest⟩ := ih
    obtain ⟨⟨-, rest'⟩, -⟩ := r.call_triple part v _ (rest rfl)
    exact ⟨_, .idle rest', fun _ => rest'⟩
  | writeCut on r cut ih =>
    obtain ⟨v, -, rest⟩ := ih
    rcases (r.call_triple part v _ (rest rfl)).2 _ cut with old | new
    · exact ⟨_, old, fun up => by cases up⟩
    · exact ⟨_, new, fun up => by cases up⟩
  | init before ih =>
    obtain ⟨v, recoverable, -⟩ := ih
    have rest := (amtNvInit_triple part v _ recoverable).1
    exact ⟨v, .idle rest, fun _ => rest⟩
  | initCut before cut ih =>
    obtain ⟨v, recoverable, -⟩ := ih
    exact ⟨v, (amtNvInit_triple part v _ recoverable).2 _ cut, fun up => by cases up⟩

/-- One interrupted `amt_nv_init`. -/
def InitCut (part : AmtPartition) (m c : ByteMem) : Prop := c ∈ (amtNvInit part).cuts m

theorem Recoverable.initCuts {part : AmtPartition} {v : SlotValues} {m c : ByteMem}
    (recoverable : Recoverable part v m) (cuts : Relation.ReflTransGen (InitCut part) m c) :
    Recoverable part v c := by
  induction cuts with
  | refl => exact recoverable
  | tail _ cut ih => exact (amtNvInit_triple part v _ ih).2 _ cut

/-- Every slot reads after a complete `amt_nv_init` as the values that count. -/
theorem Recoverable.read_init {part : AmtPartition} {v : SlotValues} {m : ByteMem}
    (recoverable : Recoverable part v m) (s : AmtNvSlot) :
    amtNvReadSlot part s ((amtNvInit part).run m).2 = readResult (v s) :=
  (amtNvInit_triple part v m recoverable).1.read s

/-- The store is power-fail safe. Take any run in which writes and initialisations
are interrupted between any two flash operations, and in it a moment `m` with power
on. A write interrupted at `c`, then any number of interrupted initialisations, then
a complete one: the slot being written reads as before or as the new data, and every
other slot reads as before. Interrupted initialisations alone change no slot. -/
theorem amtNvStore_powerFail (part : AmtPartition) {m : ByteMem} (reached : AmtReach part true m) :
    (∀ (r : AmtNvRequest) (c c' : ByteMem), c ∈ (r.call part).cuts m →
      Relation.ReflTransGen (InitCut part) c c' →
      (amtNvReadSlot part r.slot ((amtNvInit part).run c').2 = amtNvReadSlot part r.slot m ∨
        amtNvReadSlot part r.slot ((amtNvInit part).run c').2 = (drvSuccess, r.data.1)) ∧
      ∀ s, s ≠ r.slot →
        amtNvReadSlot part s ((amtNvInit part).run c').2 = amtNvReadSlot part s m) ∧
    ∀ (c : ByteMem) (s : AmtNvSlot), Relation.ReflTransGen (InitCut part) m c →
      amtNvReadSlot part s ((amtNvInit part).run c).2 = amtNvReadSlot part s m := by
  obtain ⟨v, -, rest⟩ := reached.recoverable
  have idle := rest rfl
  refine ⟨fun r c c' cut cuts => ?_, fun c s cuts => ?_⟩
  · rcases (r.call_triple part v m idle).2 c cut with old | new
    · have recovered := old.initCuts cuts
      refine ⟨.inl ?_, fun s _ => ?_⟩
      · rw [recovered.read_init, idle.read]
      · rw [recovered.read_init, idle.read]
    · have recovered := new.initCuts cuts
      refine ⟨?_, fun s other => ?_⟩
      · rw [recovered.read_init, idle.read, r.apply_slot, dif_pos rfl]
        cases hm : r.malloc
        · exact .inl rfl
        · exact .inr rfl
      · rw [recovered.read_init, idle.read, r.apply_slot, dif_neg (Ne.symm other)]
  · rw [((Recoverable.idle idle).initCuts cuts).read_init, idle.read]

/-- A second write to a slot of an erased chip that loses power between its two flash operations,
with both records in use, followed by an initialisation that is interrupted at once and one that is
not. -/
theorem amtNvStore_powerFail_second :
    let put (data : SlotData .pinFlag) : AmtNvRequest := ⟨.pinFlag, data, fun _ => 0, true⟩
    let m := (((put ⟨[0x30, 0x31], rfl⟩).call .default).run fun _ => 0xFF).2
    let cuts := ((put ⟨[0x32, 0x33], rfl⟩).call .default).cuts m
    cuts.length = 3 ∧ ∃ c ∈ cuts[1]?,
      (amtNvReadSlot .default .pinFlag ((amtNvInit .default).run c).2 =
          amtNvReadSlot .default .pinFlag m ∨
        amtNvReadSlot .default .pinFlag ((amtNvInit .default).run c).2 =
          (drvSuccess, [0x32, 0x33])) ∧
      amtNvReadSlot .default .psmFlag ((amtNvInit .default).run c).2 =
        amtNvReadSlot .default .psmFlag m := by
  intro put m cuts
  have three : cuts.length = 3 := by decide +kernel
  have reached : AmtReach .default true m :=
    .write (.erased (fun _ _ _ => rfl) fun _ _ _ => rfl) (put ⟨[0x30, 0x31], rfl⟩)
  have safe := (amtNvStore_powerFail .default reached).1 (put ⟨[0x32, 0x33], rfl⟩) cuts[1] cuts[1]
    (List.getElem_mem _) (.single (start_mem_cuts _ _))
  exact ⟨three, cuts[1], List.getElem?_eq_getElem _, safe.1, safe.2 .psmFlag (by decide)⟩

end Tr6260
