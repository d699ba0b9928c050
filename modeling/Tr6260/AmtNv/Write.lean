import Tr6260.AmtNv.Recovery

/-!
# Writing a slot

`amt_nv_write` from a store at rest: it ends at rest with the slot set to the
new data, and every image it passes through is recoverable to the old values or
to the new ones.
-/

namespace Tr6260

open FlashProg ByteMem

/-- Behind its data, every copy is blank. -/
theorem Copy.padding {s : AmtNvSlot} {m : ByteMem} {addr : Nat} {c : Copy s}
    (held : m.Holds addr (copyBytes c)) :
    m.Erased (addr + (amtNvHeadSize + s.len)) (s.offset - (amtNvHeadSize + s.len)) := by
  have room := s.head_len_le
  cases c with
  | blank => exact (erased_iff_holds.mpr held).sub (Nat.le_add_right _ _) (by omega)
  | used data | dele data =>
    have pad := (holds_append.mp held).2
    rw [length_amtNvRecord rfl, data.2] at pad
    exact erased_iff_holds.mpr pad

/-! ## The new record in the cache -/

section Cache

variable {s : AmtNvSlot} {cache : ByteMem}

theorem record_length (data : SlotData s) :
    (amtNvRecord stateUsedBytes data.1).length = amtNvHeadSize + s.len := by
  rw [length_amtNvRecord rfl, data.2]

/-- Copying a record over any copy gives its used copy. -/
theorem store_record {c : Copy s} (held : cache.Holds s.start (copyBytes c)) (data : SlotData s) :
    (cache.store s.start (amtNvRecord stateUsedBytes data)).Holds s.start
      (copyBytes (.used data)) := by
  have len := record_length data
  refine holds_append.mpr ⟨store_holds cache _ _, ?_⟩
  rw [len]
  exact erased_iff_holds.mp
    (Erased.congr (store_frame cache _ _ (Or.inr (by rw [len]))) (Copy.padding held))

/-- The compacted cache with the new record is an image of the new values. -/
theorem image_of_record {v : SlotValues} (shows : CacheAt (fun s => compactCopy (v s)) cache)
    (data : SlotData s) :
    ImageOf (v.write s data)
      ((cache.store s.start (amtNvRecord stateUsedBytes data)).load 0 amtNvSize) := by
  have room := s.head_len_le
  have len := record_length data
  have stored := shows.update s (store_record (shows.slots s) data) fun addr size apart =>
    store_frame cache _ _ (by omega)
  refine ⟨_, ?_, rfl⟩
  convert stored using 1
  funext t
  by_cases same : t = s
  · subst same
    simp [SlotValues.write, compactCopy, PairState.ofValue, PairState.copy0]
  · simp [SlotValues.write, Function.update_of_ne same]

/-- The copy `amt_nv_gc` starts from. -/
theorem cacheAt_copy {part : AmtPartition} {σ : SlotPairs} {m : ByteMem} (rep : AmtRep part σ m)
    (ram : ByteMem) :
    CacheAt (fun s => (σ s).copy0) (ram.store 0 (m.load part.base amtNvSize)) := by
  have held := store_holds ram 0 (m.load part.base amtNvSize)
  have window : ∀ off len, off + len ≤ amtNvSize →
      (ram.store 0 (m.load part.base amtNvSize)).load off len = m.load (part.base + off) len := by
    intro off len inside
    have size := length_load m part.base amtNvSize
    have cached : (ram.store 0 (m.load part.base amtNvSize)).load (0 + off) len =
        ((m.load part.base amtNvSize).drop off).take len := held.slice (by omega)
    rw [Nat.zero_add] at cached
    rw [cached, (holds_load m part.base amtNvSize).slice (by omega)]
  refine ⟨fun s => ?_, ?_⟩
  · have bound := s.start_add_offset_le
    have slot := rep.first s
    unfold Holds at slot ⊢
    rw [length_copyBytes] at slot ⊢
    rw [window _ _ (by unfold amtNvSize; omega), slot]
  · have tail := erased_iff_holds.mp rep.tail
    refine erased_iff_holds.mpr ?_
    unfold Holds at tail ⊢
    rw [List.length_replicate] at tail ⊢
    rw [window _ _ (by decide), tail]

end Cache

section Write

variable {part : AmtPartition} {v : SlotValues} {s : AmtNvSlot}

/-- The images a write of `data` to `s` may leave behind. -/
def WriteCrash (part : AmtPartition) (v : SlotValues) (s : AmtNvSlot) (data : SlotData s)
    (m : ByteMem) : Prop :=
  Recoverable part v m ∨ Recoverable part (v.write s data) m

/-- Compaction with a new record for `s`. -/
theorem amtNvGc_triple (ram : ByteMem) (data : SlotData s) :
    Triple (Idle part v)
      (amtNvGc part ram (part.base + s.start) (amtNvRecord stateUsedBytes data))
      (fun _ m => Idle part (v.write s data) m) (WriteCrash part v s data) := by
  rintro m ⟨σ, rep, rfl, backup⟩
  obtain ⟨cache, scan, shows⟩ := amtNvGcScan_eqAt rep AmtNvSlot.all (List.suffix_refl _)
    (cacheAt_copy rep ram) (fun _ _ => rfl) fun s out => absurd (AmtNvSlot.mem_all s) out
  have same : EqAt m (amtNvGc part ram (part.base + s.start) (amtNvRecord stateUsedBytes data))
      (amtNvGcCommit part.base
        ((cache.store s.start (amtNvRecord stateUsedBytes data)).load 0 amtNvSize)) := by
    refine (halSpiflashRead_bind _ _ _ m).trans ((scan.bind _).trans ?_)
    rw [ret_bind, Nat.add_sub_cancel_left]
    exact .refl m _
  obtain ⟨run, cuts⟩ := same
  rw [run, cuts]
  exact amtNvGcCommit_triple (image_of_record shows data) m ⟨σ, rep, rfl, backup⟩

/-! The four programming steps on one slot. -/

section Steps

variable {σ : SlotPairs} {m : ByteMem} {old data : SlotData s}

/-- Programming inside the partition leaves the backup sector blank. -/
theorem BackupIdle.program (backup : BackupIdle m) (part : AmtPartition) {addr : Nat} {bs : List UInt8}
    (low : part.base ≤ addr) (high : addr + bs.length ≤ part.base + amtPartionSize) :
    BackupIdle (m.program addr bs) := by
  have apart := part.disjoint
  exact Erased.congr (program_frame m _ _ (by omega)) backup

theorem AmtRep.write_first (rep : AmtRep part σ m) (pair : σ s = .empty) (data : SlotData s) :
    AmtRep part (Function.update σ s (.first data))
      (m.program (part.base + s.start) (amtNvRecord stateUsedBytes data)) := by
  have first := rep.first s
  have second := rep.second s
  rw [pair] at first second
  have bound := s.start_add_offset_le
  have room := s.head_len_le
  have len := record_length data
  refine rep.update s _ (Copy.program_record first data) ?_ ?_
  · refine second.congr (program_frame m _ _ (Or.inr ?_))
    unfold amtNvBlockSize
    omega
  · intro addr size clear _
    exact program_frame m _ _ (by omega)

theorem AmtRep.write_second (rep : AmtRep part σ m) (pair : σ s = .first old)
    (data : SlotData s) :
    AmtRep part (Function.update σ s (.both old data))
      (m.program (part.base + s.start + amtNvBlockSize) (amtNvRecord stateUsedBytes data)) := by
  have first := rep.first s
  have second := rep.second s
  rw [pair] at first second
  have bound := s.start_add_offset_le
  have room := s.head_len_le
  have len := record_length data
  refine rep.update s _ ?_ (Copy.program_record second data) ?_
  · refine first.congr (program_frame m _ _ (Or.inl ?_))
    rw [length_copyBytes]
    unfold amtNvBlockSize
    omega
  · intro addr size _ clear
    exact program_frame m _ _ (by omega)

theorem AmtRep.mark_first (rep : AmtRep part σ m) (pair : σ s = .both old data) :
    AmtRep part (Function.update σ s (.second old data))
      (m.program (part.base + s.start + 2) stateDeleBytes) := by
  have first := rep.first s
  have second := rep.second s
  rw [pair] at first second
  have bound := s.start_add_offset_le
  have room := s.head_len_le
  have two : stateDeleBytes.length = 2 := rfl
  unfold amtNvHeadSize at room
  refine rep.update s _ (Copy.program_mark first) ?_ ?_
  · refine second.congr (program_frame m _ _ (Or.inr ?_))
    unfold amtNvBlockSize
    omega
  · intro addr size clear _
    exact program_frame m _ _ (by omega)

theorem AmtRep.mark_second (rep : AmtRep part σ m) (pair : σ s = .both old data) :
    AmtRep part (Function.update σ s (.kept old data))
      (m.program (part.base + s.start + amtNvBlockSize + 2) stateDeleBytes) := by
  have first := rep.first s
  have second := rep.second s
  rw [pair] at first second
  have bound := s.start_add_offset_le
  have room := s.head_len_le
  have two : stateDeleBytes.length = 2 := rfl
  unfold amtNvHeadSize at room
  refine rep.update s _ ?_ (Copy.program_mark second) ?_
  · refine first.congr (program_frame m _ _ (Or.inl ?_))
    rw [length_copyBytes]
    unfold amtNvBlockSize
    omega
  · intro addr size _ clear
    exact program_frame m _ _ (by omega)

end Steps

/-- At rest with the values `v`, with slot `s` in the state `p`. -/
def RestAt (part : AmtPartition) (v : SlotValues) (s : AmtNvSlot) (p : PairState s)
    (m : ByteMem) : Prop :=
  ∃ σ, AmtRep part σ m ∧ σ.values = v ∧ BackupIdle m ∧ σ s = p

theorem RestAt.idle {p : PairState s} {m : ByteMem} (rest : RestAt part v s p m) :
    Idle part v m := by
  obtain ⟨σ, rep, values, backup, -⟩ := rest
  exact ⟨σ, rep, values, backup⟩

/-- The search leaves a store at rest with the same values. -/
theorem search_triple (p : PairState s) :
    Triple (RestAt part v s p) (p.search (part.base + s.start))
      (fun found m => found = p.found ∧ RestAt part v s p.searched m) (Recoverable part v) := by
  have bound := s.start_add_offset_le
  have two : stateDeleBytes.length = 2 := rfl
  have sector : amtPartionSize = 4096 := rfl
  have block : amtNvBlockSize = 2048 := rfl
  cases p with
  | empty | first data | second old data | kept data lost =>
    exact Triple.pure (fun m rest => ⟨rfl, rest⟩) fun m rest => .idle rest.idle
  | both data lost =>
    refine Triple.bind (q := fun _ m => RestAt part v s (.kept data lost) m)
      (halSpifiashWrite_triple ?_ (fun m rest => .idle rest.idle) fun m rest => .idle rest.idle)
      fun _ => Triple.pure (fun m rest => ⟨rfl, rest⟩) fun m rest => .idle rest.idle
    rintro m ⟨σ, rep, rfl, backup, pair⟩
    exact ⟨_, rep.mark_second pair, σ.values_update_same (by rw [pair]; rfl),
      backup.program part (by omega) (by omega), Function.update_self _ _ _⟩

theorem amtNvPlace_empty (ram : ByteMem) (addr : Nat) (record : List UInt8) :
    amtNvPlace part ram addr record (PairState.empty : PairState s).found =
      (halSpifiashWrite addr record >>= fun _ => Pure.pure drvSuccess) := by
  unfold amtNvPlace
  simp only [PairState.found, Nat.zero_mul, Nat.add_zero,
    if_neg (show ¬ 0 = amtNvBlockNum by decide)]
  rfl

theorem amtNvPlace_first (ram : ByteMem) (addr : Nat) (record : List UInt8) (old : SlotData s) :
    amtNvPlace part ram addr record (PairState.first old).found =
      (halSpifiashWrite (addr + amtNvBlockSize) record >>= fun _ =>
        halSpifiashWrite (addr + 2) stateDeleBytes >>= fun _ => Pure.pure drvSuccess) := by
  unfold amtNvPlace
  simp only [PairState.found, Nat.zero_mul, Nat.one_mul, Nat.add_zero,
    if_neg (show ¬ 1 = amtNvBlockNum by decide), if_pos (show 0 < amtNvBlockNum by decide)]

/-- The record is placed where the search found room, or by a compaction. -/
theorem amtNvPlace_triple (ram : ByteMem) (data : SlotData s) (p : PairState s) :
    Triple (RestAt part v s p.searched)
      (amtNvPlace part ram (part.base + s.start) (amtNvRecord stateUsedBytes data) p.found)
      (fun r m => r = drvSuccess ∧ Idle part (v.write s data) m) (WriteCrash part v s data) := by
  have compact : Triple (RestAt part v s p.searched)
      (amtNvGc part ram (part.base + s.start) (amtNvRecord stateUsedBytes data) >>= fun _ =>
        Pure.pure drvSuccess)
      (fun r m => r = drvSuccess ∧ Idle part (v.write s data) m) (WriteCrash part v s data) :=
    ((amtNvGc_triple ram data).conseq (fun m rest => rest.idle) (fun _ _ rest => rest)
      fun _ safe => safe).bind fun _ =>
        Triple.pure (fun m rest => ⟨rfl, rest⟩) fun m rest => .inr (.idle rest)
  have bound := s.start_add_offset_le
  have room := s.head_len_le
  have len := record_length data
  have two : stateDeleBytes.length = 2 := rfl
  have sector : amtPartionSize = 4096 := rfl
  have block : amtNvBlockSize = 2048 := rfl
  cases p with
  | second old last | both last lost | kept last lost => exact compact
  | empty =>
    rw [amtNvPlace_empty]
    refine Triple.bind (q := fun _ m => Idle part (v.write s data) m)
      (halSpifiashWrite_triple ?_ (fun m rest => .inl (.idle rest.idle))
        fun m rest => .inr (.idle rest))
      fun _ => Triple.pure (fun m rest => ⟨rfl, rest⟩) fun m rest => .inr (.idle rest)
    rintro m ⟨σ, rep, rfl, backup, pair⟩
    have wrote := rep.write_first pair data
    have blank : BackupIdle (m.program (part.base + s.start) (amtNvRecord stateUsedBytes data)) :=
      backup.program part (by omega) (by omega)
    exact ⟨_, wrote, σ.values_update s _, blank⟩
  | first old =>
    rw [amtNvPlace_first]
    refine Triple.bind (q := fun _ m => RestAt part v s (.both old data) m)
      (halSpifiashWrite_triple ?_ (fun m rest => .inl (.idle rest.idle))
        fun m rest => .inl (.idle rest.idle)) fun _ => ?_
    · rintro m ⟨σ, rep, rfl, backup, pair⟩
      have wrote := rep.write_second pair data
      have blank : BackupIdle (m.program (part.base + s.start + amtNvBlockSize)
          (amtNvRecord stateUsedBytes data)) :=
        backup.program part (by omega) (by omega)
      exact ⟨_, wrote, σ.values_update_same (by rw [pair]; rfl), blank, Function.update_self _ _ _⟩
    -- the second copy is there but does not count until the first one is marked
    refine Triple.bind (q := fun _ m => Idle part (v.write s data) m)
      (halSpifiashWrite_triple ?_ (fun m rest => .inl (.idle rest.idle))
        fun m rest => .inr (.idle rest))
      fun _ => Triple.pure (fun m rest => ⟨rfl, rest⟩) fun m rest => .inr (.idle rest)
    rintro m ⟨σ, rep, rfl, backup, pair⟩
    have marked := rep.mark_first pair
    have blank : BackupIdle (m.program (part.base + s.start + 2) stateDeleBytes) :=
      backup.program part (by omega) (by omega)
    exact ⟨_, marked, σ.values_update s _, blank⟩

/-- `amt_nv_write` of `data` to slot `s`. -/
theorem amtNvWrite_triple (ram : ByteMem) (data : SlotData s) :
    Triple (Idle part v) (amtNvWrite part ram true (part.base + s.start) data)
      (fun r m => r = drvSuccess ∧ Idle part (v.write s data) m) (WriteCrash part v s data) := by
  rintro m ⟨σ, rep, values, backup⟩
  have search := amtNvSearch_eqAt (rep.first s) (rep.second s)
  rw [amtNvWrite, if_neg (slot_addr_ok part s), if_neg (by decide)]
  obtain ⟨run, cuts⟩ := search.bind
    (amtNvPlace part ram (part.base + s.start) (amtNvRecord stateUsedBytes data))
  rw [run, cuts]
  have both : Triple (RestAt part v s (σ s))
      ((σ s).search (part.base + s.start) >>=
        amtNvPlace part ram (part.base + s.start) (amtNvRecord stateUsedBytes data))
      (fun r m => r = drvSuccess ∧ Idle part (v.write s data) m) (WriteCrash part v s data) := by
    refine Triple.bind ((search_triple (σ s)).conseq (fun m rest => rest) (fun _ _ rest => rest)
      fun m safe => Or.inl safe) fun found => ?_
    rintro m ⟨rfl, rest⟩
    exact amtNvPlace_triple ram data (σ s) m rest
  exact both m ⟨σ, rep, values, backup, rfl⟩

/-- Without a block from `pvPortMalloc` nothing is written. -/
theorem amtNvWrite_no_memory (ram : ByteMem) (data : SlotData s) :
    amtNvWrite part ram false (part.base + s.start) data = Pure.pure drvErrMemAlloc := by
  rw [amtNvWrite, if_neg (slot_addr_ok part s), if_pos rfl]

end Write

end Tr6260
