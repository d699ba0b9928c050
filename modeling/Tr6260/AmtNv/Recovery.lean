import Tr6260.AmtNv.Compaction

/-!
# The commit sequence and its recovery

`amt_nv_gc` first carries the compacted copy to the backup sector, between two
flags, and then rewrites the partition. `Recoverable part v m` lists the images
this sequence passes through while the values `v` are the ones that count: in
each of them either the partition shows `v`, or the backup holds a complete
copy of `v`. `amt_nv_init` brings every such image back to rest without
changing `v`, even when it is interrupted itself.
-/

namespace Tr6260

open FlashProg ByteMem

/-! ## The backup sector -/

/-- A backup flag word, before and after its first byte is programmed. -/
def flagWord (set : Bool) : List UInt8 := [if set then 0 else 0xFF, 0xFF, 0xFF, 0xFF]

/-- The state of the two flags. -/
structure BackupFlags (begins comps : Bool) (m : ByteMem) : Prop where
  begins : m.Holds amtNvBackupBase (flagWord begins)
  comps : m.Holds amtNvBackupComp (flagWord comps)

theorem le32_flagWord_eq (set : Bool) :
    le32 (flagWord set) = if set then 0xFFFFFF00 else 0xFFFFFFFF := by
  cases set <;> decide

theorem program_flag {m : ByteMem} {addr : Nat} (held : m.Holds addr (flagWord false)) :
    (m.program addr [0]).Holds addr (flagWord true) := by
  obtain ⟨-, rest⟩ := holds_cons.mp held
  refine holds_cons.mpr ⟨?_, rest.congr (program_frame m addr [0] (Or.inr (Nat.le_refl _)))⟩
  rw [ByteMem.program, if_pos ⟨Nat.le_refl _, Nat.lt_succ_self _⟩, Nat.sub_self]
  exact UInt8.and_zero

theorem BackupIdle.flags {m : ByteMem} (idle : BackupIdle m) : BackupFlags false false m := by
  have begins : m.Erased amtNvBackupBase 4 := idle.sub (Nat.le_refl _) (by decide)
  have comps : m.Erased amtNvBackupComp 4 := idle.sub (by decide) (by decide)
  exact ⟨erased_iff_holds.mp begins, erased_iff_holds.mp comps⟩

theorem BackupFlags.congr {begins comps : Bool} {m m' : ByteMem}
    (agree : AgreeOn m m' amtNvBackupBase 16) (flags : BackupFlags begins comps m) :
    BackupFlags begins comps m' :=
  ⟨flags.begins.congr (agree.sub (Nat.le_refl _) (by simp [flagWord])),
    flags.comps.congr (agree.sub (by decide) (by simp [flagWord, amtNvBackupComp]))⟩

theorem BackupFlags.begin {m : ByteMem} (flags : BackupFlags false false m) :
    BackupFlags true false (m.program amtNvBackupBase [0]) :=
  ⟨program_flag flags.begins, flags.comps.congr (program_frame _ _ _ (Or.inr (by decide)))⟩

theorem BackupFlags.complete {m : ByteMem} (flags : BackupFlags true false m) :
    BackupFlags true true (m.program amtNvBackupComp [0]) :=
  ⟨flags.begins.congr (program_frame _ _ _ (Or.inl (by decide))), program_flag flags.comps⟩

/-- Partition and backup sector do not overlap. -/
theorem AmtPartition.disjoint (part : AmtPartition) :
    part.base + amtPartionSize ≤ amtNvBackupBase ∨
      amtNvBackupBase + amtPartionSize ≤ part.base := by
  have aligned := part.aligned
  have apart := part.apart
  unfold spiflashSectorSize at aligned
  unfold amtNvBackupBase at *
  unfold amtPartionSize
  omega

/-! ## Compacted copies -/

/-- `image` is what a compaction of the values `v` leaves in its cache. -/
def ImageOf (v : SlotValues) (image : List UInt8) : Prop :=
  ∃ cache, CacheAt (fun s => compactCopy (v s)) cache ∧ image = cache.load 0 amtNvSize

theorem ImageOf.length {v : SlotValues} {image : List UInt8} (shows : ImageOf v image) :
    image.length = amtNvSize := by
  obtain ⟨cache, -, rfl⟩ := shows
  exact length_load _ _ _

/-- Over a blank partition, a compacted copy shows its values. -/
theorem ImageOf.rep {part : AmtPartition} {v : SlotValues} {image : List UInt8} {m : ByteMem}
    (shows : ImageOf v image) (held : m.Holds part.base image)
    (blank : m.Erased (part.base + amtNvSize) (amtPartionSize - amtNvSize)) :
    AmtRep part (fun s => PairState.ofValue (v s)) m := by
  have size := shows.length
  obtain ⟨cache, seen, rfl⟩ := shows
  have window : ∀ off len, off + len ≤ amtNvSize →
      m.load (part.base + off) len = cache.load off len := by
    intro off len inside
    rw [held.slice (by omega), ← (holds_load cache 0 amtNvSize).slice (by omega), Nat.zero_add]
  refine ⟨fun s => ?_, fun s => ?_, ?_⟩
  · have bound := s.start_add_offset_le
    have slot := seen.slots s
    unfold Holds at slot ⊢
    rw [length_copyBytes] at slot ⊢
    rw [window _ _ (by unfold amtNvSize; omega), slot]
    rfl
  · have bound := s.start_add_offset_le
    have second : (PairState.ofValue (v s)).copy1 = .blank := by cases v s <;> rfl
    rw [second]
    refine erased_iff_holds.mp (blank.sub ?_ ?_)
    · unfold amtNvSize amtNvBlockSize
      omega
    · unfold amtNvSize amtNvBlockSize amtPartionSize
      omega
  · have tail := erased_iff_holds.mp seen.tail
    refine erased_iff_holds.mpr ?_
    unfold Holds at tail ⊢
    rw [List.length_replicate] at tail ⊢
    rw [window _ _ (by decide), tail]

/-- Erasing the partition and programming a compacted copy shows its values. -/
theorem ImageOf.rewritten {part : AmtPartition} {v : SlotValues} {image : List UInt8} {m : ByteMem}
    (shows : ImageOf v image) (blank : m.Erased part.base amtPartionSize) :
    AmtRep part (fun s => PairState.ofValue (v s)) (m.program part.base image) := by
  have size := shows.length
  refine shows.rep (program_holds (blank.sub (Nat.le_refl _) ?_))
    (Erased.congr (program_frame m _ _ (Or.inr ?_)) (blank.sub ?_ ?_))
  · rw [size]
    exact Nat.add_le_add_left (by decide) _
  · rw [size]
  · exact Nat.le_add_right _ _
  · rw [Nat.add_assoc]
    exact Nat.add_le_add_left (by decide) _

/-! ## Recoverable images -/

/-- The store at rest with the values `v`. -/
def Idle (part : AmtPartition) (v : SlotValues) (m : ByteMem) : Prop :=
  ∃ σ, AmtRep part σ m ∧ σ.values = v ∧ BackupIdle m

/-- The images in which the values `v` count. -/
inductive Recoverable (part : AmtPartition) (v : SlotValues) (m : ByteMem) : Prop
  | idle (rest : Idle part v m)
  /-- The backup is being written; the partition still counts. -/
  | begun (σ : SlotPairs) (rep : AmtRep part σ m) (values : σ.values = v)
      (flags : BackupFlags true false m)
  /-- The backup is complete and counts; the partition may be anything. -/
  | complete (image : List UInt8) (shows : ImageOf v image) (flags : BackupFlags true true m)
      (backup : m.Holds amtNvBackupAddr image)

theorem values_ofValue (v : SlotValues) : SlotPairs.values (fun s => PairState.ofValue (v s)) = v :=
  funext fun s => PairState.value_ofValue (v s)

/-- Erasing the backup sector with the partition in order ends at rest. -/
theorem Idle.of_erase {part : AmtPartition} {σ : SlotPairs} {m : ByteMem} (rep : AmtRep part σ m) :
    Idle part σ.values (m.erase amtNvBackupBase amtPartionSize) :=
  ⟨σ, rep.congr (erase_frame m _ _ part.disjoint), rfl, erase_erased m _ _⟩

section Restore

variable {part : AmtPartition} {v : SlotValues} {image : List UInt8}

/-- The complete backup, with what is known about the partition. -/
structure Complete (image : List UInt8) (m : ByteMem) : Prop where
  flags : BackupFlags true true m
  backup : m.Holds amtNvBackupAddr image

theorem Complete.congr (size : image.length = amtNvSize) {m m' : ByteMem}
    (agree : AgreeOn m m' amtNvBackupBase amtPartionSize) (complete : Complete image m) :
    Complete image m' :=
  ⟨complete.flags.congr (agree.sub (Nat.le_refl _) (by decide)),
    complete.backup.congr (agree.sub (by decide) (by rw [size]; decide))⟩

/-- The tail that `amt_nv_gc` and `amt_nv_init` share: rewrite the partition from
the image, then blank the backup. -/
theorem restore_triple (shows : ImageOf v image) :
    Triple (Complete image)
      (halSpiflashErase part.base amtPartionSize >>= fun _ =>
        halSpifiashWrite part.base image >>= fun _ =>
          halSpiflashErase amtNvBackupBase amtPartionSize >>= fun _ => Pure.pure ())
      (fun _ m => Idle part v m) (Recoverable part v) := by
  have size := shows.length
  have safe : ∀ m, Complete image m → Recoverable part v m := fun m complete =>
    .complete image shows complete.flags complete.backup
  have apart := part.disjoint.symm
  refine Triple.bind (q := fun _ m => Complete image m ∧ m.Erased part.base amtPartionSize)
    (halSpiflashErase_triple part.aligned (by decide) ?_ safe fun m mid => safe m mid.1) fun _ => ?_
  · intro m complete
    exact ⟨complete.congr size (erase_frame m _ _ apart), erase_erased m _ _⟩
  refine Triple.bind (q := fun _ m => Complete image m ∧
      AmtRep part (fun s => PairState.ofValue (v s)) m)
    (halSpifiashWrite_triple ?_ (fun m mid => safe m mid.1) fun m mid => safe m mid.1) fun _ => ?_
  · intro m mid
    refine ⟨mid.1.congr size (program_frame m _ _ ?_), shows.rewritten mid.2⟩
    rw [size]
    unfold amtNvSize
    unfold amtPartionSize at *
    omega
  refine Triple.bind (q := fun _ m => Idle part v m)
    (halSpiflashErase_triple (by decide) (by decide) ?_ (fun m mid => safe m mid.1)
      fun m rest => .idle rest) fun _ => ?_
  · intro m mid
    have rest := Idle.of_erase mid.2
    rwa [values_ofValue] at rest
  · exact Triple.pure (fun m rest => rest) fun m rest => .idle rest

end Restore

/-! ## Initialisation -/

/-- `amt_nv_init` ends at rest with the values that counted before, from every
recoverable image and through every interruption. -/
theorem amtNvInit_triple (part : AmtPartition) (v : SlotValues) :
    Triple (Recoverable part v) (amtNvInit part) (fun _ m => Idle part v m)
      (Recoverable part v) := by
  intro m start
  have flagsRead {begins comps : Bool} (flags : BackupFlags begins comps m) :
      EqAt m (amtNvInit part)
        (if (comps = false ∧ begins = false) then Pure.pure ()
          else if (comps = true ∧ begins = true) then
            halSpiflashRead amtNvBackupAddr amtNvSize >>= fun r =>
              halSpiflashErase part.base amtPartionSize >>= fun _ =>
                halSpifiashWrite part.base r.2 >>= fun _ =>
                  halSpiflashErase amtNvBackupBase amtPartionSize >>= fun _ => Pure.pure ()
          else halSpiflashErase amtNvBackupBase amtPartionSize >>= fun _ => Pure.pure ()) := by
    have begins' : m.load amtNvBackupBase 4 = flagWord begins := flags.begins
    have comps' : m.load amtNvBackupComp 4 = flagWord comps := flags.comps
    refine (halSpiflashRead_bind _ _ _ m).trans ((halSpiflashRead_bind _ _ _ m).trans ?_)
    simp only [begins', comps', le32_flagWord_eq]
    cases begins <;> cases comps <;> exact .refl m _
  cases start with
  | idle rest =>
    obtain ⟨σ, rep, values, backup⟩ := rest
    obtain ⟨run, cuts⟩ := flagsRead backup.flags
    rw [run, cuts]
    exact ⟨⟨σ, rep, values, backup⟩, fun c cut => by
      rw [List.mem_singleton.mp cut]
      exact .idle ⟨σ, rep, values, backup⟩⟩
  | begun σ rep values flags =>
    subst values
    have erased : Triple (fun m => AmtRep part σ m ∧ BackupFlags true false m)
        (halSpiflashErase amtNvBackupBase amtPartionSize >>= fun _ => Pure.pure ())
        (fun _ m => Idle part σ.values m) (Recoverable part σ.values) :=
      Triple.bind (q := fun _ m => Idle part σ.values m)
        (halSpiflashErase_triple (by decide) (by decide) (fun m mid => Idle.of_erase mid.1)
          (fun m mid => .begun σ mid.1 rfl mid.2) fun m rest => .idle rest)
        fun _ => Triple.pure (fun m rest => rest) fun m rest => .idle rest
    obtain ⟨run, cuts⟩ := flagsRead flags
    rw [run, cuts]
    exact erased m ⟨rep, flags⟩
  | complete image shows flags backup =>
    obtain ⟨run, cuts⟩ := (flagsRead flags).trans (halSpiflashRead_bind _ _ _ m)
    have image' : m.load amtNvBackupAddr amtNvSize = image := by
      rw [← shows.length]
      exact backup
    rw [run, cuts, image']
    exact restore_triple shows m ⟨flags, backup⟩

/-! ## Commit -/

/-- The commit of an image of the values `v'`, from rest with the values `v`. -/
theorem amtNvGcCommit_triple {part : AmtPartition} {v v' : SlotValues} {image : List UInt8}
    (shows : ImageOf v' image) :
    Triple (Idle part v) (amtNvGcCommit part.base image) (fun _ m => Idle part v' m)
      (fun m => Recoverable part v m ∨ Recoverable part v' m) := by
  have size := shows.length
  have apart := part.disjoint
  have clear : ∀ (m : ByteMem) (addr : Nat) (bs : List UInt8), amtNvBackupBase ≤ addr →
      addr + bs.length ≤ amtNvBackupBase + amtPartionSize →
      AgreeOn m (m.program addr bs) part.base amtPartionSize := by
    intro m addr bs low high
    exact program_frame m addr bs (by omega)
  unfold amtNvGcCommit
  -- the begin flag: the partition still counts
  refine Triple.bind (q := fun _ m => (∃ σ, AmtRep part σ m ∧ σ.values = v) ∧
      BackupFlags true false m ∧ m.Erased amtNvBackupAddr image.length)
    (halSpifiashWrite_triple ?_ (fun m rest => .inl (.idle rest)) ?_) fun _ => ?_
  · rintro m ⟨σ, rep, values, backup⟩
    refine ⟨⟨σ, rep.congr (clear m _ _ (Nat.le_refl _) (by decide)), values⟩,
      backup.flags.begin, ?_⟩
    refine Erased.congr (program_frame m _ _ (Or.inr (by decide))) (backup.sub (by decide) ?_)
    rw [size]
    decide
  · rintro m ⟨⟨σ, rep, values⟩, flags, -⟩
    exact .inl (.begun σ rep values flags)
  -- the image
  refine Triple.bind (q := fun _ m => (∃ σ, AmtRep part σ m ∧ σ.values = v) ∧
      BackupFlags true false m ∧ m.Holds amtNvBackupAddr image)
    (halSpifiashWrite_triple ?_ ?_ ?_) fun _ => ?_
  · rintro m ⟨⟨σ, rep, values⟩, flags, blank⟩
    refine ⟨⟨σ, rep.congr (clear m _ _ (by decide) (by rw [size]; decide)), values⟩,
      flags.congr (program_frame m _ _ (Or.inl (by decide))), program_holds blank⟩
  · rintro m ⟨⟨σ, rep, values⟩, flags, -⟩
    exact .inl (.begun σ rep values flags)
  · rintro m ⟨⟨σ, rep, values⟩, flags, -⟩
    exact .inl (.begun σ rep values flags)
  -- the complete flag: from here on the image counts
  refine Triple.bind (q := fun _ m => Complete image m) (halSpifiashWrite_triple ?_ ?_ ?_)
    fun _ => ?_
  · rintro m ⟨-, flags, held⟩
    exact ⟨flags.complete, held.congr (program_frame m _ _ (Or.inr (by decide)))⟩
  · rintro m ⟨⟨σ, rep, values⟩, flags, -⟩
    exact .inl (.begun σ rep values flags)
  · rintro m complete
    exact .inr (.complete image shows complete.flags complete.backup)
  exact (restore_triple shows).conseq (fun m complete => complete) (fun _ m rest => rest)
    fun m recoverable => .inr recoverable

end Tr6260
