import Tr6260.AmtNv.Copies

/-!
# Searching and reading a slot

What `amt_nv_search` and `amt_nv_read` do on a partition in one of the known
states: the search finds the copy that counts and the copy to fill next, and
marks a second used copy as deleted; the read returns the value.
-/

namespace Tr6260

open FlashProg ByteMem

/-- The head bytes of a used copy. -/
def usedHead {s : AmtNvSlot} (data : SlotData s) : List UInt8 :=
  (copyBytes (.used data)).take amtNvHeadSize

namespace PairState

variable {s : AmtNvSlot}

/-- What `amt_nv_search` reports. -/
def found : PairState s → AmtNvFound
  | empty => ⟨none, 2, 0⟩
  | first data => ⟨some (usedHead data), 0, 1⟩
  | second _ data => ⟨some (usedHead data), 1, 2⟩
  | both data _ => ⟨some (usedHead data), 0, 2⟩
  | kept data _ => ⟨some (usedHead data), 0, 2⟩

/-- The state a search leaves: a second used copy is marked. -/
def searched : PairState s → PairState s
  | both data lost => kept data lost
  | p => p

end PairState

/-- `pHead` after a search is a proper head. -/
theorem length_usedHead {s : AmtNvSlot} (data : SlotData s) :
    (usedHead data).length = amtNvHeadSize := by
  have := s.head_len_le
  rw [usedHead, List.length_take, length_copyBytes]
  omega

/-! ## One round of the search -/

section Rounds

variable {s : AmtNvSlot} {m : ByteMem} {addr left i searchId : Nat} {pHead : Option (List UInt8)}

/-- The first used copy is taken. -/
theorem amtNvSearchLoop_used {data : SlotData s}
    (held : m.Holds (addr + i * amtNvBlockSize) (copyBytes (.used data))) :
    EqAt m (amtNvSearchLoop addr (left + 1) i amtNvBlockNum pHead)
      (amtNvSearchLoop addr left (i + 1) i (some (usedHead data))) := by
  refine (halSpiflashRead_bind _ _ _ m).trans ?_
  simp only [Copy.load_head held, copyBytes_head, copyHead, ↓reduceIte]
  exact .refl m _

/-- A further used copy is marked as deleted. -/
theorem amtNvSearchLoop_used_again {data : SlotData s} (other : searchId ≠ amtNvBlockNum)
    (held : m.Holds (addr + i * amtNvBlockSize) (copyBytes (.used data))) :
    EqAt m (amtNvSearchLoop addr (left + 1) i searchId pHead)
      (halSpifiashWrite (addr + i * amtNvBlockSize + 2) stateDeleBytes >>= fun _ =>
        amtNvSearchLoop addr left (i + 1) searchId pHead) := by
  refine (halSpiflashRead_bind _ _ _ m).trans ?_
  simp only [Copy.head_eq held, copyHead, ↓reduceIte, if_neg other]
  exact .refl m _

/-- A deleted copy is passed over. -/
theorem amtNvSearchLoop_dele {data : SlotData s}
    (held : m.Holds (addr + i * amtNvBlockSize) (copyBytes (.dele data))) :
    EqAt m (amtNvSearchLoop addr (left + 1) i searchId pHead)
      (amtNvSearchLoop addr left (i + 1) searchId pHead) := by
  refine (halSpiflashRead_bind _ _ _ m).trans ?_
  simp only [Copy.head_eq held, copyHead, ↓reduceIte,
    if_neg (show ¬ amtNvStateDele = amtNvStateUsed by decide)]
  exact .refl m _

/-- A blank copy ends the search. -/
theorem amtNvSearchLoop_blank
    (held : m.Holds (addr + i * amtNvBlockSize) (copyBytes (Copy.blank : Copy s))) :
    EqAt m (amtNvSearchLoop addr (left + 1) i searchId pHead)
      (if i = 0 then Pure.pure ⟨pHead, amtNvBlockNum, 0⟩
        else if searchId < amtNvBlockNum then Pure.pure ⟨pHead, searchId, i⟩
        else Pure.pure ⟨pHead, amtNvBlockNum, i⟩) := by
  refine (halSpiflashRead_bind _ _ _ m).trans ?_
  simp only [Copy.head_eq held, copyHead, if_neg (show ¬ 0xFFFF = amtNvMagicValue by decide),
    if_pos (show 0xFFFF = amtNvMagicNone from rfl)]
  exact .refl m _

end Rounds

/-! ## The whole search -/

/-- The search in one of the known states: it reports `p.found`, and the only thing
it may program is the mark of a lost second copy. -/
def PairState.search {s : AmtNvSlot} (p : PairState s) (addr : Nat) : FlashProg AmtNvFound :=
  match p with
  | .both _ _ => do
    let _ ← halSpifiashWrite (addr + amtNvBlockSize + 2) stateDeleBytes
    return p.found
  | _ => return p.found

theorem amtNvSearch_eqAt {s : AmtNvSlot} {p : PairState s} {m : ByteMem} {addr : Nat}
    (held0 : m.Holds addr (copyBytes p.copy0))
    (held1 : m.Holds (addr + amtNvBlockSize) (copyBytes p.copy1)) :
    EqAt m (amtNvSearch addr) (p.search addr) := by
  have at0 : addr + 0 * amtNvBlockSize = addr := by omega
  have at1 : addr + (0 + 1) * amtNvBlockSize = addr + amtNvBlockSize := by omega
  rw [← at0] at held0
  rw [← at1] at held1
  cases p with
  | empty => exact amtNvSearchLoop_blank held0
  | first data => exact (amtNvSearchLoop_used held0).trans (amtNvSearchLoop_blank held1)
  | second old data => exact (amtNvSearchLoop_dele held0).trans (amtNvSearchLoop_used held1)
  | both data lost =>
    have first : EqAt m (amtNvSearchLoop addr 2 0 amtNvBlockNum none)
        (amtNvSearchLoop addr 1 1 0 (some (usedHead data))) := amtNvSearchLoop_used held0
    have marked := first.trans (amtNvSearchLoop_used_again (by decide) held1)
    rwa [at1] at marked
  | kept data lost => exact (amtNvSearchLoop_used held0).trans (amtNvSearchLoop_dele held1)

/-! ## Reading -/

/-- What a reader of slot `s` gets. -/
def amtNvReadSlot (part : AmtPartition) (s : AmtNvSlot) (m : ByteMem) : Int × List UInt8 :=
  ((amtNvRead part (part.base + s.start) s.len).run m).1

/-- The result of reading a value. -/
def readResult {s : AmtNvSlot} : Option (SlotData s) → Int × List UInt8
  | none => (drvError, [])
  | some data => (drvSuccess, data)

section Reading

variable {s : AmtNvSlot} {m : ByteMem} {addr left i : Nat}

theorem amtNvReadLoop_used {data : SlotData s}
    (held : m.Holds (addr + i * amtNvBlockSize) (copyBytes (.used data))) :
    EqAt m (amtNvReadLoop addr (left + 1) i) (Pure.pure (some (i, copyHead (.used data)))) := by
  refine (halSpiflashRead_bind _ _ _ m).trans ?_
  dsimp only
  rw [Copy.head_eq held, if_pos ⟨rfl, rfl⟩]
  exact .refl m _

theorem amtNvReadLoop_skip {c : Copy s} (unused : ∀ data, c ≠ .used data)
    (held : m.Holds (addr + i * amtNvBlockSize) (copyBytes c)) :
    EqAt m (amtNvReadLoop addr (left + 1) i) (amtNvReadLoop addr left (i + 1)) := by
  refine (halSpiflashRead_bind _ _ _ m).trans ?_
  dsimp only
  rw [Copy.head_eq held, if_neg]
  · exact .refl m _
  · cases c with
    | blank => exact fun both => absurd both.1 (show ¬ 0xFFFF = amtNvMagicValue by decide)
    | used data => exact absurd rfl (unused data)
    | dele data =>
      exact fun both => absurd both.2 (show ¬ amtNvStateDele = amtNvStateUsed by decide)

end Reading

/-- The index of the copy a reader uses. -/
def PairState.readIndex {s : AmtNvSlot} : PairState s → Option (Nat × AmtNvHead)
  | .empty => none
  | .first data => some (0, copyHead (.used data))
  | .second _ data => some (1, copyHead (.used data))
  | .both data _ => some (0, copyHead (.used data))
  | .kept data _ => some (0, copyHead (.used data))

theorem amtNvReadLoop_eqAt {s : AmtNvSlot} {p : PairState s} {m : ByteMem} {addr : Nat}
    (held0 : m.Holds addr (copyBytes p.copy0))
    (held1 : m.Holds (addr + amtNvBlockSize) (copyBytes p.copy1)) :
    EqAt m (amtNvReadLoop addr amtNvBlockNum 0) (Pure.pure p.readIndex) := by
  have at0 : addr + 0 * amtNvBlockSize = addr := by omega
  have at1 : addr + (0 + 1) * amtNvBlockSize = addr + amtNvBlockSize := by omega
  rw [← at0] at held0
  rw [← at1] at held1
  cases p with
  | empty =>
    exact (amtNvReadLoop_skip (by intro _ h; cases h) held0).trans
      (amtNvReadLoop_skip (by intro _ h; cases h) held1)
  | first data => exact amtNvReadLoop_used held0
  | second old data =>
    exact (amtNvReadLoop_skip (by intro _ h; cases h) held0).trans (amtNvReadLoop_used held1)
  | both data lost => exact amtNvReadLoop_used held0
  | kept data lost => exact amtNvReadLoop_used held0

/-- Slot addresses are accepted. -/
theorem slot_addr_ok (part : AmtPartition) (s : AmtNvSlot) :
    ¬ (part.base + s.start < part.base ∨ part.base + s.start > amtNvMax part) := by
  have := s.start_add_offset_le
  unfold amtNvMax
  omega

/-- Reading a slot returns its value and changes nothing. -/
theorem amtNvRead_run {part : AmtPartition} {σ : SlotPairs} {m : ByteMem}
    (rep : AmtRep part σ m) (s : AmtNvSlot) :
    (amtNvRead part (part.base + s.start) s.len).run m = (readResult (σ s).value, m) := by
  have loop := (amtNvReadLoop_eqAt (rep.first s) (rep.second s)).1
  have held0 := rep.first s
  have held1 := rep.second s
  rw [amtNvRead, if_neg (slot_addr_ok part s), run_bind, loop]
  cases hp : σ s with
  | empty => rfl
  | first data | both data lost | kept data lost =>
    rw [hp] at held0
    simp only [run_pure, PairState.readIndex, copyHead]
    rw [if_neg (Nat.lt_irrefl _), (halSpiflashRead_bind _ _ _ m).1, Nat.zero_mul, Nat.add_zero,
      Copy.load_data held0, if_pos rfl]
    rfl
  | second old data =>
    rw [hp] at held1
    simp only [run_pure, PairState.readIndex, copyHead]
    rw [if_neg (Nat.lt_irrefl _), (halSpiflashRead_bind _ _ _ m).1, Nat.one_mul,
      Copy.load_data held1, if_pos rfl]
    rfl

theorem amtNvReadSlot_eq {part : AmtPartition} {σ : SlotPairs} {m : ByteMem}
    (rep : AmtRep part σ m) (s : AmtNvSlot) :
    amtNvReadSlot part s m = readResult (σ.values s) := by
  rw [amtNvReadSlot, amtNvRead_run rep]
  rfl

end Tr6260
