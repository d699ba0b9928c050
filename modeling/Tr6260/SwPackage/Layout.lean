import Tr6260.SwPackage.Emission

/-!
# The layout of a package

The patches of a run stand at the running offset, which is a sum of rounded lengths as
long as that stays within `g_pkgBuff`. Then tables and patches do not touch each other,
and what was written is still there at the end.
-/

namespace Tr6260

open ByteMem

/-! ## Rounded lengths -/

theorem round16_bounds (len : Nat) :
    len ≤ round16 len ∧ round16 len < len + 16 ∧ round16 len % 16 = 0 := by
  unfold round16
  split <;> omega

/-- The room the patches take. -/
def patchRoom (es : List Emitted) : Nat := (es.map fun e => round16 e.patch.length).sum

/-- Patches one behind the other from `at_` on. -/
def PatchesPlaced : Nat → List Emitted → Prop
  | _, [] => True
  | at_, e :: es => e.row.patchOffset.toNat = at_ ∧ PatchesPlaced (at_ + round16 e.patch.length) es

section PatchesPlaced

variable {at_ : Nat} {e : Emitted} {es : List Emitted}

theorem PatchesPlaced.bounds (placed : PatchesPlaced at_ es) (member : e ∈ es) :
    at_ ≤ e.row.patchOffset.toNat ∧
      e.row.patchOffset.toNat + round16 e.patch.length ≤ at_ + patchRoom es := by
  induction es generalizing at_ with
  | nil => cases member
  | cons first es ih =>
    rcases placed with ⟨here, rest⟩
    have total : patchRoom (first :: es) = round16 first.patch.length + patchRoom es := by
      rw [patchRoom, List.map_cons, List.sum_cons, patchRoom]
    rcases List.mem_cons.mp member with rfl | later
    · omega
    · have bound := ih rest later
      omega

theorem PatchesPlaced.pairwise (placed : PatchesPlaced at_ es) :
    es.Pairwise fun e e' =>
      e.row.patchOffset.toNat + e.patch.length ≤ e'.row.patchOffset.toNat := by
  induction es generalizing at_ with
  | nil => exact .nil
  | cons first es ih =>
    rcases placed with ⟨here, rest⟩
    refine .cons ?_ (ih rest)
    intro e' later
    have bound := rest.bounds later
    have long := (round16_bounds first.patch.length).1
    omega

end PatchesPlaced

/-! ## One table and its patch -/

section Write

variable {s s' : PkgState} {e : Emitted} {es : List Emitted}

theorem ofNat_round16_toNat {len : Nat} (small : len ≤ sizeofPkgBuff) :
    (UInt32.ofNat (round16 len)).toNat = round16 len := by
  have size : sizeofPkgBuff = 1048576 := rfl
  have bound := (round16_bounds len).2.1
  rw [UInt32.toNat_ofNat']
  exact Nat.mod_eq_of_lt (by omega)

theorem Writes.log (write : Writes s e s') : s'.log = s.log ++ [e] := by
  rcases write.2 with rfl | rfl <;> rfl

theorem Writes.offsets (write : Writes s e s') :
    s'.pkgTableLen = s.pkgTableLen + UInt32.ofNat sizeofSectionTable ∧
      s'.pkgPatchLen = s.pkgPatchLen + UInt32.ofNat (round16 e.patch.length) := by
  rcases write.2 with rfl | rfl <;> exact ⟨rfl, rfl⟩

theorem Writes.patchLen_toNat (write : Writes s e s')
    (fits : s.pkgPatchLen.toNat + round16 e.patch.length ≤ sizeofPkgBuff) :
    s'.pkgPatchLen.toNat = s.pkgPatchLen.toNat + round16 e.patch.length := by
  have size : sizeofPkgBuff = 1048576 := rfl
  have long := (round16_bounds e.patch.length).1
  rw [write.offsets.2, UInt32.toNat_add, ofNat_round16_toNat (by omega)]
  exact Nat.mod_eq_of_lt (by omega)

theorem Writes.tableLen_toNat (write : Writes s e s')
    (below : s.pkgTableLen.toNat + sizeofSectionTable ≤ sizeofPkgBuff) :
    s'.pkgTableLen.toNat = s.pkgTableLen.toNat + sizeofSectionTable := by
  have size : sizeofPkgBuff = 1048576 := rfl
  rw [write.offsets.1, UInt32.toNat_add]
  exact Nat.mod_eq_of_lt (by rw [UInt32.toNat_ofNat', sizeofSectionTable] at *; omega)

/-- Table and patch stand in the buffer, and the rest of it is as before. -/
theorem Writes.memory (write : Writes s e s') (row : e.row.bytes.length = sizeofSectionTable)
    (apart : s.pkgTableLen.toNat + sizeofSectionTable ≤ s.pkgPatchLen.toNat) :
    s'.pkgBuff.Holds s.pkgTableLen.toNat e.row.bytes ∧
      s'.pkgBuff.Holds s.pkgPatchLen.toNat e.patch ∧
      ∀ addr len, (addr + len ≤ s.pkgTableLen.toNat ∨
          s.pkgTableLen.toNat + sizeofSectionTable ≤ addr) →
        (addr + len ≤ s.pkgPatchLen.toNat ∨ s.pkgPatchLen.toNat + e.patch.length ≤ addr) →
        AgreeOn s.pkgBuff s'.pkgBuff addr len := by
  rcases write.2 with rfl | rfl
  · refine ⟨?_, store_holds .., fun addr len table patch => ?_⟩
    · exact (store_holds s.pkgBuff s.pkgTableLen.toNat e.row.bytes).congr
        (store_frame _ _ _ (.inl (by rw [row]; exact apart)))
    · exact (store_frame _ _ _ (by rwa [row])).trans (store_frame _ _ _ patch)
  · refine ⟨store_holds .., ?_, fun addr len table patch => ?_⟩
    · exact (store_holds s.pkgBuff s.pkgPatchLen.toNat e.patch).congr
        (store_frame _ _ _ (.inr (by rw [row]; exact apart)))
    · exact (store_frame _ _ _ patch).trans (store_frame _ _ _ (by rwa [row]))

/-! ## All of them -/

theorem Emits.log (emits : Emits s es s') : s'.log = s.log ++ es := by
  induction emits with
  | nil => rw [List.append_nil]
  | cons write _ ih => rw [ih, write.log, List.append_assoc, List.singleton_append]

theorem patchRoom_cons (e : Emitted) (es : List Emitted) :
    patchRoom (e :: es) = round16 e.patch.length + patchRoom es := by
  rw [patchRoom, List.map_cons, List.sum_cons, patchRoom]

theorem Emits.placed (emits : Emits s es s')
    (fits : s.pkgPatchLen.toNat + patchRoom es ≤ sizeofPkgBuff) :
    PatchesPlaced s.pkgPatchLen.toNat es ∧
      s'.pkgPatchLen.toNat = s.pkgPatchLen.toNat + patchRoom es := by
  induction emits with
  | nil => exact ⟨trivial, rfl⟩
  | cons write _ ih =>
    rw [patchRoom_cons] at fits ⊢
    have next := write.patchLen_toNat (by omega)
    rw [next] at ih
    rcases ih (by omega) with ⟨placed, last⟩
    refine ⟨⟨congrArg UInt32.toNat write.1, placed⟩, ?_⟩
    rw [last, Nat.add_assoc]

/-- Patches that end within the buffer leave the running offset a sum of rounded lengths. -/
theorem Emits.fits (emits : Emits s es s') (aligned : s.pkgPatchLen.toNat % 16 = 0)
    (start : s.pkgPatchLen.toNat ≤ sizeofPkgBuff)
    (within : ∀ e ∈ es, e.row.patchOffset.toNat + e.patch.length ≤ sizeofPkgBuff) :
    s.pkgPatchLen.toNat + patchRoom es ≤ sizeofPkgBuff := by
  induction emits with
  | nil => exact start
  | @cons s s1 s' e es write _ ih =>
    have here := within e List.mem_cons_self
    rw [write.1] at here
    have bounds := round16_bounds e.patch.length
    -- the buffer's size is a multiple of 16, so the rounding stays within it too
    have size : sizeofPkgBuff = 1048576 := rfl
    have rounded : s.pkgPatchLen.toNat + round16 e.patch.length ≤ sizeofPkgBuff := by omega
    have next := write.patchLen_toNat rounded
    rw [patchRoom_cons]
    rw [next] at ih
    have rest := ih (by omega) rounded (fun e' later => within e' (List.mem_cons_of_mem _ later))
    omega

/-- Everything written is there at the end. -/
theorem Emits.memory (emits : Emits s es s')
    (rows : ∀ e ∈ es, e.row.bytes.length = sizeofSectionTable)
    (fits : s.pkgPatchLen.toNat + patchRoom es ≤ sizeofPkgBuff)
    (apart : s.pkgTableLen.toNat + sizeofSectionTable * es.length ≤ s.pkgPatchLen.toNat) :
    (∀ i e, es[i]? = some e →
      s'.pkgBuff.Holds (s.pkgTableLen.toNat + sizeofSectionTable * i) e.row.bytes ∧
        s'.pkgBuff.Holds e.row.patchOffset.toNat e.patch) ∧
    ∀ addr len, (addr + len ≤ s.pkgTableLen.toNat ∨
        s.pkgTableLen.toNat + sizeofSectionTable * es.length ≤ addr ∧
          addr + len ≤ s.pkgPatchLen.toNat) →
      AgreeOn s.pkgBuff s'.pkgBuff addr len := by
  induction emits with
  | nil => exact ⟨fun i e found => (by cases found), fun addr len _ a _ _ => rfl⟩
  | @cons s s1 s' e es write _ ih =>
    rw [patchRoom_cons] at fits
    rw [List.length_cons, Nat.mul_succ] at apart
    have long := (round16_bounds e.patch.length).1
    have patchLen := write.patchLen_toNat (by omega)
    have tableLen := write.tableLen_toNat (by omega)
    rcases write.memory (rows e List.mem_cons_self) (by omega) with ⟨table, patch, frame⟩
    rw [patchLen, tableLen] at ih
    rcases ih (fun e' later => rows e' (List.mem_cons_of_mem _ later)) (by omega) (by omega) with
      ⟨held, rest⟩
    constructor
    · intro i e' found
      cases i with
      | zero =>
        cases found
        refine ⟨table.congr (rest _ _ (.inl ?_)), ?_⟩
        · rw [rows e List.mem_cons_self]
          omega
        · rw [write.1]
          exact patch.congr (rest _ _ (.inr ⟨by omega, by omega⟩))
      | succ i =>
        have later := held i e' found
        rwa [Nat.add_assoc, Nat.add_comm sizeofSectionTable, ← Nat.mul_succ] at later
    · intro addr len where_
      rw [List.length_cons, Nat.mul_succ] at where_
      exact (frame addr len (by omega) (by omega)).trans (rest addr len (by omega))

end Write

end Tr6260
