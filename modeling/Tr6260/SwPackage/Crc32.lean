import Tr6260.OtaHal.Checksum

/-!
# The checksum of a package

`SwCrc32Calc` of the packaging tool shifts a register up bit by bit and reflects it at the end. It
is the mirror image of the register of `crc32_le`, from 0 on, also where that takes the package
piece by piece.
-/

namespace Tr6260

namespace SwCrc32

open CyclicCheck OtaHal

/-- `POLY`. -/
def poly : UInt32 := 0x04C11DB7

/-- The loop of `reflect`. -/
def reflectLoop (ch : Nat) : Nat → Nat → UInt32 → UInt32 → UInt32
  | 0, _, _, value => value
  | rounds + 1, i, ref, value =>
    reflectLoop ch rounds (i + 1) (ref >>> 1)
      (if ref &&& 1 ≠ 0 then value ||| 1 <<< UInt32.ofNat (ch - i) else value)

/-- `reflect`. -/
def reflect (ref : UInt32) (ch : Nat) : UInt32 := reflectLoop ch ch 1 ref 0

/-- A round of the inner loop of `SwCrc32Calc`. -/
def crcRound (byte : UInt8) (crc : UInt32) (i : UInt8) : UInt32 :=
  let crc := if crc &&& 0x80000000 ≠ 0 then crc <<< 1 ^^^ poly else crc <<< 1
  if byte &&& i ≠ 0 then crc ^^^ poly else crc

/-- The values of `i`, until its bit is shifted out. -/
def masks : List UInt8 := [1, 2, 4, 8, 16, 32, 64, 128]

/-- The inner loop of `SwCrc32Calc`. -/
def crcByte (crc : UInt32) (byte : UInt8) : UInt32 := masks.foldl (crcRound byte) crc

/-- `SwCrc32Calc`. -/
def swCrc32Calc (bytes : List UInt8) : UInt32 :=
  reflect (bytes.foldl crcByte 0xFFFFFFFF) 32 ^^^ 0xFFFFFFFF

/-! ## The register -/

theorem bitsOf_masks (byte : UInt8) :
    (masks.map fun i => decide (byte &&& i ≠ 0)) = bitsOf byte := by
  have all : ∀ n : Fin 256, (masks.map fun i => decide (UInt8.ofNat n &&& i ≠ 0)) =
      bitsOf (UInt8.ofNat n) := by
    decide +kernel
  have here := all ⟨byte.toNat, byte.toNat_lt⟩
  rwa [UInt8.ofNat_toNat] at here

theorem and_top (x : UInt32) : x &&& 0x80000000 ≠ 0 ↔ x.toBitVec.msb = true := by
  have bits : x.toBitVec &&& BitVec.intMin 32 =
      if x.toBitVec.msb then BitVec.intMin 32 else 0 := by
    apply BitVec.eq_of_getLsbD_eq
    intro i inside
    have last : x.toBitVec.msb = x.toBitVec.getLsbD 31 := BitVec.msb_eq_getLsbD_last _
    rw [BitVec.getLsbD_and, BitVec.getLsbD_intMin, last]
    by_cases top : i = 31
    · subst top
      cases x.toBitVec.getLsbD 31 <;> rfl
    · have other : ¬ i + 1 = 32 := by omega
      cases x.toBitVec.getLsbD 31 <;> simp [other, BitVec.getLsbD_intMin]
  have mask : (0x80000000 : UInt32).toBitVec = BitVec.intMin 32 := by decide
  rw [ne_eq, ← UInt32.toBitVec_inj, UInt32.toBitVec_and, mask, bits]
  cases x.toBitVec.msb with
  | false => simp
  | true =>
    rw [if_pos rfl]
    exact iff_of_true (by decide) rfl

theorem toBitVec_crcRound (byte : UInt8) (crc : UInt32) (i : UInt8) :
    (crcRound byte crc i).toBitVec =
      upBit poly.toBitVec crc.toBitVec (decide (byte &&& i ≠ 0)) := by
  have shifted : (crc <<< 1).toBitVec = crc.toBitVec <<< 1 := by
    rw [UInt32.toBitVec_shiftLeft]
    rfl
  have risen : (if crc &&& 0x80000000 ≠ 0 then crc <<< 1 ^^^ poly else crc <<< 1).toBitVec =
      up poly.toBitVec crc.toBitVec := by
    unfold up
    by_cases top : crc.toBitVec.msb = true
    · rw [if_pos ((and_top crc).mpr top), if_pos top, UInt32.toBitVec_xor, shifted]
    · rw [if_neg (mt (and_top crc).mp top), if_neg top, shifted]
      simp
  unfold crcRound upBit
  dsimp only
  rw [← risen]
  by_cases bit : byte &&& i ≠ 0
  · rw [if_pos bit, decide_eq_true bit, UInt32.toBitVec_xor]
    rfl
  · rw [if_neg bit, decide_eq_false bit]
    simp

theorem toBitVec_crcByte (crc : UInt32) (byte : UInt8) :
    (crcByte crc byte).toBitVec = (bitsOf byte).foldl (upBit poly.toBitVec) crc.toBitVec := by
  rw [crcByte, ← bitsOf_masks, List.foldl_map]
  induction masks generalizing crc with
  | nil => rfl
  | cons i masks ih =>
    rw [List.foldl_cons, List.foldl_cons, ih, toBitVec_crcRound]

theorem toBitVec_foldl_crcByte (crc : UInt32) (bytes : List UInt8) :
    (bytes.foldl crcByte crc).toBitVec =
      (bytes.flatMap bitsOf).foldl (upBit poly.toBitVec) crc.toBitVec := by
  induction bytes generalizing crc with
  | nil => rfl
  | cons byte bytes ih =>
    rw [List.flatMap_cons, List.foldl_append, ← toBitVec_crcByte, ← ih]
    rfl

/-! ## Reflecting -/

theorem toBitVec_one_shiftLeft {k : Nat} (small : k < 32) :
    (1 <<< UInt32.ofNat k : UInt32).toBitVec = BitVec.twoPow 32 k := by
  have all : ∀ k : Fin 32, (1 <<< UInt32.ofNat k : UInt32).toBitVec = BitVec.twoPow 32 k := by
    decide +kernel
  exact all ⟨k, small⟩

theorem and_one (x : UInt32) : x &&& 1 ≠ 0 ↔ x.toBitVec.getLsbD 0 = true := by
  have mask : (1 : UInt32).toBitVec = 1#32 := rfl
  rw [ne_eq, ← UInt32.toBitVec_inj, UInt32.toBitVec_and, mask,
    BitVec.and_one_eq_setWidth_ofBool_getLsbD]
  cases x.toBitVec.getLsbD 0 with
  | false => exact iff_of_false (fun differs => differs (by decide)) nofun
  | true => exact iff_of_true (by decide) rfl

/-- Every round moves a bit to the other end. -/
theorem getLsbD_reflectLoop {rounds i : Nat} {ref value : UInt32} (pos : 1 ≤ i)
    (left : rounds + i = 33) {j : Nat} (inside : j < 32) :
    (reflectLoop 32 rounds i ref value).toBitVec.getLsbD j =
      (value.toBitVec.getLsbD j ||
        (decide (j + i ≤ 32) && ref.toBitVec.getLsbD (32 - i - j))) := by
  induction rounds generalizing i ref value with
  | zero =>
    have none_ : ¬ j + i ≤ 32 := by omega
    simp [reflectLoop, none_]
  | succ rounds ih =>
    have next : (ref >>> 1).toBitVec = ref.toBitVec >>> 1 := by
      rw [UInt32.toBitVec_shiftRight]
      rfl
    have risen : (if ref &&& 1 ≠ 0 then value ||| 1 <<< UInt32.ofNat (32 - i)
        else value).toBitVec.getLsbD j =
          (value.toBitVec.getLsbD j || (decide (j + i = 32) && ref.toBitVec.getLsbD 0)) := by
      by_cases low : ref.toBitVec.getLsbD 0 = true
      · rw [if_pos ((and_one ref).mpr low), UInt32.toBitVec_or, toBitVec_one_shiftLeft (by omega),
          BitVec.getLsbD_or, BitVec.getLsbD_twoPow, low]
        have here : (32 - i = j) ↔ j + i = 32 := by omega
        have within : 32 - i < 32 := by omega
        simp [here, within]
      · rw [if_neg (mt (and_one ref).mp low), Bool.eq_false_of_not_eq_true low, Bool.and_false,
          Bool.or_false]
    rw [reflectLoop, ih (by omega) (by omega), risen, next, BitVec.getLsbD_ushiftRight]
    rcases Nat.lt_trichotomy (j + i) 32 with below | top | above
    · have back : 1 + (32 - (i + 1) - j) = 32 - i - j := by omega
      have le : j + i ≤ 32 := by omega
      have lt : j + (i + 1) ≤ 32 := by omega
      rw [back]
      simp [le, lt, below.ne]
    · have zero : 32 - i - j = 0 := by omega
      have lt : ¬ j + (i + 1) ≤ 32 := by omega
      simp [zero, top, lt]
    · have lt : ¬ j + (i + 1) ≤ 32 := by omega
      have le : ¬ j + i ≤ 32 := by omega
      have ne : ¬ j + i = 32 := by omega
      simp [lt, le, ne]

theorem toBitVec_reflect (x : UInt32) : (reflect x 32).toBitVec = x.toBitVec.reverse := by
  apply BitVec.eq_of_getLsbD_eq
  intro j inside
  have most : j + 1 ≤ 32 := by omega
  have mirror : 32 - 1 - j = 31 - j := by omega
  unfold reflect
  rw [getLsbD_reflectLoop (le_refl 1) rfl inside, BitVec.getLsbD_reverse, BitVec.getMsbD, mirror]
  simp [most, inside]

/-! ## The checksum -/

theorem reverse_poly : poly.toBitVec.reverse = reflectedPoly := by
  decide +kernel

/-- The checksum of the tool is what `crc32_le` yields, however the package is cut. -/
theorem swCrc32Calc_eq_crc32Le (pieces : List (List UInt8)) :
    swCrc32Calc pieces.flatten = pieces.foldl crc32Le 0 := by
  have whole : ∀ (pieces : List (List UInt8)) (crc : UInt32),
      pieces.foldl crc32Le crc = crc32Le crc pieces.flatten := by
    intro pieces
    induction pieces with
    | nil => exact fun crc => (crc32Le_nil crc).symm
    | cons piece pieces ih =>
      intro crc
      rw [List.foldl_cons, ih, crc32Le_append, List.flatten_cons]
  have ones : (0xFFFFFFFF : UInt32).toBitVec.reverse = (0xFFFFFFFF : UInt32).toBitVec := by
    decide +kernel
  have start : ~~~(0 : UInt32) = 0xFFFFFFFF := by decide
  have reflected : reflect (pieces.flatten.foldl crcByte 0xFFFFFFFF) 32 =
      crc32LeLoop 0xFFFFFFFF pieces.flatten := by
    apply UInt32.toBitVec_inj.mp
    rw [toBitVec_reflect, toBitVec_foldl_crcByte, reverse_foldl_upBit, reverse_poly, ones,
      ← toBitVec_crc32LeLoop]
  rw [whole, swCrc32Calc, reflected, crc32Le, start]
  exact UInt32.xor_neg_one

end SwCrc32

end Tr6260
