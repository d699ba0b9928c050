import Tr6260.CyclicCheck
import Tr6260.OtaHal.Accept

/-!
# The checksum of an image

`crc32_le` is a shift register that the bits of the image go into (`toBitVec_crc32LeLoop`). A whole
image, with the checksum at its end, leaves the same word in it whatever it holds (`intact_iff`), so
that a burst of up to 32 bits is always noticed, also in the length and in the checksum.
-/

namespace Tr6260

namespace OtaHal

open CyclicCheck ByteMem

/-- The bits of a byte, the lowest one first. -/
def bitsOf (byte : UInt8) : List Bool := (List.range 8).map byte.toBitVec.getLsbD

/-- The polynomial of the table. -/
def reflectedPoly : BitVec 32 := 0xEDB88320

/-! ## The bits -/

theorem length_bitsOf (byte : UInt8) : (bitsOf byte).length = 8 := by
  rw [bitsOf, List.length_map, List.length_range]

theorem value_bitsOf (byte : UInt8) : value (bitsOf byte) = byte.toNat := by
  have all : ∀ n : Fin 256, value (bitsOf (UInt8.ofNat n)) = n := by
    decide +kernel
  have here := all ⟨byte.toNat, byte.toNat_lt⟩
  rwa [UInt8.ofNat_toNat] at here

theorem length_bits (bytes : List UInt8) : (bytes.flatMap bitsOf).length = 8 * bytes.length := by
  induction bytes with
  | nil => rfl
  | cons byte bytes ih =>
    rw [List.flatMap_cons, List.length_append, length_bitsOf, ih, List.length_cons]
    omega

theorem value_bits (bytes : List UInt8) : value (bytes.flatMap bitsOf) = leNat bytes := by
  induction bytes with
  | nil => rfl
  | cons byte bytes ih =>
    rw [List.flatMap_cons, value_append, length_bitsOf, value_bitsOf, ih, leNat]
    rfl

/-! ## The table -/

/-- The table holds eight shifts of every byte. -/
theorem crc32LeTable_getD {n : Nat} (small : n < 256) :
    (crc32LeTable.getD n 0).toBitVec = (down reflectedPoly)^[8] (BitVec.ofNat 32 n) := by
  have all : ∀ n : Fin 256, (crc32LeTable.getD n 0).toBitVec =
      (down reflectedPoly)^[8] (BitVec.ofNat 32 n) := by
    decide +kernel
  exact all ⟨n, small⟩

theorem low_byte (x : BitVec 32) : x ^^^ x >>> 8 <<< 8 = x &&& 0xFF#32 := by
  have ones (i : Nat) : (0xFF#32).getLsbD i = decide (i < 8) := by
    have same : (0xFF#32) = (BitVec.allOnes 8).setWidth 32 := by decide
    rw [same, BitVec.getLsbD_setWidth, BitVec.getLsbD_allOnes]
    by_cases low : i < 8
    · have inside : i < 32 := by omega
      simp [low, inside]
    · simp [low]
  apply BitVec.eq_of_getLsbD_eq
  intro i inside
  rw [BitVec.getLsbD_xor, BitVec.getLsbD_shiftLeft, BitVec.getLsbD_ushiftRight,
    BitVec.getLsbD_and, ones]
  by_cases low : i < 8
  · simp [low]
  · have back : 8 + (i - 8) = i := by omega
    simp [low, inside, back]

/-- A byte is looked up instead of shifted in. -/
theorem toBitVec_crc32LeLoop_one (crc : UInt32) (byte : UInt8) :
    (crc32LeLoop crc [byte]).toBitVec =
      (bitsOf byte).foldl (downBit reflectedPoly) crc.toBitVec := by
  have word : ofBits (bitsOf byte) = byte.toUInt32.toBitVec := by
    rw [ofBits, value_bitsOf]
    apply BitVec.eq_of_toNat_eq
    have small := byte.toNat_lt
    rw [BitVec.toNat_ofNat, UInt32.toNat_toBitVec, UInt8.toNat_toUInt32]
    omega
  have index : ((crc ^^^ byte.toUInt32) &&& 0xFF).toNat < 256 := by
    rw [UInt32.toNat_and]
    exact Nat.lt_succ_of_le Nat.and_le_right
  have high : byte.toUInt32.toBitVec >>> 8 = 0#32 := by
    apply BitVec.eq_of_toNat_eq
    have small := byte.toNat_lt
    simp [BitVec.toNat_ushiftRight, Nat.shiftRight_eq_div_pow]
    omega
  have moved : (crc.toBitVec ^^^ byte.toUInt32.toBitVec) >>> 8 = (crc >>> 8).toBitVec := by
    rw [BitVec.ushiftRight_xor_distrib, high, BitVec.xor_zero, UInt32.toBitVec_shiftRight]
    rfl
  have entry : BitVec.ofNat 32 ((crc ^^^ byte.toUInt32) &&& 0xFF).toNat =
      (crc.toBitVec ^^^ byte.toUInt32.toBitVec) &&& 0xFF#32 :=
    BitVec.eq_of_toNat_eq (Nat.mod_eq_of_lt (UInt32.toNat_lt _))
  have short : (bitsOf byte).length ≤ 32 := by
    rw [length_bitsOf]
    decide
  rw [foldl_downBit _ _ short, length_bitsOf, word, iterate_down_split, low_byte, moved,
    crc32LeLoop, List.foldl_cons, List.foldl_nil, UInt32.toBitVec_xor, crc32LeTable_getD index,
    entry]

theorem toBitVec_crc32LeLoop (crc : UInt32) (bytes : List UInt8) :
    (crc32LeLoop crc bytes).toBitVec =
      (bytes.flatMap bitsOf).foldl (downBit reflectedPoly) crc.toBitVec := by
  induction bytes generalizing crc with
  | nil => rfl
  | cons byte bytes ih =>
    rw [List.flatMap_cons, List.foldl_append, ← toBitVec_crc32LeLoop_one, ← ih]
    rfl

/-! ## Bursts -/

theorem reflectedPoly_top : reflectedPoly.msb = true := by decide

/-- What a whole image leaves in the register. -/
def residue : BitVec 32 := (down reflectedPoly)^[32] (BitVec.allOnes 32)

/-- The checksum behind the bytes it is for takes the register to the residue. -/
theorem residue_iff (front tail : List UInt8) (four : tail.length = 4) :
    (crc32LeLoop 0 (front ++ tail)).toBitVec = residue ↔
      leNat tail = (crc32Le 0xFFFFFFFF front).toNat := by
  have start : ~~~(0xFFFFFFFF : UInt32) = 0 := by decide
  have length : (tail.flatMap bitsOf).length = 32 := by rw [length_bits, four]
  have number : leNat tail = (ofBits (tail.flatMap bitsOf) : BitVec 32).toNat := by
    rw [toNat_ofBits (Nat.le_of_eq length), value_bits]
  have split : crc32LeLoop 0 (front ++ tail) = crc32LeLoop (crc32LeLoop 0 front) tail :=
    List.foldl_append
  rw [split, toBitVec_crc32LeLoop, foldl_downBit _ _ (Nat.le_of_eq length), length, residue,
    ((down_injective reflectedPoly_top).iterate 32).eq_iff, number, crc32Le, start,
    ← UInt32.toNat_toBitVec, UInt32.toBitVec_not, BitVec.toNat_inj]
  generalize (crc32LeLoop 0 front).toBitVec = crc
  generalize (ofBits (tail.flatMap bitsOf) : BitVec 32) = word
  constructor
  · intro ones
    rw [← BitVec.xor_allOnes, ← ones, ← BitVec.xor_assoc, BitVec.xor_self, BitVec.zero_xor]
  · intro inverse
    rw [inverse, ← BitVec.xor_allOnes, ← BitVec.xor_assoc, BitVec.xor_self, BitVec.zero_xor]

theorem intact_iff (bytes : List UInt8) :
    Intact bytes ↔
      bytes.length = imageLen bytes + 8 ∧ (crc32LeLoop 0 bytes).toBitVec = residue := by
  refine and_congr_right fun length => ?_
  have four : (bytes.drop (imageLen bytes + 4)).length = 4 := by
    rw [List.length_drop]
    omega
  have whole := residue_iff (bytes.take (imageLen bytes + 4)) _ four
  rw [List.take_append_drop] at whole
  exact whole.symm

/-- Of two images that differ in a burst only one is intact. -/
theorem Intact.burst {image image' : List UInt8} (intact : Intact image)
    (burst : Burst 32 (image.flatMap bitsOf) (image'.flatMap bitsOf)) : ¬ Intact image' := by
  intro intact'
  have left := ((intact_iff image).mp intact).2
  have right := ((intact_iff image').mp intact').2
  rw [toBitVec_crc32LeLoop] at left right
  exact burst.found reflectedPoly_top _ (left.trans right.symm)

/-- No image that a burst of up to 32 bits was changed in starts the device again, however it comes
in. -/
theorem otaHal_burst_noticed {place : OtaPlace} {env : Lookup} {info : OperateInfo}
    (found : env.dataOta = place.entry) (data : info.otaPartion = 0) (some_ : 0 < place.len)
    (chip : place.len < 0xFF000000) (m : ByteMem) (calloc : Bool) {image : List UInt8}
    (intact : Intact image) (fits : image.length ≤ place.len) (chunks : List Chunk)
    (burst : Burst 32 (image.flatMap bitsOf)
      ((acceptable place.len chunks).flatMap bitsOf)) :
    (chunks.foldl Session.feed (Session.start env info m)).resets calloc = false := by
  have lengths := burst.length
  rw [length_bits, length_bits] at lengths
  rcases ((Receiving.start found data m).run rfl chunks).1 (by omega) with ⟨recv, taken⟩
  apply Bool.eq_false_of_not_eq_true
  intro resets
  have right := ((recv.resets_iff some_ chip calloc).mp resets).2
  rw [taken] at right
  exact intact.burst burst right

/-- The image of one byte with a bit of that byte changed, in one call. -/
def changedByteImage : List Chunk :=
  [⟨[0, 0, 0, 1, 0x40, 184, 191, 63, 231], [], by decide⟩]

theorem otaHal_burst_noticed_bit :
    (changedByteImage.foldl Session.feed
      (Session.start dataOtaLookup OperateInfo.zero fun _ => 0)).resets true = false :=
  @otaHal_burst_noticed dataOta dataOtaLookup OperateInfo.zero rfl rfl (by decide) (by decide) _
    true [0, 0, 0, 1, 0x41, 184, 191, 63, 231] (by decide +kernel) (by decide) changedByteImage
    ⟨by decide, [0, 0, 0, 1].flatMap bitsOf, [true], [false],
      (bitsOf 0x41).drop 1 ++ [184, 191, 63, 231].flatMap bitsOf,
      by decide, by decide, rfl, by decide⟩

end OtaHal

end Tr6260
