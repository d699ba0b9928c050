import Mathlib.Data.Nat.Digits.Defs
import Mathlib.Data.Nat.Digits.Lemmas
import Mathlib.Logic.Function.Iterate

/-!
# Cyclic checks

A register that is shifted up, with a polynomial added where a bit leaves at the top, is the mirror
image of one that is shifted down. The register that is shifted down is linear, so that several bits
may come in before the shifts (`foldl_downBit`), and what lies above them only moves down
(`iterate_down_split`): a table of the low part does as many shifts at once. No shift loses
anything when the polynomial has its top bit, and then the register tells apart what differs in a
burst that is no longer than the register (`Burst.found`).
-/

namespace CyclicCheck

variable {w : Nat}

/-- Shift down. -/
def down (q r : BitVec w) : BitVec w := r >>> 1 ^^^ if r.getLsbD 0 then q else 0

/-- Shift down, and let a bit in. -/
def downBit (q r : BitVec w) (b : Bool) : BitVec w := down q r ^^^ if b then q else 0

/-- Shift up. -/
def up (p r : BitVec w) : BitVec w := r <<< 1 ^^^ if r.msb then p else 0

/-- Shift up, and let a bit in. -/
def upBit (p r : BitVec w) (b : Bool) : BitVec w := up p r ^^^ if b then p else 0

/-- The number of some bits, the first of them the lowest. -/
def value (bits : List Bool) : Nat := Nat.ofDigits 2 (bits.map Bool.toNat)

def ofBits (bits : List Bool) : BitVec w := BitVec.ofNat w (value bits)

/-! ## Mirror images -/

theorem reverse_xor (x y : BitVec w) : (x ^^^ y).reverse = x.reverse ^^^ y.reverse := by
  apply BitVec.eq_of_getLsbD_eq
  intro i inside
  simp [BitVec.getLsbD_reverse, BitVec.getMsbD_xor]

theorem reverse_shiftLeft (x : BitVec w) : (x <<< 1).reverse = x.reverse >>> 1 := by
  apply BitVec.eq_of_getLsbD_eq
  intro i inside
  rw [BitVec.getLsbD_reverse, BitVec.getMsbD_shiftLeft, BitVec.getLsbD_ushiftRight,
    BitVec.getLsbD_reverse, Nat.add_comm]

theorem reverse_ite (b : Bool) (p : BitVec w) :
    (if b then p else 0).reverse = if b then p.reverse else 0 := by
  cases b with
  | false =>
    apply BitVec.eq_of_getLsbD_eq
    intro i inside
    simp [BitVec.getLsbD_reverse]
  | true => rfl

theorem reverse_up (p r : BitVec w) : (up p r).reverse = down p.reverse r.reverse := by
  have top : r.msb = r.reverse.getLsbD 0 := by
    rw [BitVec.getLsbD_reverse]
    rfl
  rw [up, down, reverse_xor, reverse_shiftLeft, reverse_ite, top]

theorem reverse_upBit (p r : BitVec w) (b : Bool) :
    (upBit p r b).reverse = downBit p.reverse r.reverse b := by
  rw [upBit, downBit, reverse_xor, reverse_up, reverse_ite]

/-- The mirror image of a run. -/
theorem reverse_foldl_upBit (p r : BitVec w) (bits : List Bool) :
    (bits.foldl (upBit p) r).reverse = bits.foldl (downBit p.reverse) r.reverse := by
  induction bits generalizing r with
  | nil => rfl
  | cons b bits ih =>
    rw [List.foldl_cons, List.foldl_cons, ih, reverse_upBit]

/-! ## Linearity -/

theorem ite_xor (q : BitVec w) (a b : Bool) :
    (if a ^^ b then q else 0) = (if a then q else 0) ^^^ if b then q else 0 := by
  cases a with
  | false => simp
  | true => cases b <;> simp

theorem down_xor (q x y : BitVec w) : down q (x ^^^ y) = down q x ^^^ down q y := by
  unfold down
  rw [BitVec.ushiftRight_xor_distrib, BitVec.getLsbD_xor, ite_xor]
  ac_rfl

theorem iterate_down_xor (q x y : BitVec w) (n : Nat) :
    (down q)^[n] (x ^^^ y) = (down q)^[n] x ^^^ (down q)^[n] y := by
  induction n generalizing x y with
  | zero => rfl
  | succ n ih => rw [Function.iterate_succ_apply, down_xor, ih, ← Function.iterate_succ_apply,
      ← Function.iterate_succ_apply]

/-- What was shifted up comes down again, unless a bit was lost. -/
theorem down_shiftLeft (q : BitVec w) {x : BitVec w} (kept : x <<< 1 >>> 1 = x) :
    down q (x <<< 1) = x := by
  unfold down
  rw [kept]
  simp

/-- The high part moves down. -/
theorem iterate_down_high (q x : BitVec w) (n : Nat) :
    (down q)^[n] (x >>> n <<< n) = x >>> n := by
  induction n generalizing x with
  | zero => simp
  | succ n ih =>
    have split : x >>> (n + 1) <<< (n + 1) = (x >>> 1 >>> n <<< n) <<< 1 := by
      rw [← BitVec.shiftRight_add, ← BitVec.shiftLeft_add, Nat.add_comm 1 n]
    have kept : (x >>> 1 >>> n <<< n) <<< 1 >>> 1 = x >>> 1 >>> n <<< n := by
      apply BitVec.eq_of_getLsbD_eq
      intro i inside
      simp only [BitVec.getLsbD_ushiftRight, BitVec.getLsbD_shiftLeft]
      by_cases top : 1 + i < w
      · have above : i + 1 < w := by omega
        simp [inside, Nat.add_comm 1 i, above]
      · have out : x.getLsbD (1 + (n + (i - n))) = false := BitVec.getLsbD_of_ge x _ (by omega)
        simp [top, inside, out]
    rw [split, Function.iterate_succ_apply, down_shiftLeft q kept, ih, ← BitVec.shiftRight_add,
      Nat.add_comm 1 n]

theorem low_xor_high (x : BitVec w) (n : Nat) :
    x = (x ^^^ x >>> n <<< n) ^^^ x >>> n <<< n := by
  rw [BitVec.xor_assoc, BitVec.xor_self, BitVec.xor_zero]

/-- As many shifts as the low part has bits: a value of the low part, and the high part. -/
theorem iterate_down_split (q x : BitVec w) (n : Nat) :
    (down q)^[n] x = (down q)^[n] (x ^^^ x >>> n <<< n) ^^^ x >>> n := by
  have whole := iterate_down_xor q (x ^^^ x >>> n <<< n) (x >>> n <<< n) n
  rw [← low_xor_high, iterate_down_high] at whole
  exact whole

/-! ## Bits that come in -/

theorem value_cons (b : Bool) (bits : List Bool) : value (b :: bits) = b.toNat + 2 * value bits :=
  Nat.ofDigits_cons

theorem value_append (front back : List Bool) :
    value (front ++ back) = value front + 2 ^ front.length * value back := by
  rw [value, List.map_append, Nat.ofDigits_append, List.length_map]
  rfl

theorem binary (bits : List Bool) : ∀ digit ∈ bits.map Bool.toNat, digit < 2 := by
  intro digit member
  rcases List.mem_map.mp member with ⟨b, -, rfl⟩
  exact Bool.toNat_lt b

theorem value_lt (bits : List Bool) : value bits < 2 ^ bits.length := by
  have small := Nat.ofDigits_lt_base_pow_length (by decide) (binary bits)
  rwa [List.length_map] at small

theorem value_inj {bits bits' : List Bool} (same : bits.length = bits'.length)
    (equal : value bits = value bits') : bits = bits' := by
  have digits := Nat.ofDigits_inj_of_len_eq (by decide)
    (by rw [List.length_map, List.length_map, same]) (binary bits) (binary bits') equal
  have injective : ∀ a b : Bool, a.toNat = b.toNat → a = b := by decide
  exact List.map_injective_iff.mpr injective digits

theorem toNat_ofBits {bits : List Bool} (short : bits.length ≤ w) :
    (ofBits bits : BitVec w).toNat = value bits :=
  Nat.mod_eq_of_lt (lt_of_lt_of_le (value_lt bits) (Nat.pow_le_pow_right (by decide) short))

theorem ofBits_inj {bits bits' : List Bool} (same : bits.length = bits'.length)
    (short : bits.length ≤ w) (equal : (ofBits bits : BitVec w) = ofBits bits') : bits = bits' := by
  have values := congrArg BitVec.toNat equal
  rw [toNat_ofBits short, toNat_ofBits (same ▸ short)] at values
  exact value_inj same values

theorem getLsbD_ofBits (bits : List Bool) (i : Nat) (long : bits.length ≤ i) :
    (ofBits bits : BitVec w).getLsbD i = false := by
  have above : (value bits).testBit i = false :=
    Nat.testBit_lt_two_pow
      (lt_of_lt_of_le (value_lt bits) (Nat.pow_le_pow_right (by decide) long))
  rw [ofBits, BitVec.getLsbD_ofNat, above, Bool.and_false]

/-- The first bit, and the others above it. -/
theorem ofBits_cons (b : Bool) (bits : List Bool) :
    (ofBits (b :: bits) : BitVec w) = (if b then 1#w else 0#w) ^^^ ofBits bits <<< 1 := by
  apply BitVec.eq_of_getLsbD_eq
  intro i inside
  rw [ofBits, ofBits, BitVec.getLsbD_xor, BitVec.getLsbD_ofNat, BitVec.getLsbD_shiftLeft,
    BitVec.getLsbD_ofNat, value_cons]
  cases i with
  | zero => cases b <;> simp [inside]
  | succ i =>
    have half : (b.toNat + 2 * value bits) / 2 = value bits := by
      have small := Bool.toNat_lt b
      omega
    have within : i < w := by omega
    rw [Nat.testBit_succ, half]
    cases b <;> simp [inside, within]

theorem downBit_eq (q r : BitVec w) (b : Bool) :
    downBit q r b = down q (r ^^^ if b then 1#w else 0#w) := by
  rcases Nat.eq_zero_or_pos w with rfl | pos
  · apply BitVec.eq_of_getLsbD_eq
    intro i inside
    omega
  · rw [down_xor, downBit]
    cases b with
    | false => simp [down]
    | true =>
      have one : down q (1#w) = q := by
        have zero : 1#w >>> 1 = 0#w := by
          apply BitVec.eq_of_getLsbD_eq
          intro i inside
          rw [BitVec.getLsbD_ushiftRight, BitVec.getLsbD_one]
          simp
        unfold down
        rw [zero]
        simp [pos]
      rw [if_pos rfl, if_pos rfl, one]

/-- Bits may come in before the shifts. -/
theorem foldl_downBit (q r : BitVec w) {bits : List Bool} (short : bits.length ≤ w) :
    bits.foldl (downBit q) r = (down q)^[bits.length] (r ^^^ ofBits bits) := by
  induction bits generalizing r with
  | nil => simp [ofBits, value]
  | cons b bits ih =>
    rw [List.length_cons] at short
    have kept : (ofBits bits : BitVec w) <<< 1 >>> 1 = ofBits bits := by
      apply BitVec.eq_of_getLsbD_eq
      intro i inside
      rw [BitVec.getLsbD_ushiftRight, BitVec.getLsbD_shiftLeft]
      by_cases top : 1 + i < w
      · simp [top]
      · have out : (ofBits bits : BitVec w).getLsbD i = false := getLsbD_ofBits bits i (by omega)
        simp [top, out]
    rw [List.foldl_cons, ih _ (by omega), downBit_eq, List.length_cons,
      Function.iterate_succ_apply, ofBits_cons, ← BitVec.xor_assoc,
      down_xor q _ (ofBits bits <<< 1), down_shiftLeft q kept]

/-! ## Nothing is lost -/

/-- A shift with a polynomial that has its top bit can be taken back. -/
theorem down_injective {q : BitVec w} (top : q.msb = true) : Function.Injective (down q) := by
  intro x y equal
  have zero : down q (x ^^^ y) = 0#w := by
    rw [down_xor, equal, BitVec.xor_self]
  have pos : 0 < w := by
    rcases Nat.eq_zero_or_pos w with rfl | pos
    · rw [BitVec.msb_zero_length] at top
      exact absurd top Bool.false_ne_true
    · exact pos
  have low : (x ^^^ y).getLsbD 0 = false := by
    by_contra set
    have set := Bool.eq_true_of_not_eq_false set
    have last := congrArg (fun v : BitVec w => v.getLsbD (w - 1)) zero
    have out : (x ^^^ y).getLsbD (1 + (w - 1)) = false := BitVec.getLsbD_of_ge _ _ (by omega)
    rw [BitVec.msb_eq_getLsbD_last] at top
    simp only [down, set, if_true, BitVec.getLsbD_xor, BitVec.getLsbD_ushiftRight] at last out
    simp [top, out] at last
  have moved : (x ^^^ y) >>> 1 = 0#w := by
    rw [← zero, down, low]
    exact BitVec.xor_zero.symm
  have same : x ^^^ y = 0#w := by
    apply BitVec.eq_of_getLsbD_eq
    intro i inside
    cases i with
    | zero => rw [low, BitVec.getLsbD_zero]
    | succ i =>
      rw [Nat.add_comm, ← BitVec.getLsbD_ushiftRight, moved, BitVec.getLsbD_zero,
        BitVec.getLsbD_zero]
  exact BitVec.xor_eq_zero_iff.mp same

theorem foldl_downBit_injective {q : BitVec w} (top : q.msb = true) (bits : List Bool) :
    Function.Injective fun r => bits.foldl (downBit q) r := by
  induction bits with
  | nil => exact Function.injective_id
  | cons b bits ih =>
    intro x y equal
    have step : downBit q x b = downBit q y b := ih equal
    rw [downBit_eq, downBit_eq] at step
    exact (BitVec.xor_left_inj _).mp (down_injective top step)

/-- Two texts of bits that differ, and only within `n` bits. -/
structure Burst (n : Nat) (text text' : List Bool) : Prop where
  differ : text ≠ text'
  within : ∃ front middle middle' back,
    text = front ++ middle ++ back ∧ text' = front ++ middle' ++ back ∧
      middle.length = middle'.length ∧ middle.length ≤ n

theorem Burst.length {n : Nat} {text text' : List Bool} (burst : Burst n text text') :
    text.length = text'.length := by
  rcases burst.within with ⟨front, middle, middle', back, rfl, rfl, same, -⟩
  simp only [List.length_append, same]

/-- The register tells the two texts of a burst apart. -/
theorem Burst.found {q : BitVec w} (top : q.msb = true) {text text' : List Bool}
    (burst : Burst w text text') (r : BitVec w) :
    text.foldl (downBit q) r ≠ text'.foldl (downBit q) r := by
  intro equal
  rcases burst.within with ⟨front, middle, middle', back, rfl, rfl, same, short⟩
  rw [List.foldl_append, List.foldl_append, List.foldl_append, List.foldl_append] at equal
  have behind := foldl_downBit_injective top back equal
  generalize front.foldl (downBit q) r = r at behind
  rw [foldl_downBit q r short, foldl_downBit q r (same ▸ short), same] at behind
  have words := (BitVec.xor_right_inj _).mp ((down_injective top).iterate _ behind)
  exact burst.differ (by rw [ofBits_inj same short words])

end CyclicCheck
