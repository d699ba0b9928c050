import Mathlib.Data.Nat.Init
import Mathlib.Data.List.Basic
import Mathlib.Tactic.SplitIfs

/-!
# Registers that bits come into at the top

A bit shifts the register down and becomes its highest one. After as many bits as it is wide, the
register holds the number of these bits, the first of them the lowest; after fewer of them it holds
the number shifted up by those that are missing.
-/

namespace ShiftRegister

variable {w : Nat}

/-- Shift down, with the bit at the top. -/
def shiftIn (x : BitVec w) (b : Bool) : BitVec w := (BitVec.cons b x).extractLsb' 1 w

/-- The lowest `n` bits, the lowest first. -/
def lowBits (x : BitVec w) (n : Nat) : List Bool := (List.range n).map x.getLsbD

theorem length_lowBits (x : BitVec w) (n : Nat) : (lowBits x n).length = n := by
  rw [lowBits, List.length_map, List.length_range]

theorem take_lowBits (x : BitVec w) {m n : Nat} (le : m ≤ n) :
    (lowBits x n).take m = lowBits x m := by
  rw [lowBits, ← List.map_take, List.take_range, Nat.min_eq_left le, lowBits]

theorem getD_lowBits (x : BitVec w) {i n : Nat} (lt : i < n) :
    (lowBits x n).getD i false = x.getLsbD i := by
  unfold lowBits
  rw [List.getD_eq_getElem?_getD, List.getElem?_map, List.getElem?_range lt]
  rfl

theorem getLsbD_shiftIn (x : BitVec w) (b : Bool) (i : Nat) :
    (shiftIn x b).getLsbD i = (decide (i < w) && if 1 + i = w then b else x.getLsbD (1 + i)) := by
  rw [shiftIn, BitVec.getLsbD_extractLsb', BitVec.getLsbD_cons]

theorem shiftIn_false (x : BitVec w) : shiftIn x false = x >>> 1 := by
  apply BitVec.eq_of_getLsbD_eq
  intro i inside
  rw [getLsbD_shiftIn, BitVec.getLsbD_ushiftRight]
  split_ifs with top
  · simp [BitVec.getLsbD_of_ge x (1 + i) (by omega)]
  · simp [inside]

theorem shiftIn_true (x : BitVec w) : shiftIn x true = x >>> 1 ||| BitVec.intMin w := by
  apply BitVec.eq_of_getLsbD_eq
  intro i inside
  rw [getLsbD_shiftIn, BitVec.getLsbD_or, BitVec.getLsbD_ushiftRight, BitVec.getLsbD_intMin,
    Nat.add_comm i 1]
  by_cases top : 1 + i = w
  · simp [top, inside]
  · simp [top, inside]

/-- The bits of a register that some more have come into. -/
theorem getLsbD_foldl_shiftIn (bits : List Bool) (x : BitVec w) (i : Nat) :
    (bits.foldl shiftIn x).getLsbD i = (decide (i < w) &&
      if i + bits.length < w then x.getLsbD (i + bits.length)
      else bits.getD (i + bits.length - w) false) := by
  induction bits generalizing x with
  | nil =>
    by_cases inside : i < w
    · simp [inside]
    · simp [inside, BitVec.getLsbD_of_ge x i (Nat.not_lt.mp inside)]
  | cons b bits ih =>
    have one : 1 + (i + bits.length) = i + (bits.length + 1) := by omega
    rw [List.foldl_cons, ih, getLsbD_shiftIn, List.length_cons, one]
    rcases Nat.lt_trichotomy (i + (bits.length + 1)) w with before | at_ | behind
    · have inside : i + bits.length < w := by omega
      have other : i + (bits.length + 1) ≠ w := by omega
      simp [inside, other, before]
    · have inside : i + bits.length < w := by omega
      simp [inside, at_]
    · have outside : ¬ i + bits.length < w := by omega
      have outside' : ¬ i + (bits.length + 1) < w := by omega
      have next : i + (bits.length + 1) - w = i + bits.length - w + 1 := by omega
      rw [if_neg outside, if_neg outside', next, List.getD_cons_succ]

/-- The lowest bits of a number lie at the top. -/
theorem foldl_lowBits (x : BitVec w) {n : Nat} (le : n ≤ w) :
    (lowBits x n).foldl shiftIn 0 = x <<< (w - n) := by
  apply BitVec.eq_of_getLsbD_eq
  intro i inside
  rw [getLsbD_foldl_shiftIn, BitVec.getLsbD_shiftLeft, length_lowBits]
  by_cases below : i + n < w
  · have missing : i < w - n := by omega
    simp [inside, below, missing]
  · have behind : ¬ i < w - n := by omega
    have same : i - (w - n) = i + n - w := by omega
    rw [if_neg below, getD_lowBits x (by omega), same]
    simp [inside, behind]

/-- All bits of a number give it back. -/
theorem foldl_lowBits_all (x : BitVec w) : (lowBits x w).foldl shiftIn 0 = x := by
  rw [foldl_lowBits x (Nat.le_refl w), Nat.sub_self, BitVec.shiftLeft_zero]

/-- As many bits as the register is wide. -/
theorem foldl_shiftIn_full {bits : List Bool} (full : bits.length = w) :
    bits.foldl shiftIn 0 = (BitVec.ofBoolListLE bits).setWidth w := by
  subst full
  apply BitVec.eq_of_getLsbD_eq
  intro i inside
  have outside : ¬ i + bits.length < bits.length := by omega
  rw [getLsbD_foldl_shiftIn, if_neg outside, Nat.add_sub_cancel, BitVec.getLsbD_setWidth,
    BitVec.getLsbD_ofBoolListLE]

/-- Low bits that stay the same when a number is shifted up are zero. -/
theorem getLsbD_of_shiftLeft_same {x : BitVec w} {k n : Nat} (pos : 0 < k)
    (same : ∀ i < n, (x <<< k).getLsbD i = x.getLsbD i) {i : Nat} (low : i < n) :
    x.getLsbD i = false := by
  induction i using Nat.strong_induction_on with
  | h i ih =>
    rw [← same i low, BitVec.getLsbD_shiftLeft]
    by_cases below : i < k
    · simp [below]
    · simp [ih (i - k) (by omega) (by omega)]

/-- Only zero stays itself when it is shifted up. -/
theorem shiftLeft_eq_self_iff (x : BitVec w) (k : Nat) : x <<< k = x ↔ k = 0 ∨ x = 0 := by
  constructor
  · intro same
    rcases Nat.eq_zero_or_pos k with zero | pos
    · exact .inl zero
    · right
      apply BitVec.eq_of_getLsbD_eq
      intro i inside
      rw [getLsbD_of_shiftLeft_same pos (fun i _ => by rw [same]) inside]
      exact BitVec.getLsbD_zero.symm
  · intro none_
    cases none_ with
    | inl zero => rw [zero, BitVec.shiftLeft_zero]
    | inr zero =>
      rw [zero]
      exact BitVec.zero_shiftLeft k

end ShiftRegister
