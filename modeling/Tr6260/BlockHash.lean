import Mathlib.Data.List.Basic

/-!
# A text taken block by block

`chain` goes through the whole blocks of a text. A text that comes in pieces is taken as far as its
blocks are whole, and what is left goes in front of the next piece (`chain_step`).
-/

namespace BlockHash

variable {σ α : Type*} {f : σ → List α → σ} {size : Nat}

/-- `count` blocks of a text, one after the other. -/
def chain (f : σ → List α → σ) (size : Nat) : Nat → σ → List α → σ
  | 0, s, _ => s
  | count + 1, s, text => chain f size count (f s (text.take size)) (text.drop size)

/-- How much of a text stands in whole blocks. -/
def taken (size : Nat) (text : List α) : Nat := text.length / size * size

theorem chain_add (count more : Nat) (s : σ) (text : List α) :
    chain f size (count + more) s text =
      chain f size more (chain f size count s text) (text.drop (count * size)) := by
  induction count generalizing s text with
  | zero => rw [Nat.zero_add, Nat.zero_mul, List.drop_zero, chain]
  | succ count ih =>
    rw [Nat.succ_add, chain, ih, List.drop_drop, chain, Nat.succ_mul, Nat.add_comm size]

/-- What stands behind the blocks does not count. -/
theorem chain_append {count : Nat} {text : List α} (whole : count * size ≤ text.length) (s : σ)
    (more : List α) : chain f size count s (text ++ more) = chain f size count s text := by
  induction count generalizing s text with
  | zero => rfl
  | succ count ih =>
    rw [Nat.succ_mul] at whole
    rw [chain, chain, List.take_append_of_le_length (by omega),
      List.drop_append_of_le_length (by omega), ih (by rw [List.length_drop]; omega)]

theorem taken_le (size : Nat) (text : List α) : taken size text ≤ text.length :=
  Nat.div_mul_le_self ..

theorem length_drop_taken (size : Nat) (text : List α) :
    (text.drop (taken size text)).length = text.length % size := by
  rw [List.length_drop, taken, Nat.mod_eq_sub_div_mul]

/-- Only the blocks count. -/
theorem chain_take {count : Nat} {text : List α} (whole : count * size ≤ text.length) (s : σ) :
    chain f size count s (text.take (count * size)) = chain f size count s text := by
  have length : count * size = (text.take (count * size)).length := by
    rw [List.length_take, Nat.min_eq_left whole]
  have split := chain_append (f := f) (Nat.le_of_eq length) s (text.drop (count * size))
  rw [List.take_append_drop] at split
  exact split.symm

/-- What is left of a text goes in front of what comes. -/
theorem chain_behind (got more : List α) (count : Nat) (s : σ) :
    chain f size (got.length / size + count) s (got ++ more) =
      chain f size count (chain f size (got.length / size) s got)
        (got.drop (taken size got) ++ more) := by
  have whole := taken_le size got
  rw [chain_add, chain_append whole, ← taken, List.drop_append_of_le_length whole]

/-- A piece that fills the block that was begun: that block, and the blocks of the rest. -/
theorem chain_step {got piece : List α} {begun : List α}
    (begins : got.drop (taken size got) = begun) (pos : 0 < size) (count : Nat) (s : σ) :
    chain f size (got.length / size + 1 + count) s (got ++ piece) =
      chain f size count
        (f (chain f size (got.length / size) s got) (begun ++ piece.take (size - begun.length)))
        (piece.drop (size - begun.length)) := by
  have less : begun.length < size := by
    rw [← begins, length_drop_taken]
    exact Nat.mod_lt _ pos
  rw [Nat.add_assoc, chain_behind, begins, Nat.add_comm 1, chain, List.take_append,
    List.drop_append, List.take_of_length_le (Nat.le_of_lt less),
    List.drop_of_length_le (Nat.le_of_lt less), List.nil_append]

end BlockHash
