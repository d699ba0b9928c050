import Mathlib.Algebra.GroupWithZero.Nat
import Mathlib.Algebra.Order.Group.Int
import Mathlib.Data.UInt

/-!
# Suffixes of a text in their order

`Shares text h p q`: the `h` entries from `p` on are those from `q` on. What follows them then
decides which suffix is first, and what they share with it doubles what the two share.
Offsets are integers, as in the arrays that hold them.
-/

namespace SuffixOrder

variable {α : Type} {text : List α} {c d : α} {h k p q : Int}

/-- The suffix from an offset on. -/
def suffix (text : List α) (p : Int) : List α := text.drop p.toNat

/-- The same `h` entries follow at both offsets. -/
def Shares (text : List α) (h p q : Int) : Prop :=
  ∃ word : List α, (word.length : Int) = h ∧
    suffix text p = word ++ suffix text (p + h) ∧ suffix text q = word ++ suffix text (q + h)

theorem length_suffix (low : 0 ≤ p) (high : p ≤ text.length) :
    ((suffix text p).length : Int) = text.length - p := by
  rw [suffix, List.length_drop]
  omega

theorem suffix_eq_cons (low : 0 ≤ p) (at_ : text[p.toNat]? = some c) :
    suffix text p = c :: suffix text (p + 1) := by
  have next : (p + 1).toNat = p.toNat + 1 := by omega
  rcases List.getElem?_eq_some_iff.mp at_ with ⟨inside, rfl⟩
  rw [suffix, suffix, next]
  exact List.drop_eq_getElem_cons inside

theorem suffix_end : suffix text text.length = [] := by
  apply List.drop_eq_nil_of_le
  omega

namespace Shares

/-- One entry. -/
theorem one (lowP : 0 ≤ p) (lowQ : 0 ≤ q) (atP : text[p.toNat]? = some c)
    (atQ : text[q.toNat]? = some c) : Shares text 1 p q :=
  ⟨[c], rfl, suffix_eq_cons lowP atP, suffix_eq_cons lowQ atQ⟩

theorem add (first : Shares text h p q) (second : Shares text k (p + h) (q + h)) :
    Shares text (h + k) p q := by
  rcases first with ⟨word, length, left, right⟩
  rcases second with ⟨word', length', left', right'⟩
  refine ⟨word ++ word', ?_, ?_, ?_⟩
  · rw [List.length_append, Nat.cast_add, length, length']
  · rw [left, left', List.append_assoc, add_assoc]
  · rw [right, right', List.append_assoc, add_assoc]

/-- What is shared is in the text. -/
theorem within (shares : Shares text h p q) (low : 0 ≤ p) (high : p ≤ text.length) :
    p + h ≤ text.length := by
  rcases shares with ⟨word, length, left, -⟩
  have whole := congrArg List.length left
  rw [List.length_append] at whole
  have before := length_suffix low high
  omega

theorem lt [LT α] (shares : Shares text h p q)
    (after : suffix text (p + h) < suffix text (q + h)) : suffix text p < suffix text q := by
  rcases shares with ⟨word, -, left, right⟩
  rw [left, right]
  exact List.append_left_lt after

end Shares

theorem suffix_lt_of_entry_lt [LT α] (lowP : 0 ≤ p) (lowQ : 0 ≤ q)
    (atP : text[p.toNat]? = some c) (atQ : text[q.toNat]? = some d) (less : c < d) :
    suffix text p < suffix text q := by
  rw [suffix_eq_cons lowP atP, suffix_eq_cons lowQ atQ]
  exact List.cons_lt_cons_iff.mpr (.inl less)

theorem suffix_end_lt [LT α] (low : 0 ≤ p) (high : p < text.length) :
    suffix text text.length < suffix text p := by
  have inside : p.toNat < text.length := by omega
  rw [suffix_end, suffix_eq_cons low (List.getElem?_eq_getElem inside)]
  exact List.nil_lt_cons _ _

end SuffixOrder
