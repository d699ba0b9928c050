import Mathlib.Data.Finset.Card
import Mathlib.Data.Int.Interval
import Mathlib.Logic.Equiv.Set

/-!
# Entries moved within a range

`Rearranged range f g`: the array `g` has the entries of `f`, those of a range in another order.
What is counted over the range, or listed by it, is then the same.
-/

variable {ι β : Type} {range wide : Set ι} {f g k : ι → β} {i : ι}

/-- `g` is `f` with the entries of a range in another order. -/
def Rearranged (range : Set ι) (f g : ι → β) : Prop :=
  ∃ σ : Equiv.Perm ι, (∀ i ∉ range, σ i = i) ∧ g = f ∘ σ

/-- A permutation that moves nothing from outside a range keeps the range. -/
theorem Equiv.Perm.mem_iff_of_fixed {σ : Equiv.Perm ι} (fixed : ∀ i ∉ range, σ i = i) :
    σ i ∈ range ↔ i ∈ range := by
  constructor
  · intro inside
    by_contra outside
    rw [fixed i outside] at inside
    exact outside inside
  · intro inside
    by_contra outside
    have same := σ.injective (fixed (σ i) outside)
    rw [same] at outside
    exact outside inside

namespace Rearranged

theorem refl : Rearranged range f f := ⟨Equiv.refl ι, fun _ _ => rfl, rfl⟩

theorem trans (first : Rearranged range f g) (second : Rearranged range g k) :
    Rearranged range f k := by
  rcases first with ⟨σ, fixed, rfl⟩
  rcases second with ⟨τ, fixed', rfl⟩
  refine ⟨τ.trans σ, ?_, rfl⟩
  intro i outside
  rw [Equiv.trans_apply, fixed' i outside, fixed i outside]

theorem mono (rearranged : Rearranged range f g) (sub : range ⊆ wide) : Rearranged wide f g := by
  rcases rearranged with ⟨σ, fixed, rfl⟩
  exact ⟨σ, fun i outside => fixed i fun inside => outside (sub inside), rfl⟩

/-- The exchange of two entries. -/
theorem swap [DecidableEq ι] {a b : ι} (insideA : a ∈ range) (insideB : b ∈ range) :
    Rearranged range f (f ∘ Equiv.swap a b) := by
  refine ⟨Equiv.swap a b, ?_, rfl⟩
  intro i outside
  apply Equiv.swap_apply_of_ne_of_ne
  · intro same
    exact outside (same ▸ insideA)
  · intro same
    exact outside (same ▸ insideB)

theorem eq_outside (rearranged : Rearranged range f g) (outside : i ∉ range) : g i = f i := by
  rcases rearranged with ⟨σ, fixed, rfl⟩
  rw [Function.comp_apply, fixed i outside]

/-- A range that holds all that was moved lists the same entries. -/
theorem bijOn {entries : Set β} (rearranged : Rearranged range f g) (sub : range ⊆ wide)
    (lists : Set.BijOn f wide entries) : Set.BijOn g wide entries := by
  rcases rearranged.mono sub with ⟨σ, fixed, rfl⟩
  apply lists.comp
  refine ⟨fun i inside => (Equiv.Perm.mem_iff_of_fixed fixed).mpr inside, σ.injective.injOn, ?_⟩
  intro i inside
  refine ⟨σ.symm i, ?_, σ.apply_symm_apply i⟩
  rw [← Equiv.Perm.mem_iff_of_fixed fixed, σ.apply_symm_apply]
  exact inside

theorem image_eq (rearranged : Rearranged range f g) (sub : range ⊆ wide) :
    g '' wide = f '' wide := by
  rcases rearranged.mono sub with ⟨σ, fixed, rfl⟩
  ext x
  constructor
  · intro member
    rcases member with ⟨i, inside, rfl⟩
    exact ⟨σ i, (Equiv.Perm.mem_iff_of_fixed fixed).mpr inside, rfl⟩
  · intro member
    rcases member with ⟨i, inside, rfl⟩
    refine ⟨σ.symm i, ?_, congrArg f (σ.apply_symm_apply i)⟩
    rw [← Equiv.Perm.mem_iff_of_fixed fixed, σ.apply_symm_apply]
    exact inside

/-- As many entries of the range have a property as before. -/
theorem card_filter {s : Finset ι} (rearranged : Rearranged (s : Set ι) f g) (P : β → Prop)
    [DecidablePred P] : (s.filter fun i => P (g i)).card = (s.filter fun i => P (f i)).card := by
  rcases rearranged with ⟨σ, fixed, rfl⟩
  apply Finset.card_equiv σ
  intro i
  have kept : σ i ∈ s ↔ i ∈ s := by
    simpa using Equiv.Perm.mem_iff_of_fixed fixed
  rw [Finset.mem_filter, Finset.mem_filter, kept]
  rfl

end Rearranged

/-- Two ranges without a common index that have the property are counted by it. -/
theorem Finset.card_add_one_le_filter {s range : Finset ι} {P : ι → Prop} [DecidablePred P]
    (sub : range ⊆ s) (holds : ∀ i ∈ range, P i) (inside : i ∈ s) (other : i ∉ range)
    (holds' : P i) : range.card + 1 ≤ (s.filter P).card := by
  classical
  rw [← Finset.card_insert_of_notMem other]
  apply Finset.card_le_card
  intro x member
  rcases Finset.mem_insert.mp member with same | old
  · rw [same]
    exact Finset.mem_filter.mpr ⟨inside, holds'⟩
  · exact Finset.mem_filter.mpr ⟨sub old, holds x old⟩

/-- When a range is all that is counted, nothing else has the property. -/
theorem Finset.mem_of_card_filter_le {s range : Finset ι} {P : ι → Prop} [DecidablePred P]
    (sub : range ⊆ s) (holds : ∀ i ∈ range, P i) (count : (s.filter P).card ≤ range.card)
    (inside : i ∈ s) (holds' : P i) : i ∈ range := by
  by_contra other
  have more := Finset.card_add_one_le_filter sub holds inside other holds'
  omega
