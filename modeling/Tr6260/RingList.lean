import Mathlib.Data.List.Nodup
import Mathlib.Logic.Function.Basic

/-!
# Rings of cells with a successor and a predecessor

`LinkPath next prev a xs b`: from `a` over the cells `xs` to `b`, each showing the one after it and
shown by it. A ring is a path from a cell to itself. `next` and `prev` are the fields read off a
memory, so an update of the memory is a change of the two.
-/

variable {α : Type} {next prev next' prev' : α → α} {a b c : α} {xs ys : List α}

/-- From `a` over `xs` to `b`. -/
def LinkPath (next prev : α → α) : α → List α → α → Prop
  | a, [], b => next a = b ∧ prev b = a
  | a, x :: xs, b => (next a = x ∧ prev x = a) ∧ LinkPath next prev x xs b

namespace LinkPath

theorem append_iff : LinkPath next prev a (xs ++ c :: ys) b ↔
    LinkPath next prev a xs c ∧ LinkPath next prev c ys b := by
  induction xs generalizing a with
  | nil => rfl
  | cons x xs ih =>
    rw [List.cons_append, LinkPath, LinkPath, ih]
    exact and_assoc.symm

/-- Only the fields along the path matter. -/
theorem congr (path : LinkPath next prev a xs b) (sameNext : ∀ x ∈ a :: xs, next' x = next x)
    (samePrev : ∀ x ∈ xs ++ [b], prev' x = prev x) : LinkPath next' prev' a xs b := by
  induction xs generalizing a with
  | nil =>
    rcases path with ⟨to_, from_⟩
    exact ⟨(sameNext a (by simp)).trans to_, (samePrev b (by simp)).trans from_⟩
  | cons x xs ih =>
    rcases path with ⟨⟨to_, from_⟩, rest⟩
    refine ⟨⟨(sameNext a (by simp)).trans to_, (samePrev x (by simp)).trans from_⟩, ?_⟩
    exact ih rest (fun y inside => sameNext y (List.mem_cons_of_mem _ inside))
      fun y inside => samePrev y (List.mem_cons_of_mem _ inside)

/-- The cell before the end. -/
theorem prev_end (path : LinkPath next prev a xs b) : prev b = (a :: xs).getLast (by simp) := by
  induction xs generalizing a with
  | nil => exact path.2
  | cons x xs ih =>
    rw [ih path.2, List.getLast_cons_cons]

theorem next_start (path : LinkPath next prev a xs b) : next a = xs.headD b := by
  cases xs with
  | nil => exact path.1
  | cons x xs => exact path.1.1

/-- A ring may be walked from any of its cells. -/
theorem rotate (ring : LinkPath next prev a (xs ++ c :: ys) a) : LinkPath next prev c (ys ++ a :: xs) c := by
  rcases append_iff.mp ring with ⟨first, second⟩
  exact append_iff.mpr ⟨second, first⟩

/-- A cell that shows itself is alone. -/
theorem eq_nil_of_alone (ring : LinkPath next prev a xs a) (distinct : (a :: xs).Nodup)
    (alone : next a = a) : xs = [] := by
  cases xs with
  | nil => rfl
  | cons x xs =>
    have same : x = a := ring.1.1.symm.trans alone
    rw [same] at distinct
    exact absurd List.mem_cons_self (List.nodup_cons.mp distinct).1

/-- A path that does not pass its end is the only one. -/
theorem unique (first : LinkPath next prev a xs b) (second : LinkPath next prev a ys b)
    (notFirst : b ∉ xs) (notSecond : b ∉ ys) : xs = ys := by
  induction xs generalizing a ys with
  | nil =>
    cases ys with
    | nil => rfl
    | cons y ys =>
      have same : y = b := second.1.1.symm.trans first.1
      exact absurd (same ▸ List.mem_cons_self) notSecond
  | cons x xs ih =>
    cases ys with
    | nil =>
      have same : x = b := first.1.1.symm.trans second.1
      exact absurd (same ▸ List.mem_cons_self) notFirst
    | cons y ys =>
      have same : x = y := first.1.1.symm.trans second.1.1
      subst same
      rw [ih first.2 second.2 (fun inside => notFirst (List.mem_cons_of_mem _ inside))
        fun inside => notSecond (List.mem_cons_of_mem _ inside)]

end LinkPath

section Update

variable [DecidableEq α]

/-- A new cell in front of the start of a ring, which is behind its end. -/
theorem LinkPath.insert_before (ring : LinkPath next prev a xs a) (distinct : (a :: xs).Nodup)
    (fresh : b ∉ a :: xs) :
    LinkPath (Function.update (Function.update next (prev a) b) b a)
      (Function.update (Function.update prev b (prev a)) a b) a (xs ++ [b]) a := by
  have ne : b ≠ a := fun same => fresh (same ▸ List.mem_cons_self)
  have nextSame : ∀ x, x ≠ b → x ≠ prev a →
      Function.update (Function.update next (prev a) b) b a x = next x := by
    intro x notB notEnd
    rw [Function.update_of_ne notB, Function.update_of_ne notEnd]
  have prevSame : ∀ x, x ≠ b → x ≠ a →
      Function.update (Function.update prev b (prev a)) a b x = prev x := by
    intro x notB notA
    rw [Function.update_of_ne notA, Function.update_of_ne notB]
  have last : prev a ≠ b := by
    intro same
    rw [ring.prev_end] at same
    exact fresh (same ▸ List.getLast_mem _)
  -- the link from the old end to the new cell, and from there to the start
  have link : LinkPath (Function.update (Function.update next (prev a) b) b a)
      (Function.update (Function.update prev b (prev a)) a b) (prev a) [b] a := by
    refine ⟨⟨?_, ?_⟩, ?_, ?_⟩
    · rw [Function.update_of_ne last, Function.update_self]
    · rw [Function.update_of_ne ne, Function.update_self]
    · rw [Function.update_self]
    · rw [Function.update_self]
  rcases List.eq_nil_or_concat xs with rfl | ⟨ys, p, rfl⟩
  · have alone : prev a = a := ring.2
    rw [alone] at link
    rw [alone]
    exact link
  · rw [List.concat_eq_append] at ring distinct fresh ⊢
    rcases append_iff.mp ring with ⟨front, -, back⟩
    rw [back] at link nextSame prevSame ⊢
    rw [List.append_assoc]
    refine append_iff.mpr ⟨front.congr ?_ ?_, link⟩
    · intro x inside
      apply nextSame x
      · rintro rfl
        exact fresh (List.mem_append_left [p] inside)
      · rintro rfl
        exact (List.disjoint_of_nodup_append distinct) inside List.mem_cons_self
    · intro x inside
      apply prevSame x
      · rintro rfl
        exact fresh (List.mem_cons_of_mem _ inside)
      · rintro rfl
        exact (List.nodup_cons.mp distinct).1 inside

/-- A cell is taken out of a ring of more than one. -/
theorem LinkPath.remove (ring : LinkPath next prev a (b :: xs) a) (distinct : (a :: b :: xs).Nodup) :
    LinkPath (Function.update (Function.update next (prev a) b) a a)
      (Function.update (Function.update prev b (prev a)) a a) b xs b := by
  have ne : b ≠ a := by
    rintro rfl
    exact (List.nodup_cons.mp distinct).1 List.mem_cons_self
  have apart : ∀ x ∈ b :: xs, x ≠ a := by
    rintro x inside rfl
    exact (List.nodup_cons.mp distinct).1 inside
  have last : prev a = (b :: xs).getLast (by simp) := by
    rw [ring.prev_end, List.getLast_cons_cons]
  have lastNe : prev a ≠ a := by
    rw [last]
    exact apart _ (List.getLast_mem _)
  -- the link that closes the ring again
  have link : LinkPath (Function.update (Function.update next (prev a) b) a a)
      (Function.update (Function.update prev b (prev a)) a a) (prev a) [] b := by
    refine ⟨?_, ?_⟩
    · rw [Function.update_of_ne lastNe, Function.update_self]
    · rw [Function.update_of_ne ne, Function.update_self]
  rcases List.eq_nil_or_concat xs with rfl | ⟨ys, p, rfl⟩
  · have alone : prev a = b := last
    rw [alone] at link ⊢
    exact link
  · rw [List.concat_eq_append] at ring distinct apart last ⊢
    have end_ : prev a = p := by
      rw [last]
      simp
    rw [end_] at link ⊢
    have path : LinkPath next prev b (ys ++ [p]) a := ring.2
    rcases append_iff.mp path with ⟨front, -⟩
    refine append_iff.mpr ⟨front.congr ?_ ?_, link⟩
    · intro x inside
      have notEnd : x ≠ p := by
        rintro rfl
        exact (List.disjoint_of_nodup_append
          (show (b :: ys ++ [x]).Nodup from (List.nodup_cons.mp distinct).2)) inside (by simp)
      have notA : x ≠ a := by
        apply apart
        rw [← List.cons_append]
        exact List.mem_append_left _ inside
      rw [Function.update_of_ne notA, Function.update_of_ne notEnd]
    · intro x inside
      have notA : x ≠ a := apart x (List.mem_cons_of_mem _ inside)
      have notB : x ≠ b := by
        rintro rfl
        exact (List.nodup_cons.mp (List.nodup_cons.mp distinct).2).1 inside
      rw [Function.update_of_ne notA, Function.update_of_ne notB]

end Update
