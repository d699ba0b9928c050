import Mathlib.Data.List.Basic

/-!
# Lists threaded through a successor field

`Threaded next nil p xs`: from the pointer `p`, following `next` visits exactly `xs`
and then shows `nil`. The cells are of any type; `next` is the field read off a
memory, so an update of the memory is a change of `next`.
-/

variable {α : Type} {next next' : α → α} {nil p x : α} {xs ys : List α}

/-- The cells from `p` on are `xs`, and the last one shows `nil`. -/
def Threaded (next : α → α) (nil : α) : α → List α → Prop
  | p, [] => p = nil
  | p, x :: xs => p = x ∧ x ≠ nil ∧ Threaded next nil (next x) xs

namespace Threaded

/-- Only the fields of the cells in the list matter. -/
theorem congr (same : ∀ x ∈ xs, next' x = next x) (walk : Threaded next nil p xs) :
    Threaded next' nil p xs := by
  induction xs generalizing p with
  | nil => exact walk
  | cons x xs ih =>
    rcases walk with ⟨here, cell, rest⟩
    refine ⟨here, cell, ?_⟩
    rw [same x (by simp)]
    exact ih (fun y inside => same y (by simp [inside])) rest

theorem unique (walk : Threaded next nil p xs) (other : Threaded next nil p ys) : xs = ys := by
  induction xs generalizing p ys with
  | nil =>
    cases ys with
    | nil => rfl
    | cons y ys => exact absurd (other.1.symm.trans walk) other.2.1
  | cons x xs ih =>
    cases ys with
    | nil => exact absurd (walk.1.symm.trans other) walk.2.1
    | cons y ys =>
      rcases walk with ⟨rfl, -, rest⟩
      rcases other with ⟨rfl, -, rest'⟩
      rw [ih rest rest']

theorem eq_headD (walk : Threaded next nil p xs) : p = xs.headD nil := by
  cases xs with
  | nil => exact walk
  | cons x xs => exact walk.1

theorem ne_nil (walk : Threaded next nil p xs) (inside : x ∈ xs) : x ≠ nil := by
  induction xs generalizing p with
  | nil => cases inside
  | cons y ys ih =>
    rcases List.mem_cons.mp inside with rfl | later
    · exact walk.2.1
    · exact ih walk.2.2 later

/-- A pointer that is not `nil` is the first cell. -/
theorem cons_of_ne (walk : Threaded next nil p xs) (cell : p ≠ nil) :
    ∃ rest, xs = p :: rest ∧ Threaded next nil (next p) rest := by
  cases xs with
  | nil => exact absurd walk cell
  | cons y ys =>
    rcases walk with ⟨rfl, -, rest⟩
    exact ⟨ys, rfl, rest⟩

/-- A cell is hung on the last one. -/
theorem snoc {y : α} (walk : Threaded next nil p (xs ++ [x])) (same : ∀ z ∈ xs, next' z = next z)
    (hung : next' x = y) (cell : y ≠ nil) (last : next' y = nil) :
    Threaded next' nil p (xs ++ [x] ++ [y]) := by
  induction xs generalizing p with
  | nil =>
    rcases walk with ⟨here, first, -⟩
    exact ⟨here, first, hung, cell, last⟩
  | cons z zs ih =>
    rcases walk with ⟨here, first, rest⟩
    refine ⟨here, first, ?_⟩
    rw [same z List.mem_cons_self]
    exact ih rest fun w inside => same w (List.mem_cons_of_mem _ inside)

/-- Cells numbered from `0` on, each showing the one after it. -/
theorem of_range {f : Nat → α} {n : Nat} (cells : ∀ i < n, f i ≠ nil)
    (steps : ∀ i, i + 1 < n → next (f i) = f (i + 1)) (last : ∀ i, i + 1 = n → next (f i) = nil)
    (some_ : 0 < n) : Threaded next nil (f 0) ((List.range n).map f) := by
  induction n generalizing f with
  | zero => cases some_
  | succ n ih =>
    rw [List.range_succ_eq_map, List.map_cons, List.map_map]
    refine ⟨rfl, cells 0 some_, ?_⟩
    cases n with
    | zero => exact last 0 rfl
    | succ n =>
      rw [steps 0 (by omega)]
      exact ih (f := f ∘ Nat.succ) (fun i low => cells (i + 1) (by omega))
        (fun i low => steps (i + 1) (by omega)) (fun i top => last (i + 1) (by omega)) (by omega)

end Threaded
