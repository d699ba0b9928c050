import Mathlib.Algebra.Group.Basic
import Mathlib.Algebra.GroupWithZero.Nat
import Mathlib.Algebra.Order.Group.Int
import Mathlib.Data.UInt

/-!
# Differences between two texts

A difference is a list of steps. Each adds entries to as many of the old text, from where the last
one left it, appends entries of its own, and moves on in the old text. Entries may be of any
group; there is nothing but zeros around the old text.
-/

/-- A step of a difference. -/
structure DeltaStep (α : Type) where
  diff : List α
  extra : List α
  seek : Int

namespace Delta

variable {α : Type} {old new : List α} {steps : List (DeltaStep α)} {step : DeltaStep α}
variable {pos : Int} {n k m : Nat}

/-- Where a difference leaves the old text. -/
def leaves : Int → List (DeltaStep α) → Int
  | pos, [] => pos
  | pos, step :: steps => leaves (pos + step.diff.length + step.seek) steps

theorem leaves_append (more : List (DeltaStep α)) :
    leaves pos (steps ++ more) = leaves (leaves pos steps) more := by
  induction steps generalizing pos with
  | nil => rfl
  | cons step steps ih => rw [List.cons_append, leaves, ih, leaves]

variable [AddGroup α]

/-- An entry of the old text. -/
def oldAt (old : List α) (i : Int) : α := if 0 ≤ i then old.getD i.toNat 0 else 0

/-- The sums with the old text. -/
def added (old : List α) : Int → List α → List α
  | _, [] => []
  | pos, d :: diff => (d + oldAt old pos) :: added old (pos + 1) diff

/-- The differences to the old text. -/
def subtracted (old : List α) : Int → List α → List α
  | _, [] => []
  | pos, x :: xs => (x - oldAt old pos) :: subtracted old (pos + 1) xs

@[simp] theorem length_subtracted (xs : List α) : (subtracted old pos xs).length = xs.length := by
  induction xs generalizing pos with
  | nil => rfl
  | cons x xs ih => rw [subtracted, List.length_cons, List.length_cons, ih]

@[simp] theorem length_added (xs : List α) : (added old pos xs).length = xs.length := by
  induction xs generalizing pos with
  | nil => rfl
  | cons x xs ih => rw [added, List.length_cons, List.length_cons, ih]

@[simp] theorem added_subtracted (xs : List α) : added old pos (subtracted old pos xs) = xs := by
  induction xs generalizing pos with
  | nil => rfl
  | cons x xs ih => rw [subtracted, added, ih, sub_add_cancel]

/-- The text that a difference gives from an offset in the old one. -/
def restore (old : List α) : Int → List (DeltaStep α) → List α
  | _, [] => []
  | pos, step :: steps =>
    added old pos step.diff ++ step.extra ++
      restore old (pos + step.diff.length + step.seek) steps

theorem restore_append (more : List (DeltaStep α)) :
    restore old pos (steps ++ more) =
      restore old pos steps ++ restore old (leaves pos steps) more := by
  induction steps generalizing pos with
  | nil => rfl
  | cons step steps ih =>
    rw [List.cons_append, restore, restore, ih, leaves]
    simp only [List.append_assoc]

/-- The steps give the first `n` entries of the new text and stop at `pos` in the old one. -/
structure Restores (old new : List α) (steps : List (DeltaStep α)) (n : Nat) (pos : Int) :
    Prop where
  text : restore old 0 steps = new.take n
  stops : leaves 0 steps = pos

theorem Restores.nil : Restores old new [] 0 0 := ⟨rfl, rfl⟩

/-- A step that was taken from the two texts gives the next entries. -/
theorem Restores.snoc (restores : Restores old new steps n pos)
    (diff : step.diff = subtracted old pos ((new.drop n).take k))
    (extra : step.extra = (new.drop (n + k)).take m) (inside : n + k ≤ new.length) :
    Restores old new (steps ++ [step]) (n + k + m) (pos + k + step.seek) := by
  have length : step.diff.length = k := by
    rw [diff, length_subtracted, List.length_take, List.length_drop]
    omega
  constructor
  · rw [restore_append, restores.text, restores.stops, restore, restore, diff, extra,
      added_subtracted, List.append_nil, ← List.append_assoc, ← List.take_add, ← List.take_add]
  · rw [leaves_append, restores.stops, leaves, leaves, length]

/-- The lengths of what the steps hold. -/
theorem length_restore : (restore old pos steps).length =
    (steps.flatMap DeltaStep.diff).length + (steps.flatMap DeltaStep.extra).length := by
  induction steps generalizing pos with
  | nil => rfl
  | cons step steps ih =>
    rw [restore, List.flatMap_cons, List.flatMap_cons, List.length_append, List.length_append,
      List.length_append, List.length_append, ih, length_added]
    omega

end Delta
