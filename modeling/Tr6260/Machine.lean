import Mathlib.Tactic.TypeStar

/-!
# Machines with one output for one input

The outputs of a machine along its inputs and the state behind them go through sequences of inputs,
and through machines of which one stands for the other.
-/

section Machine

variable {σ τ α β : Type*}

/-- The outputs of a machine, one for each input. -/
def machineOutputs (step : σ → α → σ × β) : σ → List α → List β
  | _, [] => []
  | s, x :: xs => (step s x).2 :: machineOutputs step (step s x).1 xs

/-- The state after the inputs. -/
def machineAfter (step : σ → α → σ × β) (s : σ) (xs : List α) : σ :=
  xs.foldl (fun s x => (step s x).1) s

theorem length_machineOutputs (step : σ → α → σ × β) (s : σ) (xs : List α) :
    (machineOutputs step s xs).length = xs.length := by
  induction xs generalizing s with
  | nil => rfl
  | cons x xs ih => rw [machineOutputs, List.length_cons, List.length_cons, ih]

theorem machineOutputs_append (step : σ → α → σ × β) (s : σ) (xs ys : List α) :
    machineOutputs step s (xs ++ ys) =
      machineOutputs step s xs ++ machineOutputs step (machineAfter step s xs) ys := by
  induction xs generalizing s with
  | nil => rfl
  | cons x xs ih =>
    rw [List.cons_append, machineOutputs, machineOutputs, ih]
    rfl

theorem take_machineOutputs (step : σ → α → σ × β) (s : σ) (xs : List α) (n : Nat) :
    (machineOutputs step s xs).take n = machineOutputs step s (xs.take n) := by
  induction xs generalizing s n with
  | nil => rw [machineOutputs, List.take_nil, List.take_nil, machineOutputs]
  | cons x xs ih =>
    cases n with
    | zero => rfl
    | succ n => rw [machineOutputs, List.take_succ_cons, List.take_succ_cons, machineOutputs, ih]

theorem machineAfter_append (step : σ → α → σ × β) (s : σ) (xs ys : List α) :
    machineAfter step s (xs ++ ys) = machineAfter step (machineAfter step s xs) ys :=
  List.foldl_append

/-- With the same output in every state, a run has it all along. -/
theorem machineOutputs_eq_replicate {step : σ → α → σ × β} {xs : List α} {b : β}
    (same : ∀ s, ∀ x ∈ xs, (step s x).2 = b) (s : σ) :
    machineOutputs step s xs = List.replicate xs.length b := by
  induction xs generalizing s with
  | nil => rfl
  | cons x xs ih =>
    have first := same s x List.mem_cons_self
    have rest := ih (fun s y mem => same s y (List.mem_cons_of_mem x mem)) (step s x).1
    rw [machineOutputs, first, rest, List.length_cons, List.replicate_succ]

/-- `P` holds of every state of the run and the input it gets. -/
def machineAlong (step : σ → α → σ × β) (P : σ → α → Prop) : σ → List α → Prop
  | _, [] => True
  | s, x :: xs => P s x ∧ machineAlong step P (step s x).1 xs

section Related

variable {step : σ → α → σ × β} {step' : τ → α → τ × β} {P : τ → α → Prop} {R : σ → τ → Prop}
  {s : σ} {t : τ} {xs : List α}

theorem machineAfter_related
    (next : ∀ s t x, R s t → P t x → R (step s x).1 (step' t x).1) (start : R s t)
    (along : machineAlong step' P t xs) :
    R (machineAfter step s xs) (machineAfter step' t xs) := by
  induction xs generalizing s t with
  | nil => exact start
  | cons x xs ih => exact ih (next s t x start along.1) along.2

theorem machineOutputs_related
    (next : ∀ s t x, R s t → P t x → R (step s x).1 (step' t x).1)
    (same : ∀ s t x, R s t → P t x → (step s x).2 = (step' t x).2) (start : R s t)
    (along : machineAlong step' P t xs) :
    machineOutputs step s xs = machineOutputs step' t xs := by
  induction xs generalizing s t with
  | nil => rfl
  | cons x xs ih =>
    rw [machineOutputs, machineOutputs, same s t x start along.1,
      ih (next s t x start along.1) along.2]

end Related

end Machine
