/-!
# Computations that tell what they touch

A `Traced` computation has a value or stops with a fault, and tells the accesses it made either way.
`Only P` says that all of them satisfy `P`; it goes through sequences and branches.
-/

/-- A value, if there was no fault, and the accesses up to there. -/
structure Traced (ε α : Type) where
  value : Option α
  log : List ε

namespace Traced

variable {ε α β : Type}

/-- Stop. -/
def fault : Traced ε α := ⟨none, []⟩

/-- One access. -/
def touch (e : ε) : Traced ε Unit := ⟨some (), [e]⟩

/-- Something that can fault and touches nothing. -/
def ofOption (o : Option α) : Traced ε α := ⟨o, []⟩

/-- One computation, and another with its value. -/
def andThen (x : Traced ε α) (f : α → Traced ε β) : Traced ε β :=
  match x.value with
  | none => ⟨none, x.log⟩
  | some a => ⟨(f a).value, x.log ++ (f a).log⟩

instance : Monad (Traced ε) where
  pure a := ⟨some a, []⟩
  bind := andThen

@[simp] theorem value_pure (a : α) : (pure a : Traced ε α).value = some a := rfl

@[simp] theorem value_touch (e : ε) : (touch e).value = some () := rfl

@[simp] theorem value_ofOption (o : Option α) : (ofOption o : Traced ε α).value = o := rfl

@[simp] theorem value_bind (x : Traced ε α) (f : α → Traced ε β) :
    (x >>= f).value = x.value.bind fun a => (f a).value := by
  change (andThen x f).value = _
  unfold andThen
  cases x.value <;> rfl

theorem log_bind (x : Traced ε α) (f : α → Traced ε β) :
    (x >>= f).log = x.log ++ match x.value with
      | none => []
      | some a => (f a).log := by
  change (andThen x f).log = _
  unfold andThen
  cases x.value with
  | none => exact (List.append_nil _).symm
  | some a => rfl

/-- Every access satisfies `P`. -/
def Only (P : ε → Prop) (x : Traced ε α) : Prop := ∀ e ∈ x.log, P e

section Only

variable {P Q : ε → Prop} {x : Traced ε α}

theorem only_pure (a : α) : Only P (pure a : Traced ε α) := nofun

theorem only_fault : Only P (fault : Traced ε α) := nofun

theorem only_ofOption (o : Option α) : Only P (ofOption o : Traced ε α) := nofun

theorem only_touch {e : ε} (meets : P e) : Only P (touch e) := by
  intro e' mem
  cases List.mem_singleton.mp mem
  exact meets

theorem Only.bind {f : α → Traced ε β} (first : Only P x)
    (rest : ∀ a, x.value = some a → Only P (f a)) : Only P (x >>= f) := by
  intro e mem
  rw [log_bind] at mem
  rcases List.mem_append.mp mem with before | after
  · exact first e before
  · cases value : x.value with
    | none =>
      rw [value] at after
      cases after
    | some a =>
      rw [value] at after
      exact rest a value e after

/-- An access, and what follows it. -/
theorem only_touch_bind {e : ε} {f : Unit → Traced ε β} (meets : P e) (rest : Only P (f ())) :
    Only P (touch e >>= f) :=
  (only_touch meets).bind fun _ _ => rest

end Only

end Traced
