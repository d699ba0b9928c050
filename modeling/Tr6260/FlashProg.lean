import Tr6260.ByteMem

/-!
# Programs over a flash device, with power loss

`FlashProg α` is a program that reads a flash device, programs and erases it,
and returns an `α`. `run` is its uninterrupted meaning. `cuts` lists the images
the device can be left with when power is lost between two modifying
operations (each operation taken as atomic): the image before the first one,
after each of them, and the final image.

`FlashProg.Triple pre p post crash` is the specification form for such
programs: from an image satisfying `pre`, the whole run ends in `post` and
every cut satisfies `crash`. The rules below compose triples along `bind` and
discharge the three primitive operations.
-/

/-- A program over a flash device. -/
inductive FlashProg (α : Type) : Type
  | pure (a : α) : FlashProg α
  | read (addr len : Nat) (next : List UInt8 → FlashProg α) : FlashProg α
  | program (addr : Nat) (bs : List UInt8) (next : FlashProg α) : FlashProg α
  | erase (addr len : Nat) (next : FlashProg α) : FlashProg α

namespace FlashProg

variable {α β : Type}

/-- Sequencing: graft `f` onto every leaf. -/
def bind : FlashProg α → (α → FlashProg β) → FlashProg β
  | .pure a, f => f a
  | .read addr len next, f => .read addr len fun bs => (next bs).bind f
  | .program addr bs next, f => .program addr bs (next.bind f)
  | .erase addr len next, f => .erase addr len (next.bind f)

instance : Monad FlashProg where
  pure := FlashProg.pure
  bind := FlashProg.bind

/-- Uninterrupted execution. -/
def run : FlashProg α → ByteMem → α × ByteMem
  | .pure a, m => (a, m)
  | .read addr len next, m => (next (m.load addr len)).run m
  | .program addr bs next, m => next.run (m.program addr bs)
  | .erase addr len next, m => next.run (m.erase addr len)

/-- The images a power loss can leave behind, in time order. -/
def cuts : FlashProg α → ByteMem → List ByteMem
  | .pure _, m => [m]
  | .read addr len next, m => (next (m.load addr len)).cuts m
  | .program addr bs next, m => m :: next.cuts (m.program addr bs)
  | .erase addr len next, m => m :: next.cuts (m.erase addr len)

/-- The programming operations of a run, in time order. -/
def writes : FlashProg α → ByteMem → List (Nat × List UInt8)
  | .pure _, _ => []
  | .read addr len next, m => (next (m.load addr len)).writes m
  | .program addr bs next, m => (addr, bs) :: next.writes (m.program addr bs)
  | .erase addr len next, m => next.writes (m.erase addr len)

/-! ## Primitive operations -/

/-- Read `len` bytes. -/
def readOp (addr len : Nat) : FlashProg (List UInt8) := .read addr len .pure

/-- Program `bs`. -/
def programOp (addr : Nat) (bs : List UInt8) : FlashProg Unit := .program addr bs (.pure ())

/-- Erase `len` bytes. -/
def eraseOp (addr len : Nat) : FlashProg Unit := .erase addr len (.pure ())

/-! ## Execution of composed programs -/

@[simp] theorem ret_bind (a : α) (f : α → FlashProg β) : (Pure.pure a >>= f) = f a := rfl

theorem bind_bind {γ : Type} (p : FlashProg α) (f : α → FlashProg β) (g : β → FlashProg γ) :
    p >>= f >>= g = p >>= fun a => f a >>= g := by
  change (p.bind f).bind g = p.bind fun a => (f a).bind g
  induction p with
  | pure a => rfl
  | read addr len next ih => exact congrArg (FlashProg.read addr len) (funext ih)
  | program addr bs next ih => exact congrArg (FlashProg.program addr bs) ih
  | erase addr len next ih => exact congrArg (FlashProg.erase addr len) ih

@[simp] theorem run_pure (a : α) (m : ByteMem) : (Pure.pure a : FlashProg α).run m = (a, m) := rfl

@[simp] theorem run_bind (p : FlashProg α) (f : α → FlashProg β) (m : ByteMem) :
    (p >>= f).run m = (f (p.run m).1).run (p.run m).2 := by
  change (p.bind f).run m = _
  induction p generalizing m with
  | pure a => rfl
  | read addr len next ih => exact ih _ m
  | program addr bs next ih => exact ih _
  | erase addr len next ih => exact ih _

/-! ## Writes of composed programs -/

@[simp] theorem writes_pure (a : α) (m : ByteMem) : (Pure.pure a : FlashProg α).writes m = [] := rfl

@[simp] theorem writes_bind (p : FlashProg α) (f : α → FlashProg β) (m : ByteMem) :
    (p >>= f).writes m = p.writes m ++ (f (p.run m).1).writes (p.run m).2 := by
  change (p.bind f).writes m = _
  induction p generalizing m with
  | pure a => rfl
  | read addr len next ih => exact ih _ m
  | program addr bs next ih => exact congrArg ((addr, bs) :: ·) (ih _)
  | erase addr len next ih => exact ih _

/-- The writes put `bytes` down from `addr` on, in order and without gap or overlap. -/
def InOrder (addr : Nat) : List (Nat × List UInt8) → List UInt8 → Prop
  | [], bytes => bytes = []
  | (a, bs) :: rest, bytes =>
    a = addr ∧ ∃ later, bytes = bs ++ later ∧ InOrder (addr + bs.length) rest later

/-- Writes that go on where others end. -/
theorem InOrder.append {addr : Nat} {ws ws' : List (Nat × List UInt8)} {bytes bytes' : List UInt8}
    (first : InOrder addr ws bytes) (second : InOrder (addr + bytes.length) ws' bytes') :
    InOrder addr (ws ++ ws') (bytes ++ bytes') := by
  induction ws generalizing addr bytes with
  | nil =>
    cases first
    exact second
  | cons w ws ih =>
    rcases first with ⟨here, later, rfl, rest⟩
    refine ⟨here, later ++ bytes', List.append_assoc _ _ _, ih rest ?_⟩
    rw [List.length_append, ← Nat.add_assoc] at second
    exact second

/-- The bytes of the writes, one after the other. -/
theorem InOrder.bytes {addr : Nat} {ws : List (Nat × List UInt8)} {bytes : List UInt8}
    (order : InOrder addr ws bytes) : ws.flatMap Prod.snd = bytes := by
  induction ws generalizing addr bytes with
  | nil => exact order.symm
  | cons w ws ih =>
    obtain ⟨-, later, whole, rest⟩ := order
    rw [List.flatMap_cons, ih rest, whole]

/-- Writes one after the other program what they put down together. -/
theorem InOrder.program {addr : Nat} {ws : List (Nat × List UInt8)} {bytes : List UInt8}
    (order : InOrder addr ws bytes) (m : ByteMem) :
    ws.foldl (fun m w => m.program w.1 w.2) m = m.program addr bytes := by
  induction ws generalizing addr bytes m with
  | nil =>
    have none_ : bytes = [] := order
    rw [none_, ByteMem.program_nil]
    rfl
  | cons w ws ih =>
    obtain ⟨here, later, whole, rest⟩ := order
    rw [List.foldl_cons, ih rest, here, whole, ByteMem.program_append]

/-! ## Cuts of composed programs -/

/-- A cut of a sequence is a cut of its first part or a cut of its second part
started where the first part ends. -/
theorem mem_cuts_bind {p : FlashProg α} {f : α → FlashProg β} {m c : ByteMem}
    (cut : c ∈ (p >>= f).cuts m) :
    c ∈ p.cuts m ∨ c ∈ (f (p.run m).1).cuts (p.run m).2 := by
  change c ∈ (p.bind f).cuts m at cut
  induction p generalizing m with
  | pure a => exact .inr cut
  | read addr len next ih => exact ih _ cut
  | program addr bs next ih =>
    rcases List.mem_cons.mp cut with rfl | later
    · exact .inl List.mem_cons_self
    · exact (ih later).imp_left (List.mem_cons_of_mem _)
  | erase addr len next ih =>
    rcases List.mem_cons.mp cut with rfl | later
    · exact .inl List.mem_cons_self
    · exact (ih later).imp_left (List.mem_cons_of_mem _)

/-- Power can be lost before the first operation. -/
theorem start_mem_cuts (p : FlashProg α) (m : ByteMem) : m ∈ p.cuts m := by
  induction p generalizing m with
  | pure a => exact List.mem_singleton_self m
  | read addr len next ih => exact ih _ m
  | program addr bs next ih => exact List.mem_cons_self
  | erase addr len next ih => exact List.mem_cons_self

theorem cuts_ne_nil (p : FlashProg α) (m : ByteMem) : p.cuts m ≠ [] :=
  List.ne_nil_of_mem (start_mem_cuts p m)

theorem cuts_bind (p : FlashProg α) (f : α → FlashProg β) (m : ByteMem) :
    (p >>= f).cuts m = (p.cuts m).dropLast ++ (f (p.run m).1).cuts (p.run m).2 := by
  change (p.bind f).cuts m = _
  induction p generalizing m with
  | pure a => rfl
  | read addr len next ih => exact ih _ m
  | program addr bs next ih =>
    rw [bind, cuts, ih, cuts, List.dropLast_cons_of_ne_nil (cuts_ne_nil _ _)]
    rfl
  | erase addr len next ih =>
    rw [bind, cuts, ih, cuts, List.dropLast_cons_of_ne_nil (cuts_ne_nil _ _)]
    rfl

/-! ## Programs that behave alike from one image -/

/-- From `m`, the two programs have the same run and the same cuts. -/
def EqAt (m : ByteMem) (p q : FlashProg α) : Prop := p.run m = q.run m ∧ p.cuts m = q.cuts m

theorem EqAt.refl (m : ByteMem) (p : FlashProg α) : EqAt m p p := ⟨rfl, rfl⟩

theorem EqAt.trans {m : ByteMem} {p q r : FlashProg α} (left : EqAt m p q)
    (right : EqAt m q r) : EqAt m p r :=
  ⟨left.1.trans right.1, left.2.trans right.2⟩

theorem EqAt.bind {m : ByteMem} {p q : FlashProg α} (same : EqAt m p q) (f : α → FlashProg β) :
    EqAt m (p >>= f) (q >>= f) := by
  refine ⟨?_, ?_⟩
  · rw [run_bind, run_bind, same.1]
  · rw [cuts_bind, cuts_bind, same.1, same.2]

/-! ## Programs that do not read -/

/-- The program programs and erases only. -/
def Blind : FlashProg α → Prop
  | .pure _ => True
  | .read _ _ _ => False
  | .program _ _ next => next.Blind
  | .erase _ _ next => next.Blind

theorem Blind.bind {p : FlashProg α} {f : α → FlashProg β} (first : p.Blind)
    (second : ∀ a, (f a).Blind) : (p >>= f).Blind := by
  change (p.bind f).Blind
  induction p with
  | pure a => exact second a
  | read addr len next ih => exact first.elim
  | program addr bs next ih => exact ih first
  | erase addr len next ih => exact ih first

/-- Its result is the same on every image, and what it leaves at an address depends on what
was there. -/
theorem Blind.run_eq {p : FlashProg α} (blind : p.Blind) (m m' : ByteMem) :
    (p.run m).1 = (p.run m').1 ∧ ∀ a, m a = m' a → (p.run m).2 a = (p.run m').2 a := by
  induction p generalizing m m' with
  | pure a => exact ⟨rfl, fun _ same => same⟩
  | read addr len next ih => exact blind.elim
  | program addr bs next ih =>
    obtain ⟨result, image⟩ := ih blind (m.program addr bs) (m'.program addr bs)
    refine ⟨result, fun a same => image a ?_⟩
    rw [ByteMem.program, ByteMem.program, same]
  | erase addr len next ih =>
    obtain ⟨result, image⟩ := ih blind (m.erase addr len) (m'.erase addr len)
    refine ⟨result, fun a same => image a ?_⟩
    rw [ByteMem.erase, ByteMem.erase, same]

/-! ## Crash triples -/

/-- From `pre`, the run ends in `post` and every cut satisfies `crash`. -/
def Triple (pre : ByteMem → Prop) (p : FlashProg α) (post : α → ByteMem → Prop)
    (crash : ByteMem → Prop) : Prop :=
  ∀ m, pre m → post (p.run m).1 (p.run m).2 ∧ ∀ c ∈ p.cuts m, crash c

section Rules

variable {pre : ByteMem → Prop} {crash : ByteMem → Prop} {post : β → ByteMem → Prop}

theorem Triple.pure {b : β} (ends : ∀ m, pre m → post b m) (safe : ∀ m, pre m → crash m) :
    Triple pre (Pure.pure b) post crash := by
  intro m start
  refine ⟨ends m start, fun c cut => ?_⟩
  rw [List.mem_singleton.mp cut]
  exact safe m start

theorem Triple.bind {p : FlashProg α} {f : α → FlashProg β} {q : α → ByteMem → Prop}
    (first : Triple pre p q crash) (second : ∀ a, Triple (q a) (f a) post crash) :
    Triple pre (p >>= f) post crash := by
  intro m start
  obtain ⟨middle, safe⟩ := first m start
  obtain ⟨ends, safe'⟩ := second _ _ middle
  refine ⟨by rw [run_bind]; exact ends, fun c cut => ?_⟩
  exact (mem_cuts_bind cut).elim (safe c) (safe' c)

theorem Triple.conseq {p : FlashProg β} {pre' : ByteMem → Prop} {post' : β → ByteMem → Prop}
    {crash' : ByteMem → Prop} (triple : Triple pre' p post' crash')
    (strengthen : ∀ m, pre m → pre' m) (weaken : ∀ b m, post' b m → post b m)
    (crashes : ∀ m, crash' m → crash m) : Triple pre p post crash := by
  intro m start
  obtain ⟨ends, safe⟩ := triple m (strengthen m start)
  exact ⟨weaken _ _ ends, fun c cut => crashes c (safe c cut)⟩

end Rules

end FlashProg
