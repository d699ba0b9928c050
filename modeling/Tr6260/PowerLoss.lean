import Tr6260.FlashProg

/-!
# Power loss inside an operation

`FlashProg.cuts` stops a program between two operations of the flash. Here the power goes while an
operation runs: the range it was working on holds anything, the rest of the chip what it held.
-/

namespace FlashProg

open ByteMem

variable {α β : Type}

/-- `p.torn m addr c`: a run of `p` from `m` loses power inside an operation at `addr` and leaves
`c`. -/
def torn : FlashProg α → ByteMem → Nat → ByteMem → Prop
  | .pure _, _, _, _ => False
  | .read addr len next, m, site, c => (next (m.load addr len)).torn m site c
  | .program addr bs next, m, site, c =>
    (site = addr ∧ ∀ a, a < addr ∨ addr + bs.length ≤ a → c a = m a) ∨
      next.torn (m.program addr bs) site c
  | .erase addr len next, m, site, c =>
    (site = addr ∧ ∀ a, a < addr ∨ addr + len ≤ a → c a = m a) ∨
      next.torn (m.erase addr len) site c

@[simp] theorem torn_pure (a : α) (m : ByteMem) (addr : Nat) (c : ByteMem) :
    (Pure.pure a : FlashProg α).torn m addr c ↔ False := Iff.rfl

/-- A loss in a composed program is one in its first part, or one in its second. -/
theorem torn_bind {p : FlashProg α} {f : α → FlashProg β} {m : ByteMem} {addr : Nat}
    {c : ByteMem} :
    (p >>= f).torn m addr c ↔ p.torn m addr c ∨ (f (p.run m).1).torn (p.run m).2 addr c := by
  change (p.bind f).torn m addr c ↔ _
  induction p generalizing m with
  | pure a => exact (or_iff_right id).symm
  | read addr len next ih => exact ih _
  | program addr bs next ih => exact (or_congr_right ih).trans or_assoc.symm
  | erase addr len next ih => exact (or_congr_right ih).trans or_assoc.symm

/-- The program changes nothing. -/
def ReadOnly : FlashProg α → Prop
  | .pure _ => True
  | .read _ _ next => ∀ bs, ReadOnly (next bs)
  | .program _ _ _ => False
  | .erase _ _ _ => False

theorem ReadOnly.bind {p : FlashProg α} {f : α → FlashProg β} (first : p.ReadOnly)
    (second : ∀ a, (f a).ReadOnly) : (p >>= f).ReadOnly := by
  change (p.bind f).ReadOnly
  induction p with
  | pure a => exact second a
  | read addr size next ih => exact fun bs => ih bs (first bs)
  | program addr bs next ih => cases first
  | erase addr size next ih => cases first

theorem ReadOnly.run {p : FlashProg α} (reads : p.ReadOnly) (m : ByteMem) : (p.run m).2 = m := by
  induction p with
  | pure a => rfl
  | read addr size next ih => exact ih _ (reads _)
  | program addr bs next ih => cases reads
  | erase addr size next ih => cases reads

theorem ReadOnly.cut {p : FlashProg α} (reads : p.ReadOnly) {m c : ByteMem}
    (cut : c ∈ p.cuts m) : c = m := by
  induction p with
  | pure a => exact List.mem_singleton.mp cut
  | read addr size next ih => exact ih _ (reads _) cut
  | program addr bs next ih => cases reads
  | erase addr size next ih => cases reads

theorem ReadOnly.not_torn {p : FlashProg α} (reads : p.ReadOnly) {m : ByteMem} {addr : Nat}
    {c : ByteMem} : ¬ p.torn m addr c := by
  induction p with
  | pure a => exact id
  | read addr size next ih => exact ih _ (reads _)
  | program addr bs next ih => cases reads
  | erase addr size next ih => cases reads

end FlashProg
