import Mathlib.Algebra.GroupWithZero.Nat
import Mathlib.Data.List.Basic
import Mathlib.Data.List.GetD
import Mathlib.Data.UInt
import Mathlib.Tactic.Common

/-!
# Byte memories and NOR operations

A `ByteMem` is a total map from addresses to bytes; it stands for RAM, for a
buffer with whatever lies behind it, or for a flash image. `load` and `store`
are the RAM operations. `program` and `erase` are the two NOR operations:
programming can only clear bits, erasing sets a region to `0xFF`.

`Holds m addr bs` is the window predicate every proof about stored records
uses: the memory shows exactly `bs` from `addr` on. `Erased` is the special
case of a blank region. Both are stable under every operation on a disjoint
region, which is what the frame lemmas at the end say.
-/

/-- A byte-addressed memory. -/
abbrev ByteMem := Nat → UInt8

namespace ByteMem

/-- The `len` bytes from `addr` on. -/
def load (m : ByteMem) (addr : Nat) : Nat → List UInt8
  | 0 => []
  | len + 1 => m addr :: load m (addr + 1) len

/-- Overwrite the bytes from `addr` on by `bs`. -/
def store (m : ByteMem) (addr : Nat) (bs : List UInt8) : ByteMem := fun a =>
  if addr ≤ a ∧ a < addr + bs.length then bs.getD (a - addr) 0 else m a

/-- NOR programming: every byte can only lose bits. -/
def program (m : ByteMem) (addr : Nat) (bs : List UInt8) : ByteMem := fun a =>
  if addr ≤ a ∧ a < addr + bs.length then m a &&& bs.getD (a - addr) 0 else m a

/-- NOR erasing: every byte of the region becomes `0xFF`. -/
def erase (m : ByteMem) (addr len : Nat) : ByteMem := fun a =>
  if addr ≤ a ∧ a < addr + len then 0xFF else m a

/-- The memory shows `bs` from `addr` on. -/
def Holds (m : ByteMem) (addr : Nat) (bs : List UInt8) : Prop :=
  m.load addr bs.length = bs

/-- The region is blank. -/
def Erased (m : ByteMem) (addr len : Nat) : Prop :=
  ∀ a, addr ≤ a → a < addr + len → m a = 0xFF

/-- Two memories agree on a region. -/
def AgreeOn (m m' : ByteMem) (addr len : Nat) : Prop :=
  ∀ a, addr ≤ a → a < addr + len → m a = m' a

/-! ## Loading -/

@[simp] theorem length_load (m : ByteMem) (addr len : Nat) : (m.load addr len).length = len := by
  induction len generalizing addr with
  | zero => rfl
  | succ len ih => simp [load, ih]

@[simp] theorem load_zero (m : ByteMem) (addr : Nat) : m.load addr 0 = [] := rfl

theorem load_add (m : ByteMem) (addr len len' : Nat) :
    m.load addr (len + len') = m.load addr len ++ m.load (addr + len) len' := by
  induction len generalizing addr with
  | zero => simp [load]
  | succ len ih =>
    rw [show len + 1 + len' = (len + len') + 1 by omega, load, load, ih,
      show addr + 1 + len = addr + (len + 1) by omega, List.cons_append]

theorem getElem?_load (m : ByteMem) (addr len i : Nat) :
    (m.load addr len)[i]? = if i < len then some (m (addr + i)) else none := by
  induction len generalizing addr i with
  | zero => simp
  | succ len ih =>
    cases i with
    | zero => simp [load]
    | succ i =>
      rw [load, List.getElem?_cons_succ, ih, show addr + 1 + i = addr + (i + 1) by omega]
      simp

theorem drop_load (m : ByteMem) (addr : Nat) {n len : Nat} (within : n ≤ len) :
    (m.load addr len).drop n = m.load (addr + n) (len - n) := by
  have split : len = n + (len - n) := by omega
  rw [split, load_add, List.drop_left' (length_load m addr n), Nat.add_sub_cancel_left]

theorem load_congr {m m' : ByteMem} {addr len : Nat} (agree : AgreeOn m m' addr len) :
    m.load addr len = m'.load addr len := by
  induction len generalizing addr with
  | zero => rfl
  | succ len ih =>
    rw [load, load, agree addr (by omega) (by omega),
      ih (fun a low high => agree a (by omega) (by omega))]

/-! ## Windows -/

theorem Holds.load {m : ByteMem} {addr : Nat} {bs : List UInt8} (held : m.Holds addr bs) :
    m.load addr bs.length = bs := held

theorem holds_load (m : ByteMem) (addr len : Nat) : m.Holds addr (m.load addr len) := by
  simp [Holds]

@[simp] theorem holds_nil (m : ByteMem) (addr : Nat) : m.Holds addr [] := rfl

theorem holds_append {m : ByteMem} {addr : Nat} {xs ys : List UInt8} :
    m.Holds addr (xs ++ ys) ↔ m.Holds addr xs ∧ m.Holds (addr + xs.length) ys := by
  unfold Holds
  rw [List.length_append, load_add]
  exact ⟨fun same => List.append_inj same (by simp), fun ⟨left, right⟩ => by rw [left, right]⟩

theorem holds_cons {m : ByteMem} {addr : Nat} {x : UInt8} {xs : List UInt8} :
    m.Holds addr (x :: xs) ↔ m addr = x ∧ m.Holds (addr + 1) xs := by
  simp [Holds, ByteMem.load]

theorem Holds.apply {m : ByteMem} {addr : Nat} {bs : List UInt8} (held : m.Holds addr bs)
    {i : Nat} (inside : i < bs.length) : m (addr + i) = bs.getD i 0 := by
  have byte := congrArg (fun xs => xs[i]?) held.load
  rw [getElem?_load, if_pos inside] at byte
  rw [List.getD_eq_getElem?_getD, ← byte, Option.getD_some]

theorem Holds.of_apply {m : ByteMem} {addr : Nat} {bs : List UInt8}
    (bytes : ∀ i < bs.length, m (addr + i) = bs.getD i 0) : m.Holds addr bs := by
  unfold Holds
  apply List.ext_getElem? fun i => ?_
  rw [getElem?_load]
  split
  next inside =>
    rw [bytes i inside, List.getD_eq_getElem?_getD, List.getElem?_eq_getElem inside,
      Option.getD_some]
  next outside => exact (List.getElem?_eq_none (by omega)).symm

/-- A window of a window is the corresponding slice. -/
theorem Holds.slice {m : ByteMem} {addr : Nat} {bs : List UInt8} (held : m.Holds addr bs)
    {off len : Nat} (inside : off + len ≤ bs.length) :
    m.load (addr + off) len = (bs.drop off).take len := by
  have split : bs.length = off + (len + (bs.length - (off + len))) := by omega
  have whole := held.load
  rw [split, load_add, load_add] at whole
  have tail := congrArg (fun xs => (xs.drop off).take len) whole
  simpa using tail

theorem Holds.congr {m m' : ByteMem} {addr : Nat} {bs : List UInt8}
    (agree : AgreeOn m m' addr bs.length) (held : m.Holds addr bs) : m'.Holds addr bs := by
  unfold Holds
  rw [← load_congr agree]
  exact held

theorem Erased.sub {m : ByteMem} {addr len addr' len' : Nat} (blank : m.Erased addr len)
    (low : addr ≤ addr') (high : addr' + len' ≤ addr + len) : m.Erased addr' len' :=
  fun a h1 h2 => blank a (by omega) (by omega)

theorem Erased.congr {m m' : ByteMem} {addr len : Nat} (agree : AgreeOn m m' addr len)
    (blank : m.Erased addr len) : m'.Erased addr len :=
  fun a low high => (agree a low high).symm.trans (blank a low high)

theorem erased_iff_holds {m : ByteMem} {addr len : Nat} :
    m.Erased addr len ↔ m.Holds addr (List.replicate len 0xFF) := by
  constructor
  · intro blank
    refine Holds.of_apply fun i inside => ?_
    rw [List.length_replicate] at inside
    rw [blank (addr + i) (by omega) (by omega)]
    simp [List.getD_eq_getElem?_getD, inside]
  · intro held a low high
    have byte := held.apply (i := a - addr) (by rw [List.length_replicate]; omega)
    rw [show addr + (a - addr) = a by omega] at byte
    rw [byte]
    simp [List.getD_eq_getElem?_getD, show a - addr < len by omega]

/-! ## Effects of the four operations -/

theorem and_blank (b : UInt8) : 0xFF &&& b = b := by
  apply UInt8.toBitVec_inj.mp
  rw [UInt8.toBitVec_and]
  exact BitVec.allOnes_and

theorem store_holds (m : ByteMem) (addr : Nat) (bs : List UInt8) :
    (m.store addr bs).Holds addr bs := by
  refine Holds.of_apply fun i inside => ?_
  rw [store, if_pos ⟨by omega, by omega⟩, Nat.add_sub_cancel_left]

/-- A store of what is there changes nothing. -/
theorem store_load (m : ByteMem) (addr len : Nat) : m.store addr (m.load addr len) = m := by
  funext a
  rw [store, length_load]
  split
  next inside =>
    have byte := (holds_load m addr len).apply (show a - addr < _ by rw [length_load]; omega)
    rw [← byte, Nat.add_sub_cancel' inside.1]
  next => rfl

theorem store_frame (m : ByteMem) (addr : Nat) (bs : List UInt8) {addr' len' : Nat}
    (apart : addr' + len' ≤ addr ∨ addr + bs.length ≤ addr') :
    AgreeOn m (m.store addr bs) addr' len' := by
  intro a low high
  rw [store, if_neg (by omega)]

/-- Programming a blank region stores the bytes exactly. -/
theorem program_holds {m : ByteMem} {addr : Nat} {bs : List UInt8}
    (blank : m.Erased addr bs.length) : (m.program addr bs).Holds addr bs := by
  refine Holds.of_apply fun i inside => ?_
  rw [program, if_pos ⟨by omega, by omega⟩, blank (addr + i) (by omega) (by omega),
    and_blank, Nat.add_sub_cancel_left]

/-- Programming zero bytes clears the region whatever it held. -/
theorem program_zero_holds (m : ByteMem) (addr len : Nat) :
    (m.program addr (List.replicate len 0)).Holds addr (List.replicate len 0) := by
  refine Holds.of_apply fun i inside => ?_
  rw [program, if_pos ⟨by omega, by omega⟩]
  rw [List.length_replicate] at inside
  simp [List.getD_eq_getElem?_getD, inside]

theorem program_frame (m : ByteMem) (addr : Nat) (bs : List UInt8) {addr' len' : Nat}
    (apart : addr' + len' ≤ addr ∨ addr + bs.length ≤ addr') :
    AgreeOn m (m.program addr bs) addr' len' := by
  intro a low high
  rw [program, if_neg (by omega)]

theorem erase_erased (m : ByteMem) (addr len : Nat) : (m.erase addr len).Erased addr len := by
  intro a low high
  rw [erase, if_pos ⟨low, high⟩]

theorem erase_frame (m : ByteMem) (addr len : Nat) {addr' len' : Nat}
    (apart : addr' + len' ≤ addr ∨ addr + len ≤ addr') :
    AgreeOn m (m.erase addr len) addr' len' := by
  intro a low high
  rw [erase, if_neg (by omega)]

/-- Erasing two adjacent regions is erasing their union. -/
theorem erase_erase_adjacent (m : ByteMem) (addr len len' : Nat) :
    (m.erase addr len).erase (addr + len) len' = m.erase addr (len + len') := by
  funext a
  unfold erase
  by_cases low : addr + len ≤ a ∧ a < addr + len + len'
  · rw [if_pos low, if_pos ⟨by omega, by omega⟩]
  · rw [if_neg low]
    by_cases high : addr ≤ a ∧ a < addr + len
    · rw [if_pos high, if_pos ⟨by omega, by omega⟩]
    · rw [if_neg high, if_neg (by omega)]

theorem program_nil (m : ByteMem) (addr : Nat) : m.program addr [] = m := by
  funext a
  rw [program, if_neg]
  simp only [List.length_nil]
  omega

/-- Programming two adjacent pieces is programming them together. -/
theorem program_append (m : ByteMem) (addr : Nat) (xs ys : List UInt8) :
    (m.program addr xs).program (addr + xs.length) ys = m.program addr (xs ++ ys) := by
  funext a
  unfold program
  rw [List.length_append]
  by_cases high : addr + xs.length ≤ a ∧ a < addr + xs.length + ys.length
  · rw [if_pos high, if_neg (by omega), if_pos ⟨by omega, by omega⟩,
      List.getD_append_right _ _ _ _ (by omega),
      show a - addr - xs.length = a - (addr + xs.length) by omega]
  · rw [if_neg high]
    by_cases low : addr ≤ a ∧ a < addr + xs.length
    · rw [if_pos low, if_pos ⟨by omega, by omega⟩, List.getD_append _ _ _ _ (by omega)]
    · rw [if_neg low, if_neg (by omega)]

/-! ## Reading a file back from another address -/

/-- Bytes programmed from `addr'` on, in a region erased before. -/
theorem eraseProgram_apply (m : ByteMem) (addr len addr' : Nat) (bs : List UInt8) (a : Nat) :
    (m.erase addr len).program addr' bs a =
      if addr' ≤ a ∧ a < addr' + bs.length then m.erase addr len a &&& bs.getD (a - addr') 0
      else m.erase addr len a := rfl

section ReadBack

variable {addr len addr' at_ : Nat} {bs : List UInt8}

/-- A byte that comes back whatever the memory held, from a place that got no other byte than
`0xFF`, is `0xFF` itself, and the place lies in the erased region. -/
theorem readBack_blank {i : Nat} (inside : i < bs.length)
    (held : ∀ m : ByteMem, ((m.erase addr len).program addr' bs).Holds at_ bs)
    (blank : addr' ≤ at_ + i → at_ + i < addr' + bs.length → bs.getD (at_ + i - addr') 0 = 0xFF) :
    (addr ≤ at_ + i ∧ at_ + i < addr + len) ∧ bs.getD i 0 = 0xFF := by
  have untouched (m : ByteMem) : bs.getD i 0 = m.erase addr len (at_ + i) := by
    rw [← (held m).apply inside, eraseProgram_apply]
    split
    next written =>
      rw [blank written.1 written.2, UInt8.and_comm]
      exact and_blank _
    next => rfl
  have erased : addr ≤ at_ + i ∧ at_ + i < addr + len := by
    by_contra outside
    have zero := untouched fun _ => 0
    have ones := untouched fun _ => 0xFF
    rw [erase, if_neg outside] at zero ones
    rw [zero] at ones
    cases ones
  refine ⟨erased, ?_⟩
  rw [untouched fun _ => 0, erase, if_pos erased]

/-- Read back from a smaller address, every byte comes from the blank part in front or from the
byte before, and all are `0xFF`. -/
theorem readBack_below (below : at_ < addr')
    (held : ∀ m : ByteMem, ((m.erase addr len).program addr' bs).Holds at_ bs) (i : Nat)
    (inside : i < bs.length) :
    (addr ≤ at_ + i ∧ at_ + i < addr + len) ∧ bs.getD i 0 = 0xFF := by
  induction i using Nat.strongRecOn with
  | ind i ih =>
    refine readBack_blank inside held fun low high => ?_
    exact (ih (at_ + i - addr') (by omega) (by omega)).2

/-- Read back from a greater address, the same holds from the end on. -/
theorem readBack_above (above : addr' < at_)
    (held : ∀ m : ByteMem, ((m.erase addr len).program addr' bs).Holds at_ bs) (left i : Nat)
    (inside : i < bs.length) (rest : bs.length - i = left) :
    (addr ≤ at_ + i ∧ at_ + i < addr + len) ∧ bs.getD i 0 = 0xFF := by
  induction left using Nat.strongRecOn generalizing i with
  | ind left ih =>
    refine readBack_blank inside held fun low high => ?_
    exact (ih (bs.length - (at_ + i - addr')) (by omega) _ (by omega) rfl).2

/-- A file programmed in an erased region comes back whatever the memory held exactly from the
place it was programmed at, with zeros where it runs out of the region, or from anywhere in the
region if it is blank. -/
theorem readBack_iff (filled : bs ≠ []) (low : addr ≤ addr') :
    (∀ m : ByteMem, ((m.erase addr len).program addr' bs).Holds at_ bs) ↔
      (at_ = addr' ∧ ∀ i < bs.length, addr + len ≤ addr' + i → bs.getD i 0 = 0) ∨
      ((∀ i < bs.length, bs.getD i 0 = 0xFF) ∧ addr ≤ at_ ∧ at_ + bs.length ≤ addr + len) := by
  have some := List.length_pos_iff.mpr filled
  constructor
  · intro held
    rcases Nat.lt_trichotomy at_ addr' with below | same | above
    · have blank := readBack_below below held
      have first := (blank 0 some).1
      have last := (blank (bs.length - 1) (by omega)).1
      exact .inr ⟨fun i inside => (blank i inside).2, by omega, by omega⟩
    · subst same
      refine .inl ⟨rfl, fun i inside outside => ?_⟩
      have byte := (held fun _ => 0).apply inside
      rw [eraseProgram_apply, if_pos ⟨by omega, by omega⟩, erase, if_neg (by omega),
        UInt8.zero_and] at byte
      exact byte.symm
    · have blank := fun i inside => readBack_above above held _ i inside rfl
      have first := (blank 0 some).1
      have last := (blank (bs.length - 1) (by omega)).1
      exact .inr ⟨fun i inside => (blank i inside).2, by omega, by omega⟩
  · rintro (⟨rfl, tail⟩ | ⟨blank, low', high⟩) m
    · refine Holds.of_apply fun i inside => ?_
      rw [eraseProgram_apply, if_pos ⟨by omega, by omega⟩, Nat.add_sub_cancel_left, erase]
      split
      · exact and_blank _
      next outside =>
        rw [tail i inside (by omega), UInt8.and_zero]
    · refine Holds.of_apply fun i inside => ?_
      have erased : m.erase addr len (at_ + i) = 0xFF := if_pos ⟨by omega, by omega⟩
      rw [blank i inside, eraseProgram_apply, erased]
      split
      next written => rw [blank _ (by omega), and_blank]
      next => rfl

end ReadBack

theorem AgreeOn.symm {m m' : ByteMem} {addr len : Nat} (agree : AgreeOn m m' addr len) :
    AgreeOn m' m addr len := fun a low high => (agree a low high).symm

theorem AgreeOn.trans {m m' m'' : ByteMem} {addr len : Nat} (first : AgreeOn m m' addr len)
    (second : AgreeOn m' m'' addr len) : AgreeOn m m'' addr len :=
  fun a low high => (first a low high).trans (second a low high)

theorem AgreeOn.sub {m m' : ByteMem} {addr len addr' len' : Nat} (agree : AgreeOn m m' addr len)
    (low : addr ≤ addr') (high : addr' + len' ≤ addr + len) : AgreeOn m m' addr' len' :=
  fun a h1 h2 => agree a (by omega) (by omega)

end ByteMem
