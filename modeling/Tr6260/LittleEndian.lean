import Tr6260.ByteMem

/-!
# Little-endian numbers in a byte memory

`loadLe` and `storeLe` read and write a number of `width` bytes, the low byte first.
What is read is what was written there last, and a write elsewhere changes nothing.
-/

namespace ByteMem

/-- The low `width` bytes of a number, the low byte first. -/
def leBytes : Nat → Nat → List UInt8
  | 0, _ => []
  | width + 1, v => UInt8.ofNat v :: leBytes width (v / 256)

/-- The number a list of bytes stands for, the low byte first. -/
def leNat : List UInt8 → Nat
  | [] => 0
  | b :: bs => b.toNat + 256 * leNat bs

/-- A number of `width` bytes at `addr`. -/
def loadLe (m : ByteMem) (addr width : Nat) : Nat := leNat (m.load addr width)

/-- Store the low `width` bytes of a number at `addr`. -/
def storeLe (m : ByteMem) (addr width v : Nat) : ByteMem := m.store addr (leBytes width v)

@[simp] theorem length_leBytes (width v : Nat) : (leBytes width v).length = width := by
  induction width generalizing v with
  | zero => rfl
  | succ width ih => simp [leBytes, ih]

theorem leNat_leBytes {width v : Nat} (small : v < 256 ^ width) : leNat (leBytes width v) = v := by
  induction width generalizing v with
  | zero => simp at small; simp [leBytes, leNat, small]
  | succ width ih =>
    have high : v / 256 < 256 ^ width := by
      rw [Nat.pow_succ] at small
      omega
    rw [leBytes, leNat, ih high, UInt8.toNat_ofNat']
    omega

theorem leBytes_leNat (bs : List UInt8) : leBytes bs.length (leNat bs) = bs := by
  induction bs with
  | nil => rfl
  | cons b bs ih =>
    have byte := b.toNat_lt
    have low : UInt8.ofNat (b.toNat + 256 * leNat bs) = b := by
      apply UInt8.toNat_inj.mp
      rw [UInt8.toNat_ofNat']
      omega
    have high : (b.toNat + 256 * leNat bs) / 256 = leNat bs := by omega
    rw [List.length_cons, leNat, leBytes, low, high, ih]

theorem leNat_lt (bs : List UInt8) : leNat bs < 256 ^ bs.length := by
  induction bs with
  | nil => simp [leNat]
  | cons b bs ih =>
    have byte := b.toNat_lt
    rw [leNat, List.length_cons, Nat.pow_succ]
    omega

theorem loadLe_lt (m : ByteMem) (addr width : Nat) : m.loadLe addr width < 256 ^ width := by
  simpa [loadLe] using leNat_lt (m.load addr width)

theorem loadLe_storeLe_same (m : ByteMem) (addr : Nat) {width v : Nat} (small : v < 256 ^ width) :
    (m.storeLe addr width v).loadLe addr width = v := by
  have held := (store_holds m addr (leBytes width v)).load
  rw [length_leBytes] at held
  rw [loadLe, storeLe, held, leNat_leBytes small]

/-- A number written back leaves the memory as it was. -/
theorem storeLe_loadLe (m : ByteMem) (addr width : Nat) :
    m.storeLe addr width (m.loadLe addr width) = m := by
  have back := leBytes_leNat (m.load addr width)
  rw [length_load] at back
  rw [storeLe, loadLe, back, store_load]

theorem loadLe_congr {m m' : ByteMem} {addr width : Nat} (agree : AgreeOn m m' addr width) :
    m.loadLe addr width = m'.loadLe addr width := by
  rw [loadLe, loadLe, load_congr agree]

theorem storeLe_frame (m : ByteMem) (addr width v : Nat) {addr' len' : Nat}
    (apart : addr' + len' ≤ addr ∨ addr + width ≤ addr') :
    AgreeOn m (m.storeLe addr width v) addr' len' :=
  store_frame m addr (leBytes width v) (by rwa [length_leBytes])

theorem loadLe_storeLe_apart (m : ByteMem) (addr width v : Nat) {addr' width' : Nat}
    (apart : addr' + width' ≤ addr ∨ addr + width ≤ addr') :
    (m.storeLe addr width v).loadLe addr' width' = m.loadLe addr' width' :=
  (loadLe_congr (storeLe_frame m addr width v apart)).symm

end ByteMem
