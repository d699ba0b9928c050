import Mathlib.Data.List.Basic
import Mathlib.Logic.Equiv.Defs

/-!
# Chained blocks

The loops of `mbedtls_aes_crypt_cbc` over the permutation of blocks that AES has for a key. One
undoes the other.
-/

namespace Tr6260

namespace Softap

/-- `AES_BLOCK_SIZE`. -/
def aesBlockSize : Nat := 16

/-- An initialization vector, and a block. -/
abbrev AesBlock := Vector UInt8 16

/-- The first block of a text. -/
def blockAt (text : List UInt8) : AesBlock := .ofFn fun i => text.getD i 0

def xorBlock (a b : AesBlock) : AesBlock := a.zipWith (· ^^^ ·) b

/-- The loop of `MBEDTLS_AES_ENCRYPT`. -/
def cbcEncrypt (ecb : Equiv.Perm AesBlock) : (blocks : Nat) → AesBlock → List UInt8 → List UInt8
  | 0, _, _ => []
  | blocks + 1, iv, input =>
    let output := ecb (xorBlock (blockAt input) iv)
    output.toList ++ cbcEncrypt ecb blocks output (input.drop aesBlockSize)

/-- The loop of `MBEDTLS_AES_DECRYPT`. -/
def cbcDecrypt (ecb : Equiv.Perm AesBlock) : (blocks : Nat) → AesBlock → List UInt8 → List UInt8
  | 0, _, _ => []
  | blocks + 1, iv, input =>
    let temp := blockAt input
    (xorBlock (ecb.symm temp) iv).toList ++ cbcDecrypt ecb blocks temp (input.drop aesBlockSize)

section Blocks

variable (ecb : Equiv.Perm AesBlock)

theorem xorBlock_xorBlock (a b : AesBlock) : xorBlock (xorBlock a b) b = a := by
  ext i inside
  simp only [xorBlock, Vector.getElem_zipWith]
  rw [UInt8.xor_assoc, UInt8.xor_self, UInt8.xor_zero]

theorem toList_blockAt {text : List UInt8} (long : aesBlockSize ≤ text.length) :
    (blockAt text).toList = text.take aesBlockSize := by
  have blockSize : aesBlockSize = 16 := rfl
  refine List.ext_getElem (by simp; omega) fun i inside inside' => ?_
  have small : i < text.length := by
    rw [List.length_take] at inside'
    omega
  simp [blockAt, List.getElem?_eq_getElem small]

theorem blockAt_append (block : AesBlock) (rest : List UInt8) :
    blockAt (block.toList ++ rest) = block := by
  ext i inside
  simp only [blockAt, Vector.getElem_ofFn]
  rw [List.getD_eq_getElem?_getD, List.getElem?_append_left (by simpa using inside)]
  simp [inside]

theorem drop_append (block : AesBlock) (rest : List UInt8) :
    (block.toList ++ rest).drop aesBlockSize = rest :=
  List.drop_left' block.length_toList

/-- What is left of a text of whole blocks. -/
theorem length_drop_block {blocks : Nat} {text : List UInt8}
    (length : text.length = (blocks + 1) * aesBlockSize) :
    (text.drop aesBlockSize).length = blocks * aesBlockSize := by
  rw [List.length_drop, length, Nat.succ_mul, Nat.add_sub_cancel]

theorem length_cbcEncrypt (blocks : Nat) (iv : AesBlock) (text : List UInt8) :
    (cbcEncrypt ecb blocks iv text).length = blocks * aesBlockSize := by
  induction blocks generalizing iv text with
  | zero => exact (Nat.zero_mul _).symm
  | succ blocks ih =>
    rw [cbcEncrypt, List.length_append, ih, Vector.length_toList, Nat.succ_mul, Nat.add_comm]
    rfl

theorem length_cbcDecrypt (blocks : Nat) (iv : AesBlock) (text : List UInt8) :
    (cbcDecrypt ecb blocks iv text).length = blocks * aesBlockSize := by
  induction blocks generalizing iv text with
  | zero => exact (Nat.zero_mul _).symm
  | succ blocks ih =>
    rw [cbcDecrypt, List.length_append, ih, Vector.length_toList, Nat.succ_mul, Nat.add_comm]
    rfl

theorem cbcDecrypt_cbcEncrypt {blocks : Nat} (iv : AesBlock) {text : List UInt8}
    (length : text.length = blocks * aesBlockSize) :
    cbcDecrypt ecb blocks iv (cbcEncrypt ecb blocks iv text) = text := by
  induction blocks generalizing iv text with
  | zero =>
    rw [Nat.zero_mul] at length
    exact (List.length_eq_zero_iff.mp length).symm
  | succ blocks ih =>
    have long : aesBlockSize ≤ text.length := by
      rw [length, Nat.succ_mul]
      exact Nat.le_add_left _ _
    rw [cbcEncrypt, cbcDecrypt]
    rw [blockAt_append, drop_append, Equiv.symm_apply_apply, xorBlock_xorBlock,
      ih _ (length_drop_block length), toList_blockAt long, List.take_append_drop]

theorem cbcEncrypt_cbcDecrypt {blocks : Nat} (iv : AesBlock) {text : List UInt8}
    (length : text.length = blocks * aesBlockSize) :
    cbcEncrypt ecb blocks iv (cbcDecrypt ecb blocks iv text) = text := by
  induction blocks generalizing iv text with
  | zero =>
    rw [Nat.zero_mul] at length
    exact (List.length_eq_zero_iff.mp length).symm
  | succ blocks ih =>
    have long : aesBlockSize ≤ text.length := by
      rw [length, Nat.succ_mul]
      exact Nat.le_add_left _ _
    rw [cbcDecrypt, cbcEncrypt]
    rw [blockAt_append, drop_append, xorBlock_xorBlock, Equiv.apply_symm_apply,
      ih _ (length_drop_block length), toList_blockAt long, List.take_append_drop]

end Blocks

end Softap

end Tr6260
