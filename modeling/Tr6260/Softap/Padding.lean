import Mathlib.Algebra.GroupWithZero.Nat
import Mathlib.Data.UInt
import Tr6260.Softap.Cbc

/-!
# Padding of encrypted texts

`AES_CBC_PKCS5Padding_encrypt` and `AES_CBC_PKCS5Padding_decrypt` of `ya_aes_md5.c`, over a cipher
that keeps the length of whole blocks and that `decrypt` inverts.
-/

namespace Tr6260

namespace Softap

/-- AES in CBC mode with one key. -/
structure AesCbc where
  encrypt : AesBlock → List UInt8 → List UInt8
  decrypt : AesBlock → List UInt8 → List UInt8
  encrypt_length : ∀ iv text, aesBlockSize ∣ text.length →
    (encrypt iv text).length = text.length
  decrypt_length : ∀ iv text, aesBlockSize ∣ text.length →
    (decrypt iv text).length = text.length
  decrypt_encrypt : ∀ iv text, aesBlockSize ∣ text.length → decrypt iv (encrypt iv text) = text
  encrypt_decrypt : ∀ iv text, aesBlockSize ∣ text.length → encrypt iv (decrypt iv text) = text

/-- The chained blocks are a cipher as the padding needs it. -/
def AesCbc.ofBlocks (ecb : Equiv.Perm AesBlock) : AesCbc where
  encrypt iv text := cbcEncrypt ecb (text.length / aesBlockSize) iv text
  decrypt iv text := cbcDecrypt ecb (text.length / aesBlockSize) iv text
  encrypt_length iv text whole := by rw [length_cbcEncrypt, Nat.div_mul_cancel whole]
  decrypt_length iv text whole := by rw [length_cbcDecrypt, Nat.div_mul_cancel whole]
  decrypt_encrypt iv text whole := by
    have length := Nat.div_mul_cancel whole
    rw [length_cbcEncrypt, length, cbcDecrypt_cbcEncrypt ecb iv length.symm]
  encrypt_decrypt iv text whole := by
    have length := Nat.div_mul_cancel whole
    rw [length_cbcDecrypt, length, cbcEncrypt_cbcDecrypt ecb iv length.symm]

/-- `mbedtls_aes_crypt_cbc`; `none` where the length is refused and nothing is written. -/
def mbedtlsAesCryptCbc (crypt : AesBlock → List UInt8 → List UInt8) (iv : AesBlock)
    (input : List UInt8) : Option (List UInt8) :=
  if input.length % aesBlockSize ≠ 0 then none else some (crypt iv input)

/-- `AES_CBC_PKCS5Padding_encrypt`: what it returns and writes. No result where `enc_s` is `NULL`,
or too small because its length has overflowed. -/
def aesCbcPkcs5PaddingEncrypt (aes : AesCbc) (memory : Bool) (iv : AesBlock)
    (plaintext : List UInt8) : Option (Nat × List UInt8) :=
  let len := plaintext.length
  let nBei := len / aesBlockSize + 1
  let nTotal := nBei * aesBlockSize % 2 ^ 32
  let nNumber := if len % aesBlockSize > 0 then nTotal - len else aesBlockSize
  if memory = false ∨ nTotal < len then
    none
  else
    let encS := plaintext ++ List.replicate (nTotal - len) (UInt8.ofNat nNumber)
    (mbedtlsAesCryptCbc aes.encrypt iv encS).map fun ciphertext => (nTotal, ciphertext)

/-- `AES_CBC_PKCS5Padding_decrypt`: what it returns and writes. `heap` is what the memory held that
`dec_s` gets, `before` the byte before `plaintext`. No result where `dec_s` is `NULL` and is
copied. -/
def aesCbcPkcs5PaddingDecrypt (aes : AesCbc) (memory : Bool) (heap : Nat → UInt8)
    (before : UInt8) (iv : AesBlock) (ciphertext : List UInt8) : Option (Nat × List UInt8) :=
  let len := ciphertext.length
  if memory = false ∧ len ≠ 0 then
    none
  else
    let plaintext := (mbedtlsAesCryptCbc aes.decrypt iv ciphertext).getD ((List.range len).map heap)
    let last := (plaintext.getLastD before).toNat
    some (if len > last then len - last else 0, plaintext)

/-- The length of a text with its padding. -/
def paddedLength (len : Nat) : Nat := (len / aesBlockSize + 1) * aesBlockSize

/-- The text ends in `n` bytes of value `n`, for some `n` from 1 to 16. -/
def Padded (text : List UInt8) : Prop :=
  ∃ n, 1 ≤ n ∧ n ≤ aesBlockSize ∧ ∃ front, text = front ++ List.replicate n (UInt8.ofNat n)

/-- What is encrypted is found again. -/
def RoundTrips (aes : AesCbc) (encMemory decMemory : Bool) (heap : Nat → UInt8) (before : UInt8)
    (iv : AesBlock) (plaintext : List UInt8) : Prop :=
  ∃ nTotal ciphertext, aesCbcPkcs5PaddingEncrypt aes encMemory iv plaintext =
      some (nTotal, ciphertext) ∧ ciphertext.length = nTotal ∧
    ∃ text, aesCbcPkcs5PaddingDecrypt aes decMemory heap before iv ciphertext =
      some (plaintext.length, text) ∧ text.take plaintext.length = plaintext

/-- A length that is not zero is that of a padded text in whole blocks. -/
def RefusesUnpadded (aes : AesCbc) (memory : Bool) (heap : Nat → UInt8) (before : UInt8)
    (iv : AesBlock) (ciphertext : List UInt8) : Prop :=
  ∀ n text, aesCbcPkcs5PaddingDecrypt aes memory heap before iv ciphertext = some (n, text) →
    n ≠ 0 → 0 < ciphertext.length ∧ aesBlockSize ∣ ciphertext.length ∧ Padded text

section Lengths

variable (len : Nat)

theorem paddedLength_dvd : aesBlockSize ∣ paddedLength len := Nat.dvd_mul_left _ _

theorem lt_paddedLength : len < paddedLength len := by
  have parts := Nat.div_add_mod len aesBlockSize
  have rest : len % aesBlockSize < aesBlockSize := Nat.mod_lt _ (by decide)
  unfold paddedLength
  rw [Nat.succ_mul, Nat.mul_comm]
  omega

theorem paddedLength_le : paddedLength len ≤ len + aesBlockSize := by
  have parts := Nat.div_mul_le_self len aesBlockSize
  rw [paddedLength, Nat.succ_mul]
  omega

/-- The number that is written behind the text is the number of bytes it is written to. -/
theorem padding_number :
    (if len % aesBlockSize > 0 then paddedLength len - len else aesBlockSize) =
      paddedLength len - len := by
  split
  · rfl
  case isFalse whole =>
    have parts := Nat.div_add_mod len aesBlockSize
    rw [paddedLength, Nat.succ_mul, Nat.mul_comm]
    omega

end Lengths

section Texts

variable {aes : AesCbc} {memory : Bool} {heap : Nat → UInt8} {before : UInt8} {iv : AesBlock}

theorem getLastD_append_replicate (front : List UInt8) {n : Nat} (some_ : n ≠ 0) (b d : UInt8) :
    (front ++ List.replicate n b).getLastD d = b := by
  rcases Nat.exists_eq_succ_of_ne_zero some_ with ⟨m, rfl⟩
  rw [List.replicate_succ', ← List.append_assoc, List.getLastD_concat]

/-- A padded text tells its padding with its last byte. -/
theorem Padded.last {text : List UInt8} (padded : Padded text) (d : UInt8) :
    1 ≤ (text.getLastD d).toNat ∧ (text.getLastD d).toNat ≤ aesBlockSize ∧
      ∃ front, text = front ++ List.replicate (text.getLastD d).toNat (text.getLastD d) := by
  rcases padded with ⟨n, least, most, front, rfl⟩
  rw [getLastD_append_replicate front (by omega)]
  have small : n ≤ 16 := most
  have value : (UInt8.ofNat n).toNat = n := by
    rw [UInt8.toNat_ofNat']
    exact Nat.mod_eq_of_lt (by omega)
  rw [value]
  exact ⟨least, most, front, rfl⟩

theorem aesCbcPkcs5PaddingEncrypt_eq (aes : AesCbc) (iv : AesBlock) (plaintext : List UInt8)
    (fits : paddedLength plaintext.length < 2 ^ 32) :
    aesCbcPkcs5PaddingEncrypt aes true iv plaintext =
      some (paddedLength plaintext.length, aes.encrypt iv (plaintext ++
        List.replicate (paddedLength plaintext.length - plaintext.length)
          (UInt8.ofNat (paddedLength plaintext.length - plaintext.length)))) := by
  have more := lt_paddedLength plaintext.length
  have number := padding_number plaintext.length
  have total : (plaintext.length / aesBlockSize + 1) * aesBlockSize % 2 ^ 32 =
      paddedLength plaintext.length := Nat.mod_eq_of_lt fits
  have room : ¬ (true = false ∨ paddedLength plaintext.length < plaintext.length) := by
    rintro (none | less)
    · cases none
    · omega
  have whole : ¬ (paddedLength plaintext.length) % aesBlockSize ≠ 0 :=
    not_not.mpr (Nat.mod_eq_zero_of_dvd (paddedLength_dvd _))
  unfold aesCbcPkcs5PaddingEncrypt mbedtlsAesCryptCbc
  dsimp only
  rw [total, number, if_neg room, List.length_append, List.length_replicate,
    Nat.add_sub_cancel' (Nat.le_of_lt more), if_neg whole, Option.map_some]

theorem aesCbcPkcs5PaddingDecrypt_whole (aes : AesCbc) (heap : Nat → UInt8) (before : UInt8)
    (iv : AesBlock) {ciphertext : List UInt8}
    (whole : aesBlockSize ∣ ciphertext.length) :
    aesCbcPkcs5PaddingDecrypt aes true heap before iv ciphertext =
      some (if ciphertext.length > ((aes.decrypt iv ciphertext).getLastD before).toNat then
        ciphertext.length - ((aes.decrypt iv ciphertext).getLastD before).toNat else 0,
        aes.decrypt iv ciphertext) := by
  unfold aesCbcPkcs5PaddingDecrypt mbedtlsAesCryptCbc
  dsimp only
  rw [if_neg (by simp), if_neg (not_not.mpr (Nat.mod_eq_zero_of_dvd whole)), Option.getD_some]

/-- A text that was encrypted is found again where there is memory for both, and its padded length
fits into 32 bits. -/
theorem roundTrips_iff (aes : AesCbc) (encMemory decMemory : Bool) (heap : Nat → UInt8)
    (before : UInt8) (iv : AesBlock) {plaintext : List UInt8}
    (fits : plaintext.length < 2 ^ 32) :
    RoundTrips aes encMemory decMemory heap before iv plaintext ↔
      encMemory = true ∧ decMemory = true ∧ paddedLength plaintext.length < 2 ^ 32 := by
  have more := lt_paddedLength plaintext.length
  have most := paddedLength_le plaintext.length
  have blockSize : aesBlockSize = 16 := rfl
  constructor
  · rintro ⟨nTotal, ciphertext, encrypted, length, text, decrypted, -⟩
    unfold aesCbcPkcs5PaddingEncrypt at encrypted
    dsimp only at encrypted
    split at encrypted
    case isTrue => cases encrypted
    case isFalse room =>
    rcases not_or.mp room with ⟨memory, large⟩
    rcases Option.map_eq_some_iff.mp encrypted with ⟨ciphertext', -, same⟩
    cases same
    have large : ¬ paddedLength plaintext.length % 2 ^ 32 < plaintext.length := large
    have small : paddedLength plaintext.length < 2 ^ 32 := by omega
    have total : (plaintext.length / aesBlockSize + 1) * aesBlockSize % 2 ^ 32 =
        paddedLength plaintext.length := Nat.mod_eq_of_lt small
    refine ⟨(Bool.not_eq_false _).mp memory, ?_, small⟩
    by_contra none
    have nonempty : ciphertext.length ≠ 0 := by omega
    unfold aesCbcPkcs5PaddingDecrypt at decrypted
    dsimp only at decrypted
    rw [if_pos ⟨(Bool.not_eq_true _).mp none, nonempty⟩] at decrypted
    cases decrypted
  · rintro ⟨rfl, rfl, small⟩
    have whole := paddedLength_dvd plaintext.length
    have encrypted := aesCbcPkcs5PaddingEncrypt_eq aes iv plaintext small
    generalize rest : paddedLength plaintext.length - plaintext.length = n at encrypted
    have padded : (plaintext ++ List.replicate n (UInt8.ofNat n)).length =
        paddedLength plaintext.length := by
      rw [List.length_append, List.length_replicate]
      omega
    have value : (UInt8.ofNat n).toNat = n := by
      rw [UInt8.toNat_ofNat']
      exact Nat.mod_eq_of_lt (by omega)
    have length := (aes.encrypt_length iv _ (padded ▸ whole)).trans padded
    refine ⟨_, _, encrypted, length, plaintext ++ List.replicate n (UInt8.ofNat n), ?_, ?_⟩
    · rw [aesCbcPkcs5PaddingDecrypt_whole aes heap before iv (length ▸ whole),
        aes.decrypt_encrypt iv _ (padded ▸ whole), getLastD_append_replicate _ (by omega), value,
        length]
      congr 2
      split <;> omega
    · exact List.take_left

/-- The condition under which only padded texts are taken: the last byte of what is written is not
below the length, or whole blocks decrypt to a padded text. -/
structure TakesPadded (aes : AesCbc) (heap : Nat → UInt8) (iv : AesBlock)
    (ciphertext : List UInt8) : Prop where
  refused : ¬ aesBlockSize ∣ ciphertext.length →
    ciphertext.length ≤ (heap (ciphertext.length - 1)).toNat
  whole : aesBlockSize ∣ ciphertext.length → ciphertext ≠ [] →
    ciphertext.length ≤ ((aes.decrypt iv ciphertext).getLastD 0).toNat ∨
      Padded (aes.decrypt iv ciphertext)

theorem getLastD_eq {text : List UInt8} (nonempty : text ≠ []) (c d : UInt8) :
    text.getLastD c = text.getLastD d := by
  rw [List.getLastD_eq_getLast?, List.getLastD_eq_getLast?, List.getLast?_eq_some_getLast nonempty]
  rfl

theorem getLastD_map_range {n : Nat} (some_ : n ≠ 0) (f : Nat → UInt8) (d : UInt8) :
    ((List.range n).map f).getLastD d = f (n - 1) := by
  rcases Nat.exists_eq_succ_of_ne_zero some_ with ⟨m, rfl⟩
  rw [List.range_succ, List.map_append, List.map_singleton, List.getLastD_concat,
    Nat.succ_sub_one]

theorem aesCbcPkcs5PaddingDecrypt_refused (aes : AesCbc) (heap : Nat → UInt8) (before : UInt8)
    (iv : AesBlock) {ciphertext : List UInt8}
    (uneven : ¬ aesBlockSize ∣ ciphertext.length) :
    aesCbcPkcs5PaddingDecrypt aes true heap before iv ciphertext =
      some (if ciphertext.length > (heap (ciphertext.length - 1)).toNat then
        ciphertext.length - (heap (ciphertext.length - 1)).toNat else 0,
        (List.range ciphertext.length).map heap) := by
  have nonempty : ciphertext.length ≠ 0 := fun empty => uneven (empty ▸ Nat.dvd_zero _)
  unfold aesCbcPkcs5PaddingDecrypt mbedtlsAesCryptCbc
  dsimp only
  rw [if_neg (by simp), if_pos fun even => uneven (Nat.dvd_of_mod_eq_zero even), Option.getD_none,
    getLastD_map_range nonempty]

/-- Without memory, or without a text, there is no length but 0. -/
theorem refusesUnpadded_trivial {ciphertext : List UInt8}
    (none_ : memory = false ∨ ciphertext = []) :
    RefusesUnpadded aes memory heap before iv ciphertext := by
  rintro n text decrypted nonzero
  by_cases empty : ciphertext = []
  · subst empty
    unfold aesCbcPkcs5PaddingDecrypt at decrypted
    dsimp only at decrypted
    rw [if_neg (by simp), List.length_nil, if_neg (Nat.not_lt_zero _)] at decrypted
    cases decrypted
    exact absurd rfl nonzero
  · unfold aesCbcPkcs5PaddingDecrypt at decrypted
    dsimp only at decrypted
    rw [if_pos ⟨none_.resolve_right empty, mt List.length_eq_zero_iff.mp empty⟩] at decrypted
    cases decrypted

theorem refusesUnpadded_iff (aes : AesCbc) (memory : Bool) (heap : Nat → UInt8) (before : UInt8)
    (iv : AesBlock) (ciphertext : List UInt8) :
    RefusesUnpadded aes memory heap before iv ciphertext ↔
      memory = false ∨ ciphertext = [] ∨ TakesPadded aes heap iv ciphertext := by
  by_cases none : memory = false ∨ ciphertext = []
  · exact iff_of_true (refusesUnpadded_trivial none) (none.elim .inl fun empty => .inr (.inl empty))
  rcases not_or.mp none with ⟨there, nonempty⟩
  rw [or_iff_right there, or_iff_right nonempty]
  obtain rfl := (Bool.not_eq_false _).mp there
  have positive : 0 < ciphertext.length := List.length_pos_iff.mpr nonempty
  by_cases whole : aesBlockSize ∣ ciphertext.length
  · have decrypted := aesCbcPkcs5PaddingDecrypt_whole aes heap before iv whole
    have length := aes.decrypt_length iv ciphertext whole
    have textNonempty : aes.decrypt iv ciphertext ≠ [] := by
      rw [ne_eq, ← List.length_eq_zero_iff, length]
      omega
    rw [getLastD_eq textNonempty before 0] at decrypted
    constructor
    · intro refuses
      refine ⟨fun uneven => absurd whole uneven, fun _ _ => ?_⟩
      by_cases more : ciphertext.length > ((aes.decrypt iv ciphertext).getLastD 0).toNat
      · rw [if_pos more] at decrypted
        exact .inr (refuses _ _ decrypted (Nat.sub_ne_zero_of_lt more)).2.2
      · exact .inl (Nat.not_lt.mp more)
    · intro takes n text read nonzero
      refine ⟨positive, whole, ?_⟩
      cases decrypted.symm.trans read
      rcases takes.whole whole nonempty with most | padded
      · exact absurd (if_neg (Nat.not_lt.mpr most)) nonzero
      · exact padded
  · have decrypted := aesCbcPkcs5PaddingDecrypt_refused aes heap before iv whole
    constructor
    · intro refuses
      refine ⟨fun _ => ?_, fun whole' => absurd whole' whole⟩
      by_contra more
      rw [if_pos (Nat.not_le.mp more)] at decrypted
      exact whole (refuses _ _ decrypted (Nat.sub_ne_zero_of_lt (Nat.not_le.mp more))).2.1
    · intro takes n text read nonzero
      rw [if_neg (Nat.not_lt.mpr (takes.refused whole))] at decrypted
      cases decrypted.symm.trans read
      exact absurd rfl nonzero

/-- A text is found again exactly where there is memory and its padded length fits, and a text that
is not padded is refused exactly under `TakesPadded`. -/
theorem pkcs5_right_iff (aes : AesCbc) (encMemory memory : Bool) (heap : Nat → UInt8)
    (before : UInt8) (iv : AesBlock) {plaintext : List UInt8} (ciphertext : List UInt8)
    (fits : plaintext.length < 2 ^ 32) :
    (RoundTrips aes encMemory memory heap before iv plaintext ↔
        encMemory = true ∧ memory = true ∧ paddedLength plaintext.length < 2 ^ 32) ∧
      (RefusesUnpadded aes memory heap before iv ciphertext ↔
        memory = false ∨ ciphertext = [] ∨ TakesPadded aes heap iv ciphertext) :=
  ⟨roundTrips_iff aes encMemory memory heap before iv fits,
    refusesUnpadded_iff aes memory heap before iv ciphertext⟩

end Texts

/-- Blocks that are only chained. -/
def plainCbc : AesCbc := .ofBlocks (.refl _)

/-- The padding of one block. -/
theorem pkcs5_right_block : RoundTrips plainCbc true true (fun _ => 0) 0 (.replicate 16 0)
      (List.replicate 16 7) ∧
    RefusesUnpadded plainCbc true (fun _ => 0) 0 (.replicate 16 0) (List.replicate 16 16) := by
  rcases pkcs5_right_iff plainCbc true true (fun _ => 0) 0 (.replicate 16 0)
    (List.replicate 16 16) (by decide : (List.replicate 16 (7 : UInt8)).length < 2 ^ 32) with
    ⟨roundTrips, refuses⟩
  refine ⟨roundTrips.mpr ⟨rfl, rfl, by decide⟩, refuses.mpr (.inr (.inr ⟨?_, ?_⟩))⟩
  · exact fun uneven => absurd (by decide) uneven
  · exact fun _ _ => .inl (by decide +kernel)

/-- Whatever the cipher, sixteen bytes that decrypt to zeros are taken for sixteen bytes of text. -/
theorem zeros_taken (aes : AesCbc) (heap : Nat → UInt8) (before : UInt8) (iv : AesBlock) :
    ¬ RefusesUnpadded aes true heap before iv (aes.encrypt iv (List.replicate 16 0)) := by
  have block : aesBlockSize ∣ (List.replicate 16 (0 : UInt8)).length := by decide
  have length := aes.encrypt_length iv _ block
  have decrypted := aesCbcPkcs5PaddingDecrypt_whole aes heap before iv (length ▸ block)
  rw [aes.decrypt_encrypt iv _ block, length] at decrypted
  intro refuses
  have padded := (refuses 16 _ decrypted (by decide)).2.2
  exact absurd (padded.last 0).1 (by decide)

theorem pkcs5_zeros : ¬ RefusesUnpadded plainCbc true (fun _ => 0) 0 (.replicate 16 0)
    (plainCbc.encrypt (.replicate 16 0) (List.replicate 16 0)) :=
  zeros_taken plainCbc (fun _ => 0) 0 (.replicate 16 0)

end Softap

end Tr6260
