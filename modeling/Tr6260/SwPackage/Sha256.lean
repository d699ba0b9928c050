import Tr6260.Block
import Tr6260.BlockHash
import Tr6260.LittleEndian

/-!
# The digest of a slice

`sw_sha256.c`. The context keeps what is short of a block of 64 bytes, and `sha256_final` puts the
end of the padding behind it. The length in bits is a number of 32 bits there, so that the digest is
the one of the padded message for messages of less than 2^29 bytes (`sha256_pieces`).

Functions have no result when a copy leaves the context's block.
-/

namespace Tr6260

namespace SwSha256

open BlockHash ByteMem

/-- `SHA256_BLOCK_SIZE`. -/
def blockSize : UInt32 := 512 / 8

def rotr (x n : UInt32) : UInt32 := x >>> n ||| x <<< (32 - n)

def ch (x y z : UInt32) : UInt32 := (x &&& y) ^^^ (~~~x &&& z)

def maj (x y z : UInt32) : UInt32 := (x &&& y) ^^^ (x &&& z) ^^^ (y &&& z)

/-- `SHA256_F1` to `SHA256_F4`. -/
def f1 (x : UInt32) : UInt32 := rotr x 2 ^^^ rotr x 13 ^^^ rotr x 22

def f2 (x : UInt32) : UInt32 := rotr x 6 ^^^ rotr x 11 ^^^ rotr x 25

def f3 (x : UInt32) : UInt32 := rotr x 7 ^^^ rotr x 18 ^^^ x >>> 3

def f4 (x : UInt32) : UInt32 := rotr x 17 ^^^ rotr x 19 ^^^ x >>> 10

/-- `UNPACK32`. -/
def unpack32 (x : UInt32) : List UInt8 :=
  [(x >>> 24).toUInt8, (x >>> 16).toUInt8, (x >>> 8).toUInt8, x.toUInt8]

/-- `PACK32`. -/
def pack32 (str : List UInt8) : UInt32 :=
  (str.getD 3 0).toUInt32 ||| (str.getD 2 0).toUInt32 <<< 8 ||| (str.getD 1 0).toUInt32 <<< 16 |||
    (str.getD 0 0).toUInt32 <<< 24

/-- The eight words of `h` and of `wv`. -/
structure Words where
  a : UInt32
  b : UInt32
  c : UInt32
  d : UInt32
  e : UInt32
  f : UInt32
  g : UInt32
  h : UInt32

/-- `sha256_h0`. -/
def sha256H0 : Words where
  a := 0x6a09e667
  b := 0xbb67ae85
  c := 0x3c6ef372
  d := 0xa54ff53a
  e := 0x510e527f
  f := 0x9b05688c
  g := 0x1f83d9ab
  h := 0x5be0cd19

/-- `sha256_k`. -/
def sha256K : List UInt32 :=
  [0x428a2f98, 0x71374491, 0xb5c0fbcf, 0xe9b5dba5, 0x3956c25b, 0x59f111f1, 0x923f82a4, 0xab1c5ed5,
   0xd807aa98, 0x12835b01, 0x243185be, 0x550c7dc3, 0x72be5d74, 0x80deb1fe, 0x9bdc06a7, 0xc19bf174,
   0xe49b69c1, 0xefbe4786, 0x0fc19dc6, 0x240ca1cc, 0x2de92c6f, 0x4a7484aa, 0x5cb0a9dc, 0x76f988da,
   0x983e5152, 0xa831c66d, 0xb00327c8, 0xbf597fc7, 0xc6e00bf3, 0xd5a79147, 0x06ca6351, 0x14292967,
   0x27b70a85, 0x2e1b2138, 0x4d2c6dfc, 0x53380d13, 0x650a7354, 0x766a0abb, 0x81c2c92e, 0x92722c85,
   0xa2bfe8a1, 0xa81a664b, 0xc24b8b70, 0xc76c51a3, 0xd192e819, 0xd6990624, 0xf40e3585, 0x106aa070,
   0x19a4c116, 0x1e376c08, 0x2748774c, 0x34b0bcb5, 0x391c0cb3, 0x4ed8aa4a, 0x5b9cca4f, 0x682e6ff3,
   0x748f82ee, 0x78a5636f, 0x84c87814, 0x8cc70208, 0x90befffa, 0xa4506ceb, 0xbef9a3f7, 0xc67178f2]

/-- `SHA256_SCR` for the words from `w[i]` on. -/
def schedule : Nat → Nat → List UInt32 → List UInt32
  | 0, _, w => w
  | left + 1, i, w =>
    schedule left (i + 1) (w ++ [f4 (w.getD (i - 2) 0) + w.getD (i - 7) 0 +
      f3 (w.getD (i - 15) 0) + w.getD (i - 16) 0])

/-- A round: the words of `wv` move on. -/
def round (wv : Words) (k w : UInt32) : Words :=
  let t1 := wv.h + f2 wv.e + ch wv.e wv.f wv.g + k + w
  let t2 := f1 wv.a + maj wv.a wv.b wv.c
  ⟨t1 + t2, wv.a, wv.b, wv.c, wv.d + t1, wv.e, wv.f, wv.g⟩

def Words.add (x y : Words) : Words :=
  ⟨x.a + y.a, x.b + y.b, x.c + y.c, x.d + y.d, x.e + y.e, x.f + y.f, x.g + y.g, x.h + y.h⟩

/-- A block of `sha256_transf`. -/
def transfBlock (h : Words) (subBlock : List UInt8) : Words :=
  let w := schedule 48 16 ((List.range 16).map fun j => pack32 (subBlock.drop (j <<< 2)))
  h.add ((sha256K.zip w).foldl (fun wv (k, w) => round wv k w) h)

/-- `sha256_ctx`. -/
structure Ctx where
  totLen : UInt32
  len : UInt32
  block : List UInt8
  h : Words

/-- `sha256_transf`. -/
def sha256Transf (ctx : Ctx) (message : List UInt8) (blockNb : UInt32) : Ctx :=
  { ctx with h := chain transfBlock 64 blockNb.toNat ctx.h message }

/-- `sha256_init`. -/
def sha256Init (ctx : Ctx) : Ctx := { ctx with h := sha256H0, len := 0, totLen := 0 }

/-- `sha256_update`. -/
def sha256Update (ctx : Ctx) (message : List UInt8) : Option Ctx := do
  let len := UInt32.ofNat message.length
  let tmpLen := blockSize - ctx.len
  let remLen := if len < tmpLen then len else tmpLen
  let block ← Block.write ctx.block ctx.len.toNat (message.take remLen.toNat)
  if ctx.len + len < blockSize then
    some { ctx with block := block, len := ctx.len + len }
  else
    let newLen := len - remLen
    let blockNb := newLen / blockSize
    let shiftedMessage := message.drop remLen.toNat
    let ctx := sha256Transf { ctx with block := block } block 1
    let ctx := sha256Transf ctx shiftedMessage blockNb
    let remLen := newLen % blockSize
    let block ← Block.write ctx.block 0
      ((shiftedMessage.drop (blockNb <<< 6).toNat).take remLen.toNat)
    some { ctx with block := block, len := remLen, totLen := ctx.totLen + (blockNb + 1) <<< 6 }

/-- The digest of `sha256_final`. -/
def Words.bytes (h : Words) : List UInt8 :=
  unpack32 h.a ++ unpack32 h.b ++ unpack32 h.c ++ unpack32 h.d ++ unpack32 h.e ++ unpack32 h.f ++
    unpack32 h.g ++ unpack32 h.h

/-- `sha256_final`. -/
def sha256Final (ctx : Ctx) : Option (List UInt8) := do
  let blockNb : UInt32 := 1 + if blockSize - 9 < ctx.len % blockSize then 1 else 0
  let lenB := (ctx.totLen + ctx.len) <<< 3
  let pmLen := blockNb <<< 6
  let block ← Block.write ctx.block ctx.len.toNat (List.replicate (pmLen - ctx.len).toNat 0)
  let block ← Block.write block ctx.len.toNat [0x80]
  let block ← Block.write block (pmLen - 4).toNat (unpack32 lenB)
  some (sha256Transf ctx block blockNb).h.bytes

/-- `SwSha256`. -/
def swSha256 (ctx : Ctx) (message : List UInt8) : Option (List UInt8) := do
  sha256Final (← sha256Update (sha256Init ctx) message)

theorem length_swSha256 {ctx : Ctx} {message digest : List UInt8}
    (made : swSha256 ctx message = some digest) : digest.length = 32 := by
  rcases Option.bind_eq_some_iff.mp made with ⟨ctx', -, made⟩
  rcases Option.bind_eq_some_iff.mp made with ⟨block, -, made⟩
  rcases Option.bind_eq_some_iff.mp made with ⟨block', -, made⟩
  rcases Option.bind_eq_some_iff.mp made with ⟨block'', -, made⟩
  cases made
  rfl

/-- What `SwSha256` leaves in zeroed memory. -/
def hashed (ctx : Ctx) (message : List UInt8) : List UInt8 :=
  (swSha256 ctx message).getD (List.replicate 32 0)

theorem length_hashed (ctx : Ctx) (message : List UInt8) : (hashed ctx message).length = 32 := by
  unfold hashed
  cases made : swSha256 ctx message with
  | none => rfl
  | some digest => exact length_swSha256 made

/-- A context before its first use. -/
def freshCtx : Ctx := ⟨0, 0, List.replicate 128 7, sha256H0⟩

/-! ## The digest of a message -/

/-- A number of 64 bits, the high byte first. -/
def beBytes (n : Nat) : List UInt8 := (leBytes 8 n).reverse

/-- A message with a bit behind it, and its length in bits at the end of a block. -/
def padded (message : List UInt8) : List UInt8 :=
  message ++ [0x80] ++ List.replicate ((119 - message.length % 64) % 64) 0 ++
    beBytes (8 * message.length)

/-- The digest. -/
def sha256 (message : List UInt8) : List UInt8 :=
  (chain transfBlock 64 ((padded message).length / 64) sha256H0 (padded message)).bytes

/-! ## The state between two calls -/

/-- The context holds what the message so far leaves behind its whole blocks. -/
structure Taken (ctx : Ctx) (got : List UInt8) : Prop where
  room : ctx.block.length = 128
  len : ctx.len.toNat = got.length % 64
  totLen : ctx.totLen.toNat = taken 64 got
  begun : ctx.block.take (got.length % 64) = got.drop (taken 64 got)
  h : ctx.h = chain transfBlock 64 (got.length / 64) sha256H0 got

theorem Taken.init {ctx : Ctx} (room : ctx.block.length = 128) : Taken (sha256Init ctx) [] :=
  ⟨room, rfl, rfl, rfl, rfl⟩

section Update

variable {ctx : Ctx} {got message : List UInt8}

theorem toNat_ofNat_length (short : message.length < 2 ^ 29) :
    (UInt32.ofNat message.length).toNat = message.length :=
  UInt32.toNat_ofNat_of_lt (by rw [UInt32.size]; omega)

/-- A number of blocks in bytes. -/
theorem toNat_shift_six {count : UInt32} (few : count.toNat < 2 ^ 26) :
    (count <<< 6).toNat = count.toNat * 64 := by
  have six : (6 : UInt32).toNat % 32 = 6 := rfl
  rw [UInt32.toNat_shiftLeft, six, Nat.shiftLeft_eq]
  omega

theorem Taken.tmpLen (state : Taken ctx got) :
    (blockSize - ctx.len).toNat = 64 - got.length % 64 := by
  have less := Nat.mod_lt got.length (by decide : 0 < 64)
  have size : blockSize.toNat = 64 := rfl
  rw [UInt32.toNat_sub_of_le, state.len, size]
  rw [UInt32.le_iff_toNat_le, state.len, size]
  omega

theorem Taken.remLen (state : Taken ctx got) (short : message.length < 2 ^ 29) :
    (if UInt32.ofNat message.length < blockSize - ctx.len then UInt32.ofNat message.length
      else blockSize - ctx.len).toNat = min message.length (64 - got.length % 64) := by
  split
  · next less =>
    rw [UInt32.lt_iff_toNat_lt, toNat_ofNat_length short, state.tmpLen] at less
    rw [toNat_ofNat_length short]
    omega
  · next more =>
    rw [UInt32.lt_iff_toNat_lt, toNat_ofNat_length short, state.tmpLen] at more
    rw [state.tmpLen]
    omega

theorem Taken.fits_iff (state : Taken ctx got) (short : message.length < 2 ^ 29) :
    ctx.len + UInt32.ofNat message.length < blockSize ↔
      got.length % 64 + message.length < 64 := by
  have size : blockSize.toNat = 64 := rfl
  have less := Nat.mod_lt got.length (by decide : 0 < 64)
  rw [UInt32.lt_iff_toNat_lt, UInt32.toNat_add, toNat_ofNat_length short, state.len, size,
    Nat.mod_eq_of_lt (by omega)]

/-- A piece that leaves the block unfinished. -/
theorem Taken.keep (state : Taken ctx got) (fits : got.length % 64 + message.length < 64) :
    ∃ block, Block.write ctx.block ctx.len.toNat message = some block ∧
      Taken { ctx with block := block, len := ctx.len + UInt32.ofNat message.length }
        (got ++ message) := by
  have room := state.room
  have len := state.len
  have count : (got ++ message).length / 64 = got.length / 64 := by
    rw [List.length_append]
    omega
  have left : (got ++ message).length % 64 = got.length % 64 + message.length := by
    rw [List.length_append]
    omega
  have same : taken 64 (got ++ message) = taken 64 got := by rw [taken, taken, count]
  have inside : ctx.len.toNat + message.length ≤ ctx.block.length := by omega
  rcases Block.exists_write inside with ⟨block, written, length⟩
  refine ⟨block, written, length.trans room, ?_, state.totLen.trans same.symm, ?_, ?_⟩
  · rw [left, UInt32.toNat_add, toNat_ofNat_length (by omega), len]
    omega
  · have stored := Block.take_write_end written
    rw [len, state.begun] at stored
    rw [left, stored, same, List.drop_append_of_le_length (taken_le 64 got)]
  · rw [count, chain_append (taken_le 64 got)]
    exact state.h

/-- A piece that fills the block: the blocks behind it are taken, and the block begins again. -/
theorem Taken.fill (state : Taken ctx got) (more : 64 ≤ got.length % 64 + message.length)
    (short : got.length + message.length < 2 ^ 29) {newLen blockNb : UInt32}
    (new : newLen.toNat = message.length - (64 - got.length % 64))
    (number : blockNb = newLen / blockSize) {shiftedMessage : List UInt8}
    (shifted : shiftedMessage = message.drop (64 - got.length % 64)) :
    ∃ first block, Block.write ctx.block ctx.len.toNat (message.take (64 - got.length % 64)) =
        some first ∧
      Block.write first 0 ((shiftedMessage.drop (blockNb <<< 6).toNat).take
        (newLen % blockSize).toNat) = some block ∧
      Taken { sha256Transf (sha256Transf { ctx with block := first } first 1)
          shiftedMessage blockNb with
        block := block
        len := newLen % blockSize
        totLen := ctx.totLen + (blockNb + 1) <<< 6 } (got ++ message) := by
  have room := state.room
  have len := state.len
  have size : blockSize.toNat = 64 := rfl
  have less := Nat.mod_lt got.length (by decide : 0 < 64)
  have total : (got ++ message).length = got.length + message.length := List.length_append
  have begunLength := length_drop_taken 64 got
  generalize begins : got.drop (taken 64 got) = begun at begunLength
  have front : (message.take (64 - got.length % 64)).length = 64 - got.length % 64 := by
    rw [List.length_take]
    omega
  have blocks : blockNb.toNat = (message.length - (64 - got.length % 64)) / 64 := by
    rw [number, UInt32.toNat_div, new, size]
  have left : (newLen % blockSize).toNat = (message.length - (64 - got.length % 64)) % 64 := by
    rw [UInt32.toNat_mod, new, size]
  have offset : (blockNb <<< 6).toNat = blockNb.toNat * 64 := toNat_shift_six (by omega)
  have count : (got ++ message).length / 64 = got.length / 64 + 1 + blockNb.toNat := by
    rw [total, blocks]
    omega
  have rest : (got ++ message).length % 64 = (newLen % blockSize).toNat := by
    rw [total, left]
    omega
  have behind : (got ++ message).drop (taken 64 (got ++ message)) =
      shiftedMessage.drop (blockNb.toNat * 64) := by
    have all : taken 64 (got ++ message) =
        got.length + (64 - got.length % 64 + blockNb.toNat * 64) := by
      rw [taken, count]
      omega
    rw [all, List.drop_append, List.drop_of_length_le (Nat.le_add_right ..), List.nil_append,
      Nat.add_sub_cancel_left, ← List.drop_drop, ← shifted]
  have whole : (shiftedMessage.drop (blockNb.toNat * 64)).length = (newLen % blockSize).toNat := by
    rw [← behind, length_drop_taken, rest]
  have inside :
      ctx.len.toNat + (message.take (64 - got.length % 64)).length ≤ ctx.block.length := by
    omega
  rcases Block.exists_write inside with ⟨first, firstWritten, firstLength⟩
  have again : 0 + ((shiftedMessage.drop (blockNb <<< 6).toNat).take
      (newLen % blockSize).toNat).length ≤ first.length := by
    rw [List.length_take]
    omega
  rcases Block.exists_write again with ⟨block, written, length⟩
  refine ⟨first, block, firstWritten, written, length.trans (firstLength.trans room), rest.symm,
    ?_, ?_, ?_⟩
  · have one : (blockNb + 1).toNat = blockNb.toNat + 1 := by
      rw [UInt32.toNat_add, UInt32.toNat_one]
      omega
    rw [UInt32.toNat_add, state.totLen, toNat_shift_six (by omega), one, taken, taken, count]
    omega
  · have stored := Block.take_write_zero written
    rw [offset, List.take_of_length_le (Nat.le_of_eq whole), whole] at stored
    rw [rest, stored, behind]
  · have stored := Block.take_write_end firstWritten
    have full : got.length % 64 + (64 - got.length % 64) = 64 := by omega
    rw [len, state.begun, front, full, begins] at stored
    have step := @chain_step _ _ transfBlock 64 got message begun begins (by decide)
      blockNb.toNat sha256H0
    rw [begunLength, ← shifted] at step
    rw [count, step, ← state.h, ← stored]
    rfl

/-- A call keeps the context. -/
theorem Taken.update (state : Taken ctx got) (short : (got ++ message).length < 2 ^ 29) :
    ∃ ctx', sha256Update ctx message = some ctx' ∧ Taken ctx' (got ++ message) := by
  rw [List.length_append] at short
  have small : message.length < 2 ^ 29 := by omega
  have remLen := state.remLen small
  by_cases fits : got.length % 64 + message.length < 64
  · rcases state.keep fits with ⟨block, written, next⟩
    refine ⟨_, ?_, next⟩
    rw [Nat.min_eq_left (by omega)] at remLen
    simp only [sha256Update, remLen, List.take_length, written, Option.bind_eq_bind,
      Option.bind_some, if_pos ((state.fits_iff small).mpr fits)]
  · have new : (UInt32.ofNat message.length - (if UInt32.ofNat message.length < blockSize - ctx.len
        then UInt32.ofNat message.length else blockSize - ctx.len)).toNat =
          message.length - (64 - got.length % 64) := by
      rw [UInt32.toNat_sub_of_le, remLen, toNat_ofNat_length small]
      · omega
      · rw [UInt32.le_iff_toNat_le, remLen, toNat_ofNat_length small]
        exact Nat.min_le_left ..
    rw [Nat.min_eq_right (by omega)] at remLen
    rcases state.fill (by omega) short new rfl rfl with ⟨first, block, filled, written, next⟩
    refine ⟨_, ?_, next⟩
    simp only [sha256Update, remLen, filled, Option.bind_eq_bind, Option.bind_some,
      if_neg (mt (state.fits_iff small).mp fits)]
    simp only [sha256Transf] at written ⊢
    rw [written]
    rfl

/-- So do calls one after the other. -/
theorem Taken.run (state : Taken ctx got) (pieces : List (List UInt8))
    (short : (got ++ pieces.flatten).length < 2 ^ 29) :
    ∃ ctx', pieces.foldlM sha256Update ctx = some ctx' ∧
      Taken ctx' (got ++ pieces.flatten) := by
  induction pieces generalizing ctx got with
  | nil =>
    refine ⟨ctx, rfl, ?_⟩
    rwa [List.flatten_nil, List.append_nil]
  | cons piece pieces ih =>
    rw [List.flatten_cons, ← List.append_assoc] at short ⊢
    have small : (got ++ piece).length < 2 ^ 29 := by
      rw [List.length_append] at short
      omega
    rcases state.update small with ⟨next, updated, behind⟩
    rcases ih behind short with ⟨ctx', ran, last⟩
    refine ⟨ctx', ?_, last⟩
    rw [List.foldlM_cons, updated]
    exact ran

end Update

/-! ## The end of the message -/

theorem unpack32_eq (x : UInt32) :
    unpack32 x = (leBytes 4 x.toNat).reverse := by
  have byte (k : UInt32) (i : Nat) (shift : k.toNat % 32 = i) :
      (x >>> k).toUInt8 = UInt8.ofNat (x.toNat / 2 ^ i) := by
    apply UInt8.toNat_inj.mp
    rw [UInt32.toNat_toUInt8, UInt32.toNat_shiftRight, shift, Nat.shiftRight_eq_div_pow,
      UInt8.toNat_ofNat']
  have low : x.toUInt8 = UInt8.ofNat x.toNat := by
    apply UInt8.toNat_inj.mp
    rw [UInt32.toNat_toUInt8, UInt8.toNat_ofNat']
  simp only [unpack32, leBytes, List.reverse_cons, List.reverse_nil, List.nil_append,
    List.cons_append, byte 24 24 rfl, byte 16 16 rfl, byte 8 8 rfl, low, Nat.div_div_eq_div_mul]
  rfl

theorem leBytes_add (low high v : Nat) :
    leBytes (low + high) v = leBytes low v ++ leBytes high (v / 256 ^ low) := by
  induction low generalizing v with
  | zero => rw [Nat.zero_add, Nat.pow_zero, Nat.div_one, leBytes, List.nil_append]
  | succ low ih =>
    rw [Nat.succ_add, leBytes, ih, leBytes, List.cons_append, Nat.div_div_eq_div_mul, Nat.pow_succ,
      Nat.mul_comm]

/-- A number of 32 bits where one of 64 is expected. -/
theorem beBytes_toNat (x : UInt32) : beBytes x.toNat = List.replicate 4 0 ++ unpack32 x := by
  have high : x.toNat / 256 ^ 4 = 0 := Nat.div_eq_of_lt x.toNat_lt
  have zeros : (leBytes 4 0).reverse = List.replicate 4 0 := rfl
  rw [beBytes, leBytes_add 4 4, high, List.reverse_append, zeros, unpack32_eq]

theorem length_padded (message : List UInt8) :
    (padded message).length =
      message.length + 1 + (119 - message.length % 64) % 64 + 8 := by
  simp only [padded, beBytes, List.length_append, List.length_reverse, length_leBytes,
    List.length_replicate, List.length_singleton]

/-- Zeros, the bit in front of them, and the length at their end. -/
theorem take_closed {block first second last tail : List UInt8} {offset z : Nat}
    (cleared : Block.write block offset (List.replicate (z + 9) 0) = some first)
    (marked : Block.write first offset [0x80] = some second)
    (closed : Block.write second (offset + (z + 5)) tail = some last) (four : tail.length = 4) :
    last.take (offset + 9 + z) =
      block.take offset ++ [0x80] ++ List.replicate z 0 ++ (List.replicate 4 0 ++ tail) := by
  have front : first.take offset = block.take offset :=
    Block.slice_write_apart cleared (.inl (Nat.le_of_eq (Nat.zero_add offset)))
  have mark : second.take (offset + 1) = first.take offset ++ [0x80] := Block.take_write_end marked
  have kept : (second.drop (offset + 1)).take (z + 4) = (first.drop (offset + 1)).take (z + 4) :=
    Block.slice_write_apart marked (.inr (Nat.le_refl _))
  have zeros := Block.slice_write cleared
  rw [List.length_replicate] at zeros
  have clear : (first.drop (offset + 1)).take (z + 4) = List.replicate (z + 4) 0 := by
    have shorter : (((first.drop offset).take (z + 9)).drop 1).take (z + 4) =
        (first.drop (offset + 1)).take (z + 4) := by
      rw [List.drop_take, List.drop_drop, List.take_take, Nat.min_eq_left (by omega)]
    rw [← shorter, zeros, List.drop_replicate, List.take_replicate, Nat.min_eq_left (by omega)]
  have whole : offset + 9 + z = offset + (z + 5) + tail.length := by omega
  have apart : offset + (z + 5) = offset + 1 + (z + 4) := by omega
  rw [whole, Block.take_write_end closed, apart, List.take_add, mark, front, kept, clear,
    List.replicate_add]
  simp only [List.append_assoc]

section Final

variable {ctx : Ctx} {got : List UInt8}

/-- The blocks of `sha256_final` end behind the bit, the zeros and the length. -/
theorem Taken.blockNb (state : Taken ctx got) :
    (1 + if blockSize - 9 < ctx.len % blockSize then 1 else 0 : UInt32).toNat * 64 =
      got.length % 64 + 9 + (119 - got.length % 64) % 64 := by
  have less := Nat.mod_lt got.length (by decide : 0 < 64)
  have size : blockSize.toNat = 64 := rfl
  have two : (1 + 1 : UInt32).toNat = 2 := rfl
  have one : (1 + 0 : UInt32).toNat = 1 := rfl
  have cond : blockSize - 9 < ctx.len % blockSize ↔ 55 < got.length % 64 := by
    rw [UInt32.lt_iff_toNat_lt, UInt32.toNat_mod, state.len, size, Nat.mod_mod]
    rfl
  split
  · next above =>
    have above := cond.mp above
    rw [two]
    omega
  · next below =>
    have below := mt cond.mpr below
    rw [one]
    omega

theorem Taken.lenB (state : Taken ctx got) (short : got.length < 2 ^ 29) :
    ((ctx.totLen + ctx.len) <<< 3).toNat = 8 * got.length := by
  have three : (3 : UInt32).toNat % 32 = 3 := rfl
  rw [UInt32.toNat_shiftLeft, three, Nat.shiftLeft_eq, UInt32.toNat_add, state.totLen, state.len,
    taken]
  omega

/-- What `sha256_final` goes through is the end of the padded message. -/
theorem Taken.close (state : Taken ctx got) (short : got.length < 2 ^ 29) {blockNb : UInt32}
    (number : blockNb.toNat * 64 = got.length % 64 + 9 + (119 - got.length % 64) % 64) :
    ∃ first second block,
      Block.write ctx.block ctx.len.toNat
          (List.replicate (blockNb <<< 6 - ctx.len).toNat 0) = some first ∧
        Block.write first ctx.len.toNat [0x80] = some second ∧
        Block.write second (blockNb <<< 6 - 4).toNat
            (unpack32 ((ctx.totLen + ctx.len) <<< 3)) = some block ∧
        blockNb.toNat * 64 ≤ block.length ∧
        block.take (blockNb.toNat * 64) = got.drop (taken 64 got) ++ ([0x80] ++
          List.replicate ((119 - got.length % 64) % 64) 0 ++ beBytes (8 * got.length)) := by
  have room := state.room
  have len := state.len
  have less := Nat.mod_lt got.length (by decide : 0 < 64)
  have four : (unpack32 ((ctx.totLen + ctx.len) <<< 3)).length = 4 := rfl
  have few : blockNb.toNat ≤ 2 := by omega
  have pm : (blockNb <<< 6).toNat = blockNb.toNat * 64 := toNat_shift_six (by omega)
  rw [← state.lenB short, beBytes_toNat]
  generalize (119 - got.length % 64) % 64 = z at number
  generalize unpack32 ((ctx.totLen + ctx.len) <<< 3) = tail at four
  have gap : (blockNb <<< 6 - ctx.len).toNat = z + 9 := by
    rw [UInt32.toNat_sub_of_le, pm, len]
    · omega
    · rw [UInt32.le_iff_toNat_le, pm, len]
      omega
  have last : (blockNb <<< 6 - 4).toNat = ctx.len.toNat + (z + 5) := by
    have width : (4 : UInt32).toNat = 4 := rfl
    rw [UInt32.toNat_sub_of_le, pm, width]
    · omega
    · rw [UInt32.le_iff_toNat_le, pm, width]
      omega
  rw [gap, last]
  have clears :
      ctx.len.toNat + (List.replicate (z + 9) (0 : UInt8)).length ≤ ctx.block.length := by
    rw [List.length_replicate]
    omega
  rcases Block.exists_write clears with ⟨first, cleared, firstLength⟩
  have marks : ctx.len.toNat + ([0x80] : List UInt8).length ≤ first.length := by
    rw [List.length_singleton]
    omega
  rcases Block.exists_write marks with ⟨second, marked, secondLength⟩
  have closes : ctx.len.toNat + (z + 5) + tail.length ≤ second.length := by omega
  rcases Block.exists_write closes with ⟨block, closed, blockLength⟩
  refine ⟨first, second, block, cleared, marked, closed, by omega, ?_⟩
  rw [number, ← len, take_closed cleared marked closed four, len, state.begun]
  simp only [List.append_assoc]

theorem Taken.final (state : Taken ctx got) (short : got.length < 2 ^ 29) :
    sha256Final ctx = some (sha256 got) := by
  have number := state.blockNb
  obtain ⟨blockNb, same⟩ : ∃ blockNb : UInt32,
    blockNb = 1 + if blockSize - 9 < ctx.len % blockSize then 1 else 0 := ⟨_, rfl⟩
  rw [← same] at number
  rcases state.close short number with
    ⟨first, second, block, cleared, marked, closed, enough, text⟩
  have final : sha256Final ctx = some (chain transfBlock 64 blockNb.toNat ctx.h block).bytes := by
    simp only [sha256Final, ← same, cleared, marked, closed, Option.bind_eq_bind,
      Option.bind_some]
    rfl
  have blocks : (padded got).length / 64 = got.length / 64 + blockNb.toNat := by
    rw [length_padded]
    omega
  have split : padded got = got ++ ([0x80] ++
      List.replicate ((119 - got.length % 64) % 64) 0 ++ beBytes (8 * got.length)) := by
    simp only [padded, List.append_assoc]
  rw [final, sha256, blocks, split, chain_behind, ← text, chain_take enough, state.h]

end Final

theorem swSha256_eq {ctx : Ctx} (room : ctx.block.length = 128) {message : List UInt8}
    (short : message.length < 2 ^ 29) : swSha256 ctx message = some (sha256 message) := by
  rcases (Taken.init room).update short with ⟨once, updated, whole⟩
  rw [List.nil_append] at whole
  rw [swSha256, updated, Option.bind_eq_bind, Option.bind_some]
  exact whole.final short

theorem hashed_eq {ctx : Ctx} (room : ctx.block.length = 128) {message : List UInt8}
    (short : message.length < 2 ^ 29) : hashed ctx message = sha256 message := by
  rw [hashed, swSha256_eq room short, Option.getD_some]

/-- However a message of less than 2^29 bytes is cut, no copy leaves the context, and the digest is
the one of the padded message, as in one call. -/
theorem sha256_pieces {ctx : Ctx} (room : ctx.block.length = 128) {pieces : List (List UInt8)}
    (short : pieces.flatten.length < 2 ^ 29) :
    (pieces.foldlM sha256Update (sha256Init ctx)).bind sha256Final =
        some (sha256 pieces.flatten) ∧
      swSha256 ctx pieces.flatten = some (sha256 pieces.flatten) := by
  refine ⟨?_, swSha256_eq room short⟩
  rcases (Taken.init room).run pieces short with ⟨ctx', ran, state⟩
  rw [List.nil_append] at state
  rw [ran, Option.bind_some]
  exact state.final short

/-- The second piece crosses the end of a block. -/
theorem sha256_pieces_two :
    let pieces : List (List UInt8) := [List.replicate 60 0x61, List.replicate 100 0x62]
    (pieces.foldlM sha256Update (sha256Init freshCtx)).bind sha256Final =
        some (sha256 pieces.flatten) ∧
      swSha256 freshCtx pieces.flatten = some (sha256 pieces.flatten) :=
  sha256_pieces rfl (by decide +kernel)

example : swSha256 freshCtx [0x61, 0x62, 0x63] =
    some [0xba, 0x78, 0x16, 0xbf, 0x8f, 0x01, 0xcf, 0xea, 0x41, 0x41, 0x40, 0xde, 0x5d, 0xae, 0x22,
      0x23, 0xb0, 0x03, 0x61, 0xa3, 0x96, 0x17, 0x7a, 0x9c, 0xb4, 0x10, 0xff, 0x61, 0xf2, 0x00,
      0x15, 0xad] := by
  decide +kernel

end SwSha256

end Tr6260
