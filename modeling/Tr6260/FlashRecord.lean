import Tr6260.PowerLoss
import Tr6260.SpiFlash

/-!
# Flash records of the application

`ya_flash.c` stores a byte array as one record: magic `0xAA`, a little-endian
16-bit length, an 8-bit sum, the bytes, and padding to a multiple of four. The
writer and the two readers each check lengths on their own. The writer bounds
the data by `MAX_DATA_LEN * flash_block - 10`; both readers bound the *stored*
length by `MAX_DATA_LEN - 10` whatever `flash_block` is. A record longer than
4086 bytes is therefore accepted by the writer for `flash_block ≥ 2` and
refused by both readers.

Copying more bytes into the record buffer than were allocated (possible from
65532 bytes on, where the 16-bit `alloc_len` wraps) has no defined outcome;
the writer's model returns `none` there.
-/

namespace Tr6260

open FlashProg ByteMem

/-- `MAX_DATA_LEN`. -/
def maxDataLen : Nat := 4 * 1024

/-- `ya_flash_checksum`. -/
def yaFlashChecksum (data : List UInt8) : UInt8 := data.foldl (· + ·) 0

/-- The four header bytes `ya_write_flash` builds. -/
def recordHeader (data : List UInt8) : List UInt8 :=
  [0xAA, UInt8.ofNat data.length, UInt8.ofNat (data.length >>> 8), yaFlashChecksum data]

/-- `alloc_len`, a `uint16_t`: the length rounded up past the next multiple of four. -/
def recordAllocLen (len : Nat) : Nat := (len + 4 - len % 4) % 2 ^ 16

/-- `ya_write_flash`. `none`: the copy runs over the end of the allocated block. -/
def yaWriteFlash (board : Board) (flashAddr : Nat) (data : List UInt8) (flashBlock : UInt8) :
    FlashProg (Option Int) :=
  if flashBlock = 0 then
    return some (-1)
  else if data.length = 0 ∨ data.length > maxDataLen * flashBlock.toNat - 10 then
    return some (-1)
  else
    match board.memoryAlloc (recordAllocLen data.length + 4) with
    | none => return some (-1)
    | some block =>
      if 4 + data.length > block.length then
        return none
      else do
        let ret ← yaHalFlashWrite board flashAddr
          (recordHeader data ++ data ++ block.drop (4 + data.length))
        return some ret

/-- The common body of the two readers. `fits` is the reader's own check of the
stored length; the result is the stored bytes (`none` for a `-1`). -/
def readFlashRecord (board : Board) (flashAddr dataLen : Nat) (flashBlock : UInt8)
    (fits : Nat → Bool) : FlashProg (Option (List UInt8)) :=
  if flashBlock = 0 then
    return none
  else if dataLen = 0 ∨ dataLen > maxDataLen * flashBlock.toNat - 10 then
    return none
  else do
    let (ret, header) ← yaHalFlashRead flashAddr 4
    if ret ≠ 0 then
      return none
    else if header.getD 0 0 ≠ 0xAA then
      return none
    else
      let totalLen := (header.getD 1 0).toNat + (header.getD 2 0).toNat <<< 8
      if fits totalLen = false then
        return none
      else
        match board.memoryAlloc (recordAllocLen totalLen + 4) with
        | none => return none
        | some _ => do
          let (ret, buf) ← yaHalFlashRead flashAddr (recordAllocLen totalLen + 4)
          if ret ≠ 0 then
            return none
          else if buf.getD 3 0 ≠ yaFlashChecksum ((buf.drop 4).take totalLen) then
            return none
          else
            return some ((buf.drop 4).take totalLen)

/-- `ya_read_flash_with_fix_len`: at most `dataLen` of the stored bytes. -/
def yaReadFlashWithFixLen (board : Board) (flashAddr dataLen : Nat) (flashBlock : UInt8) :
    FlashProg (Option (List UInt8)) := do
  let stored ← readFlashRecord board flashAddr dataLen flashBlock
    fun totalLen => decide (totalLen ≤ maxDataLen - 10)
  return stored.map (List.take dataLen)

/-- `ya_read_flash_with_var_len`: the stored bytes when they fit the caller's
`dataLen`; the length of the result is what `*data_len` is set to. -/
def yaReadFlashWithVarLen (board : Board) (flashAddr dataLen : Nat) (flashBlock : UInt8) :
    FlashProg (Option (List UInt8)) :=
  readFlashRecord board flashAddr dataLen flashBlock
    fun totalLen => decide (totalLen ≤ maxDataLen - 10 ∧ totalLen ≤ dataLen)

/-- `ya_erase_flash`: reports failure exactly when the erase succeeded. -/
def yaEraseFlash (flashAddr dataLen : Nat) : FlashProg Int := do
  let ret ← yaHalFlashErase flashAddr dataLen
  if ret = 0 then
    return -1
  else
    return 0

/-! ## The stored form of a record -/

/-- The flash shows the record of `data` at `flashAddr`, followed by some padding
up to the allocated length. -/
def RecordAt (m : ByteMem) (flashAddr : Nat) (data : List UInt8) : Prop :=
  ∃ pad, m.Holds flashAddr (recordHeader data ++ data ++ pad) ∧
    (recordHeader data ++ data ++ pad).length = recordAllocLen data.length + 4

@[simp] theorem length_recordHeader (data : List UInt8) : (recordHeader data).length = 4 := rfl

theorem headerLen_eq {len : Nat} (short : len < 2 ^ 16) :
    (UInt8.ofNat len).toNat + (UInt8.ofNat (len >>> 8)).toNat <<< 8 = len := by
  simp only [UInt8.toNat_ofNat', Nat.shiftLeft_eq, Nat.shiftRight_eq_div_pow]
  omega

theorem recordAllocLen_of_short {len : Nat} (short : len < 65532) :
    recordAllocLen len = len + 4 - len % 4 := by
  unfold recordAllocLen
  omega

/-- The writer stays inside its block exactly up to 65531 bytes. -/
theorem recordAllocLen_ge_iff (len : Nat) (bound : len < 2 ^ 21) :
    len ≤ recordAllocLen len ↔ len < 65532 := by
  unfold recordAllocLen
  omega

/-! ## What an accepted write leaves behind -/

/-- A write with result `0` was of 1 to `MAX_DATA_LEN * flash_block - 10` (and at most
65531) bytes, at a sector address, and the flash now shows its record. -/
theorem yaWriteFlash_accepted {board : Board} {flashAddr : Nat} {data : List UInt8}
    {flashBlock : UInt8} {m m' : ByteMem}
    (accepted : (yaWriteFlash board flashAddr data flashBlock).run m = (some 0, m')) :
    flashBlock ≠ 0 ∧ data.length ≠ 0 ∧ data.length ≤ maxDataLen * flashBlock.toNat - 10 ∧
      data.length < 65532 ∧ RecordAt m' flashAddr data := by
  unfold yaWriteFlash at accepted
  split at accepted
  next => cases accepted
  next blockPos =>
  split at accepted
  next => cases accepted
  next lengths =>
  split at accepted
  next => cases accepted
  next block found =>
  have blockLen := board.memoryAlloc_length _ _ found
  split at accepted
  next => cases accepted
  next inside =>
  have bound : data.length < 2 ^ 21 := by
    have := flashBlock.toNat_lt
    unfold maxDataLen at lengths
    omega
  have short : data.length < 65532 := (recordAllocLen_ge_iff _ bound).mp (by omega)
  refine ⟨blockPos, by omega, by omega, short, ?_⟩
  by_cases aligned : flashAddr % spiflashSectorSize = 0
  · rw [run_bind, yaHalFlashWrite_run board aligned] at accepted
    obtain ⟨-, rfl⟩ := Prod.mk.inj accepted
    refine ⟨block.drop (4 + data.length), written_holds m flashAddr _, ?_⟩
    simp only [List.length_append, length_recordHeader, List.length_drop]
    omega
  · rw [run_bind, yaHalFlashWrite_run_unaligned board aligned
      (by simp only [List.length_append, length_recordHeader]; omega)] at accepted
    cases accepted

/-- Within the limits and at a sector address a write that finds memory succeeds up to the HAL's
result. -/
theorem yaWriteFlash_memory {board : Board} {flashAddr : Nat}
    (aligned : flashAddr % spiflashSectorSize = 0) {data : List UInt8} {flashBlock : UInt8}
    (blockPos : flashBlock ≠ 0) (nonempty : data.length ≠ 0)
    (bound : data.length ≤ maxDataLen * flashBlock.toNat - 10) (short : data.length < 65532)
    (memory : (board.memoryAlloc (recordAllocLen data.length + 4)).isSome) (m : ByteMem) :
    ∃ m', (yaWriteFlash board flashAddr data flashBlock).run m =
        (some board.flashWriteResult, m') ∧ RecordAt m' flashAddr data ∧
      ∀ addr' len', addr' + len' ≤ flashAddr ∨
          flashAddr + sectorCount (recordAllocLen data.length + 4) * spiflashSectorSize ≤ addr' →
        AgreeOn m m' addr' len' := by
  obtain ⟨block, found⟩ := Option.isSome_iff_exists.mp memory
  have blockLen := board.memoryAlloc_length _ _ found
  have room := (recordAllocLen_ge_iff data.length (by omega)).mpr short
  have total : (recordHeader data ++ data ++ block.drop (4 + data.length)).length =
      recordAllocLen data.length + 4 := by
    simp only [List.length_append, length_recordHeader, List.length_drop]
    omega
  refine ⟨_, ?_, ⟨block.drop (4 + data.length), written_holds m flashAddr _, total⟩, ?_⟩
  · rw [yaWriteFlash, if_neg blockPos, if_neg (by omega)]
    simp only [found]
    rw [if_neg (by omega), run_bind, yaHalFlashWrite_run board aligned]
    rfl
  · intro addr' len' apart
    rw [← total] at apart
    refine (erase_frame m flashAddr _ apart).trans (program_frame _ flashAddr _ ?_)
    exact apart.imp_right (Nat.le_trans (Nat.add_le_add_left (le_sectorCount_mul _) _))

/-- The same with all the memory there is. -/
theorem yaWriteFlash_run {board : Board} (alloc : board.AllocOk) {flashAddr : Nat}
    (aligned : flashAddr % spiflashSectorSize = 0) {data : List UInt8} {flashBlock : UInt8}
    (blockPos : flashBlock ≠ 0) (nonempty : data.length ≠ 0)
    (bound : data.length ≤ maxDataLen * flashBlock.toNat - 10) (short : data.length < 65532)
    (m : ByteMem) :
    ∃ m', (yaWriteFlash board flashAddr data flashBlock).run m =
        (some board.flashWriteResult, m') ∧ RecordAt m' flashAddr data ∧
      ∀ addr' len', addr' + len' ≤ flashAddr ∨
          flashAddr + sectorCount (recordAllocLen data.length + 4) * spiflashSectorSize ≤ addr' →
        AgreeOn m m' addr' len' :=
  yaWriteFlash_memory aligned blockPos nonempty bound short (alloc _) m

/-- Where the HAL's result is zero, a write that fails has changed nothing. -/
theorem yaWriteFlash_failed {board : Board} (result : board.flashWriteResult = 0) {flashAddr : Nat}
    (aligned : flashAddr % spiflashSectorSize = 0) {data : List UInt8} {flashBlock : UInt8}
    {m m' : ByteMem} {ret : Int}
    (done : (yaWriteFlash board flashAddr data flashBlock).run m = (some ret, m'))
    (failed : ret ≠ 0) : m' = m := by
  unfold yaWriteFlash at done
  split at done
  next => cases done; rfl
  next =>
  split at done
  next => cases done; rfl
  next =>
  split at done
  next => cases done; rfl
  next =>
  split at done
  next => cases done
  next =>
  rw [run_bind, yaHalFlashWrite_run board aligned, result] at done
  exact absurd (Option.some.inj (Prod.mk.inj done).1).symm failed

/-- Up to 65531 bytes the writer stays inside its block. -/
theorem yaWriteFlash_inside (board : Board) (flashAddr : Nat) {data : List UInt8}
    (flashBlock : UInt8) (short : data.length < 65532) (m : ByteMem) :
    ∃ ret m', (yaWriteFlash board flashAddr data flashBlock).run m = (some ret, m') := by
  unfold yaWriteFlash
  split
  next => exact ⟨_, _, rfl⟩
  next =>
  split
  next => exact ⟨_, _, rfl⟩
  next =>
  split
  next => exact ⟨_, _, rfl⟩
  next block found =>
    have room := (recordAllocLen_ge_iff data.length (by omega)).mpr short
    have blockLen := board.memoryAlloc_length _ _ found
    rw [if_neg (by omega), run_bind]
    exact ⟨_, _, rfl⟩

theorem yaEraseFlash_run {flashAddr : Nat} (aligned : flashAddr % spiflashSectorSize = 0)
    (dataLen : Nat) (m : ByteMem) :
    (yaEraseFlash flashAddr dataLen).run m =
      (-1, m.erase flashAddr (sectorCount dataLen * spiflashSectorSize)) := by
  rw [yaEraseFlash, run_bind, yaHalFlashErase_run aligned]
  rfl

/-! ## What a reader finds there -/

/-- The readers change nothing. -/
theorem readFlashRecord_readOnly (board : Board) (addr len : Nat) (block : UInt8)
    (fits : Nat → Bool) : (readFlashRecord board addr len block fits).ReadOnly := by
  have reads : ∀ size, (yaHalFlashRead addr size).ReadOnly := fun _ _ => trivial
  unfold readFlashRecord
  split
  next => trivial
  next =>
  split
  next => trivial
  next =>
  refine (reads 4).bind fun ⟨ret, header⟩ => ?_
  dsimp only
  split
  next => trivial
  next =>
  split
  next => trivial
  next =>
  split
  next => trivial
  next =>
  split
  next => trivial
  next =>
  refine (reads _).bind fun ⟨ret, buf⟩ => ?_
  dsimp only
  split
  next => trivial
  next =>
  split <;> trivial

/-- Without the magic byte there is no record. -/
theorem readFlashRecord_no_magic (board : Board) {m : ByteMem} {flashAddr : Nat} (dataLen : Nat)
    (flashBlock : UInt8) (fits : Nat → Bool) (magic : m flashAddr ≠ 0xAA) :
    (readFlashRecord board flashAddr dataLen flashBlock fits).run m = (none, m) := by
  unfold readFlashRecord
  split
  next => rfl
  next =>
  split
  next => rfl
  next =>
  rw [run_bind, yaHalFlashRead_run]
  simp [ByteMem.load, magic]

theorem RecordAt.header {m : ByteMem} {flashAddr : Nat} {data : List UInt8}
    (stored : RecordAt m flashAddr data) : m.load flashAddr 4 = recordHeader data := by
  obtain ⟨pad, held, -⟩ := stored
  exact (holds_append.mp (holds_append.mp held).1).1

/-- There is one record at an address. -/
theorem RecordAt.unique {m : ByteMem} {flashAddr : Nat} {data data' : List UInt8}
    (stored : RecordAt m flashAddr data) (stored' : RecordAt m flashAddr data')
    (short : data.length < 2 ^ 16) (short' : data'.length < 2 ^ 16) : data = data' := by
  have headers : recordHeader data = recordHeader data' := stored.header.symm.trans stored'.header
  have len : data.length = data'.length := by
    simp only [recordHeader, List.cons.injEq] at headers
    rw [← headerLen_eq short, headers.2.1, headers.2.2.1, headerLen_eq short']
  obtain ⟨pad, held, -⟩ := stored
  obtain ⟨pad', held', -⟩ := stored'
  have bytes := (holds_append.mp held).1.load
  have bytes' := (holds_append.mp held').1.load
  rw [List.length_append, length_recordHeader, len] at bytes
  rw [List.length_append, length_recordHeader, bytes] at bytes'
  exact (List.append_inj bytes' (by rw [length_recordHeader, length_recordHeader])).2

/-- A reader returns the stored bytes exactly when its own length check passes and it finds memory
for them. -/
theorem readFlashRecord_memory (board : Board) {m : ByteMem} {flashAddr dataLen : Nat}
    {data : List UInt8} {flashBlock : UInt8} {fits : Nat → Bool}
    (stored : RecordAt m flashAddr data) (short : data.length < 65532)
    (blockPos : flashBlock ≠ 0) (capPos : dataLen ≠ 0)
    (capBound : dataLen ≤ maxDataLen * flashBlock.toNat - 10) :
    (readFlashRecord board flashAddr dataLen flashBlock fits).run m =
      (if fits data.length ∧ (board.memoryAlloc (recordAllocLen data.length + 4)).isSome then
        some data else none, m) := by
  have header := stored.header
  obtain ⟨pad, held, total⟩ := stored
  have whole := held.load
  rw [total] at whole
  rw [readFlashRecord, if_neg blockPos, if_neg (by omega), run_bind, yaHalFlashRead_run]
  simp only [header, recordHeader, List.getD_cons_zero, List.getD_cons_succ,
    headerLen_eq (show data.length < 2 ^ 16 by omega), ne_eq, not_true_eq_false, ↓reduceIte]
  cases fit : fits data.length with
  | false => rfl
  | true =>
    have payload : ((recordHeader data ++ data ++ pad).drop 4).take data.length = data := by
      simp [recordHeader]
    cases found : board.memoryAlloc (recordAllocLen data.length + 4) with
    | none => rfl
    | some block =>
      simp only [Bool.true_eq_false, ↓reduceIte, run_bind, yaHalFlashRead_run, whole, payload]
      simp [recordHeader]

/-- The reader with a capacity. -/
theorem yaReadFlashWithVarLen_memory (board : Board) {m : ByteMem} {flashAddr dataLen : Nat}
    {data : List UInt8} {flashBlock : UInt8} (stored : RecordAt m flashAddr data)
    (short : data.length < 65532) (blockPos : flashBlock ≠ 0) (capPos : dataLen ≠ 0)
    (capBound : dataLen ≤ maxDataLen * flashBlock.toNat - 10) :
    (yaReadFlashWithVarLen board flashAddr dataLen flashBlock).run m =
      (if (data.length ≤ maxDataLen - 10 ∧ data.length ≤ dataLen) ∧
          (board.memoryAlloc (recordAllocLen data.length + 4)).isSome then
        some data else none, m) := by
  rw [yaReadFlashWithVarLen, readFlashRecord_memory board stored short blockPos capPos capBound]
  simp only [decide_eq_true_eq]

/-- The reader without a capacity. -/
theorem yaReadFlashWithFixLen_memory (board : Board) {m : ByteMem} {flashAddr dataLen : Nat}
    {data : List UInt8} {flashBlock : UInt8} (stored : RecordAt m flashAddr data)
    (short : data.length < 65532) (blockPos : flashBlock ≠ 0) (capPos : dataLen ≠ 0)
    (capBound : dataLen ≤ maxDataLen * flashBlock.toNat - 10) :
    (yaReadFlashWithFixLen board flashAddr dataLen flashBlock).run m =
      (if data.length ≤ maxDataLen - 10 ∧
          (board.memoryAlloc (recordAllocLen data.length + 4)).isSome then
        some (data.take dataLen) else none, m) := by
  rw [yaReadFlashWithFixLen, run_bind,
    readFlashRecord_memory board stored short blockPos capPos capBound]
  simp only [decide_eq_true_eq]
  split <;> rfl

/-- A reader with memory. -/
theorem readFlashRecord_run {board : Board} (alloc : board.AllocOk) {m : ByteMem}
    {flashAddr dataLen : Nat} {data : List UInt8} {flashBlock : UInt8} {fits : Nat → Bool}
    (stored : RecordAt m flashAddr data) (short : data.length < 65532)
    (blockPos : flashBlock ≠ 0) (capPos : dataLen ≠ 0)
    (capBound : dataLen ≤ maxDataLen * flashBlock.toNat - 10) :
    (readFlashRecord board flashAddr dataLen flashBlock fits).run m =
      (if fits data.length then some data else none, m) := by
  rw [readFlashRecord_memory board stored short blockPos capPos capBound]
  simp only [alloc _, and_true]

/-- Reading back a record of at most 4086 bytes. -/
theorem yaReadFlashWithVarLen_run {board : Board} (alloc : board.AllocOk) {m : ByteMem}
    {flashAddr dataLen : Nat} {data : List UInt8} {flashBlock : UInt8}
    (stored : RecordAt m flashAddr data) (short : data.length < 65532)
    (blockPos : flashBlock ≠ 0) (capPos : dataLen ≠ 0)
    (capBound : dataLen ≤ maxDataLen * flashBlock.toNat - 10) (fits : data.length ≤ dataLen) :
    (yaReadFlashWithVarLen board flashAddr dataLen flashBlock).run m =
      (if data.length ≤ maxDataLen - 10 then some data else none, m) := by
  rw [yaReadFlashWithVarLen, readFlashRecord_run alloc stored short blockPos capPos capBound]
  simp [fits]

theorem yaReadFlashWithFixLen_run {board : Board} (alloc : board.AllocOk) {m : ByteMem}
    {flashAddr dataLen : Nat} {data : List UInt8} {flashBlock : UInt8}
    (stored : RecordAt m flashAddr data) (short : data.length < 65532)
    (blockPos : flashBlock ≠ 0) (capPos : dataLen ≠ 0)
    (capBound : dataLen ≤ maxDataLen * flashBlock.toNat - 10) :
    (yaReadFlashWithFixLen board flashAddr dataLen flashBlock).run m =
      (if data.length ≤ maxDataLen - 10 then some (data.take dataLen) else none, m) := by
  rw [yaReadFlashWithFixLen_memory board stored short blockPos capPos capBound]
  simp only [alloc _, and_true]

/-- The header from its four bytes. -/
theorem recordHeader_of_bytes {m : ByteMem} {flashAddr : Nat} {stored : List UInt8}
    (magic : m flashAddr = 0xAA)
    (len : stored.length = ((m.load flashAddr 4).getD 1 0).toNat +
      ((m.load flashAddr 4).getD 2 0).toNat <<< 8)
    (check : yaFlashChecksum stored = m (flashAddr + 3)) :
    recordHeader stored = m.load flashAddr 4 := by
  simp only [load, List.getD_cons_succ, List.getD_cons_zero, Nat.shiftLeft_eq] at len
  have small := (m (flashAddr + 1)).toNat_lt
  have small' := (m (flashAddr + 1 + 1)).toNat_lt
  have low : UInt8.ofNat stored.length = m (flashAddr + 1) := by
    apply UInt8.toNat.inj
    rw [UInt8.toNat_ofNat']
    omega
  have high : UInt8.ofNat (stored.length >>> 8) = m (flashAddr + 1 + 1) := by
    apply UInt8.toNat.inj
    rw [UInt8.toNat_ofNat', Nat.shiftRight_eq_div_pow]
    omega
  rw [recordHeader, low, high, check, ← magic]
  rfl

/-- What the reader with a capacity finds is a record. -/
theorem yaReadFlashWithVarLen_found {board : Board} {flashAddr dataLen : Nat} {flashBlock : UInt8}
    {m m' : ByteMem} {stored : List UInt8}
    (found : (yaReadFlashWithVarLen board flashAddr dataLen flashBlock).run m = (some stored, m')) :
    m' = m ∧ RecordAt m flashAddr stored ∧ stored.length ≤ dataLen := by
  unfold yaReadFlashWithVarLen readFlashRecord at found
  split at found
  next => cases found
  next =>
  split at found
  next => cases found
  next =>
  rw [run_bind, yaHalFlashRead_run] at found
  dsimp only at found
  rw [if_neg (by simp)] at found
  split at found
  next => cases found
  next magic =>
  generalize total : (List.getD (m.load flashAddr 4) 1 0).toNat +
    (List.getD (m.load flashAddr 4) 2 0).toNat <<< 8 = totalLen at found
  split at found
  next => cases found
  next fits =>
  split at found
  next => cases found
  next =>
  rw [run_bind, yaHalFlashRead_run] at found
  dsimp only at found
  rw [if_neg (by simp)] at found
  split at found
  next => cases found
  next sum =>
  obtain ⟨same, rfl⟩ := Prod.mk.inj found
  replace same := Option.some.inj same
  have bounds : totalLen ≤ maxDataLen - 10 ∧ totalLen ≤ dataLen := by simpa using fits
  have room : recordAllocLen totalLen = totalLen + 4 - totalLen % 4 :=
    recordAllocLen_of_short (Nat.lt_of_le_of_lt bounds.1 (by decide))
  have len : stored.length = totalLen := by
    rw [← same, List.length_take, List.length_drop, length_load]
    omega
  refine ⟨rfl, ⟨(m.load flashAddr (recordAllocLen totalLen + 4)).drop (4 + totalLen), ?_, ?_⟩, ?_⟩
  · have whole : recordHeader stored ++ stored ++
        (m.load flashAddr (recordAllocLen totalLen + 4)).drop (4 + totalLen) =
        m.load flashAddr (recordAllocLen totalLen + 4) := by
      have check : yaFlashChecksum stored = m (flashAddr + 3) := by
        rw [same] at sum
        simpa [load, eq_comm] using sum
      have header := recordHeader_of_bytes (by simpa [load] using magic) (len.trans total.symm) check
      have front : (m.load flashAddr (recordAllocLen totalLen + 4)).take 4 = m.load flashAddr 4 := by
        rw [Nat.add_comm, load_add, List.take_left' (length_load m flashAddr 4)]
      rw [header, ← front, ← same, List.append_assoc, ← List.drop_drop, List.take_append_drop,
        List.take_append_drop]
    rw [whole]
    exact holds_load m flashAddr _
  · simp only [List.length_append, length_recordHeader, List.length_drop, length_load, len]
    omega
  · rw [len]
    exact bounds.2

/-! ## The round trip -/

/-- Both readers give back `data`: the one with a caller's capacity for every
capacity that holds the data and respects the reader's own limit, the other one
when asked for the data's length. -/
def RecordReadBack (board : Board) (m : ByteMem) (flashAddr : Nat) (data : List UInt8)
    (flashBlock : UInt8) : Prop :=
  (∀ capacity, data.length ≤ capacity → capacity ≤ maxDataLen * flashBlock.toNat - 10 →
    ((yaReadFlashWithVarLen board flashAddr capacity flashBlock).run m).1 = some data) ∧
  ((yaReadFlashWithFixLen board flashAddr data.length flashBlock).run m).1 = some data

/-- After an accepted write the readers give the data back exactly when it is no
longer than `MAX_DATA_LEN - 10` bytes, whatever `flash_block` the record has. -/
theorem flashRecord_readBack_iff {writer reader : Board} (alloc : reader.AllocOk)
    {flashAddr : Nat} {data : List UInt8} {flashBlock : UInt8} {m m' : ByteMem}
    (accepted : (yaWriteFlash writer flashAddr data flashBlock).run m = (some 0, m')) :
    RecordReadBack reader m' flashAddr data flashBlock ↔ data.length ≤ 4086 := by
  obtain ⟨blockPos, nonempty, bound, short, stored⟩ := yaWriteFlash_accepted accepted
  constructor
  · rintro ⟨-, fixed⟩
    rw [yaReadFlashWithFixLen_run alloc stored short blockPos nonempty bound] at fixed
    by_contra long
    rw [if_neg (by unfold maxDataLen; omega)] at fixed
    cases fixed
  · intro fits
    refine ⟨fun capacity low high => ?_, ?_⟩
    · rw [yaReadFlashWithVarLen_run alloc stored short blockPos (by omega) high low,
        if_pos (by unfold maxDataLen; omega)]
    · rw [yaReadFlashWithFixLen_run alloc stored short blockPos nonempty bound,
        if_pos (by unfold maxDataLen; omega), List.take_length]

/-- A three-byte record at the timer sector survives the round trip. -/
theorem flashRecord_readBack_three :
    RecordReadBack Board.zeroed
      ((yaWriteFlash Board.zeroed 0xB5000 [1, 2, 3] 2).run fun _ => 0).2 0xB5000 [1, 2, 3] 2 := by
  have accepted : (yaWriteFlash Board.zeroed 0xB5000 [1, 2, 3] 2).run (fun _ => 0) =
      (some 0, ((yaWriteFlash Board.zeroed 0xB5000 [1, 2, 3] 2).run fun _ => 0).2) := rfl
  exact (flashRecord_readBack_iff Board.zeroed_allocOk accepted).mpr (by decide)

/-- A 4087-byte record with `flash_block = 2` is accepted by the writer at the timer
sector and cannot be read back. -/
theorem flashRecord_not_readBack_4087 :
    ∃ m', (yaWriteFlash Board.zeroed 0xB5000 (List.replicate 4087 0) 2).run (fun _ => 0xFF) =
        (some 0, m') ∧
      ¬ RecordReadBack Board.zeroed m' 0xB5000 (List.replicate 4087 0) 2 := by
  have len : (List.replicate 4087 (0 : UInt8)).length = 4087 := List.length_replicate
  have aligned : 0xB5000 % spiflashSectorSize = 0 := by decide
  have block : (2 : UInt8) ≠ 0 := by decide
  have nonempty : (List.replicate 4087 (0 : UInt8)).length ≠ 0 := by rw [len]; decide
  obtain ⟨m', written, stored, -⟩ := yaWriteFlash_run Board.zeroed_allocOk aligned block nonempty
    (by rw [len]; decide) (by rw [len]; decide) (fun _ => 0xFF)
  refine ⟨m', written, fun back => ?_⟩
  have fixed := back.2
  rw [yaReadFlashWithFixLen_run Board.zeroed_allocOk stored (by rw [len]; decide) (by decide)
    (by rw [len]; decide) (by rw [len]; decide), if_neg (by rw [len]; decide)] at fixed
  cases fixed

end Tr6260
