import Tr6260.SpiFlash

/-!
# The AMT parameter store

`nv/amtNv/amtNv.c` over the slot layout of `amtNV.h`. The partition is one
sector holding two copies of a 2048-byte layout; every parameter has a slot at
the same offset in both copies. A record is a six-byte head (magic, state,
length, CRC-8) and the data; its state word goes from erased over *used* to
*deleted* by clearing bits only. `amt_nv_write` fills the second copy when the
first one is taken and compacts the whole partition (`amt_nv_gc`) when both
are; the backup sector makes the compaction recoverable by `amt_nv_init`.

The processor is little-endian; a 16-bit field is stored low byte first.
-/

namespace Tr6260

open FlashProg ByteMem

/-! ## Layout (`amtNV.h`) -/

/-- The parameters `AMT_NV_XXX`, in address order. -/
inductive AmtNvSlot
  | sn | mac | pinFlag | psmFlag | wifiFlag | updateFlag | snFlag | macFlag
  | freqoffsetFlag | freqoffset | txpowerFlag
  | txpowerHtch1 | txpowerHtch6 | txpowerHtch11 | txpowerHtch3 | txpowerHtch8
  | txpowerNonhtch1 | txpowerNonhtch6 | txpowerNonhtch11
  | txpower11bch1 | txpower11bch6 | txpower11bch11
  | calibration | aliyunPdkey | aliyunPdsecret | aliyunDevname | aliyunDevsecret | aliyunFlag
  deriving DecidableEq, Repr

namespace AmtNvSlot

/-- `AMT_NV_XXX_LEN`. -/
def len : AmtNvSlot → Nat
  | sn => 64
  | mac => 18
  | pinFlag | psmFlag | wifiFlag | updateFlag | snFlag | macFlag | freqoffsetFlag => 2
  | freqoffset => 8
  | txpowerFlag => 2
  | txpowerHtch1 | txpowerHtch6 | txpowerHtch11 | txpowerHtch3 | txpowerHtch8 => 8
  | txpowerNonhtch1 | txpowerNonhtch6 | txpowerNonhtch11 => 8
  | txpower11bch1 | txpower11bch6 | txpower11bch11 => 8
  | calibration => 2
  | aliyunPdkey | aliyunPdsecret | aliyunDevname | aliyunDevsecret => 32
  | aliyunFlag => 2

/-- `AMT_NV_XXX_OFFSET`: the distance to the next parameter. -/
def offset : AmtNvSlot → Nat
  | sn => 72
  | mac => 24
  | pinFlag | psmFlag | wifiFlag | updateFlag | snFlag | macFlag | freqoffsetFlag => 8
  | freqoffset => 16
  | txpowerFlag => 8
  | txpowerHtch1 | txpowerHtch6 | txpowerHtch11 | txpowerHtch3 | txpowerHtch8 => 16
  | txpowerNonhtch1 | txpowerNonhtch6 | txpowerNonhtch11 => 16
  | txpower11bch1 | txpower11bch6 | txpower11bch11 => 16
  | calibration => 8
  | aliyunPdkey | aliyunPdsecret | aliyunDevname | aliyunDevsecret => 40
  | aliyunFlag => 8

/-- All parameters, in address order. -/
def all : List AmtNvSlot :=
  [sn, mac, pinFlag, psmFlag, wifiFlag, updateFlag, snFlag, macFlag, freqoffsetFlag, freqoffset,
    txpowerFlag, txpowerHtch1, txpowerHtch6, txpowerHtch11, txpowerHtch3, txpowerHtch8,
    txpowerNonhtch1, txpowerNonhtch6, txpowerNonhtch11, txpower11bch1, txpower11bch6,
    txpower11bch11, calibration, aliyunPdkey, aliyunPdsecret, aliyunDevname, aliyunDevsecret,
    aliyunFlag]

/-- The address of a parameter relative to the partition: the offsets before it. -/
def start (s : AmtNvSlot) : Nat := ((all.takeWhile (· ≠ s)).map offset).sum

end AmtNvSlot

/-- `AMT_PARTION_SIZE`. -/
def amtPartionSize : Nat := 4096

/-- `AMT_NV_BLOCK_SIZE`: in its `#if` chain `amt_partion_base` reads as `0`, so the
test `2047 < 2048` selects the last case. -/
def amtNvBlockSize : Nat := 2048

/-- `AMT_NV_BLOCK_NUM`. -/
def amtNvBlockNum : Nat := amtPartionSize / amtNvBlockSize

/-- `AMT_NV_SIZE`, one byte less than a copy. -/
def amtNvSize : Nat := 2047

/-- `AMT_NV_BACKUP_BASE`, `_BEGIN`. -/
def amtNvBackupBase : Nat := 0xFE000

/-- `AMT_NV_BACKUP_COMP`. -/
def amtNvBackupComp : Nat := amtNvBackupBase + 4

/-- `AMT_NV_BACKUP_ADDR`. -/
def amtNvBackupAddr : Nat := amtNvBackupBase + 16

/-- The entry `nv_amt` of the partition table (`amt_partion_base`): a sector, and not
the backup sector. The initial value in `amtNv.c` is `0xFF000`. -/
structure AmtPartition where
  base : Nat
  aligned : base % spiflashSectorSize = 0
  apart : base ≠ amtNvBackupBase

/-- The built-in partition. -/
def AmtPartition.default : AmtPartition := ⟨0xFF000, by decide, by decide⟩

/-! ## Records -/

/-- `AMT_NV_HEAD_SIZE`. -/
def amtNvHeadSize : Nat := 6

def amtNvMagicValue : Nat := 0x4E56
def amtNvMagicNone : Nat := 0xFFFF
def amtNvStateUsed : Nat := 0xFF00
def amtNvStateDele : Nat := 0x0000

/-- `struct amt_nv_head_t`. -/
structure AmtNvHead where
  magic : Nat
  state : Nat
  valLen : Nat
  crc8 : UInt8
  deriving DecidableEq, Repr

/-- A little-endian 16-bit field. -/
def le16 (bs : List UInt8) (i : Nat) : Nat := (bs.getD i 0).toNat + 256 * (bs.getD (i + 1) 0).toNat

/-- The head in six bytes of memory. -/
def AmtNvHead.ofBytes (bs : List UInt8) : AmtNvHead :=
  ⟨le16 bs 0, le16 bs 2, (bs.getD 4 0).toNat, bs.getD 5 0⟩

/-- One bit of `amt_nv_crc8`. -/
def amtNvCrc8Bit (crc : UInt8) : UInt8 :=
  if crc &&& 0x80 ≠ 0 then (crc <<< 1) ^^^ 0x31 else crc <<< 1

/-- `amt_nv_crc8`. -/
def amtNvCrc8 (buf : List UInt8) : UInt8 :=
  buf.foldl (fun crc b => Nat.repeat amtNvCrc8Bit 8 (crc ^^^ b)) 0

/-- A record with the given state bytes, as `amt_nv_write` lays it out. -/
def amtNvRecord (state : List UInt8) (data : List UInt8) : List UInt8 :=
  [0x56, 0x4E] ++ state ++ [UInt8.ofNat data.length, amtNvCrc8 (data.take (data.length % 2 ^ 16))] ++
    data

/-- `AMT_NV_STATE_USED` in memory. -/
def stateUsedBytes : List UInt8 := [0x00, 0xFF]

/-- `AMT_NV_STATE_DELE` in memory. -/
def stateDeleBytes : List UInt8 := [0x00, 0x00]

/-- `WORD_ALIGN`. -/
def wordAlign (x : Nat) : Nat := ((x + 3) >>> 2) <<< 2

/-! ## Operations -/

/-- Result of `amt_nv_search`: the head copied to `pHead`, `index_search`, `index_alloc`. -/
structure AmtNvFound where
  pHead : Option (List UInt8)
  indexSearch : Nat
  indexAlloc : Nat

/-- The loop of `amt_nv_search` with `left` iterations to go. -/
def amtNvSearchLoop (addr : Nat) :
    (left i searchId : Nat) → (pHead : Option (List UInt8)) → FlashProg AmtNvFound
  | 0, _, searchId, pHead => return ⟨pHead, searchId, amtNvBlockNum⟩
  | left + 1, i, searchId, pHead => do
    let (_, bytes) ← halSpiflashRead (addr + i * amtNvBlockSize) amtNvHeadSize
    let head := AmtNvHead.ofBytes bytes
    if head.magic = amtNvMagicValue then
      if head.state = amtNvStateUsed then
        if searchId = amtNvBlockNum then
          amtNvSearchLoop addr left (i + 1) i (some bytes)
        else do
          let _ ← halSpifiashWrite (addr + i * amtNvBlockSize + 2) stateDeleBytes
          amtNvSearchLoop addr left (i + 1) searchId pHead
      else
        amtNvSearchLoop addr left (i + 1) searchId pHead
    else if head.magic = amtNvMagicNone then
      if i = 0 then
        return ⟨pHead, amtNvBlockNum, 0⟩
      else if searchId < amtNvBlockNum then
        return ⟨pHead, searchId, i⟩
      else
        return ⟨pHead, amtNvBlockNum, i⟩
    else
      amtNvSearchLoop addr left (i + 1) searchId pHead

/-- `amt_nv_search`. -/
def amtNvSearch (addr : Nat) : FlashProg AmtNvFound :=
  amtNvSearchLoop addr amtNvBlockNum 0 amtNvBlockNum none

/-- One round of the scan of `amt_nv_gc` at `offset`: the cache with this slot
brought up to date. -/
def amtNvGcStep (base offset : Nat) (cache : ByteMem) : FlashProg ByteMem :=
  let head := AmtNvHead.ofBytes (cache.load offset amtNvHeadSize)
  if head.magic = amtNvMagicValue ∧ head.state = amtNvStateDele then do
    let found ← amtNvSearch (base + offset)
    -- `pHead` points into the cache, so the head found is copied there
    let cache := match found.pHead with
      | some bytes => cache.store offset bytes
      | none => cache
    if found.indexSearch < amtNvBlockNum then do
      let (_, data) ← halSpiflashRead
        (base + offset + found.indexSearch * amtNvBlockSize + amtNvHeadSize)
        (cache (offset + 4)).toNat
      return cache.store (offset + amtNvHeadSize) data
    else
      return cache.store offset
        (List.replicate ((cache (offset + 4)).toNat + amtNvHeadSize) 0xFF)
  else
    return cache

/-- How far the scan moves on: over a record, or by one word. The kind of slot is
the one seen before the round, the length is read after it. -/
def amtNvGcAdvance (offset : Nat) (before after : ByteMem) : Nat :=
  let head := AmtNvHead.ofBytes (before.load offset amtNvHeadSize)
  if head.magic = amtNvMagicValue ∧
      (head.state = amtNvStateDele ∨ head.state = amtNvStateUsed) then
    wordAlign (amtNvHeadSize + (after (offset + 4)).toNat)
  else
    4

theorem amtNvGcAdvance_pos (offset : Nat) (before after : ByteMem) :
    0 < amtNvGcAdvance offset before after := by
  unfold amtNvGcAdvance
  dsimp only
  split
  · unfold wordAlign amtNvHeadSize
    rw [Nat.shiftLeft_eq, Nat.shiftRight_eq_div_pow]
    omega
  · decide

/-- The scan loop of `amt_nv_gc`. -/
def amtNvGcScan (base offset : Nat) (cache : ByteMem) : FlashProg ByteMem := do
  let cache' ← amtNvGcStep base offset cache
  if _more : offset + amtNvGcAdvance offset cache cache' < amtNvSize then
    amtNvGcScan base (offset + amtNvGcAdvance offset cache cache') cache'
  else
    return cache'
termination_by amtNvSize - offset
decreasing_by
  have := amtNvGcAdvance_pos offset cache cache'
  omega

/-- The flash operations at the end of `amt_nv_gc`, for the compacted copy `image`. -/
def amtNvGcCommit (base : Nat) (image : List UInt8) : FlashProg Unit := do
  let _ ← halSpifiashWrite amtNvBackupBase [0]
  let _ ← halSpifiashWrite amtNvBackupAddr image
  let _ ← halSpifiashWrite amtNvBackupComp [0]
  let _ ← halSpiflashErase base amtPartionSize
  let _ ← halSpifiashWrite base image
  let _ ← halSpiflashErase amtNvBackupBase amtPartionSize

/-- `amt_nv_gc`. `ram` is the memory at `0x253000` it uses as its cache. -/
def amtNvGc (part : AmtPartition) (ram : ByteMem) (addr : Nat) (buf : List UInt8) :
    FlashProg Unit := do
  let (_, copy) ← halSpiflashRead part.base amtNvSize
  let cache ← amtNvGcScan part.base 0 (ram.store 0 copy)
  amtNvGcCommit part.base ((cache.store (addr - part.base) buf).load 0 amtNvSize)

def drvSuccess : Int := 0
def drvError : Int := -1
def drvErrInvalidParam : Int := -4
def drvErrMemAlloc : Int := -5

/-- `AMT_NV_MAX`. -/
def amtNvMax (part : AmtPartition) : Nat := part.base + 2048 - 1

/-- `amt_nv_write` behind its search: place the record, or compact. -/
def amtNvPlace (part : AmtPartition) (ram : ByteMem) (addr : Nat) (record : List UInt8)
    (found : AmtNvFound) : FlashProg Int :=
  if found.indexAlloc = amtNvBlockNum then do
    amtNvGc part ram addr record
    return drvSuccess
  else do
    let _ ← halSpifiashWrite (addr + found.indexAlloc * amtNvBlockSize) record
    if found.indexSearch < amtNvBlockNum then do
      let _ ← halSpifiashWrite (addr + found.indexSearch * amtNvBlockSize + 2) stateDeleBytes
      return drvSuccess
    else
      return drvSuccess

/-- `amt_nv_write`. `malloc` tells whether `pvPortMalloc` returns a block. -/
def amtNvWrite (part : AmtPartition) (ram : ByteMem) (malloc : Bool) (addr : Nat)
    (buf : List UInt8) : FlashProg Int :=
  if addr < part.base ∨ addr > amtNvMax part then
    return drvErrInvalidParam
  else if malloc = false then
    return drvErrMemAlloc
  else do
    let found ← amtNvSearch addr
    amtNvPlace part ram addr (amtNvRecord stateUsedBytes buf) found

/-- A 32-bit word read from flash. -/
def le32 (bs : List UInt8) : Nat := le16 bs 0 + 65536 * le16 bs 2

/-- `amt_nv_init`. -/
def amtNvInit (part : AmtPartition) : FlashProg Unit := do
  let (_, begins) ← halSpiflashRead amtNvBackupBase 4
  let (_, comps) ← halSpiflashRead amtNvBackupComp 4
  if le32 comps = 0xFFFFFFFF ∧ le32 begins = 0xFFFFFFFF then
    return ()
  else if le32 comps = 0xFFFFFF00 ∧ le32 begins = 0xFFFFFF00 then do
    let (_, image) ← halSpiflashRead amtNvBackupAddr amtNvSize
    let _ ← halSpiflashErase part.base amtPartionSize
    let _ ← halSpifiashWrite part.base image
    let _ ← halSpiflashErase amtNvBackupBase amtPartionSize
  else do
    let _ ← halSpiflashErase amtNvBackupBase amtPartionSize

/-- The search loop of `amt_nv_read`: index and head of the first used record. -/
def amtNvReadLoop (addr : Nat) : (left i : Nat) → FlashProg (Option (Nat × AmtNvHead))
  | 0, _ => return none
  | left + 1, i => do
    let (_, bytes) ← halSpiflashRead (addr + i * amtNvBlockSize) amtNvHeadSize
    let head := AmtNvHead.ofBytes bytes
    if head.magic = amtNvMagicValue ∧ head.state = amtNvStateUsed then
      return some (i, head)
    else
      amtNvReadLoop addr left (i + 1)

/-- `amt_nv_read` with a buffer of `len` bytes: result code and the bytes stored
into the buffer. -/
def amtNvRead (part : AmtPartition) (addr len : Nat) : FlashProg (Int × List UInt8) :=
  if addr < part.base ∨ addr > amtNvMax part then
    return (drvErrInvalidParam, [])
  else do
    match ← amtNvReadLoop addr amtNvBlockNum 0 with
    | none => return (drvError, [])
    | some (i, head) =>
      if head.valLen > len then
        return (drvError, [])
      else do
        let (_, data) ← halSpiflashRead (addr + i * amtNvBlockSize + amtNvHeadSize) head.valLen
        if head.crc8 = amtNvCrc8 data then
          return (drvSuccess, data)
        else
          return (drvError, data)

end Tr6260
