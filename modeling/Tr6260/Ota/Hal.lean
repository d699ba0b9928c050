import Tr6260.SpiFlash

/-!
# The OTA writer

`otaDiffHal.c`: one global record `g_otaInfo` describes the download in
progress. `otaHal_init` erases the whole OTA partition and resets the record;
the first `otaHal_write` after it takes the announced size out of the package
header and places the package right below the two state sectors at the end of
the partition; `otaHal_done` writes the state records if exactly the announced
number of bytes came in. Addresses and lengths are `unsigned int`.
-/

namespace Tr6260

open FlashProg ByteMem

/-- A value kept in a 32-bit unsigned variable. -/
def u32 (n : Nat) : Nat := n % 2 ^ 32

/-- `OtaOperateInfo`. -/
structure OtaOperateInfo where
  init : Bool
  getFirstFrame : Bool
  sAddr : Nat
  eAddr : Nat
  offset : Nat
  maxLen : Nat
  dataLen : Nat
  deriving DecidableEq

/-- `g_otaInfo` after `memset`. -/
def OtaOperateInfo.zero : OtaOperateInfo := ⟨false, false, 0, 0, 0, 0, 0⟩

/-- `OTA_STAT_PART_SIZE`. -/
def otaStatPartSize : Nat := 4 * 1024

/-- `sizeof (OtaPkgHeader)`. -/
def sizeofOtaPkgHeader : Nat := 64

/-- A little-endian 32-bit field at position `i`. -/
def le32At (bs : List UInt8) (i : Nat) : Nat :=
  (bs.getD i 0).toNat + 256 * (bs.getD (i + 1) 0).toNat + 65536 * (bs.getD (i + 2) 0).toNat +
    16777216 * (bs.getD (i + 3) 0).toNat

/-- The bytes of a 32-bit field. -/
def le32Bytes (n : Nat) : List UInt8 :=
  [UInt8.ofNat n, UInt8.ofNat (n / 256), UInt8.ofNat (n / 65536), UInt8.ofNat (n / 16777216)]

/-- `header->size`. -/
def pkgSize (data : List UInt8) : Nat := le32At data 8

/-- The entry of the partition table for `PARTION_NAME_DATA_OTA`: address and length,
or nothing when `partion_info_get` fails. -/
abbrev OtaPartition := Option (Nat × Nat)

/-- `otaHal_init`. -/
def otaHalInit (part : OtaPartition) : FlashProg (Int × OtaOperateInfo) :=
  match part with
  | none => return (-1, .zero)
  | some (addr, len) => do
    let info : OtaOperateInfo := { OtaOperateInfo.zero with sAddr := addr, maxLen := len }
    let ret ← halSpiflashErase addr len
    if ret ≠ 0 then
      return (-1, info)
    else
      return (0, { info with eAddr := u32 (addr + len), init := true })

/-- `tmpFileLen`: the announced size rounded up to whole sectors. -/
def alignFileLen (size : Nat) : Nat :=
  if size % otaStatPartSize ≠ 0 then
    u32 (size + otaStatPartSize - size % otaStatPartSize)
  else
    size

/-- `g_otaInfo` after the header of the first frame has been read. -/
def OtaOperateInfo.firstFrame (info : OtaOperateInfo) (data : List UInt8) : OtaOperateInfo :=
  { info with
    dataLen := pkgSize data
    sAddr := u32 (info.sAddr + info.maxLen + 2 ^ 32 - alignFileLen (pkgSize data) -
      2 * otaStatPartSize)
    getFirstFrame := true }

/-- `otaHal_write` behind its handling of the first frame. -/
def otaHalAppend (info : OtaOperateInfo) (data : List UInt8) : FlashProg (Int × OtaOperateInfo) :=
  if u32 (info.offset + data.length) > info.dataLen then
    return (-1, info)
  else do
    let _ ← halSpifiashWrite (u32 (info.sAddr + info.offset)) data
    return (0, { info with offset := u32 (info.offset + data.length) })

/-- `otaHal_write` of `data`, whose length is an `unsigned short`. -/
def otaHalWrite (info : OtaOperateInfo) (data : List UInt8) : FlashProg (Int × OtaOperateInfo) :=
  if info.getFirstFrame then
    otaHalAppend info data
  else if data.length < sizeofOtaPkgHeader then
    return (-1, info)
  else if u32 (alignFileLen (pkgSize data) + 2 * otaStatPartSize) > info.maxLen then
    return (-1, { info with dataLen := pkgSize data })
  else
    otaHalAppend (info.firstFrame data) data

/-- The 24 bytes of the `OtaState` that `otaHal_done` prepares. -/
def otaState (crc32 : List UInt8 → Nat) (info : OtaOperateInfo) : List UInt8 :=
  let tail := le32Bytes info.sAddr ++ le32Bytes info.dataLen ++ [1] ++ List.replicate 7 0xFF
  [0x4F, 0x54, 0x41, 16] ++ le32Bytes (crc32 tail) ++ tail

/-- The state records go out exactly for a complete package. -/
def OtaOperateInfo.complete (info : OtaOperateInfo) : Prop :=
  info.dataLen ≠ 0 ∧ info.offset = info.dataLen

instance (info : OtaOperateInfo) : Decidable info.complete := inferInstanceAs (Decidable (_ ∧ _))

/-- `otaHal_done`; the system resets behind it. -/
def otaHalDone (crc32 : List UInt8 → Nat) (info : OtaOperateInfo) : FlashProg Unit :=
  if info.complete then do
    let _ ← halSpifiashWrite (u32 (info.eAddr + 2 ^ 32 - 2 * otaStatPartSize)) (otaState crc32 info)
    let _ ← halSpifiashWrite (u32 (info.eAddr + 2 ^ 32 - otaStatPartSize)) (otaState crc32 info)
    return ()
  else
    return ()

end Tr6260
