import Tr6260.Ota.Hal
import Tr6260.Ota.Http

/-!
# The body of a download

`ya_http_body_handle`, the running MD5 of `update_ota_buffer_md5` and the two
checksum functions of `ya_ota_hal.c`. MD5 itself is left open: `Md5` is any
streaming hash, given by its context operations.
-/

namespace Tr6260

open FlashProg ByteMem

/-! ## MD5 -/

/-- The `mbedtls_md5` interface. Feeding a text in pieces is feeding it as a whole. -/
structure Md5 where
  Ctx : Type
  /-- A context after `mbedtls_md5_free`. -/
  freed : Ctx
  starts : Ctx
  update : Ctx → List UInt8 → Ctx
  finish : Ctx → List UInt8
  update_nil : ∀ ctx, update ctx [] = ctx
  update_append : ∀ ctx xs ys, update (update ctx xs) ys = update ctx (xs ++ ys)

/-- The digest of a text. -/
def Md5.digest (md5 : Md5) (bytes : List UInt8) : List UInt8 :=
  md5.finish (md5.update md5.starts bytes)

/-- The static variables of `update_ota_buffer_md5`. -/
structure Md5Stat (md5 : Md5) where
  reset : Bool
  initFlag : Bool
  ctx : md5.Ctx
  totalLen : Nat

/-- `update_ota_buffer_md5` on the `len` bytes `bytes`, with the globals it compares to:
result and static variables. -/
def updateOtaBufferMd5 {md5 : Md5} (stat : Md5Stat md5) (bodyLen : Nat) (requestMd5 : List UInt8)
    (bytes : List UInt8) (len : Int) : Int × Md5Stat md5 :=
  let stat := if stat.reset then ⟨false, false, md5.freed, 0⟩ else stat
  let totalLen := toU32 (stat.totalLen + len)
  let ctx := if stat.initFlag then stat.ctx else md5.starts
  let ctx := if len > 0 then md5.update ctx bytes else ctx
  if totalLen ≥ bodyLen then
    (if requestMd5 = md5.finish ctx then 1 else -1,
      { stat with initFlag := true, ctx := md5.freed, totalLen })
  else
    (0, { stat with initFlag := true, ctx, totalLen })

/-- The loop that `ya_verify_ota_checksum` and `ya_verify_mcu_file_checksum` share, with
`left` sections to go. -/
def md5Sections (md5 : Md5) (addr fileSize totalSection : Nat) :
    (left index curLen : Nat) → md5.Ctx → FlashProg md5.Ctx
  | 0, _, _, ctx => return ctx
  | left + 1, index, curLen, ctx => do
    let readLen := if index = totalSection - 1 then fileSize - (totalSection - 1) * httpBufSize
      else httpBufSize
    let (_, bytes) ← halSpiflashRead (u32 (addr + curLen)) readLen
    md5Sections md5 addr fileSize totalSection left (index + 1) (curLen + readLen)
      (md5.update ctx bytes)

/-- `total_section`. -/
def totalSections (fileSize : Nat) : Nat :=
  fileSize / httpBufSize + if fileSize % httpBufSize > 0 then 1 else 0

/-- The comparison of the stored file with the digest of a request. `index` is a
`uint16_t`: with more than 65535 sections the loop does not end (`none`). The sections
are read through the download buffer, which is zeroed or freed before its next use. -/
def verifyFlash (md5 : Md5) (addr fileSize : Nat) (fileMd5 : List UInt8) :
    FlashProg (Option Int) :=
  if totalSections fileSize > 65535 then
    return none
  else do
    let ctx ← md5Sections md5 addr fileSize (totalSections fileSize) (totalSections fileSize) 0 0
      md5.starts
    return some (if md5.finish ctx = fileMd5 then 0 else -1)

/-- `ya_verify_ota_checksum`: the address it is given is replaced by the writer's. -/
def yaVerifyOtaChecksum (md5 : Md5) (hal : OtaOperateInfo) (fileSize : Nat)
    (fileMd5 : List UInt8) : FlashProg (Option Int) :=
  verifyFlash md5 hal.sAddr fileSize fileMd5

/-- `ya_verify_mcu_file_checksum`. -/
def yaVerifyMcuFileChecksum (md5 : Md5) (addr fileSize : Nat) (fileMd5 : List UInt8) :
    FlashProg (Option Int) :=
  verifyFlash md5 addr fileSize fileMd5

/-! ## Sectors -/

/-- `ya_http_ota_sector_erase`: address and size are ignored. -/
def yaHttpOtaSectorErase (part : OtaPartition) : FlashProg (Int × OtaOperateInfo) :=
  otaHalInit part

/-- `ya_http_ota_sector_write` of `length` bytes at `pos` in the buffer memory; the address
is ignored and the length cut to an `unsigned short`. -/
def yaHttpOtaSectorWrite (hal : OtaOperateInfo) (mem : ByteMem) (pos : Nat) (length : Int) :
    FlashProg (Int × OtaOperateInfo) :=
  otaHalWrite hal (mem.load pos (length % 65536).toNat)

/-! ## The body -/

/-- `HTTP_FILE_HEADER_LEN`. -/
def httpFileHeaderLen : Int := 8

/-- `http_file_para_t`. -/
structure HttpFilePara where
  headerLen : Nat
  fileLen : Nat
  bodyReadLen : Int
  bodyCurPos : Nat
  bodyFlieHeaderCurLen : Int
  bodyFileHeaderEnbable : Bool
  deriving DecidableEq

/-- The parameters after `memset`. -/
def HttpFilePara.zero : HttpFilePara := ⟨0, 0, 0, 0, 0, false⟩

/-- The part of `ya_http_body_handle` that keeps the first bytes of the file back from the
flash: the file parameters and the position behind these bytes. `none`: a `memcpy` with
a negative length. -/
def bodyFileHeader (file : HttpFilePara) : Option (HttpFilePara × Nat) :=
  if file.bodyFileHeaderEnbable = false ∧ file.bodyFlieHeaderCurLen < httpFileHeaderLen then
    let remain := if file.bodyReadLen > httpFileHeaderLen - file.bodyFlieHeaderCurLen then
      httpFileHeaderLen - file.bodyFlieHeaderCurLen else file.bodyReadLen
    if remain < 0 then
      none
    else
      some ({ file with
        bodyCurPos := u32 (file.bodyCurPos + remain.toNat)
        bodyReadLen := file.bodyReadLen - remain
        bodyFlieHeaderCurLen := file.bodyFlieHeaderCurLen + remain
        headerLen := 0 }, otaBuf + file.headerLen + remain.toNat)
  else
    some ({ file with headerLen := 0 }, otaBuf + file.headerLen)

/-- What a call of `ya_http_body_handle` leaves. -/
structure BodyResult where
  ret : Int
  file : HttpFilePara
  mem : ByteMem
  hal : OtaOperateInfo

/-- `ya_http_body_handle` behind the write: the end of the file, or the next read. -/
def bodyRead (file : HttpFilePara) (read : Nat → Option (List UInt8)) (mem : ByteMem)
    (hal : OtaOperateInfo) : BodyResult :=
  if file.bodyCurPos ≥ file.fileLen then
    ⟨1, file, mem, hal⟩
  else
    match read httpBufSize with
    | none => ⟨-1, { file with bodyReadLen := -1 }, mem, hal⟩
    | some bytes => ⟨0, { file with bodyReadLen := bytes.length }, mem.store otaBuf bytes, hal⟩

/-- `ya_http_body_handle`. -/
def yaHttpBodyHandle (file : HttpFilePara) (read : Nat → Option (List UInt8)) (mem : ByteMem)
    (hal : OtaOperateInfo) : FlashProg (Option BodyResult) :=
  if file.bodyReadLen ≠ 0 then
    match bodyFileHeader file with
    | none => return none
    | some (file, pos) =>
      if file.bodyReadLen ≠ 0 then do
        let (ret, hal) ← yaHttpOtaSectorWrite hal mem pos file.bodyReadLen
        if ret < 0 then
          return some ⟨-1, file, mem, hal⟩
        else
          return some (bodyRead
            { file with bodyCurPos := toU32 (file.bodyCurPos + file.bodyReadLen) } read mem hal)
      else
        return some (bodyRead file read mem hal)
  else
    return some (bodyRead { file with headerLen := 0 } read mem hal)

end Tr6260
