import Tr6260.Block
import Tr6260.FlashRecord
import Tr6260.Uart.Frame

/-!
# Certificates over the serial line

`write_certificate` and `read_certificate` move a certificate or a key in pieces of 512 bytes, with
one buffer for both, `cert_buffer`: the writer allocates it with `MAX_CERT_BUF_LEN` bytes, the
reader with `MAX_RSA_LEN`, and each takes the other's when it finds it. `read_data_len` is the only
other thing kept from one sub-frame to the next.

An access outside of a block, a length below zero and the clearing of a block that could not be
allocated have no result: `none`.
-/

namespace Tr6260

open FlashProg

/-- `MAX_CERT_BUF_LEN`. -/
def maxCertBufLen : Nat := 3 * 1024

/-- `MAX_RSA_LEN`. -/
def maxRsaLen : Nat := 2048 + 512

/-- The data bytes of a full sub-frame. -/
def certPiece : Nat := 512

/-- The number of pieces of a record, rounded up. -/
def pieceCount (len : Nat) : Nat := (len + (certPiece - 1)) / certPiece

/-- `YA_LICENSE_DEVICE_CERT_ADDR` of this board. -/
def yaLicenseDeviceCertAddr : Nat := 0xAF000

/-- `YA_LICENSE_DEVICE_RSA_PRIVATE_KEY_ADDR`. -/
def yaLicenseDeviceRsaPrivateKeyAddr : Nat := yaLicenseDeviceCertAddr + 0x1000

/-- `YA_LICENSE_DEVICE_ID_ADDR`. -/
def yaLicenseDeviceIdAddr : Nat := yaLicenseDeviceRsaPrivateKeyAddr + 0x1000

/-- `YA_LICENSE_THING_TYPE_ADDR`. -/
def yaLicenseThingTypeAddr : Nat := yaLicenseDeviceIdAddr + 0x1000

/-- One bit of `crc_check`. -/
def crcBit (crc : UInt16) : UInt16 :=
  if crc &&& 0x8000 ≠ 0 then (crc <<< 1) ^^^ 0x1021 else crc <<< 1

/-- One byte of `crc_check`. -/
def crcByte (crc : UInt16) (b : UInt8) : UInt16 :=
  Nat.repeat crcBit 8 (crc.xor (b.toUInt16 <<< 8))

/-- `crc_check`. -/
def crcCheck (msg : List UInt8) : UInt16 := msg.foldl crcByte 0xFFFF

/-- What is kept between sub-frames: `cert_buffer` and `read_data_len`. -/
structure CertState where
  certBuffer : Option (List UInt8)
  readDataLen : Nat
  deriving DecidableEq

/-- The label `err` of `write_certificate`, and of its last sub-frame. -/
def CertState.free (s : CertState) : CertState := { s with certBuffer := none }

/-! ## Writing -/

/-- The two kinds of records that come in sub-frames. -/
inductive CertKind
  | cert
  | key
  deriving DecidableEq

/-- Where each is kept. -/
def CertKind.addr : CertKind → Nat
  | .cert => yaLicenseDeviceCertAddr
  | .key => yaLicenseDeviceRsaPrivateKeyAddr

/-- The kind a sub-command names. -/
def CertKind.ofSubCmd (subCmd : UInt8) : Option CertKind :=
  if subCmd = 0x01 then some .cert else if subCmd = 0x02 then some .key else none

/-- What the certificate code takes from its surroundings: `mbedtls_x509_crt_parse` and
`mbedtls_pk_parse_key` on text with its terminator, and whether `ya_printf` prints. -/
structure CertEnv where
  parses : CertKind → List UInt8 → Bool
  logs : Bool

/-- `ya_write_check_aws_para_device_cert` and `ya_write_check_aws_para_device_rsa_private_key`:
result, and the buffer with the terminator in it. -/
def yaWriteCheckAwsPara (env : CertEnv) (board : Board) (kind : CertKind)
    (buf : List UInt8) (dataLen : Nat) : FlashProg (Option (Int × List UInt8)) :=
  match Block.write buf dataLen [0] with
  | none => return none
  | some buf =>
    if env.parses kind (buf.take (dataLen + 1)) = false then
      return some (-1, buf)
    else do
      match ← yaWriteFlash board kind.addr (buf.take dataLen) 1 with
      | none => return none
      | some ret => return some (if ret ≠ 0 then -1 else 0, buf)

/-- The block that holds the sub-frames after `current_frame_index == 0` has been looked at:
`none` where a block that is not there, or too short a one, is cleared. -/
def certBlock (board : Board) (s : CertState) (index : Nat) : Option (Option (List UInt8)) :=
  if index = 0 then
    match s.certBuffer.or (board.memoryAlloc maxCertBufLen) with
    | none => none
    | some block => (Block.write block 0 (List.replicate maxCertBufLen 0)).map some
  else
    some s.certBuffer

/-- The last sub-frame: the record is checked, written, read back, and checked again. -/
def finishCertificate (env : CertEnv) (heap : Heap) (kind : CertKind) (block : List UInt8)
    (certLen : Nat) : FlashProg (Option UInt8) :=
  -- the log prints the buffer as text, up to its first zero
  if (env.logs ∧ 0 ∉ block) ∨ certLen < 2 ∨ block.length < certLen then
    return none
  else
    let crcGet := (block.getD (certLen - 2) 0).toUInt16 <<< 8 + (block.getD (certLen - 1) 0).toUInt16
    do
    match ← yaWriteCheckAwsPara env (heap 1) kind block (certLen - 2) with
    | none => return none
    | some (ret, block) =>
      if ret ≠ 0 then
        return some 0
      else do
        match ← yaReadFlashWithVarLen (heap 2) kind.addr maxCertBufLen 1 with
        | none => return some 0
        | some stored =>
          match Block.write block 0 stored with
          | none => return none
          | some block =>
            if stored.length ≠ certLen - 2 then
              return some 0
            else if crcCheck (block.take stored.length) ≠ crcGet then
              return some 0
            else
              return some 1

/-- The sub-frames of a certificate or a key in `write_certificate`. -/
def writePiece (env : CertEnv) (heap : Heap) (s : CertState) (kind : CertKind)
    (totalFrame index : Nat) (buf : List UInt8) (dataLen : Nat) :
    FlashProg (Option (UInt8 × CertState)) :=
  match certBlock (heap 0) s index with
  | none => return none
  | some none => return some (0, s)
  | some (some block) =>
    if dataLen < 4 then
      return none
    else
      match Block.read buf 10 (dataLen - 4) with
      | none => return none
      | some data =>
        match Block.write block (index * certPiece) data with
        | none => return none
        | some block =>
          if index + 1 = totalFrame then do
            match ← finishCertificate env heap kind block (dataLen - 4 + index * certPiece) with
            | none => return none
            | some result => return some (result, s.free)
          else if index + 1 > totalFrame then
            return some (0, s.free)
          else
            return some (1, { s with certBuffer := some block })

/-- `ya_write_check_aws_para_device_id` and `ya_write_check_aws_para_thing_type`, whose results are
not looked at. The length has 16 bits. -/
def writeName (heap : Heap) (addr : Nat) (buf : List UInt8) (dataLen : Nat) : FlashProg Unit :=
  if dataLen < 2 then
    return ()
  else do
    let _ ← yaWriteFlash (heap 1) addr ((buf.drop 8).take (dataLen - 2)) 1
    return ()

/-- `write_certificate`. -/
def writeCertificate (env : CertEnv) (heap : Heap) (s : CertState) (buf : List UInt8)
    (dataLen : Nat) : FlashProg (Option (UInt8 × CertState)) :=
  let subCmd := buf.getD 7 0
  match CertKind.ofSubCmd subCmd with
  | some kind =>
    writePiece env heap s kind (buf.getD 8 0).toNat (buf.getD 9 0).toNat buf dataLen
  | none =>
    if subCmd = 0x03 then do
      writeName heap yaLicenseDeviceIdAddr buf dataLen
      return some (1, s)
    else if subCmd = 0x04 then do
      writeName heap yaLicenseThingTypeAddr buf dataLen
      return some (1, s)
    else
      return some (0, s.free)

/-! ## Reading back -/

/-- The label `err` of `read_certificate`. -/
def CertState.reset : CertState := ⟨none, 0⟩

/-- The part of `read_certificate` in front of the split: the record in the buffer. `some none` is
`goto err`. -/
def loadCertificate (heap : Heap) (s : CertState) (kind : CertKind) (index : Nat) :
    FlashProg (Option (Option (List UInt8 × Nat))) :=
  if index = 0 then
    match s.certBuffer.or ((heap 0).memoryAlloc maxRsaLen) with
    | none => return some none
    | some block =>
      match Block.write block 0 (List.replicate maxRsaLen 0) with
      | none => return none
      | some block => do
        match ← yaReadFlashWithVarLen (heap 1) kind.addr maxRsaLen 1 with
        | none => return some none
        | some stored =>
          match Block.write block 0 stored with
          | none => return none
          | some block =>
            -- the buffer is printed as text, up to its first zero
            if 0 ∉ block then
              return none
            else
              return some (some (block, stored.length))
  else
    return some (s.certBuffer.map fun block => (block, s.readDataLen))

/-- `total_frame`. -/
def totalFrames (readDataLen : Nat) : Nat :=
  (if readDataLen % certPiece = 0 then readDataLen / certPiece else readDataLen / certPiece + 1) % 256

/-- `data_len` of a sub-frame; `none` is `goto err`. -/
def pieceLen (readDataLen index : Nat) : Option Nat :=
  if index + 1 = totalFrames readDataLen then
    some (readDataLen % certPiece)
  else if index + 1 < totalFrames readDataLen then
    some certPiece
  else
    none

/-- A length field, high byte first. -/
def lenField (len : Nat) : List UInt8 := [UInt8.ofNat (len / 256), UInt8.ofNat len]

/-- The reply with one sub-frame, in `tx_buf`. -/
def readbackFrame (tx block : List UInt8) (readDataLen index dataLen : Nat) :
    Option (List UInt8) := do
  let tx ← Block.write tx 4 (lenField (dataLen + 4))
  let tx ← Block.write tx 8 [UInt8.ofNat (totalFrames readDataLen), UInt8.ofNat index]
  let data ← Block.read block (index * certPiece) dataLen
  let tx ← Block.write tx 10 data
  Block.write tx (dataLen + 10) [getChecksum tx (dataLen + 10)]

/-- The sub-frames of a certificate or a key in `read_certificate`: `frame_len`, the state and
`tx_buf`. -/
def readPiece (heap : Heap) (s : CertState) (kind : CertKind) (index : Nat) (tx : List UInt8) :
    FlashProg (Option (Nat × CertState × List UInt8)) := do
  match ← loadCertificate heap s kind index with
  | none => return none
  | some none => return some (0, .reset, tx)
  | some (some (block, readDataLen)) =>
    match pieceLen readDataLen index with
    | none => return some (0, .reset, tx)
    | some dataLen =>
      match readbackFrame tx block readDataLen index dataLen with
      | none => return none
      | some tx =>
        if index + 1 = totalFrames readDataLen then
          return some (dataLen + 11, .reset, tx)
        else
          return some (dataLen + 11, ⟨some block, readDataLen⟩, tx)

/-- The other two records in `read_certificate`, read straight into `tx_buf`. -/
def readName (heap : Heap) (s : CertState) (addr : Nat) (tx : List UInt8) :
    FlashProg (Option (Nat × CertState × List UInt8)) := do
  match ← yaReadFlashWithVarLen (heap 1) addr 128 1 with
  | none => return some (0, .reset, tx)
  | some stored =>
    return do
      let tx ← Block.write tx 8 stored
      let tx ← Block.write tx 4 (lenField (stored.length + 2))
      let tx ← Block.write tx (stored.length + 8) [getChecksum tx (stored.length + 8)]
      return (stored.length + 9, s, tx)

/-- `read_certificate`. -/
def readCertificate (heap : Heap) (s : CertState) (rx tx : List UInt8) (subCmd : UInt8) :
    FlashProg (Option (Nat × CertState × List UInt8)) :=
  match CertKind.ofSubCmd subCmd with
  | some kind => readPiece heap s kind (rx.getD 8 0).toNat tx
  | none =>
    if subCmd = 0x03 then
      readName heap s yaLicenseDeviceIdAddr tx
    else if subCmd = 0x04 then
      readName heap s yaLicenseThingTypeAddr tx
    else
      return some (0, s, tx)

end Tr6260
