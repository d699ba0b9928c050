import Mathlib.Logic.Function.Basic
import Tr6260.Uart.Cert

/-!
# AWS licences

The four fields of a licence are written one by one, over the serial line or in
SoftAP mode, and read at boot into four buffers. What a writer accepts is bounded
by the flash record alone, 4086 bytes; what a reader accepts is bounded by the
buffer of its field, less one for the terminator.
-/

namespace Tr6260

open FlashProg

/-- `MAX_CERT_LEN`. -/
def maxCertLen : Nat := 1024 + 512

/-- `MAX_CLIENT_ID_LEN`. -/
def maxClientIdLen : Nat := 128

/-- `MAX_THING_TYPE_LEN`. -/
def maxThingTypeLen : Nat := 128

/-! ## The four writers -/

/-- `ya_write_flash` and its result, as in all four writers. A length that is refused is refused
before the data is looked at. -/
def writeAwsPara (board : Board) (buf : List UInt8) (dataLen : UInt16) (addr : Nat) :
    FlashProg (Option (Int × List UInt8)) :=
  if dataLen.toNat > maxDataLen - 10 then
    return some (-1, buf)
  else
    match Block.read buf 0 dataLen.toNat with
    | none => return none
    | some data => do
      match ← yaWriteFlash board addr data 1 with
      | none => return none
      | some ret => return some (if ret ≠ 0 then -1 else 0, buf)

/-- The two writers that put a terminator behind the text and have it parsed. -/
def writeParsedAwsPara (env : CertEnv) (kind : CertKind) (board : Board) (buf : List UInt8)
    (dataLen : UInt16) (addr : Nat) : FlashProg (Option (Int × List UInt8)) :=
  match Block.write buf dataLen.toNat [0] with
  | none => return none
  | some buf =>
    if env.parses kind (buf.take (dataLen.toNat + 1)) = false then
      return some (-1, buf)
    else
      writeAwsPara board buf dataLen addr

/-- `ya_write_check_aws_para_device_cert`: the result and the caller's buffer. -/
def yaWriteCheckAwsParaDeviceCert (env : CertEnv) := writeParsedAwsPara env .cert

/-- `ya_write_check_aws_para_device_rsa_private_key`. -/
def yaWriteCheckAwsParaDeviceRsaPrivateKey (env : CertEnv) := writeParsedAwsPara env .key

/-- `ya_write_check_aws_para_device_id`. -/
def yaWriteCheckAwsParaDeviceId := writeAwsPara

/-- `ya_write_check_aws_para_thing_type`. -/
def yaWriteCheckAwsParaThingType := writeAwsPara

/-! ## The four readers -/

/-- A reader with a buffer of `maxLen` bytes: the result, and the block the caller gave it. -/
def readCheckAwsPara (maxLen : Nat) (heap : Heap) (dest : List UInt8) (addr : Nat) :
    FlashProg (Option (Int × List UInt8)) :=
  match (heap 0).memoryAlloc maxLen with
  | none => return some (-1, dest)
  | some _ => do
    match ← yaReadFlashWithVarLen (heap 1) addr (maxLen - 1) 1 with
    | none => return some (-1, dest)
    | some stored =>
      if stored.length = 0 then
        return some (-1, dest)
      else
        return do
          let dest ← Block.write dest 0 (List.replicate (stored.length + 1) 0)
          let dest ← Block.write dest 0 stored
          return (0, dest)

/-- `ya_aws_read_check_device_cert`. -/
def yaAwsReadCheckDeviceCert := readCheckAwsPara maxCertLen

/-- `ya_aws_read_check_device_rsa_private_key`. -/
def yaAwsReadCheckDeviceRsaPrivateKey := readCheckAwsPara maxRsaLen

/-- `ya_aws_read_check_device_id`. -/
def yaAwsReadCheckDeviceId := readCheckAwsPara maxClientIdLen

/-- `ya_aws_read_check_thing_type`. -/
def yaAwsReadCheckThingType := readCheckAwsPara maxThingTypeLen

/-- The fields of a licence. -/
inductive AwsField
  | deviceCert
  | rsaPrivateKey
  | deviceId
  | thingType
  deriving DecidableEq

namespace AwsField

/-- The writer of a field. -/
def write (env : CertEnv) : AwsField →
    Board → List UInt8 → UInt16 → Nat → FlashProg (Option (Int × List UInt8))
  | .deviceCert => yaWriteCheckAwsParaDeviceCert env
  | .rsaPrivateKey => yaWriteCheckAwsParaDeviceRsaPrivateKey env
  | .deviceId => yaWriteCheckAwsParaDeviceId
  | .thingType => yaWriteCheckAwsParaThingType

/-- The reader of a field. -/
def readCheck : AwsField → Heap → List UInt8 → Nat → FlashProg (Option (Int × List UInt8))
  | .deviceCert => yaAwsReadCheckDeviceCert
  | .rsaPrivateKey => yaAwsReadCheckDeviceRsaPrivateKey
  | .deviceId => yaAwsReadCheckDeviceId
  | .thingType => yaAwsReadCheckThingType

/-- The size of the buffer that `ya_aws_para_init` allocates for a field. -/
def maxLen : AwsField → Nat
  | .deviceCert => maxCertLen
  | .rsaPrivateKey => maxRsaLen
  | .deviceId => maxClientIdLen
  | .thingType => maxThingTypeLen

/-- Where a field is kept. -/
def addr : AwsField → Nat
  | .deviceCert => yaLicenseDeviceCertAddr
  | .rsaPrivateKey => yaLicenseDeviceRsaPrivateKeyAddr
  | .deviceId => yaLicenseDeviceIdAddr
  | .thingType => yaLicenseThingTypeAddr

/-- One field in `ya_aws_para_init`; `some none` is `goto err`. -/
def init (heap : Heap) (field : AwsField) :
    Option (List UInt8) → FlashProg (Option (Option (List UInt8)))
  | some buff => return some (some buff)
  | none =>
    match (heap 0).memoryAlloc field.maxLen with
    | none => return some none
    | some _ => do
      match ← field.readCheck (heap.skip 1) (List.replicate field.maxLen 0) field.addr with
      | none => return none
      | some (ret, buff) => return some (if ret ≠ 0 then none else some buff)

end AwsField

/-- `aws_certificateBuff`, `aws_privateKeyBuff`, `aws_client_id` and `aws_thing_type`. -/
abbrev AwsPara := AwsField → Option (List UInt8)

/-- `ya_aws_para_free`. -/
def yaAwsParaFree : AwsPara := fun _ => none

/-- The fields of `ya_aws_para_init` one after another; each makes three allocations. -/
def initFields (heap : Heap) (para : AwsPara) :
    List AwsField → FlashProg (Option (Int × AwsPara))
  | [] => return some (0, para)
  | field :: fields => do
    match ← field.init heap (para field) with
    | none => return none
    | some none => return some (-1, yaAwsParaFree)
    | some (some buff) =>
      initFields (heap.skip 3) (Function.update para field (some buff)) fields

/-- `ya_aws_para_init`. -/
def yaAwsParaInit (heap : Heap) (para : AwsPara) : FlashProg (Option (Int × AwsPara)) :=
  initFields heap para [.deviceCert, .rsaPrivateKey, .deviceId, .thingType]

/-! ## What a writer has accepted -/

section Written

variable {env : CertEnv} {board : Board} {buf buf' : List UInt8} {dataLen : UInt16} {addr : Nat}
  {m m' : ByteMem}

/-- The writer of the serial line is the one of this module at its address. -/
theorem yaWriteCheckAwsPara_run (env : CertEnv) (board : Board) (kind : CertKind)
    (buf : List UInt8) (dataLen : UInt16) (m : ByteMem) :
    (yaWriteCheckAwsPara env board kind buf dataLen.toNat).run m =
      (writeParsedAwsPara env kind board buf dataLen kind.addr).run m := by
  unfold yaWriteCheckAwsPara writeParsedAwsPara
  cases terminated : Block.write buf dataLen.toNat [0] with
  | none => rfl
  | some block =>
    dsimp only
    split
    next => rfl
    next =>
    have room : dataLen.toNat + 1 ≤ buf.length := by
      unfold Block.write at terminated
      split at terminated
      next fits => exact fits
      next => cases terminated
    have inside : 0 + dataLen.toNat ≤ block.length := by
      rw [Block.length_write terminated]
      omega
    rw [writeAwsPara, Block.read_of_le inside, List.drop_zero]
    split
    next long =>
      have refused : yaWriteFlash board kind.addr (block.take dataLen.toNat) 1 =
          return some (-1) := by
        rw [yaWriteFlash, if_neg (by decide), if_pos]
        rw [List.length_take]
        have one : maxDataLen * (1 : UInt8).toNat - 10 = maxDataLen - 10 := by decide
        omega
      rw [refused]
      rfl
    next => rfl

theorem writeAwsPara_accepted
    (accepted : (writeAwsPara board buf dataLen addr).run m = (some (0, buf'), m')) :
    buf' = buf ∧ dataLen.toNat ≤ buf.length ∧ dataLen.toNat ≠ 0 ∧
      dataLen.toNat ≤ maxDataLen - 10 ∧ RecordAt m' addr (buf.take dataLen.toNat) := by
  unfold writeAwsPara at accepted
  split at accepted
  next => cases accepted
  next short =>
  unfold Block.read at accepted
  split at accepted
  next => cases accepted
  next data found =>
  split at found
  next fits =>
    rw [Nat.zero_add] at fits
    rw [List.drop_zero] at found
    cases found
    rw [run_bind] at accepted
    split at accepted
    next => cases accepted
    next ret stored =>
    rcases Prod.mk.inj accepted with ⟨same, rfl⟩
    rcases Prod.mk.inj (Option.some.inj same) with ⟨zero, rfl⟩
    have done : ret = 0 := by
      by_contra failed
      rw [if_pos failed] at zero
      cases zero
    subst done
    rcases yaWriteFlash_accepted (Prod.ext stored rfl) with ⟨-, nonempty, -, -, record⟩
    rw [List.length_take, Nat.min_eq_left fits] at nonempty
    exact ⟨rfl, fits, nonempty, by omega, record⟩
  next => cases found

theorem writeAwsPara_of_written (whole : buf.length = dataLen.toNat)
    (short : dataLen.toNat ≤ maxDataLen - 10)
    (written : (yaWriteFlash board addr buf 1).run m = (some 0, m')) :
    (writeAwsPara board buf dataLen addr).run m = (some (0, buf), m') := by
  have read : Block.read buf 0 dataLen.toNat = some buf := by
    rw [← whole, Block.read_of_le (Nat.zero_add _).le, List.drop_zero, List.take_length]
  rw [writeAwsPara, if_neg (by omega), read]
  dsimp only
  rw [run_bind, written]
  rfl

theorem writeParsedAwsPara_accepted {kind : CertKind}
    (accepted : (writeParsedAwsPara env kind board buf dataLen addr).run m =
      (some (0, buf'), m')) :
    dataLen.toNat ≤ buf.length ∧ dataLen.toNat ≠ 0 ∧ dataLen.toNat ≤ maxDataLen - 10 ∧
      RecordAt m' addr (buf.take dataLen.toNat) := by
  unfold writeParsedAwsPara at accepted
  split at accepted
  next => cases accepted
  next block terminated =>
  split at accepted
  next => cases accepted
  next =>
  rcases writeAwsPara_accepted accepted with ⟨-, fits, nonempty, short, record⟩
  rw [Block.length_write terminated] at fits
  -- the terminator stands behind the text
  have text := Block.slice_write_apart terminated (.inl (Nat.zero_add dataLen.toNat).le)
  rw [List.drop_zero, List.drop_zero] at text
  rw [text] at record
  exact ⟨fits, nonempty, short, record⟩

/-- The flash shows the record of what a writer has accepted. -/
theorem AwsField.write_accepted {field : AwsField}
    (accepted : (field.write env board buf dataLen addr).run m = (some (0, buf'), m')) :
    dataLen.toNat ≤ buf.length ∧ dataLen.toNat ≠ 0 ∧ dataLen.toNat ≤ maxDataLen - 10 ∧
      RecordAt m' addr (buf.take dataLen.toNat) := by
  cases field with
  | deviceCert | rsaPrivateKey => exact writeParsedAwsPara_accepted accepted
  | deviceId | thingType => exact (writeAwsPara_accepted accepted).2

end Written

/-! ## What a reader makes of it -/

/-- The field's reader succeeds, and the buffer of `ya_aws_para_init` holds the data with a
terminator behind it. -/
def AwsField.ReadsBack (field : AwsField) (heap : Heap) (m : ByteMem) (addr : Nat)
    (data : List UInt8) : Prop :=
  ∃ buff, (field.readCheck heap (List.replicate field.maxLen 0) addr).run m =
      (some (0, buff), m) ∧
    buff.length = field.maxLen ∧ buff.take (data.length + 1) = data ++ [0]

/-- The data is shorter than the field's buffer, and there is memory for it and for the record. -/
def AwsField.Readable (field : AwsField) (heap : Heap) (dataLen : Nat) : Prop :=
  dataLen < field.maxLen ∧ ((heap 0).memoryAlloc field.maxLen).isSome ∧
    ((heap 1).memoryAlloc (recordAllocLen dataLen + 4)).isSome

section Read

variable {heap : Heap} {m : ByteMem} {addr : Nat} {data : List UInt8}

theorem AwsField.readCheck_eq (field : AwsField) :
    field.readCheck = readCheckAwsPara field.maxLen := by
  cases field <;> rfl

theorem AwsField.maxLen_bounds (field : AwsField) : 1 < field.maxLen ∧ field.maxLen ≤ 2560 := by
  cases field <;> decide

/-- A record that can be read is. -/
theorem AwsField.Readable.readsBack {field : AwsField} (readable : field.Readable heap data.length)
    (stored : RecordAt m addr data) (nonempty : data.length ≠ 0) :
    field.ReadsBack heap m addr data := by
  rcases field.maxLen_bounds with ⟨room, bound⟩
  rcases readable with ⟨short, buffer, record⟩
  rcases Option.isSome_iff_exists.mp buffer with ⟨block, buffer⟩
  obtain ⟨block₁, cleared, len₁⟩ := Block.exists_write
    (show 0 + (List.replicate (data.length + 1) (0 : UInt8)).length ≤
        (List.replicate field.maxLen (0 : UInt8)).length by
      rw [List.length_replicate, List.length_replicate]
      omega)
  rw [List.length_replicate] at len₁
  obtain ⟨block₂, copied, len₂⟩ := Block.exists_write
    (show 0 + data.length ≤ block₁.length by omega)
  refine ⟨block₂, ?_, by omega, Block.take_write_terminated cleared copied⟩
  have fits : data.length ≤ maxDataLen - 10 ∧ data.length ≤ field.maxLen - 1 := by
    rw [maxDataLen]
    omega
  rw [field.readCheck_eq, readCheckAwsPara, buffer]
  dsimp only
  rw [run_bind, yaReadFlashWithVarLen_memory (heap 1) stored (by omega) (by decide) (by omega)
    (show field.maxLen - 1 ≤ maxDataLen * 1 - 10 by rw [maxDataLen]; omega),
    if_pos ⟨fits, record⟩]
  dsimp only
  rw [if_neg nonempty]
  simp [cleared, copied]

/-- A record that cannot be read is refused. -/
theorem AwsField.readCheck_refused {field : AwsField} (refused : ¬ field.Readable heap data.length)
    (stored : RecordAt m addr data) (short : data.length < 65532) (dest : List UInt8) :
    (field.readCheck heap dest addr).run m = (some (-1, dest), m) := by
  rcases field.maxLen_bounds with ⟨room, bound⟩
  rw [field.readCheck_eq, readCheckAwsPara]
  cases buffer : (heap 0).memoryAlloc field.maxLen with
  | none => rfl
  | some block =>
    have unread : ¬ ((data.length ≤ maxDataLen - 10 ∧ data.length ≤ field.maxLen - 1) ∧
        ((heap 1).memoryAlloc (recordAllocLen data.length + 4)).isSome) := by
      rintro ⟨fits, record⟩
      exact refused ⟨by omega, by rw [buffer]; rfl, record⟩
    dsimp only
    rw [run_bind, yaReadFlashWithVarLen_memory (heap 1) stored short (by decide) (by omega)
      (show field.maxLen - 1 ≤ maxDataLen * 1 - 10 by rw [maxDataLen]; omega), if_neg unread]
    rfl

/-- What a writer has accepted can be used exactly when it is shorter than the buffer of its field,
and there is memory to read it. -/
theorem awsLicence_usable_iff {env : CertEnv} {writer : Board} {reader : Heap} {field : AwsField}
    {buf buf' : List UInt8} {dataLen : UInt16} {m m' : ByteMem}
    (accepted : (field.write env writer buf dataLen addr).run m = (some (0, buf'), m')) :
    field.ReadsBack reader m' addr (buf.take dataLen.toNat) ↔
      field.Readable reader dataLen.toNat := by
  rcases AwsField.write_accepted accepted with ⟨inside, nonempty, short, stored⟩
  have len : (buf.take dataLen.toNat).length = dataLen.toNat := by
    rw [List.length_take, Nat.min_eq_left inside]
  have small : dataLen.toNat < 65532 := Nat.lt_of_le_of_lt short (by decide)
  constructor
  · rintro ⟨buff, read, -⟩
    by_contra refused
    rw [AwsField.readCheck_refused (len.symm ▸ refused) stored (len.symm ▸ small)] at read
    cases read
  · intro readable
    exact (len.symm ▸ readable : field.Readable reader (buf.take dataLen.toNat).length).readsBack
      stored (len.symm ▸ nonempty)

end Read

/-- A thing type of two bytes. -/
theorem awsLicence_usable_short : AwsField.thingType.ReadsBack (fun _ => .zeroed)
    ((AwsField.thingType.write ⟨fun _ _ => true, false⟩ .zeroed [0x41, 0x42] 2 0xB2000).run
      fun _ => 0xFF).2 0xB2000 [0x41, 0x42] := by
  have accepted : (AwsField.thingType.write ⟨fun _ _ => true, false⟩ .zeroed [0x41, 0x42] 2
      0xB2000).run (fun _ => 0xFF) = (some (0, [0x41, 0x42]), _) := rfl
  exact (awsLicence_usable_iff accepted).mpr ⟨by decide, rfl, rfl⟩

/-- A device id of 128 bytes is accepted, and there is no room for its terminator. -/
theorem awsLicence_unusable_deviceId : ¬ ∀ (env : CertEnv) (writer : Board) (reader : Heap)
    (field : AwsField) (buf buf' : List UInt8) (dataLen : UInt16) (addr : Nat) (m m' : ByteMem),
    reader.AllocOk → (field.write env writer buf dataLen addr).run m = (some (0, buf'), m') →
      field.ReadsBack reader m' addr (buf.take dataLen.toNat) := by
  intro usable
  have len : (List.replicate 128 (0x41 : UInt8)).length = 128 := List.length_replicate
  obtain ⟨m', written, stored, -⟩ := yaWriteFlash_run Board.zeroed_allocOk
    (show yaLicenseDeviceIdAddr % spiflashSectorSize = 0 by decide) (show (1 : UInt8) ≠ 0 by decide)
    (show (List.replicate 128 (0x41 : UInt8)).length ≠ 0 by rw [len]; decide)
    (by rw [len]; decide) (by rw [len]; decide) (fun _ => 0xFF)
  have accepted : (AwsField.deviceId.write ⟨fun _ _ => true, false⟩ .zeroed
      (List.replicate 128 0x41) 128 yaLicenseDeviceIdAddr).run (fun _ => 0xFF) =
      (some (0, List.replicate 128 0x41), m') := by
    rw [AwsField.write, yaWriteCheckAwsParaDeviceId]
    exact writeAwsPara_of_written (len.trans (by decide)) (by decide) written
  rcases usable _ _ (fun _ => .zeroed) _ _ _ _ _ _ _
    (fun _ => Board.zeroed_allocOk) accepted with ⟨buff, read, -⟩
  have refused : ¬ AwsField.deviceId.Readable (fun _ => .zeroed)
      (List.replicate 128 (0x41 : UInt8)).length := by
    rw [len]
    exact fun readable => absurd readable.1 (by decide)
  rw [AwsField.readCheck_refused refused stored (by rw [len]; decide)] at read
  cases read

/-! ## All fields -/

section Init

variable {heap : Heap} {m : ByteMem} {para : AwsPara} {data : AwsField → List UInt8}

/-- Every field has a record that fits its buffer. -/
def LicenceAt (m : ByteMem) (data : AwsField → List UInt8) : Prop :=
  ∀ field : AwsField, RecordAt m field.addr (data field) ∧ (data field).length ≠ 0 ∧
    (data field).length < field.maxLen

/-- A buffer with a field in it. -/
def AwsField.Loaded (field : AwsField) (data : List UInt8) (buff : Option (List UInt8)) : Prop :=
  ∃ block, buff = some block ∧ block.length = field.maxLen ∧
    block.take (data.length + 1) = data ++ [0]

theorem LicenceAt.init (licence : LicenceAt m data) (alloc : heap.AllocOk) (field : AwsField) :
    ∃ buff, (field.init heap none).run m = (some (some buff), m) ∧
      field.Loaded (data field) (some buff) := by
  rcases licence field with ⟨stored, nonempty, fits⟩
  have readable : field.Readable (heap.skip 1) (data field).length := ⟨fits, alloc _ _, alloc _ _⟩
  rcases readable.readsBack stored nonempty with ⟨buff, read, len, text⟩
  rcases Option.isSome_iff_exists.mp (alloc 0 field.maxLen) with ⟨block, found⟩
  refine ⟨buff, ?_, buff, rfl, len, text⟩
  rw [AwsField.init, found]
  dsimp only
  rw [run_bind, read]
  rfl

/-- The fields to come are loaded, the others stay. -/
theorem LicenceAt.initFields (licence : LicenceAt m data) :
    ∀ {fields : List AwsField} {heap : Heap} {para : AwsPara}, heap.AllocOk → fields.Nodup →
      (∀ field ∈ fields, para field = none) →
      ∃ para', (initFields heap para fields).run m = (some (0, para'), m) ∧
        (∀ field ∈ fields, field.Loaded (data field) (para' field)) ∧
        ∀ field ∉ fields, para' field = para field
  | [], heap, para, _, _, _ => ⟨para, rfl, nofun, fun _ _ => rfl⟩
  | field :: fields, heap, para, alloc, distinct, empty => by
    rcases List.nodup_cons.mp distinct with ⟨fresh, distinct⟩
    rcases licence.init alloc field with ⟨buff, read, loaded⟩
    have rest : ∀ other ∈ fields, Function.update para field (some buff) other = none := by
      intro other mem
      have apart : other ≠ field := fun same => fresh (same ▸ mem)
      rw [Function.update_of_ne apart]
      exact empty other (.tail _ mem)
    rcases licence.initFields (fun k => alloc (3 + k)) distinct rest with ⟨para', run, all, same⟩
    refine ⟨para', ?_, ?_, ?_⟩
    · rw [Tr6260.initFields, run_bind, empty field (.head _), read]
      exact run
    · intro other mem
      rcases List.mem_cons.mp mem with rfl | mem
      · rw [same other fresh, Function.update_self]
        exact loaded
      · exact all other mem
    · intro other apart
      rw [List.mem_cons, not_or] at apart
      rw [same other apart.2, Function.update_of_ne apart.1]

/-- At boot all four fields are loaded. -/
theorem yaAwsParaInit_loaded (licence : LicenceAt m data) (alloc : heap.AllocOk) :
    ∃ para, (yaAwsParaInit heap yaAwsParaFree).run m = (some (0, para), m) ∧
      ∀ field : AwsField, field.Loaded (data field) (para field) := by
  have distinct : [AwsField.deviceCert, .rsaPrivateKey, .deviceId, .thingType].Nodup := by decide
  rcases licence.initFields alloc distinct (fun _ _ => rfl) with ⟨para, run, all, -⟩
  refine ⟨para, run, fun field => all field ?_⟩
  cases field <;> decide

end Init

end Tr6260
