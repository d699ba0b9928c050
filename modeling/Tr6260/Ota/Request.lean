import Tr6260.CJson
import Tr6260.FlashRecord
import Tr6260.Ota.Http

/-!
# OTA requests

`ya_parser_url`, `char_to_int`, `ya_ota_require_handle` and
`ya_write_ota_enable_into_flash` of `ya_ota.c`. The handler fills a parameter
record field by field and leaves what it has filled when it gives up, so it is
written over the record: `RequireM` has the record as its state, a return code
as its early exit, and no result at all where the code reads text through a
`NULL`.
-/

namespace Tr6260

open FlashProg

/-- `ya_http_ota_url_para_t`. -/
structure OtaUrlPara where
  httpUrl : Option CString
  httpHost : Option CString
  httpResource : Option CString
  httpPort : UInt16
  retryNum : Int
  retryInterval : Int
  md5 : List UInt8
  otaVer : CString
  otaSize : Nat

/-- The parameters after `memset`. -/
def OtaUrlPara.zero : OtaUrlPara :=
  ⟨none, none, none, 0, 0, 0, List.replicate 16 0, .lit [], 0⟩

/-- `ya_free_http_url_resource`. -/
def OtaUrlPara.freeResource (url : OtaUrlPara) : OtaUrlPara :=
  { url with httpUrl := none, httpHost := none, httpResource := none }

/-! ## The address -/

/-- `ya_parser_url`: host, port and resource. -/
def yaParserUrl (url : List UInt8) : List UInt8 × UInt16 × List UInt8 :=
  let url := match CString.strstr url (CString.ascii ['h', 't', 't', 'p', ':', '/', '/']) with
    | some _ => url.drop 7
    | none => url
  let resource (url : List UInt8) : List UInt8 :=
    match CString.strstr url (CString.ascii ['/']) with
    | some pos => url.drop (pos + 1)
    | none => []
  match CString.strstr url (CString.ascii [':']) with
  | some pos => (url.take pos, toU16 (CString.ofBytes (url.drop (pos + 1))).atoi, resource url)
  | none =>
    match CString.strstr url (CString.ascii ['/']) with
    | some pos => (url.take pos, 80, resource (url.drop pos))
    | none => ([], 80, [])

/-! ## The digest -/

/-- The value of a hexadecimal digit. -/
def hexDigit (c : UInt8) : Option UInt8 :=
  if 0x30 ≤ c ∧ c ≤ 0x39 then some (c - 48)
  else if 0x41 ≤ c ∧ c ≤ 0x46 then some (c - 55)
  else if 0x61 ≤ c ∧ c ≤ 0x66 then some (c - 87)
  else none

/-- `char_to_int` on two characters, with the old value of its target: success, and the
target afterwards. -/
def charToInt (c0 c1 value : UInt8) : Bool × UInt8 :=
  match hexDigit c0 with
  | none => (false, value)
  | some high =>
    match hexDigit c1 with
    | none => (false, high <<< 4)
    | some low => (true, high <<< 4 + low)

/-- The loop over the sixteen bytes of `md5sum`. -/
def parseMd5 (text : List UInt8) : (left index : Nat) → List UInt8 → Bool × List UInt8
  | 0, _, md5 => (true, md5)
  | left + 1, index, md5 =>
    match charToInt (text.getD (2 * index) 0) (text.getD (2 * index + 1) 0) (md5.getD index 0) with
    | (true, value) => parseMd5 text left (index + 1) (md5.set index value)
    | (false, value) => (false, md5.set index value)

/-! ## The handler -/

/-- `ya_ota_type_t`. -/
inductive OtaType
  | wifi
  | mcu
  deriving DecidableEq

def cOk : Int := 0
def cError : Int := -1
def yaHttpSuccess : Int := 100

/-- `VERSION_LEN`. -/
def versionLen : Nat := 32

/-- `YA_MAX_MCU_VERSION_LEN`. -/
def yaMaxMcuVersionLen : Nat := 64

/-- A message from the queue and what the surroundings contribute to its handling. -/
structure OtaRequest where
  /-- The tree `cJSON_Parse` returns. -/
  root : Option CJson
  /-- Whether the blocks for URL, host and resource can be allocated. -/
  alloc : Bool × Bool × Bool
  /-- `ya_check_enter_ota_test_mode`. -/
  testMode : Bool
  /-- The flash layer for the OTA flag. -/
  board : Board

/-- The handler's steps over the parameter record. -/
abbrev RequireM := ExceptT Int (StateT OtaUrlPara Option)

/-- Text used through a `NULL` pointer. -/
def requireFault {α : Type} : RequireM α := ExceptT.mk fun _ => none

/-- A member that must be there. -/
def memberItem (object : CJson) (name : List UInt8) : RequireM CJson :=
  match object.getObjectItem name with
  | none => throw cError
  | some value => pure value

/-- The text of a member that must be there. -/
def memberText (object : CJson) (name : List UInt8) : RequireM CString := do
  match (← memberItem object name).valuestring with
  | none => requireFault
  | some s => pure s

/-- The version test for the module's own firmware: the same text up to the last three
characters, which are digits and not a smaller number. -/
def checkWifiVersion (curVersion version : CString) (testMode : Bool) : RequireM Unit := do
  if version.strlen > versionLen ∨ version.strlen < 4 then
    throw cError
  modify fun url => { url with otaVer := version }
  -- `strlen (cur_version) - 3` as the size of a comparison
  if curVersion.strlen < 3 then
    requireFault
  let front := curVersion.strlen - 3
  let padded := version.1 ++ List.replicate (yaMaxMcuVersionLen + 1 - version.strlen) 0
  if padded.take front ≠ curVersion.1.take front then
    throw cError
  let verPre := padded.drop front
  let curPre := curVersion.1.drop front
  if (verPre.take 3).any (fun c => !CString.isDigit c) ∨
      (curPre.take 3).any (fun c => !CString.isDigit c) then
    throw cError
  if testMode = false then
    let newVer := (CString.ofBytes verPre).atoi
    let curVer := (CString.ofBytes curPre).atoi
    if newVer < curVer then
      throw cError
    else if newVer = curVer then
      throw yaHttpSuccess

/-- The version test for the firmware of the controller. -/
def checkMcuVersion (version : CString) : RequireM Unit := do
  if version.strlen > yaMaxMcuVersionLen then
    throw cError
  modify fun url => { url with otaVer := version }

/-- The three blocks for the address, and the address taken apart. -/
def takeUrl (text : CString) (alloc : Bool × Bool × Bool) : RequireM Unit := do
  if alloc.1 = false then
    throw cError
  modify fun url => { url with httpUrl := some text }
  if alloc.2.1 = false then
    throw cError
  modify fun url => { url with httpHost := some (.lit []) }
  if alloc.2.2 = false then
    throw cError
  let (host, port, resource) := yaParserUrl text.1
  modify fun url => { url with
    httpHost := some (.ofBytes host), httpPort := port, httpResource := some (.ofBytes resource) }

/-- The sixteen bytes of the digest. -/
def takeMd5 (text : CString) : RequireM Unit := do
  if text.strlen < 32 then
    throw cError
  let (passed, md5) := parseMd5 text.1 16 0 (← get).md5
  modify fun url => { url with md5 }
  if passed = false then
    throw cError

/-- The waiting time between two attempts, in milliseconds. -/
def retryInterval (minutes : Int) : Int :=
  if minutes ≤ 0 then 5 * 1000 else toI32 (toU32 (minutes * 60 * 1000))

/-- The body of `ya_ota_require_handle`. -/
def requireBody (otaType : OtaType) (curVersion : CString) (request : OtaRequest) :
    RequireM Unit := do
  match request.root with
  | none => throw cError
  | some root =>
    let cmd ← memberItem root (CString.ascii ['d', 'a', 't', 'a'])
    let size ← memberText cmd (CString.ascii ['s', 'i', 'z', 'e'])
    modify fun url => { url with otaSize := toU32 size.atoi }
    let version ← memberText cmd (CString.ascii ['v', 'e', 'r', 's', 'i', 'o', 'n'])
    match otaType with
    | .wifi => checkWifiVersion curVersion version request.testMode
    | .mcu => checkMcuVersion version
    let text ← memberText cmd (CString.ascii ['u', 'r', 'l'])
    takeUrl text request.alloc
    let md5sum ← memberText cmd (CString.ascii ['m', 'd', '5', 's', 'u', 'm'])
    takeMd5 md5sum
    let times ← memberText cmd
      (CString.ascii ['f', 'a', 'i', 'l', 'R', 'e', 't', 'r', 'y', 'T', 'i', 'm', 'e', 's'])
    modify fun url => { url with retryNum := times.atoi }
    let interval ← memberText cmd (CString.ascii
      ['f', 'a', 'i', 'l', 'R', 'e', 't', 'r', 'y', 'I', 'n', 't', 'e', 'r', 'n', 'a', 'l'])
    modify fun url => { url with retryInterval := retryInterval interval.atoi }

/-- `ya_ota_require_handle`: return code and parameters. -/
def yaOtaRequireHandle (otaType : OtaType) (curVersion : CString) (request : OtaRequest)
    (url : OtaUrlPara) : Option (Int × OtaUrlPara) :=
  match (requireBody otaType curVersion request).run.run url with
  | none => none
  | some (.ok _, url) => some (cOk, url)
  | some (.error code, url) => some (code, url)

/-! ## The flag for the next start -/

/-- `YA_OTA_DATA_ADDR`. -/
def yaOtaDataAddr : Nat := 0xB4000

/-- `ya_write_ota_enable_into_flash`. -/
def yaWriteOtaEnableIntoFlash (board : Board) (url : OtaUrlPara) : FlashProg (Option Int) :=
  yaWriteFlash board yaOtaDataAddr
    ([1] ++ url.otaVer.1 ++ List.replicate (63 - url.otaVer.strlen) 0) 1

end Tr6260
