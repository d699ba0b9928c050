import Tr6260.Ota.Body
import Tr6260.Ota.Request

/-!
# The two download machines

`ya_wifi_ota_download`, `ya_mcu_ota_download` and the loop `ya_http_ota_app`
that runs one step of each and then looks at its queue. The machines are alike
and keep their parameters apart; the running MD5 belongs to the first one, and
both use the one writer `g_otaInfo`.

What a step meets outside (memory, the connection, bytes on the socket, time)
is its input. A step without a next state is one after which the device does
not go on: it used a `NULL` pointer, hangs in the checksum loop, or was reset.
Progress reports to the cloud are left out.
-/

namespace Tr6260

open FlashProg ByteMem

/-- `ya_http_ota_status_t`. -/
inductive OtaStatus
  | httpStart
  | parseHttpUrl
  | httpConnect
  | httpSendGet
  | httpHeaderHandle
  | preFileHandle
  | earseFlash
  | httpBodyHandle
  | httpChecksum
  | errorHandle
  | httpRetryWait
  | waitToReboot
  | httpIdle
  | notifyMcu
  deriving DecidableEq, Repr

def yaCheckFileFailed : Int := -3
def yaDownloadFileFailed : Int := -2

/-- `ya_module_ota_para_t`. -/
structure OtaModulePara where
  httpState : OtaStatus
  otaBuffer : Option ByteMem
  otaServerSocket : Int
  erorCode : Int
  count : Nat

/-- One machine with its request, response and file parameters. -/
structure OtaModule where
  para : OtaModulePara
  url : OtaUrlPara
  response : HttpResponseResult
  file : HttpFilePara

/-- A machine at the start of `ya_http_ota_app`. -/
def OtaModule.initial : OtaModule where
  para := ⟨.httpStart, none, -1, 0, 0⟩
  url := .zero
  response := .zero
  file := .zero

/-- What does not change while the application runs. -/
structure OtaEnv where
  md5 : Md5
  crc32 : List UInt8 → Nat
  part : OtaPartition
  /-- The flash has 24-bit addresses. -/
  partInFlash : ∀ addr len, part = some (addr, len) → addr + len ≤ 2 ^ 24
  /-- `ya_get_ver_string`. -/
  curVersion : CString
  /-- `ya_get_mcu_ver_string`. -/
  mcuVersion : CString
  /-- `ya_mcu_ota_download_addr`. -/
  mcuFileAddr : Nat

/-- The state of the application. -/
structure OtaApp (md5 : Md5) where
  wifi : OtaModule
  mcu : OtaModule
  md5Stat : Md5Stat md5
  checkMd5Result : Int
  hal : OtaOperateInfo

/-- The state when `ya_http_ota_app` enters its loop. -/
def OtaApp.initial (md5 : Md5) : OtaApp md5 where
  wifi := .initial
  mcu := .initial
  md5Stat := ⟨false, false, md5.freed, 0⟩
  checkMd5Result := 0
  hal := .zero

/-- What a step meets outside. -/
structure StepInput where
  /-- A new download buffer, with the memory around it. -/
  bufferAlloc : Option ByteMem
  /-- The socket `ya_http_connect_server` returns. -/
  connect : Option Nat
  /-- Memory for the text of the request. -/
  requestAlloc : Bool
  /-- Whether `write` succeeds. -/
  sent : Bool
  /-- The bytes on the socket, or an error. -/
  incoming : Option (List UInt8)
  /-- The retry timer has expired. -/
  expired : Bool

/-- `read (socket, .., n)`. -/
def StepInput.read (input : StepInput) (socket : Int) (n : Nat) : Option (List UInt8) :=
  if socket < 0 then none else input.incoming.map (List.take n)

namespace OtaModule

def setState (mod : OtaModule) (state : OtaStatus) : OtaModule :=
  { mod with para := { mod.para with httpState := state } }

/-- `close`, when a socket is open. -/
def closeSocket (mod : OtaModule) : OtaModule :=
  { mod with para := { mod.para with otaServerSocket := if mod.para.otaServerSocket ≥ 0 then -1
      else mod.para.otaServerSocket } }

/-- `YA_HTTP_START`. -/
def startStep (mod : OtaModule) (input : StepInput) : OtaModule :=
  if mod.url.httpHost = none ∨ mod.url.httpResource = none then
    mod.setState .httpIdle
  else
    match mod.para.otaBuffer <|> input.bufferAlloc with
    | none => mod.setState .httpIdle
    | some buffer =>
      { mod.closeSocket with
        para := { mod.closeSocket.para with otaBuffer := some buffer, httpState := .httpConnect } }

/-- `YA_HTTP_CONNECT`. -/
def connectStep (mod : OtaModule) (input : StepInput) : OtaModule :=
  { mod with
    response := .zero
    para := { mod.para with
      erorCode := yaDownloadFileFailed
      otaServerSocket := match input.connect with
        | some socket => socket
        | none => -1
      httpState := match input.connect with
        | some _ => .httpSendGet
        | none => .errorHandle } }

/-- `YA_HTTP_SEND_GET`. -/
def sendGetStep (mod : OtaModule) (input : StepInput) : Option OtaModule :=
  match mod.url.httpHost, mod.url.httpResource with
  | some _, some _ =>
    if input.requestAlloc = false then
      none
    else if mod.para.otaServerSocket < 0 ∨ input.sent = false then
      some (mod.setState .errorHandle)
    else
      match mod.para.otaBuffer with
      | none => none
      | some buffer =>
        some { mod with para := { mod.para with
          otaBuffer := some (buffer.store otaBuf (List.replicate httpBufSize 0))
          httpState := .httpHeaderHandle } }
  | _, _ => none

/-- `YA_ERROR_HANDLE`. -/
def errorStep (mod : OtaModule) : OtaModule :=
  let mod := mod.closeSocket
  let mod := { mod with para := { mod.para with otaBuffer := none } }
  if mod.para.count < toU32 mod.url.retryNum then
    { mod with para := { mod.para with
        count := u32 (mod.para.count + 1), httpState := .httpRetryWait } }
  else
    { mod.setState .httpIdle with url := mod.url.freeResource }

/-- `YA_HTTP_RETRY_WAIT`. -/
def retryStep (mod : OtaModule) (input : StepInput) : OtaModule :=
  if input.expired then mod.setState .httpStart else mod

/-- The common body of `ya_wifi_ota_init` and `ya_mcu_ota_init`. -/
def otaInit (mod : OtaModule) : OtaModule :=
  { mod.closeSocket with
    url := .zero
    para := { mod.closeSocket.para with count := 0 } }

/-- The file parameters at the end of the header. -/
def filePara (mod : OtaModule) : HttpFilePara :=
  { HttpFilePara.zero with
    bodyFileHeaderEnbable := true
    bodyReadLen := toI32 mod.response.bodyReadLen
    fileLen := mod.response.bodyLen
    headerLen := mod.response.headerLen }

/-- A header read into the buffer, the same for both machines: return code, machine. -/
def headerRead (mod : OtaModule) (input : StepInput) : Option (Int × OtaModule) :=
  match mod.para.otaBuffer with
  | none => none
  | some buffer =>
    match yaHttpHeaderHandle mod.response (input.read mod.para.otaServerSocket) buffer with
    | none => none
    | some (ret, response, buffer) =>
      some (ret, { mod with response, para := { mod.para with otaBuffer := some buffer } })

end OtaModule

/-! ## WiFi -/

section Wifi

variable (env : OtaEnv)

/-- The bytes `update_ota_buffer_md5` is called on. -/
def md5Bytes (mod : OtaModule) (pos : Nat) (len : Int) : List UInt8 :=
  match mod.para.otaBuffer with
  | none => []
  | some buffer => buffer.load pos len.toNat

/-- `YA_HTTP_HEADER_HANDLE` of `ya_wifi_ota_download`. -/
def wifiHeaderStep (input : StepInput) (app : OtaApp env.md5) : Option (OtaApp env.md5) :=
  match app.wifi.headerRead input with
  | none => none
  | some (ret, wifi) =>
    if ret < 0 then
      some { app with wifi := wifi.setState .errorHandle }
    else if ret > 0 then
      if wifi.response.bodyLen ≠ wifi.url.otaSize then
        some { app with wifi := wifi.setState .errorHandle }
      else
        let file := wifi.filePara
        let (check, md5Stat) := updateOtaBufferMd5 app.md5Stat wifi.response.bodyLen wifi.url.md5
          (md5Bytes wifi (otaBuf + file.headerLen) file.bodyReadLen) file.bodyReadLen
        some { app with
          wifi := { wifi.setState .preFileHandle with file }
          md5Stat
          checkMd5Result := check }
    else
      some { app with wifi }

/-- `YA_EARSE_FLASH` of `ya_wifi_ota_download`. -/
def wifiEarseStep (app : OtaApp env.md5) : FlashProg (OtaApp env.md5) := do
  let (ret, hal) ← yaHttpOtaSectorErase env.part
  return { app with
    hal
    wifi := app.wifi.setState (if ret ≠ 0 then .errorHandle else .httpBodyHandle) }

/-- `YA_HTTP_BODY_HANDLE` of `ya_wifi_ota_download`. -/
def wifiBodyStep (input : StepInput) (app : OtaApp env.md5) :
    FlashProg (Option (OtaApp env.md5)) :=
  match app.wifi.para.otaBuffer with
  | none => return none
  | some buffer => do
    match ← yaHttpBodyHandle app.wifi.file (input.read app.wifi.para.otaServerSocket) buffer
        app.hal with
    | none => return none
    | some ⟨ret, file, buffer, hal⟩ =>
      let wifi := { app.wifi with
        file, para := { app.wifi.para with otaBuffer := some buffer } }
      if ret < 0 then
        return some { app with hal, wifi := wifi.setState .errorHandle }
      else if ret > 0 then
        return some { app with
          hal
          wifi := wifi.setState
            (if app.checkMd5Result = 1 then .httpChecksum else .errorHandle) }
      else
        let (check, md5Stat) := updateOtaBufferMd5 app.md5Stat wifi.response.bodyLen wifi.url.md5
          (md5Bytes wifi otaBuf file.bodyReadLen) file.bodyReadLen
        return some { app with hal, wifi, md5Stat, checkMd5Result := check }

/-- `YA_HTTP_CHECKSUM` of `ya_wifi_ota_download`. -/
def wifiChecksumStep (app : OtaApp env.md5) : FlashProg (Option (OtaApp env.md5)) := do
  match ← yaVerifyOtaChecksum env.md5 app.hal app.wifi.file.fileLen app.wifi.url.md5 with
  | none => return none
  | some ret =>
    if ret ≠ 0 then
      return some { app with wifi := { app.wifi with para := { app.wifi.para with
        erorCode := yaCheckFileFailed, httpState := .errorHandle } } }
    else
      return some { app with wifi := app.wifi.setState .waitToReboot }

/-- `ya_wifi_ota_download`. -/
def yaWifiOtaDownload (input : StepInput) (app : OtaApp env.md5) :
    FlashProg (Option (OtaApp env.md5)) :=
  match app.wifi.para.httpState with
  | .httpStart => return some { app with wifi := app.wifi.startStep input }
  | .httpConnect =>
    return some { app with
      wifi := app.wifi.connectStep input
      md5Stat := { app.md5Stat with reset := true } }
  | .httpSendGet => return (app.wifi.sendGetStep input).map fun wifi => { app with wifi }
  | .httpHeaderHandle => return wifiHeaderStep env input app
  -- `ya_http_prefile_header_handle` returns 1
  | .preFileHandle => return some { app with wifi := app.wifi.setState .earseFlash }
  | .earseFlash => do return some (← wifiEarseStep env app)
  | .httpBodyHandle => wifiBodyStep env input app
  | .httpChecksum => wifiChecksumStep env app
  | .errorHandle =>
    return some { app with
      wifi := app.wifi.errorStep
      md5Stat := { app.md5Stat with reset := true } }
  | .httpRetryWait => return some { app with wifi := app.wifi.retryStep input }
  | .waitToReboot => do
    otaHalDone env.crc32 app.hal
    return none
  | .httpIdle | .parseHttpUrl | .notifyMcu => return some app

/-- `ya_wifi_ota_init`. -/
def yaWifiOtaInit (wifi : OtaModule) : OtaModule := wifi.otaInit

/-- The branch `YA_WIFI_OTA_REQUIRE` of `ya_http_ota_app`. -/
def wifiRequire (request : OtaRequest) (app : OtaApp env.md5) :
    FlashProg (Option (OtaApp env.md5)) :=
  let wifi := yaWifiOtaInit app.wifi
  match yaOtaRequireHandle .wifi env.curVersion request wifi.url with
  | none => return none
  | some (ret, url) =>
    if ret < 0 ∨ ret = yaHttpSuccess then
      return some { app with wifi := { wifi with url := url.freeResource } }
    else do
      match ← yaWriteOtaEnableIntoFlash request.board url with
      | none => return none
      | some ret =>
        if ret ≠ 0 then
          return some { app with wifi := { wifi with url } }
        else
          return some { app with wifi := { wifi with url }.setState .httpStart }

end Wifi

/-! ## MCU -/

section Mcu

variable (env : OtaEnv)

/-- `YA_HTTP_HEADER_HANDLE` of `ya_mcu_ota_download`. -/
def mcuHeaderStep (input : StepInput) (app : OtaApp env.md5) : Option (OtaApp env.md5) :=
  match app.mcu.headerRead input with
  | none => none
  | some (ret, mcu) =>
    if ret < 0 then
      some { app with mcu := mcu.setState .errorHandle }
    else if ret > 0 then
      if mcu.response.bodyLen ≠ mcu.url.otaSize then
        some { app with mcu := mcu.setState .errorHandle }
      else
        some { app with mcu := { mcu.setState .earseFlash with file := mcu.filePara } }
    else
      some { app with mcu }

/-- `YA_EARSE_FLASH` of `ya_mcu_ota_download`. -/
def mcuEarseStep (app : OtaApp env.md5) : FlashProg (OtaApp env.md5) := do
  let (ret, hal) ← yaHttpOtaSectorErase env.part
  return { app with
    hal
    mcu := app.mcu.setState (if ret ≠ 0 then .errorHandle else .httpBodyHandle) }

/-- `YA_HTTP_BODY_HANDLE` of `ya_mcu_ota_download`. -/
def mcuBodyStep (input : StepInput) (app : OtaApp env.md5) :
    FlashProg (Option (OtaApp env.md5)) :=
  match app.mcu.para.otaBuffer with
  | none => return none
  | some buffer => do
    match ← yaHttpBodyHandle app.mcu.file (input.read app.mcu.para.otaServerSocket) buffer
        app.hal with
    | none => return none
    | some ⟨ret, file, buffer, hal⟩ =>
      let mcu := { app.mcu with file, para := { app.mcu.para with otaBuffer := some buffer } }
      if ret < 0 then
        return some { app with hal, mcu := mcu.setState .errorHandle }
      else if ret > 0 then
        return some { app with hal, mcu := mcu.setState .httpChecksum }
      else
        return some { app with hal, mcu }

/-- `YA_HTTP_CHECKSUM` of `ya_mcu_ota_download`. -/
def mcuChecksumStep (app : OtaApp env.md5) : FlashProg (Option (OtaApp env.md5)) := do
  match ← yaVerifyMcuFileChecksum env.md5 env.mcuFileAddr app.mcu.file.fileLen app.mcu.url.md5 with
  | none => return none
  | some ret =>
    if ret ≠ 0 then
      return some { app with mcu := { app.mcu with para := { app.mcu.para with
        erorCode := yaCheckFileFailed, httpState := .errorHandle } } }
    else
      return some { app with mcu := app.mcu.setState .notifyMcu }

/-- `YA_NOTIFY_MCU`. -/
def mcuNotifyStep (mcu : OtaModule) : OtaModule :=
  { mcu.closeSocket with
    url := mcu.url.freeResource
    para := { mcu.closeSocket.para with otaBuffer := none, httpState := .httpIdle } }

/-- `ya_mcu_ota_download`. -/
def yaMcuOtaDownload (input : StepInput) (app : OtaApp env.md5) :
    FlashProg (Option (OtaApp env.md5)) :=
  match app.mcu.para.httpState with
  | .httpStart => return some { app with mcu := app.mcu.startStep input }
  | .httpConnect => return some { app with mcu := app.mcu.connectStep input }
  | .httpSendGet => return (app.mcu.sendGetStep input).map fun mcu => { app with mcu }
  | .httpHeaderHandle => return mcuHeaderStep env input app
  | .earseFlash => do return some (← mcuEarseStep env app)
  | .httpBodyHandle => mcuBodyStep env input app
  | .httpChecksum => mcuChecksumStep env app
  | .errorHandle => return some { app with mcu := app.mcu.errorStep }
  | .httpRetryWait => return some { app with mcu := app.mcu.retryStep input }
  | .notifyMcu => return some { app with mcu := mcuNotifyStep app.mcu }
  | .httpIdle | .parseHttpUrl | .preFileHandle | .waitToReboot => return some app

/-- `ya_mcu_ota_init`. -/
def yaMcuOtaInit (mcu : OtaModule) : OtaModule := mcu.otaInit

/-- The branch `YA_MCU_OTA_REQUIRE` of `ya_http_ota_app`. -/
def mcuRequire (request : OtaRequest) (app : OtaApp env.md5) : Option (OtaApp env.md5) :=
  let mcu := yaMcuOtaInit app.mcu
  match yaOtaRequireHandle .mcu env.mcuVersion request mcu.url with
  | none => none
  | some (ret, url) =>
    if ret < 0 ∨ ret = yaHttpSuccess then
      some { app with mcu := { mcu with url := url.freeResource } }
    else
      some { app with mcu := { mcu with url }.setState .httpStart }

end Mcu

/-! ## The loop -/

/-- What the loop of `ya_http_ota_app` does in turn. -/
inductive OtaEvent
  | wifi (input : StepInput)
  | mcu (input : StepInput)
  | wifiRequest (request : OtaRequest)
  | mcuRequest (request : OtaRequest)

/-- One action of the loop. -/
def otaStep (env : OtaEnv) (app : OtaApp env.md5) : OtaEvent → FlashProg (Option (OtaApp env.md5))
  | .wifi input => yaWifiOtaDownload env input app
  | .mcu input => yaMcuOtaDownload env input app
  | .wifiRequest request => wifiRequire env request app
  | .mcuRequest request => return mcuRequire env request app

end Tr6260
