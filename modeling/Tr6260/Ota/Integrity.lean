import Tr6260.Ota.Run
import Tr6260.Ota.Writer

/-!
# What a WiFi image has passed before the reboot

The request, the running MD5, its stored result and the lengths are globals
that different states write. `OtaTrace.Sound` is what holds between them in
every state of every run: parameters with an address belong to the last
accepted request, an open socket means that no request came in between, and a
stored result of `1` was computed over all the bytes received.

A request that does not start a new download still replaces `md5` and
`ota_size`. That goes unnoticed when everything has been received already, so
the runs here are those in which such a request brings the same values
(`OtaTrace.Keeps`).
-/

namespace Tr6260

open FlashProg ByteMem

/-- The states behind the request for the file. -/
def OtaStatus.online : OtaStatus → Bool
  | .httpHeaderHandle | .preFileHandle | .earseFlash | .httpBodyHandle => true
  | _ => false

/-- The states between header and checksum. -/
def OtaStatus.receiving : OtaStatus → Bool
  | .preFileHandle | .earseFlash | .httpBodyHandle => true
  | _ => false

/-- The states in which nothing is known but the request. -/
def OtaStatus.quiet : OtaStatus → Bool
  | .httpSendGet | .httpChecksum => false
  | state => !state.online

namespace OtaTrace

variable {env : OtaEnv}

/-! ## The property and the runs -/

/-- What the image has passed: the bytes received have the digest of the last accepted request,
`Content-Length` is its size, and so many bytes in flash have the same digest. -/
def Passed (t : OtaTrace env) : Prop :=
  ∃ md5 size, t.accepted = some (md5, size) ∧
    env.md5.digest t.received = md5 ∧
    t.app.wifi.response.bodyLen = size ∧
    env.md5.digest (t.flash.load t.app.hal.sAddr size) = md5

/-- The request starts a new download: it is accepted, and the flag for the next start can be
written. -/
def Starts (t : OtaTrace env) (request : OtaRequest) (ret : Int) (url : OtaUrlPara) : Prop :=
  ¬ (ret < 0 ∨ ret = yaHttpSuccess) ∧
    ((yaWriteOtaEnableIntoFlash request.board url).run t.flash).1 = some 0

/-- A request that does not start a new download, and comes in after the whole file has been
received and found right, brings the `md5sum` in use, and if it is accepted the size too. -/
def Keeps (t : OtaTrace env) : OtaEvent → Prop
  | .wifiRequest request =>
    (t.status.receiving = true ∨ t.status = .httpChecksum) → t.app.checkMd5Result = 1 →
      ∀ ret url, yaOtaRequireHandle .wifi env.curVersion request .zero = some (ret, url) →
        ¬ t.Starts request ret url →
        url.md5 = t.app.wifi.url.md5 ∧
          (¬ (ret < 0 ∨ ret = yaHttpSuccess) → url.otaSize = t.app.wifi.response.bodyLen)
  | _ => True

/-- The states of the runs in which every request keeps the values in use. -/
inductive Reached : OtaTrace env → Prop
  | initial (flash : ByteMem) : Reached (.initial flash)
  | next {t t' : OtaTrace env} {event : OtaEvent} (before : Reached t) (keeps : t.Keeps event)
      (moved : t.next event = some t') : Reached t'

/-! ## The invariant -/

/-- The stored result stands for the bytes received and the last accepted request. -/
def Verified (t : OtaTrace env) : Prop :=
  t.accepted = some (t.app.wifi.url.md5, t.app.wifi.response.bodyLen) ∧
    env.md5.digest t.received = t.app.wifi.url.md5

/-- Between header and checksum: the MD5 context has seen what was received, and counts as far
as the file position with the bytes in the buffer. -/
structure Receiving (t : OtaTrace env) : Prop where
  enabled : t.app.wifi.file.bodyFileHeaderEnbable = true
  curPos : t.app.wifi.file.bodyCurPos < 2 ^ 32
  fileLen : t.app.wifi.file.fileLen = t.app.wifi.response.bodyLen
  size : 0 ≤ t.app.wifi.para.otaServerSocket →
    t.app.wifi.response.bodyLen = t.app.wifi.url.otaSize
  running : t.app.md5Stat.reset = false ∧ t.app.md5Stat.initFlag = true
  counted : t.app.md5Stat.totalLen = t.app.wifi.file.reached
  hashed : t.app.md5Stat.totalLen < t.app.wifi.response.bodyLen →
    t.app.checkMd5Result ≠ 1 ∧
      t.app.md5Stat.ctx = env.md5.update env.md5.starts t.received
  verified : t.app.checkMd5Result = 1 → t.Verified

/-- The invariant of the runs. -/
structure Sound (t : OtaTrace env) : Prop where
  inFlash : t.app.hal.InFlash
  asked : t.app.wifi.url.httpHost.isSome = true →
    t.accepted = some (t.app.wifi.url.md5, t.app.wifi.url.otaSize)
  parsing : t.status = .httpSendGet ∨ t.status = .httpHeaderHandle →
    t.app.wifi.response.parseStatus ≤ 3 ∧ t.app.md5Stat.reset = true
  online : t.status.online = true → 0 ≤ t.app.wifi.para.otaServerSocket →
    t.app.wifi.url.httpHost.isSome = true
  receiving : t.status.receiving = true → t.Receiving
  checked : t.status = .httpChecksum →
    t.app.wifi.file.fileLen = t.app.wifi.response.bodyLen ∧ t.Verified ∧ t.app.checkMd5Result = 1

/-- `Receiving` does not look at the state, the writer and the flash. -/
theorem Receiving.setState {t : OtaTrace env} (before : t.Receiving) (state : OtaStatus)
    (hal : OtaOperateInfo) (flash : ByteMem) :
    Receiving ⟨{ t.app with hal, wifi := t.app.wifi.setState state }, flash, t.received,
      t.accepted⟩ :=
  ⟨before.enabled, before.curPos, before.fileLen, before.size, before.running, before.counted,
    before.hashed, before.verified⟩

theorem Sound.of_quiet {t : OtaTrace env} (quiet : t.status.quiet = true)
    (inFlash : t.app.hal.InFlash)
    (asked : t.app.wifi.url.httpHost.isSome = true →
      t.accepted = some (t.app.wifi.url.md5, t.app.wifi.url.otaSize)) : t.Sound where
  inFlash := inFlash
  asked := asked
  parsing := fun at_ => by rcases at_ with state | state <;> rw [state] at quiet <;> cases quiet
  online := fun at_ => by
    cases state : t.status <;> rw [state] at quiet at_ <;> cases quiet <;> cases at_
  receiving := fun at_ => by
    cases state : t.status <;> rw [state] at quiet at_ <;> cases quiet <;> cases at_
  checked := fun at_ => by rw [at_] at quiet; cases quiet

theorem Sound.of_parsing {t : OtaTrace env} (idle : t.status.receiving = false)
    (unchecked : t.status ≠ .httpChecksum) (inFlash : t.app.hal.InFlash)
    (asked : t.app.wifi.url.httpHost.isSome = true →
      t.accepted = some (t.app.wifi.url.md5, t.app.wifi.url.otaSize))
    (parsing : t.app.wifi.response.parseStatus ≤ 3 ∧ t.app.md5Stat.reset = true)
    (online : t.status.online = true → 0 ≤ t.app.wifi.para.otaServerSocket →
      t.app.wifi.url.httpHost.isSome = true) : t.Sound where
  inFlash := inFlash
  asked := asked
  parsing := fun _ => parsing
  online := online
  receiving := fun at_ => by rw [idle] at at_; cases at_
  checked := fun at_ => absurd at_ unchecked

theorem Sound.of_receiving {t : OtaTrace env} (at_ : t.status.receiving = true)
    (inFlash : t.app.hal.InFlash)
    (asked : t.app.wifi.url.httpHost.isSome = true →
      t.accepted = some (t.app.wifi.url.md5, t.app.wifi.url.otaSize))
    (online : 0 ≤ t.app.wifi.para.otaServerSocket → t.app.wifi.url.httpHost.isSome = true)
    (receiving : t.Receiving) : t.Sound where
  inFlash := inFlash
  asked := asked
  parsing := fun state => by rcases state with state | state <;> rw [state] at at_ <;> cases at_
  online := fun _ => online
  receiving := fun _ => receiving
  checked := fun state => by rw [state] at at_; cases at_

theorem Sound.of_checked {t : OtaTrace env} (at_ : t.status = .httpChecksum)
    (inFlash : t.app.hal.InFlash)
    (asked : t.app.wifi.url.httpHost.isSome = true →
      t.accepted = some (t.app.wifi.url.md5, t.app.wifi.url.otaSize))
    (checked : t.app.wifi.file.fileLen = t.app.wifi.response.bodyLen ∧ t.Verified ∧
      t.app.checkMd5Result = 1) : t.Sound where
  inFlash := inFlash
  asked := asked
  parsing := fun state => by rcases state with state | state <;> rw [state] at at_ <;> cases at_
  online := fun state => by rw [at_] at state; cases state
  receiving := fun state => by rw [at_] at state; cases state
  checked := fun _ => checked

theorem sound_initial (flash : ByteMem) : (initial flash : OtaTrace env).Sound :=
  .of_quiet rfl (Nat.zero_le _) fun host => by cases host

/-! ## The controller's machine -/

/-- The invariant looks at the WiFi machine, its MD5 and the records. -/
theorem Sound.of_sameWifi {t t' : OtaTrace env} (sound : t.Sound) (same : t.app.SameWifi t'.app)
    (received : t'.received = t.received) (accepted : t'.accepted = t.accepted)
    (inFlash : t'.app.hal.InFlash) : t'.Sound := by
  obtain ⟨⟨wifi, mcu, md5Stat, check, hal⟩, flash, bytes, request⟩ := t
  obtain ⟨⟨wifi', mcu', md5Stat', check', hal'⟩, flash', bytes', request'⟩ := t'
  obtain ⟨rfl, rfl, rfl⟩ := same
  cases received
  cases accepted
  exact ⟨inFlash, sound.asked, sound.parsing, sound.online,
    fun at_ => ⟨(sound.receiving at_).enabled, (sound.receiving at_).curPos,
      (sound.receiving at_).fileLen, (sound.receiving at_).size, (sound.receiving at_).running,
      (sound.receiving at_).counted, (sound.receiving at_).hashed, (sound.receiving at_).verified⟩,
    sound.checked⟩

theorem sound_mcu {t : OtaTrace env} (sound : t.Sound) {input : StepInput} {app : OtaApp env.md5}
    {flash : ByteMem} (ran : (yaMcuOtaDownload env input t.app).run t.flash = (some app, flash)) :
    (t.record (.mcu input) app flash).Sound := by
  rcases yaMcuOtaDownload_cases ran with ⟨⟨mcu, rfl⟩, -⟩ | ⟨-, mcu, rfl, -⟩ |
    ⟨-, mcu, buffer, result, -, handled, rfl⟩
  · exact sound.of_sameWifi ⟨rfl, rfl, rfl⟩ rfl rfl sound.inFlash
  · exact sound.of_sameWifi ⟨rfl, rfl, rfl⟩ rfl rfl (otaHalInit_inFlash env.partInFlash _)
  · exact sound.of_sameWifi ⟨rfl, rfl, rfl⟩ rfl rfl (yaHttpBodyHandle_inFlash sound.inFlash handled)

theorem sound_mcuRequest {t : OtaTrace env} (sound : t.Sound) {request : OtaRequest}
    {app : OtaApp env.md5} (moved : mcuRequire env request t.app = some app) :
    (t.record (.mcuRequest request) app t.flash).Sound := by
  obtain ⟨mcu, rfl⟩ := mcuRequire_eq moved
  exact sound.of_sameWifi ⟨rfl, rfl, rfl⟩ rfl rfl sound.inFlash

/-! ## Requests -/

/-- Closing the socket leaves none open. -/
theorem otaInit_socket (wifi : OtaModule) : ¬ 0 ≤ wifi.otaInit.para.otaServerSocket := by
  change ¬ 0 ≤ (if wifi.para.otaServerSocket ≥ 0 then -1 else wifi.para.otaServerSocket)
  split <;> omega

theorem acceptedBy_refused {t : OtaTrace env} {request : OtaRequest} {ret : Int} {url : OtaUrlPara}
    (handled : yaOtaRequireHandle .wifi env.curVersion request .zero = some (ret, url))
    (refused : ret < 0 ∨ ret = yaHttpSuccess) : t.acceptedBy request = t.accepted := by
  rw [acceptedBy, handled]
  exact if_pos refused

theorem acceptedBy_taken {t : OtaTrace env} {request : OtaRequest} {ret : Int} {url : OtaUrlPara}
    (handled : yaOtaRequireHandle .wifi env.curVersion request .zero = some (ret, url))
    (taken : ¬ (ret < 0 ∨ ret = yaHttpSuccess)) :
    t.acceptedBy request = some (url.md5, url.otaSize) := by
  rw [acceptedBy, handled]
  exact if_neg taken

/-- New parameters under a machine whose socket is closed. -/
theorem Sound.withUrl {t : OtaTrace env} (sound : t.Sound) {url : OtaUrlPara}
    {accepted : Option (List UInt8 × Nat)} (flash : ByteMem)
    (asked : url.httpHost.isSome = true → accepted = some (url.md5, url.otaSize))
    (verified : (t.status.receiving = true ∨ t.status = .httpChecksum) →
      t.app.checkMd5Result = 1 → t.Verified →
      accepted = some (url.md5, t.app.wifi.response.bodyLen) ∧
        env.md5.digest t.received = url.md5) :
    Sound ⟨{ t.app with wifi := { t.app.wifi.otaInit with url } }, flash, t.received, accepted⟩ where
  inFlash := sound.inFlash
  asked := asked
  parsing := sound.parsing
  online := fun _ socket => absurd socket (otaInit_socket t.app.wifi)
  receiving := fun at_ =>
    have before := sound.receiving at_
    { enabled := before.enabled
      curPos := before.curPos
      fileLen := before.fileLen
      size := fun socket => absurd socket (otaInit_socket t.app.wifi)
      running := before.running
      counted := before.counted
      hashed := before.hashed
      verified := fun check => verified (.inl at_) check (before.verified check) }
  checked := fun at_ =>
    have ⟨fileLen, before, check⟩ := sound.checked at_
    ⟨fileLen, verified (.inr at_) check before, check⟩

theorem sound_request {t : OtaTrace env} (sound : t.Sound) {request : OtaRequest}
    (keeps : t.Keeps (.wifiRequest request)) {app : OtaApp env.md5} {flash : ByteMem}
    (ran : (wifiRequire env request t.app).run t.flash = (some app, flash)) :
    (t.record (.wifiRequest request) app flash).Sound := by
  obtain ⟨ret, url, handled, ⟨refused, rfl, rfl⟩ | ⟨taken, code, noted, outcome⟩⟩ :=
    wifiRequire_cases ran
  · have accepted := acceptedBy_refused (t := t) handled refused
    refine sound.withUrl _ (fun host => by cases host) fun at_ check verified => ?_
    obtain ⟨md5, -⟩ := keeps at_ check ret url handled fun starts => starts.1 refused
    change t.acceptedBy request = some (url.md5, _) ∧ _ = url.md5
    rw [accepted, md5]
    exact verified
  · have accepted := acceptedBy_taken (t := t) handled taken
    rcases outcome with ⟨failed, rfl⟩ | ⟨-, rfl⟩
    · refine sound.withUrl _ (fun _ => accepted) fun at_ check verified => ?_
      have idle : ¬ t.Starts request ret url := fun starts => by
        have zero := starts.2
        rw [noted] at zero
        exact failed (Option.some.inj zero)
      obtain ⟨md5, size⟩ := keeps at_ check ret url handled idle
      change t.acceptedBy request = some (url.md5, _) ∧ _ = url.md5
      rw [accepted, size taken, md5]
      exact ⟨rfl, verified.2⟩
    · exact .of_quiet rfl sound.inFlash fun _ => accepted

/-! ## The running MD5 -/

end OtaTrace

section Md5

variable {md5 : Md5} (stat : Md5Stat md5)

/-- The context a call of `update_ota_buffer_md5` starts from. -/
def Md5Stat.base : md5.Ctx :=
  if stat.reset = false ∧ stat.initFlag = true then stat.ctx else md5.starts

/-- The length it starts from. -/
def Md5Stat.count : Nat := if stat.reset then 0 else stat.totalLen

/-- A call of `update_ota_buffer_md5`: the bytes are hashed and counted, and at the end of the
body the digest is compared. -/
theorem updateOtaBufferMd5_eq (bodyLen : Nat) (requestMd5 : List UInt8) {bytes : List UInt8}
    {len : Int} (nothing : len ≤ 0 → bytes = []) :
    updateOtaBufferMd5 stat bodyLen requestMd5 bytes len =
      if toU32 (stat.count + len) ≥ bodyLen then
        (if requestMd5 = md5.finish (md5.update stat.base bytes) then 1 else -1,
          ⟨false, true, md5.freed, toU32 (stat.count + len)⟩)
      else
        (0, ⟨false, true, md5.update stat.base bytes, toU32 (stat.count + len)⟩) := by
  have fed (ctx : md5.Ctx) :
      (if len > 0 then md5.update ctx bytes else ctx) = md5.update ctx bytes := by
    split
    · rfl
    · rw [nothing (by omega), md5.update_nil]
  obtain ⟨reset, initFlag, ctx, totalLen⟩ := stat
  unfold updateOtaBufferMd5 Md5Stat.base Md5Stat.count
  simp only [fed]
  cases reset <;> cases initFlag <;> rfl

theorem updateOtaBufferMd5_spec (bodyLen : Nat) (requestMd5 : List UInt8) {bytes : List UInt8}
    {len : Int} (nothing : len ≤ 0 → bytes = []) :
    let after := updateOtaBufferMd5 stat bodyLen requestMd5 bytes len
    (after.2.reset = false ∧ after.2.initFlag = true) ∧
      after.2.totalLen = toU32 (stat.count + len) ∧
      (after.2.totalLen < bodyLen → after.1 ≠ 1 ∧ after.2.ctx = md5.update stat.base bytes) ∧
      (after.1 = 1 → md5.finish (md5.update stat.base bytes) = requestMd5) := by
  dsimp only
  rw [updateOtaBufferMd5_eq stat bodyLen requestMd5 nothing]
  split
  next ended =>
    refine ⟨⟨rfl, rfl⟩, rfl, fun more => absurd more (by dsimp only; omega), fun one => ?_⟩
    by_contra differ
    rw [if_neg fun same => differ same.symm] at one
    cases one
  · exact ⟨⟨rfl, rfl⟩, rfl, fun _ => ⟨Int.zero_ne_one, rfl⟩, fun one => by cases one⟩

end Md5

namespace OtaTrace

variable {env : OtaEnv} {t : OtaTrace env} {input : StepInput} {app : OtaApp env.md5}
  {flash : ByteMem}

/-! ## Steps of the WiFi machine -/

theorem sound_start (sound : t.Sound) :
    (t.record (.wifi input) { t.app with wifi := t.app.wifi.startStep input } t.flash).Sound := by
  unfold OtaModule.startStep
  split
  · exact .of_quiet rfl sound.inFlash sound.asked
  · split
    · exact .of_quiet rfl sound.inFlash sound.asked
    · exact .of_quiet rfl sound.inFlash sound.asked

theorem sound_connect (sound : t.Sound) :
    (t.record (.wifi input) { t.app with
      wifi := t.app.wifi.connectStep input
      md5Stat := { t.app.md5Stat with reset := true } } t.flash).Sound := by
  unfold OtaModule.connectStep
  cases input.connect with
  | none => exact .of_quiet rfl sound.inFlash sound.asked
  | some socket =>
    exact .of_parsing rfl nofun sound.inFlash sound.asked ⟨Nat.zero_le _, rfl⟩ nofun

theorem sound_sendGet (sound : t.Sound) (at_ : t.status = .httpSendGet) {wifi : OtaModule}
    (moved : t.app.wifi.sendGetStep input = some wifi) :
    (t.record (.wifi input) { t.app with wifi } t.flash).Sound := by
  unfold OtaModule.sendGetStep at moved
  split at moved
  next host resource hosted found =>
    split at moved
    · cases moved
    split at moved
    · cases moved
      exact .of_quiet rfl sound.inFlash sound.asked
    split at moved
    · cases moved
    · cases moved
      refine .of_parsing rfl nofun sound.inFlash sound.asked (sound.parsing (.inl at_)) fun _ _ => ?_
      change t.app.wifi.url.httpHost.isSome = true
      rw [hosted]
      rfl
  · cases moved

theorem md5Bytes_nonpos (mod : OtaModule) (pos : Nat) {len : Int} (none : len ≤ 0) :
    md5Bytes mod pos len = [] := by
  unfold md5Bytes
  rw [Int.toNat_of_nonpos none]
  split <;> rfl

/-- The end of the header: hashing starts with what the buffer holds behind it. -/
theorem receiving_of_header {wifi : OtaModule} (reset : t.app.md5Stat.reset = true)
    (asked : t.accepted = some (wifi.url.md5, wifi.url.otaSize))
    (size : wifi.response.bodyLen = wifi.url.otaSize) :
    Receiving ⟨{ t.app with
      wifi := { wifi.setState .preFileHandle with file := wifi.filePara }
      md5Stat := (updateOtaBufferMd5 t.app.md5Stat wifi.response.bodyLen wifi.url.md5
        (md5Bytes wifi (otaBuf + wifi.filePara.headerLen) wifi.filePara.bodyReadLen)
        wifi.filePara.bodyReadLen).2
      checkMd5Result := (updateOtaBufferMd5 t.app.md5Stat wifi.response.bodyLen wifi.url.md5
        (md5Bytes wifi (otaBuf + wifi.filePara.headerLen) wifi.filePara.bodyReadLen)
        wifi.filePara.bodyReadLen).1 }, t.flash,
      md5Bytes wifi (otaBuf + wifi.response.headerLen) (toI32 wifi.response.bodyReadLen),
      t.accepted⟩ := by
  have base : t.app.md5Stat.base = env.md5.starts := if_neg (by rw [reset]; simp)
  have count : t.app.md5Stat.count = 0 := if_pos reset
  obtain ⟨running, counted, hashed, verified⟩ :=
    updateOtaBufferMd5_spec t.app.md5Stat wifi.response.bodyLen wifi.url.md5
      (md5Bytes_nonpos wifi (otaBuf + wifi.filePara.headerLen))
  rw [base] at hashed verified
  rw [count] at counted
  exact
    { enabled := rfl
      curPos := Nat.two_pow_pos 32
      fileLen := rfl
      size := fun _ => size
      running
      counted
      hashed
      verified := fun one => ⟨by rw [asked, ← size]; rfl, verified one⟩ }

theorem sound_header (sound : t.Sound) (at_ : t.status = .httpHeaderHandle)
    (moved : wifiHeaderStep env input t.app = some app) :
    (t.record (.wifi input) app t.flash).Sound := by
  obtain ⟨early, reset⟩ := sound.parsing (.inr at_)
  obtain ⟨ret, wifi, read, outcome⟩ := wifiHeaderStep_cases moved
  obtain ⟨buffer, response, buffer', held, handled, same⟩ := headerRead_eq read
  have url : wifi.url = t.app.wifi.url := by rw [same]
  have asked := sound.asked
  rw [← url] at asked
  rcases outcome with rfl | ⟨rfl, rfl⟩ | ⟨positive, size, rfl⟩
  · exact .of_quiet rfl sound.inFlash asked
  · rcases yaHttpHeaderHandle_cases early handled with failed | ⟨-, one | ⟨-, early'⟩⟩
    · cases failed
    · cases one
    · subst same
      have state : t.app.wifi.para.httpState = .httpHeaderHandle := at_
      refine .of_parsing ?_ ?_ sound.inFlash asked ⟨early', reset⟩ fun _ => ?_
      · change t.app.wifi.para.httpState.receiving = false
        rw [state]
        rfl
      · change t.app.wifi.para.httpState ≠ _
        rw [state]
        nofun
      · exact sound.online (by rw [at_]; rfl)
  · -- the socket is open, so the parameters are those of the last accepted request
    have opened : 0 ≤ t.app.wifi.para.otaServerSocket := by
      rcases yaHttpHeaderHandle_cases early handled with failed | ⟨⟨n, bytes, found⟩, -⟩
      · omega
      · exact read_socket found
    have hosted := sound.online (by rw [at_]; rfl) opened
    rw [← url] at hosted
    refine .of_receiving rfl sound.inFlash asked (fun _ => hosted) ?_
    change Receiving ⟨_, t.flash, t.receivedBy input _, t.accepted⟩
    rw [receivedBy_headerEnd at_ rfl]
    exact receiving_of_header reset (asked hosted) size

theorem toU32_lt (n : Int) : toU32 n < 2 ^ 32 := by
  unfold toU32
  omega

/-- A read in the middle of the body: hashing goes on with the bytes read. -/
theorem receiving_of_read (before : t.Receiving)
    (asked : t.accepted = some (t.app.wifi.url.md5, t.app.wifi.url.otaSize))
    (size : t.app.wifi.response.bodyLen = t.app.wifi.url.otaSize)
    (unfinished : t.app.wifi.file.reached < t.app.wifi.file.fileLen) (bytes : List UInt8)
    (hal : OtaOperateInfo) (mem : ByteMem) :
    Receiving ⟨{ t.app with
      hal
      wifi := t.app.wifi.withBody
        ⟨0, { t.app.wifi.file.advance with bodyReadLen := bytes.length }, mem, hal⟩
      md5Stat := (updateOtaBufferMd5 t.app.md5Stat t.app.wifi.response.bodyLen t.app.wifi.url.md5
        bytes bytes.length).2
      checkMd5Result := (updateOtaBufferMd5 t.app.md5Stat t.app.wifi.response.bodyLen
        t.app.wifi.url.md5 bytes bytes.length).1 }, flash, t.received ++ bytes, t.accepted⟩ := by
  have base : t.app.md5Stat.base = t.app.md5Stat.ctx := if_pos before.running
  have count : t.app.md5Stat.count = t.app.md5Stat.totalLen := if_neg (by simp [before.running.1])
  rw [before.fileLen] at unfinished
  rw [← before.counted] at unfinished
  obtain ⟨-, ctx⟩ := before.hashed unfinished
  have nothing (none : (bytes.length : Int) ≤ 0) : bytes = [] :=
    List.length_eq_zero_iff.mp (by omega)
  obtain ⟨running, counted, hashed, verified⟩ := updateOtaBufferMd5_spec t.app.md5Stat
    t.app.wifi.response.bodyLen t.app.wifi.url.md5 nothing
  rw [base, ctx, env.md5.update_append] at hashed verified
  rw [count, before.counted] at counted
  exact
    { enabled := before.enabled
      curPos := toU32_lt _
      fileLen := before.fileLen
      size := fun _ => size
      running
      counted
      hashed
      verified := fun one => ⟨by rw [asked, ← size]; rfl, verified one⟩ }

theorem sound_body (sound : t.Sound) (at_ : t.status = .httpBodyHandle)
    (ran : (wifiBodyStep env input t.app).run t.flash = (some app, flash)) :
    (t.record (.wifi input) app flash).Sound := by
  have before := sound.receiving (by rw [at_]; rfl)
  obtain ⟨buffer, result, held, handled, outcome⟩ := wifiBodyStep_cases ran
  have inFlash := yaHttpBodyHandle_inFlash sound.inFlash handled
  have cases := yaHttpBodyHandle_cases before.enabled before.curPos handled
  rcases outcome with ⟨-, rfl⟩ | ⟨positive, rfl⟩ | ⟨zero, rfl⟩
  · exact .of_quiet rfl inFlash sound.asked
  · rcases cases with failed | ⟨hal, result_eq⟩
    · omega
    have file : result.file = t.app.wifi.file.advance := by
      rcases bodyRead_cases t.app.wifi.file.advance
        (input.read t.app.wifi.para.otaServerSocket) buffer hal with
        ⟨same, -⟩ | ⟨same, -⟩ | ⟨bytes, same, -⟩ <;> rw [result_eq, same] at positive ⊢
      · cases positive
      · cases positive
    by_cases check : t.app.checkMd5Result = 1
    · rw [if_pos check]
      refine .of_checked rfl inFlash sound.asked ⟨?_, ?_, check⟩
      · change result.file.fileLen = t.app.wifi.response.bodyLen
        rw [file]
        exact before.fileLen
      · obtain ⟨accepted, digest⟩ := before.verified check
        refine ⟨accepted, ?_⟩
        change env.md5.digest (t.receivedBy input _) = t.app.wifi.url.md5
        rw [receivedBy_bodyEnd at_]
        · exact digest
        · nofun
    · rw [if_neg check]
      exact .of_quiet rfl inFlash sound.asked
  · rcases cases with failed | ⟨hal, result_eq⟩
    · omega
    rcases bodyRead_cases t.app.wifi.file.advance (input.read t.app.wifi.para.otaServerSocket) buffer
      hal with ⟨same, -⟩ | ⟨same, -⟩ | ⟨bytes, same, unfinished, found⟩
    · rw [result_eq, same] at zero
      cases zero
    · rw [result_eq, same] at zero
      cases zero
    · rw [result_eq, same] at inFlash ⊢
      have opened := read_socket found
      have hosted := sound.online (by rw [at_]; rfl) opened
      have loaded : (buffer.store otaBuf bytes).load otaBuf ((bytes.length : Int)).toNat = bytes :=
        store_holds _ _ _
      dsimp only
      rw [loaded]
      refine .of_receiving ?_ inFlash sound.asked (fun _ => hosted) ?_
      · change t.status.receiving = true
        rw [at_]
        rfl
      · change Receiving ⟨_, flash, t.receivedBy input _, t.accepted⟩
        rw [receivedBy_body at_, found]
        · exact receiving_of_read before (sound.asked hosted) (before.size opened) unfinished bytes
            hal _
        · exact at_

theorem sound_preFile (sound : t.Sound) (at_ : t.status = .preFileHandle) :
    (t.record (.wifi input) { t.app with wifi := t.app.wifi.setState .earseFlash }
      t.flash).Sound := by
  have before := sound.receiving (by rw [at_]; rfl)
  refine .of_receiving rfl sound.inFlash sound.asked (sound.online (by rw [at_]; rfl)) ?_
  change Receiving ⟨_, t.flash, t.receivedBy input _, t.accepted⟩
  rw [receivedBy_other (by rw [at_]; nofun) (by rw [at_]; nofun) (by rw [at_]; nofun)]
  exact before.setState .earseFlash t.app.hal t.flash

theorem sound_earse (sound : t.Sound) (at_ : t.status = .earseFlash) :
    (t.record (.wifi input) ((wifiEarseStep env t.app).run t.flash).1
      ((wifiEarseStep env t.app).run t.flash).2).Sound := by
  have before := sound.receiving (by rw [at_]; rfl)
  have inFlash := otaHalInit_inFlash env.partInFlash t.flash
  unfold wifiEarseStep yaHttpOtaSectorErase
  rw [run_bind]
  dsimp only
  by_cases failed : ((otaHalInit env.part).run t.flash).1.1 ≠ 0
  · rw [if_pos failed]
    exact .of_quiet rfl inFlash sound.asked
  · rw [if_neg failed]
    refine .of_receiving rfl inFlash sound.asked (sound.online (by rw [at_]; rfl)) ?_
    change Receiving ⟨_, _, t.receivedBy input _, t.accepted⟩
    rw [receivedBy_other (by rw [at_]; nofun) (by rw [at_]; nofun) (by rw [at_]; nofun)]
    exact before.setState .httpBodyHandle _ _

theorem sound_checksum (sound : t.Sound)
    (ran : (wifiChecksumStep env t.app).run t.flash = (some app, flash)) :
    (t.record (.wifi input) app flash).Sound := by
  obtain ⟨-, rfl | ⟨rfl, -⟩⟩ := wifiChecksumStep_cases ran
  · exact .of_quiet rfl sound.inFlash sound.asked
  · exact .of_quiet rfl sound.inFlash sound.asked

theorem sound_error (sound : t.Sound) :
    (t.record (.wifi input) { t.app with
      wifi := t.app.wifi.errorStep
      md5Stat := { t.app.md5Stat with reset := true } } t.flash).Sound := by
  unfold OtaModule.errorStep
  dsimp only
  split
  · exact .of_quiet rfl sound.inFlash sound.asked
  · exact .of_quiet rfl sound.inFlash nofun

theorem sound_retry (sound : t.Sound) (at_ : t.status = .httpRetryWait) :
    (t.record (.wifi input) { t.app with wifi := t.app.wifi.retryStep input } t.flash).Sound := by
  unfold OtaModule.retryStep
  split
  · exact .of_quiet rfl sound.inFlash sound.asked
  · refine .of_quiet ?_ sound.inFlash sound.asked
    change t.status.quiet = true
    rw [at_]
    rfl

theorem sound_wifi (sound : t.Sound)
    (ran : (yaWifiOtaDownload env input t.app).run t.flash = (some app, flash)) :
    (t.record (.wifi input) app flash).Sound := by
  unfold yaWifiOtaDownload at ran
  split at ran
  next => cases ran; exact sound_start sound
  next => cases ran; exact sound_connect sound
  next at_ =>
    rw [run_pure] at ran
    obtain ⟨mapped, rfl⟩ := Prod.mk.inj ran
    obtain ⟨wifi, moved, rfl⟩ := Option.map_eq_some_iff.mp mapped
    exact sound_sendGet sound at_ moved
  next at_ =>
    rw [run_pure] at ran
    obtain ⟨moved, rfl⟩ := Prod.mk.inj ran
    exact sound_header sound at_ moved
  next at_ => cases ran; exact sound_preFile sound at_
  next at_ =>
    rw [run_bind] at ran
    cases ran
    exact sound_earse sound at_
  next at_ => exact sound_body sound at_ ran
  next => exact sound_checksum sound ran
  next => cases ran; exact sound_error sound
  next at_ => cases ran; exact sound_retry sound at_
  next =>
    -- the device is reset
    rw [run_bind] at ran
    cases ran
  all_goals
    rename_i at_
    cases ran
    refine .of_quiet ?_ sound.inFlash sound.asked
    change t.app.wifi.para.httpState.quiet = true
    rw [at_]
    rfl

theorem Reached.sound {t : OtaTrace env} (reached : t.Reached) : t.Sound := by
  induction reached with
  | initial flash => exact sound_initial flash
  | @next t t' event before keeps moved sound =>
    obtain ⟨app, flash, ran, rfl⟩ := next_eq moved
    cases event with
    | wifi input => exact sound_wifi sound ran
    | mcu input => exact sound_mcu sound ran
    | wifiRequest request => exact sound_request sound keeps ran
    | mcuRequest request =>
      obtain ⟨required, rfl⟩ := Prod.mk.inj ran
      exact sound_mcuRequest sound required

/-! ## Entering the reboot -/

/-- Steps of the WiFi machine meet no condition. -/
theorem Reached.nexts {t t' : OtaTrace env} (reached : t.Reached) {inputs : List StepInput}
    (moved : t.nexts (inputs.map .wifi) = some t') : t'.Reached := by
  refine nexts_kept (fun event mem t t' before moved => ?_) reached moved
  rcases List.mem_map.mp mem with ⟨input, -, rfl⟩
  have keeps : t.Keeps (.wifi input) := trivial
  exact before.next keeps moved

end OtaTrace

/-! ## A download, and one that a refused request slips into -/

/-- A streaming function that counts. -/
def countingHash : Md5 where
  Ctx := Nat
  freed := 0
  starts := 0
  update := fun n bytes => n + bytes.length
  finish := fun n => UInt8.ofNat n :: List.replicate 15 0
  update_nil := fun _ => rfl
  update_append := fun n xs ys => by rw [List.length_append, Nat.add_assoc]

/-- A device with version 001 and the partition `dataOta`. -/
def deviceEnv (md5 : Md5) : OtaEnv where
  md5 := md5
  crc32 := fun _ => 0
  part := dataOta.entry
  partInFlash := by
    intro addr len same
    cases same
    decide
  curVersion := .lit ['1', '.', '0', '0', '1']
  mcuVersion := .lit []
  mcuFileAddr := 0xB6000

/-- The device with the counting function for MD5. -/
def countingEnv : OtaEnv := deviceEnv countingHash

/-- A string member. -/
def textField (name value : List Char) : CString × CJson := (.lit name, .string (.lit value))

/-- A message on a device with memory. -/
def otaMessage (fields : List (CString × CJson)) : OtaRequest where
  root := some (.object [(.lit ['d', 'a', 't', 'a'], .object fields)])
  alloc := (true, true, true)
  testMode := false
  board := .zeroed

/-- The members that describe a file whose digest starts with the byte `md5`. -/
def fileFields (size md5 : List Char) : List (CString × CJson) :=
  [textField ['s', 'i', 'z', 'e'] size,
    textField ['v', 'e', 'r', 's', 'i', 'o', 'n'] ['1', '.', '0', '0', '2'],
    textField ['u', 'r', 'l'] ['h', '/', 'f'],
    textField ['m', 'd', '5', 's', 'u', 'm'] (md5 ++ List.replicate 30 '0')]

/-- The members that say how often to try. -/
def retryFields : List (CString × CJson) :=
  [textField ['f', 'a', 'i', 'l', 'R', 'e', 't', 'r', 'y', 'T', 'i', 'm', 'e', 's'] ['0'],
    textField ['f', 'a', 'i', 'l', 'R', 'e', 't', 'r', 'y', 'I', 'n', 't', 'e', 'r', 'n', 'a', 'l']
      ['1']]

/-- A step on a device with memory and a connection, on which `incoming` has arrived. -/
def okInput (incoming : List UInt8) : StepInput where
  bufferAlloc := some fun _ => 0
  connect := some 3
  requestAlloc := true
  sent := true
  incoming := some incoming
  expired := true

/-- A response header for 64 bytes. -/
def header64 : List UInt8 :=
  CString.ascii ['H', 'T', 'T', 'P', '/', '1', '.', '1', ' ', '2', '0', '0', ' ', 'O', 'K', '\r', '\n',
    'C', 'o', 'n', 't', 'e', 'n', 't', '-', 'L', 'e', 'n', 'g', 't', 'h', ':', ' ', '6', '4',
    '\r', '\n', '\r', '\n']

/-- A body of `64 + extra` bytes that announces `size` bytes. -/
def bodyOf (size extra : Nat) : List UInt8 :=
  List.replicate 8 0 ++ le32Bytes size ++ List.replicate (52 + extra) 0

/-- The steps up to the end of the header, and those before the checksum. -/
def headerSteps (body : List UInt8) : List StepInput :=
  List.replicate 4 (okInput (header64 ++ body))

def bodySteps64 : List StepInput := List.replicate 3 (okInput [])

/-- A file of 64 bytes. -/
def request64 : OtaRequest := otaMessage (fileFields ['6', '4'] ['4', '0'] ++ retryFields)

/-- A request without `failRetryTimes`, which is refused behind its digest. -/
def refused64 : OtaRequest := otaMessage (fileFields ['6', '4'] ['4', '0'])

end Tr6260
