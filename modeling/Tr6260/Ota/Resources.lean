import Tr6260.Ota.Integrity

/-!
# What the states of a download need

Both machines use the address of the last request while they connect and send
theirs, and socket and buffer from then on; no state looks whether they are
there. `OtaModule.Equipped` is what the steps of a machine keep.

A request closes the socket and clears the address before it is looked at, and
the state changes only at the end of a request that is taken. The runs here are
those in which every request that meets a download is taken
(`OtaTrace.Undisturbed`); the one exception is a note in flash that fails
before the connection is made, since the new address is there by then.
-/

namespace Tr6260

open FlashProg ByteMem

/-! ## Requests that are taken -/

/-- Host and resource are there. -/
def OtaUrlPara.Addressed (url : OtaUrlPara) : Prop :=
  url.httpHost.isSome = true ∧ url.httpResource.isSome = true

/-- The version has the length that is allowed for its kind. -/
def OtaUrlPara.Versioned (otaType : OtaType) (url : OtaUrlPara) : Prop :=
  url.otaVer.strlen ≤ match otaType with
    | .wifi => versionLen
    | .mcu => yaMaxMcuVersionLen

/-- The return codes of `ya_ota_require_handle` behind which the request is dropped. -/
def Refuses (code : Int) : Prop := code < 0 ∨ code = yaHttpSuccess

/-- From parameters with `pre` the handler's steps go on with `post` or refuse. -/
def Yields {α : Type} (pre post : OtaUrlPara → Prop) (steps : RequireM α) : Prop :=
  ∀ url result url', pre url → steps.run.run url = some (result, url') →
    match result with
    | .ok _ => post url'
    | .error code => Refuses code

section Yields

variable {α β : Type} {pre mid post : OtaUrlPara → Prop}

theorem Yields.bind {steps : RequireM α} {rest : α → RequireM β} (first : Yields pre mid steps)
    (second : ∀ a, Yields mid post (rest a)) : Yields pre post (steps >>= rest) := by
  intro url result url' holds ran
  obtain ⟨⟨outcome, url₁⟩, ran₁, ran₂⟩ := Option.bind_eq_some_iff.mp ran
  have reached := first url outcome url₁ holds ran₁
  cases outcome with
  | ok a => exact second a url₁ result url' reached ran₂
  | error code =>
    cases ran₂
    exact reached

theorem Yields.keep (a : α) : Yields pre pre (pure a) := by
  intro url result url' holds ran
  cases ran
  exact holds

theorem Yields.refuse {code : Int} (refuses : Refuses code) :
    Yields pre post (throw code : RequireM α) := by
  intro url result url' holds ran
  cases ran
  exact refuses

theorem Yields.update {change : OtaUrlPara → OtaUrlPara}
    (changed : ∀ url, pre url → post (change url)) :
    Yields pre post (modify change : RequireM Unit) := by
  intro url result url' holds ran
  cases ran
  exact changed url holds

/-- A change that nothing is asked of. -/
theorem Yields.change {change : OtaUrlPara → OtaUrlPara} :
    Yields pre (fun _ => True) (modify change : RequireM Unit) :=
  .update fun _ _ => trivial

/-- A change of something else. -/
theorem Yields.retain {change : OtaUrlPara → OtaUrlPara}
    (retained : ∀ url, pre url → pre (change url)) :
    Yields pre pre (modify change : RequireM Unit) :=
  .update retained

theorem Yields.read : Yields pre pre (get : RequireM OtaUrlPara) := by
  intro url result url' holds ran
  cases ran
  exact holds

theorem Yields.fault : Yields pre post (requireFault : RequireM α) := by
  intro url result url' holds ran
  cases ran

/-- A test that ends the handling. -/
theorem Yields.refuseIf {condition : Prop} {dec : Decidable condition} {code : Int}
    {rest : Unit → RequireM α} (refuses : Refuses code)
    (after : ¬ condition → Yields pre post (rest ())) :
    Yields pre post (if condition then throw code >>= rest else rest ()) := by
  split
  · intro url result url' holds ran
    cases ran
    exact refuses
  next passed => exact after passed

/-- A test for a use of text that is not there. -/
theorem Yields.faultIf {condition : Prop} {dec : Decidable condition} {rest : Unit → RequireM α}
    (after : Yields pre post (rest ())) :
    Yields pre post (if condition then requireFault >>= rest else rest ()) := by
  split
  · intro url result url' holds ran
    cases ran
  · exact after

end Yields

theorem refuses_cError : Refuses cError := .inl (by decide)

theorem refuses_yaHttpSuccess : Refuses yaHttpSuccess := .inr rfl

variable {pre : OtaUrlPara → Prop}

theorem memberItem_yields (object : CJson) (name : List UInt8) :
    Yields pre pre (memberItem object name) := by
  unfold memberItem
  split
  · exact .refuse refuses_cError
  · exact .keep _

theorem memberText_yields (object : CJson) (name : List UInt8) :
    Yields pre pre (memberText object name) := by
  refine .bind (memberItem_yields object name) fun value => ?_
  split
  · exact .fault
  · exact .keep _

theorem checkWifiVersion_yields (curVersion version : CString) (testMode : Bool) :
    Yields pre (OtaUrlPara.Versioned .wifi) (checkWifiVersion curVersion version testMode) := by
  unfold checkWifiVersion
  refine .refuseIf refuses_cError fun lengths => ?_
  have short : version.strlen ≤ versionLen := Nat.le_of_not_lt fun long => lengths (.inl long)
  have stored : Yields pre (OtaUrlPara.Versioned .wifi)
      (modify fun url => { url with otaVer := version } : RequireM Unit) :=
    .update fun _ _ => short
  refine .bind stored fun _ => ?_
  refine .faultIf (.refuseIf refuses_cError fun _ => .refuseIf refuses_cError fun _ => ?_)
  split
  · dsimp only
    split
    · exact .refuse refuses_cError
    · split
      · exact .refuse refuses_yaHttpSuccess
      · exact .keep ()
  · exact .keep ()

theorem checkMcuVersion_yields (version : CString) :
    Yields pre (OtaUrlPara.Versioned .mcu) (checkMcuVersion version) := by
  unfold checkMcuVersion
  exact .refuseIf refuses_cError fun short => .update fun _ _ => Nat.le_of_not_lt short

/-- The address is the last thing `takeUrl` fills in. -/
theorem takeUrl_yields {otaType : OtaType} (text : CString) (alloc : Bool × Bool × Bool) :
    Yields (OtaUrlPara.Versioned otaType) (fun url => url.Addressed ∧ url.Versioned otaType)
      (takeUrl text alloc) := by
  unfold takeUrl
  refine .refuseIf refuses_cError fun _ => .bind (.retain fun _ version => version) fun _ => ?_
  refine .refuseIf refuses_cError fun _ => .bind (.retain fun _ version => version) fun _ => ?_
  refine .refuseIf refuses_cError fun _ => ?_
  exact .update fun _ version => ⟨⟨rfl, rfl⟩, version⟩

theorem takeMd5_yields {otaType : OtaType} (text : CString) :
    Yields (fun url => url.Addressed ∧ url.Versioned otaType)
      (fun url => url.Addressed ∧ url.Versioned otaType) (takeMd5 text) := by
  unfold takeMd5
  refine .refuseIf refuses_cError fun _ => .bind .read fun url => ?_
  rcases parseMd5 text.1 16 0 url.md5 with ⟨passed, md5⟩
  refine .bind (.retain fun _ filled => filled) fun _ => ?_
  split
  · exact .refuse refuses_cError
  · exact .keep ()

theorem requireBody_yields (otaType : OtaType) (curVersion : CString) (request : OtaRequest) :
    Yields (fun _ => True) (fun url => url.Addressed ∧ url.Versioned otaType)
      (requireBody otaType curVersion request) := by
  unfold requireBody
  split
  · exact .refuse refuses_cError
  refine .bind (memberItem_yields _ _) fun cmd => ?_
  refine .bind (memberText_yields _ _) fun size => ?_
  refine .bind .change fun _ => .bind (memberText_yields _ _) fun version => ?_
  -- what follows the version is the same for both types
  extract_lets rest
  have filled : Yields (OtaUrlPara.Versioned otaType)
      (fun url => url.Addressed ∧ url.Versioned otaType) (rest ()) := by
    refine .bind (memberText_yields _ _) fun text => .bind (takeUrl_yields _ _) fun _ => ?_
    refine .bind (memberText_yields _ _) fun md5sum => .bind (takeMd5_yields _) fun _ => ?_
    refine .bind (memberText_yields _ _) fun times => ?_
    refine .bind (.retain fun _ filled => filled) fun _ => ?_
    refine .bind (memberText_yields _ _) fun interval => ?_
    exact .update fun _ filled => filled
  cases otaType with
  | wifi => exact .bind (checkWifiVersion_yields _ _ _) fun _ => filled
  | mcu => exact .bind (checkMcuVersion_yields _) fun _ => filled

/-- A request that is not refused has filled in host and resource, and a version that fits. -/
theorem yaOtaRequireHandle_filled {otaType : OtaType} {curVersion : CString}
    {request : OtaRequest} {url url' : OtaUrlPara} {ret : Int}
    (handled : yaOtaRequireHandle otaType curVersion request url = some (ret, url'))
    (taken : ¬ Refuses ret) : url'.Addressed ∧ url'.Versioned otaType := by
  unfold yaOtaRequireHandle at handled
  split at handled
  · cases handled
  next ran =>
    cases handled
    exact requireBody_yields otaType curVersion request _ _ _ trivial ran
  next ran =>
    cases handled
    exact absurd (requireBody_yields otaType curVersion request _ _ _ trivial ran) taken

/-! ## The property and its invariant -/

/-- The states with a connection. -/
def OtaStatus.connected : OtaStatus → Bool
  | .httpSendGet => true
  | state => state.online

/-- The states of a download. -/
def OtaStatus.downloading : OtaStatus → Bool
  | .httpConnect => true
  | state => state.connected

namespace OtaModule

/-- Host and resource are there for the connection and the request, socket and buffer for the
request, the header and the body. -/
structure Resources (mod : OtaModule) : Prop where
  address : mod.para.httpState = .httpConnect ∨ mod.para.httpState = .httpSendGet →
    mod.url.httpHost.isSome = true ∧ mod.url.httpResource.isSome = true
  line : mod.para.httpState = .httpSendGet ∨ mod.para.httpState = .httpHeaderHandle ∨
      mod.para.httpState = .httpBodyHandle →
    0 ≤ mod.para.otaServerSocket ∧ mod.para.otaBuffer.isSome = true

/-- The invariant: nothing is lost in the states between header and body either, and the buffer
is there before the connection. -/
structure Equipped (mod : OtaModule) : Prop where
  address : mod.para.httpState = .httpConnect ∨ mod.para.httpState = .httpSendGet →
    mod.url.Addressed
  buffer : mod.para.httpState.downloading = true → mod.para.otaBuffer.isSome = true
  socket : mod.para.httpState.connected = true → 0 ≤ mod.para.otaServerSocket

theorem Equipped.resources {mod : OtaModule} (equipped : mod.Equipped) : mod.Resources where
  address := equipped.address
  line := by
    intro at_
    have connected : mod.para.httpState.connected = true := by
      rcases at_ with at_ | at_ | at_ <;> rw [at_] <;> rfl
    have downloading : mod.para.httpState.downloading = true := by
      rcases at_ with at_ | at_ | at_ <;> rw [at_] <;> rfl
    exact ⟨equipped.socket connected, equipped.buffer downloading⟩

theorem downloading_of_connected {state : OtaStatus} (connected : state.connected = true) :
    state.downloading = true := by
  cases state <;> first | rfl | cases connected

/-- Nothing is needed outside a download. -/
theorem Equipped.of_idle {mod : OtaModule} (idle : mod.para.httpState.downloading = false) :
    mod.Equipped where
  address := fun at_ => by rcases at_ with at_ | at_ <;> rw [at_] at idle <;> cases idle
  buffer := fun at_ => by rw [idle] at at_; cases at_
  socket := fun at_ => by rw [downloading_of_connected at_] at idle; cases idle

/-- Behind the request the address is not used any more. -/
theorem Equipped.of_online {mod : OtaModule} (online : mod.para.httpState.online = true)
    (buffer : mod.para.otaBuffer.isSome = true) (socket : 0 ≤ mod.para.otaServerSocket) :
    mod.Equipped where
  address := fun at_ => by rcases at_ with at_ | at_ <;> rw [at_] at online <;> cases online
  buffer := fun _ => buffer
  socket := fun _ => socket

/-! ## The steps both machines share -/

variable {mod mod' : OtaModule} {input : StepInput}

theorem Equipped.start : (mod.startStep input).Equipped := by
  unfold startStep
  split
  · exact .of_idle rfl
  next present =>
    split
    · exact .of_idle rfl
    next buffer _ =>
      have host : mod.url.httpHost ≠ none := fun absent => present (.inl absent)
      have resource : mod.url.httpResource ≠ none := fun absent => present (.inr absent)
      exact ⟨fun _ => ⟨Option.isSome_iff_ne_none.mpr host, Option.isSome_iff_ne_none.mpr resource⟩,
        fun _ => rfl, fun at_ => by cases at_⟩

theorem Equipped.connect (equipped : mod.Equipped) (at_ : mod.para.httpState = .httpConnect) :
    (mod.connectStep input).Equipped := by
  unfold connectStep
  cases input.connect with
  | none => exact .of_idle rfl
  | some socket =>
    have buffer : mod.para.otaBuffer.isSome = true := equipped.buffer (by rw [at_]; rfl)
    exact ⟨fun _ => equipped.address (.inl at_), fun _ => buffer,
      fun _ => Int.natCast_nonneg socket⟩

theorem Equipped.sendGet (equipped : mod.Equipped) (at_ : mod.para.httpState = .httpSendGet)
    (moved : mod.sendGetStep input = some mod') : mod'.Equipped := by
  have socket : 0 ≤ mod.para.otaServerSocket := equipped.socket (by rw [at_]; rfl)
  unfold sendGetStep at moved
  split at moved
  · split at moved
    · cases moved
    split at moved
    · cases moved
      exact .of_idle rfl
    split at moved
    · cases moved
    · cases moved
      exact .of_online rfl rfl socket
  · cases moved

/-- A header read leaves everything in place. -/
theorem Equipped.headerRead (equipped : mod.Equipped)
    (at_ : mod.para.httpState = .httpHeaderHandle) {ret : Int}
    (read : mod.headerRead input = some (ret, mod')) :
    mod'.para.httpState = .httpHeaderHandle ∧ mod'.para.otaBuffer.isSome = true ∧
      0 ≤ mod'.para.otaServerSocket := by
  obtain ⟨buffer, response, buffer', -, -, rfl⟩ := headerRead_eq read
  exact ⟨at_, rfl, equipped.socket (by rw [at_]; rfl)⟩

/-- The state behind the erasure. -/
theorem Equipped.earse (equipped : mod.Equipped) (at_ : mod.para.httpState = .earseFlash)
    (ret : Int) :
    (mod.setState (if ret ≠ 0 then .errorHandle else .httpBodyHandle)).Equipped := by
  split
  · exact .of_idle rfl
  · exact .of_online rfl (equipped.buffer (by rw [at_]; rfl)) (equipped.socket (by rw [at_]; rfl))

theorem Equipped.body (equipped : mod.Equipped) (at_ : mod.para.httpState = .httpBodyHandle)
    (result : BodyResult) : (mod.withBody result).Equipped :=
  have online : mod.para.httpState.online = true := by rw [at_]; rfl
  .of_online online rfl (equipped.socket (by rw [at_]; rfl))

theorem Equipped.error : mod.errorStep.Equipped := by
  unfold errorStep
  dsimp only
  split
  · exact .of_idle rfl
  · exact .of_idle rfl

theorem Equipped.retry (at_ : mod.para.httpState = .httpRetryWait) :
    (mod.retryStep input).Equipped := by
  unfold retryStep
  split
  · exact .of_idle rfl
  · exact .of_idle (by rw [at_]; rfl)

/-! ## Requests -/

theorem Equipped.request_idle (idle : mod.para.httpState.downloading = false) (url : OtaUrlPara) :
    Equipped { mod.otaInit with url } :=
  .of_idle idle

/-- Before the connection a request may leave its own address. -/
theorem Equipped.request_connect (equipped : mod.Equipped)
    (unconnected : mod.para.httpState.connected = false) {url : OtaUrlPara}
    (addressed : url.Addressed) : Equipped { mod.otaInit with url } where
  address := fun _ => addressed
  buffer := equipped.buffer
  socket := fun at_ => by
    have connected : mod.para.httpState.connected = true := at_
    rw [unconnected] at connected
    cases connected

end OtaModule

section Machines

variable {env : OtaEnv} {app app' : OtaApp env.md5} {input : StepInput} {m m' : ByteMem}

open OtaModule

/-! ## The WiFi machine -/

theorem wifiHeaderStep_equipped (equipped : app.wifi.Equipped)
    (at_ : app.wifi.para.httpState = .httpHeaderHandle)
    (moved : wifiHeaderStep env input app = some app') : app'.wifi.Equipped := by
  obtain ⟨ret, wifi, read, outcome⟩ := wifiHeaderStep_cases moved
  obtain ⟨state, buffer, socket⟩ := equipped.headerRead at_ read
  rcases outcome with rfl | ⟨-, rfl⟩ | ⟨-, -, rfl⟩
  · exact .of_idle rfl
  · have online : wifi.para.httpState.online = true := by rw [state]; rfl
    exact .of_online online buffer socket
  · exact .of_online rfl buffer socket

theorem wifiBodyStep_equipped (equipped : app.wifi.Equipped)
    (at_ : app.wifi.para.httpState = .httpBodyHandle)
    (ran : (wifiBodyStep env input app).run m = (some app', m')) : app'.wifi.Equipped := by
  obtain ⟨buffer, result, -, -, ⟨-, rfl⟩ | ⟨-, rfl⟩ | ⟨-, rfl⟩⟩ := wifiBodyStep_cases ran
  · exact .of_idle rfl
  · refine .of_idle ?_
    change (if app.checkMd5Result = 1 then OtaStatus.httpChecksum else .errorHandle).downloading = _
    split
    · rfl
    · rfl
  · exact equipped.body at_ result

theorem yaWifiOtaDownload_equipped (equipped : app.wifi.Equipped)
    (ran : (yaWifiOtaDownload env input app).run m = (some app', m')) : app'.wifi.Equipped := by
  unfold yaWifiOtaDownload at ran
  split at ran
  next =>
    cases ran
    exact .start
  next at_ =>
    cases ran
    exact equipped.connect at_
  next at_ =>
    obtain ⟨wifi, moved, rfl⟩ := Option.map_eq_some_iff.mp (congrArg Prod.fst ran)
    exact equipped.sendGet at_ moved
  next at_ => exact wifiHeaderStep_equipped equipped at_ (congrArg Prod.fst ran)
  next at_ =>
    cases ran
    exact .of_online rfl (equipped.buffer (by rw [at_]; rfl)) (equipped.socket (by rw [at_]; rfl))
  next at_ =>
    rw [run_bind, wifiEarseStep, run_bind] at ran
    cases ran
    exact equipped.earse at_ _
  next at_ => exact wifiBodyStep_equipped equipped at_ ran
  next =>
    obtain ⟨-, rfl | ⟨rfl, -⟩⟩ := wifiChecksumStep_cases ran
    · exact .of_idle rfl
    · exact .of_idle rfl
  next =>
    cases ran
    exact .error
  next at_ =>
    cases ran
    exact .retry at_
  next =>
    -- the device is reset
    rw [run_bind] at ran
    cases ran
  all_goals
    cases ran
    exact equipped

/-! ## The controller's machine -/

theorem mcuHeaderStep_equipped (equipped : app.mcu.Equipped)
    (at_ : app.mcu.para.httpState = .httpHeaderHandle)
    (moved : mcuHeaderStep env input app = some app') : app'.mcu.Equipped := by
  obtain ⟨ret, mcu, read, outcome⟩ := mcuHeaderStep_cases moved
  obtain ⟨state, buffer, socket⟩ := equipped.headerRead at_ read
  rcases outcome with rfl | ⟨-, rfl⟩ | ⟨-, -, rfl⟩
  · exact .of_idle rfl
  · have online : mcu.para.httpState.online = true := by rw [state]; rfl
    exact .of_online online buffer socket
  · exact .of_online rfl buffer socket

theorem yaMcuOtaDownload_equipped (equipped : app.mcu.Equipped)
    (ran : (yaMcuOtaDownload env input app).run m = (some app', m')) : app'.mcu.Equipped := by
  unfold yaMcuOtaDownload at ran
  split at ran
  next =>
    cases ran
    exact .start
  next at_ =>
    cases ran
    exact equipped.connect at_
  next at_ =>
    obtain ⟨mcu, moved, rfl⟩ := Option.map_eq_some_iff.mp (congrArg Prod.fst ran)
    exact equipped.sendGet at_ moved
  next at_ => exact mcuHeaderStep_equipped equipped at_ (congrArg Prod.fst ran)
  next at_ =>
    rw [run_bind, mcuEarseStep, run_bind] at ran
    cases ran
    exact equipped.earse at_ _
  next at_ =>
    obtain ⟨buffer, result, -, -, ⟨-, rfl⟩ | ⟨-, rfl⟩ | ⟨-, rfl⟩⟩ := mcuBodyStep_cases ran
    · exact .of_idle rfl
    · exact .of_idle rfl
    · exact equipped.body at_ result
  next =>
    obtain ⟨-, ret, -, ⟨-, rfl⟩ | ⟨-, rfl⟩⟩ := mcuChecksumStep_cases ran
    · exact .of_idle rfl
    · exact .of_idle rfl
  next =>
    cases ran
    exact .error
  next at_ =>
    cases ran
    exact .retry at_
  next =>
    cases ran
    exact .of_idle rfl
  all_goals
    cases ran
    exact equipped

end Machines

/-! ## Runs -/

namespace OtaTrace

variable {env : OtaEnv} {t t' : OtaTrace env}

/-- A request that meets a download is taken, and noted in flash if there is a connection. -/
def Undisturbed (t : OtaTrace env) : OtaEvent → Prop
  | .wifiRequest request =>
    t.app.wifi.para.httpState.downloading = true →
      ∀ ret url, yaOtaRequireHandle .wifi env.curVersion request .zero = some (ret, url) →
        ¬ Refuses ret ∧ (t.app.wifi.para.httpState.connected = true →
          ((yaWriteOtaEnableIntoFlash request.board url).run t.flash).1 = some 0)
  | .mcuRequest request =>
    t.app.mcu.para.httpState.downloading = true →
      ∀ ret url, yaOtaRequireHandle .mcu env.mcuVersion request .zero = some (ret, url) →
        ¬ Refuses ret
  | _ => True

/-- The states of the runs in which no request disturbs a download. -/
inductive ReachedUndisturbed : OtaTrace env → Prop
  | initial (flash : ByteMem) : ReachedUndisturbed (.initial flash)
  | next {t t' : OtaTrace env} {event : OtaEvent} (before : ReachedUndisturbed t)
      (undisturbed : t.Undisturbed event) (moved : t.next event = some t') : ReachedUndisturbed t'

theorem wifiRequire_equipped {request : OtaRequest} {app : OtaApp env.md5} {flash : ByteMem}
    (equipped : t.app.wifi.Equipped) (undisturbed : t.Undisturbed (.wifiRequest request))
    (ran : (wifiRequire env request t.app).run t.flash = (some app, flash)) :
    app.wifi.Equipped ∧ app.mcu = t.app.mcu := by
  obtain ⟨ret, url, handled, outcome⟩ := wifiRequire_cases ran
  cases downloading : t.app.wifi.para.httpState.downloading with
  | false =>
    rcases outcome with ⟨-, -, rfl⟩ | ⟨-, code, -, ⟨-, rfl⟩ | ⟨-, rfl⟩⟩
    · exact ⟨.request_idle downloading _, rfl⟩
    · exact ⟨.request_idle downloading _, rfl⟩
    · exact ⟨.of_idle rfl, rfl⟩
  | true =>
    obtain ⟨taken, noted⟩ := undisturbed downloading ret url handled
    rcases outcome with ⟨refused, -, -⟩ | ⟨-, code, written, ⟨failed, rfl⟩ | ⟨-, rfl⟩⟩
    · exact absurd refused taken
    · have unconnected : t.app.wifi.para.httpState.connected = false := by
        by_contra connected
        have success := noted (Bool.not_eq_false _ ▸ connected)
        rw [written] at success
        exact failed (Option.some.inj success)
      exact ⟨equipped.request_connect unconnected (yaOtaRequireHandle_filled handled taken).1, rfl⟩
    · exact ⟨.of_idle rfl, rfl⟩

theorem mcuRequire_equipped {request : OtaRequest} {app : OtaApp env.md5}
    (undisturbed : t.Undisturbed (.mcuRequest request))
    (moved : mcuRequire env request t.app = some app) :
    app.mcu.Equipped ∧ app.wifi = t.app.wifi := by
  obtain ⟨ret, url, handled, ⟨refused, rfl⟩ | ⟨-, rfl⟩⟩ := mcuRequire_cases moved
  · cases downloading : t.app.mcu.para.httpState.downloading with
    | false => exact ⟨.request_idle downloading _, rfl⟩
    | true => exact absurd refused (undisturbed downloading ret url handled)
  · exact ⟨.of_idle rfl, rfl⟩

theorem next_equipped {event : OtaEvent}
    (equipped : t.app.wifi.Equipped ∧ t.app.mcu.Equipped) (undisturbed : t.Undisturbed event)
    (moved : t.next event = some t') : t'.app.wifi.Equipped ∧ t'.app.mcu.Equipped := by
  obtain ⟨app, flash, ran, rfl⟩ := next_eq moved
  change app.wifi.Equipped ∧ app.mcu.Equipped
  obtain ⟨wifi, mcu⟩ := equipped
  cases event with
  | wifi input =>
    refine ⟨yaWifiOtaDownload_equipped wifi ran, ?_⟩
    rw [yaWifiOtaDownload_mcu ran]
    exact mcu
  | mcu input =>
    refine ⟨?_, yaMcuOtaDownload_equipped mcu ran⟩
    rw [yaMcuOtaDownload_wifi ran]
    exact wifi
  | wifiRequest request =>
    obtain ⟨kept, same⟩ := wifiRequire_equipped wifi undisturbed ran
    rw [same]
    exact ⟨kept, mcu⟩
  | mcuRequest request =>
    obtain ⟨kept, same⟩ := mcuRequire_equipped undisturbed (Prod.mk.inj ran).1
    rw [same]
    exact ⟨wifi, kept⟩

theorem ReachedUndisturbed.equipped (reached : t.ReachedUndisturbed) :
    t.app.wifi.Equipped ∧ t.app.mcu.Equipped := by
  induction reached with
  | initial flash => exact ⟨.of_idle rfl, .of_idle rfl⟩
  | next before undisturbed moved equipped => exact next_equipped equipped undisturbed moved

/-- In every state of a run without disturbing requests both machines have what their state
needs. -/
theorem otaResources (reached : t.ReachedUndisturbed) :
    t.app.wifi.Resources ∧ t.app.mcu.Resources := by
  obtain ⟨wifi, mcu⟩ := reached.equipped
  exact ⟨wifi.resources, mcu.resources⟩

/-! ## What a disturbing request does -/

/-- Without address and socket no state of a download but the two before the body has what it
needs. -/
theorem not_resources_of_freed {mod : OtaModule} {url : OtaUrlPara}
    (downloading : mod.para.httpState.downloading = true)
    (preFile : mod.para.httpState ≠ .preFileHandle) (earse : mod.para.httpState ≠ .earseFlash) :
    ¬ OtaModule.Resources { mod.otaInit with url := url.freeResource } := by
  intro resources
  have address := resources.address
  have line := resources.line
  change mod.para.httpState = _ ∨ mod.para.httpState = _ → _ at address
  change mod.para.httpState = _ ∨ mod.para.httpState = _ ∨ mod.para.httpState = _ → _ at line
  cases state : mod.para.httpState <;> rw [state] at downloading
  case httpConnect => cases (address (.inl state)).1
  case httpSendGet => cases (address (.inr state)).1
  case httpHeaderHandle => exact otaInit_socket mod (line (.inr (.inl state))).1
  case httpBodyHandle => exact otaInit_socket mod (line (.inr (.inr state))).1
  case preFileHandle => exact preFile state
  case earseFlash => exact earse state
  all_goals cases downloading

/-- A request that disturbs the WiFi machine takes away what its state needs. -/
theorem wifiRequest_disturbs {request : OtaRequest}
    (preFile : t.app.wifi.para.httpState ≠ .preFileHandle)
    (earse : t.app.wifi.para.httpState ≠ .earseFlash)
    (disturbs : ¬ t.Undisturbed (.wifiRequest request))
    (moved : t.next (.wifiRequest request) = some t') : ¬ t'.app.wifi.Resources := by
  obtain ⟨app, flash, ran, rfl⟩ := next_eq moved
  obtain ⟨ret, url, handled, outcome⟩ := wifiRequire_cases ran
  have downloading : t.app.wifi.para.httpState.downloading = true := by
    by_contra idle
    exact disturbs fun at_ => absurd at_ idle
  rcases outcome with ⟨-, -, rfl⟩ | ⟨taken, code, written, noted⟩
  · exact not_resources_of_freed downloading preFile earse
  -- a request that is taken disturbs when the note fails under a connection
  have failing : t.app.wifi.para.httpState.connected = true ∧ code ≠ 0 := by
    by_contra fine
    refine disturbs fun _ ret' url' handled' => ?_
    rw [handled] at handled'
    cases handled'
    refine ⟨taken, fun connected => ?_⟩
    rw [written]
    by_contra failed
    exact fine ⟨connected, fun zero => failed (congrArg some zero)⟩
  obtain ⟨connected, failed⟩ := failing
  rcases noted with ⟨-, rfl⟩ | ⟨written, -⟩
  · intro resources
    have line := resources.line
    change t.app.wifi.para.httpState = _ ∨ t.app.wifi.para.httpState = _ ∨
      t.app.wifi.para.httpState = _ → _ at line
    refine otaInit_socket t.app.wifi (line ?_).1
    cases state : t.app.wifi.para.httpState <;> rw [state] at connected
    case httpSendGet => exact .inl rfl
    case httpHeaderHandle => exact .inr (.inl rfl)
    case httpBodyHandle => exact .inr (.inr rfl)
    case preFileHandle => exact absurd state preFile
    case earseFlash => exact absurd state earse
    all_goals cases connected
  · exact absurd written failed

/-- The same for the controller's machine. -/
theorem mcuRequest_disturbs {request : OtaRequest}
    (preFile : t.app.mcu.para.httpState ≠ .preFileHandle)
    (earse : t.app.mcu.para.httpState ≠ .earseFlash)
    (disturbs : ¬ t.Undisturbed (.mcuRequest request))
    (moved : t.next (.mcuRequest request) = some t') : ¬ t'.app.mcu.Resources := by
  obtain ⟨app, flash, ran, rfl⟩ := next_eq moved
  obtain ⟨ret, url, handled, ⟨-, rfl⟩ | ⟨taken, -⟩⟩ := mcuRequire_cases (Prod.mk.inj ran).1
  · have downloading : t.app.mcu.para.httpState.downloading = true := by
      by_contra idle
      exact disturbs fun at_ => absurd at_ idle
    exact not_resources_of_freed downloading preFile earse
  · refine absurd (fun _ ret' url' handled' => ?_) disturbs
    rw [handled] at handled'
    cases handled'
    exact taken

/-- Steps of the WiFi machine meet no condition. -/
theorem ReachedUndisturbed.nexts (reached : t.ReachedUndisturbed) {inputs : List StepInput}
    (moved : t.nexts (inputs.map .wifi) = some t') : t'.ReachedUndisturbed := by
  refine nexts_kept (fun event mem t t' before moved => ?_) reached moved
  rcases List.mem_map.mp mem with ⟨input, -, rfl⟩
  have undisturbed : t.Undisturbed (.wifi input) := trivial
  exact before.next undisturbed moved

end OtaTrace

/-! ## A download, and two that refused requests slip into -/

/-- The download of 64 bytes reaches the body with a socket and a buffer. -/
theorem otaResources_download64 : ∃ t : OtaTrace countingEnv, t.ReachedUndisturbed ∧
    t.status = .httpBodyHandle ∧ t.app.wifi.Resources ∧ t.app.mcu.Resources := by
  have ran : (((OtaTrace.initial fun _ => 0 : OtaTrace countingEnv).next
      (.wifiRequest request64)).bind fun t =>
        (t.nexts ((headerSteps (bodyOf 64 0) ++ List.replicate 2 (okInput [])).map .wifi)).map
          OtaTrace.status) = some .httpBodyHandle := by decide +kernel
  obtain ⟨t₁, requested, mapped⟩ := Option.bind_eq_some_iff.mp ran
  obtain ⟨t, moved, state⟩ := Option.map_eq_some_iff.mp mapped
  have undisturbed : (OtaTrace.initial fun _ => 0 : OtaTrace countingEnv).Undisturbed
      (.wifiRequest request64) := by
    intro downloading
    cases downloading
  have reached : t.ReachedUndisturbed :=
    ((OtaTrace.ReachedUndisturbed.initial _).next undisturbed requested).nexts moved
  exact ⟨t, reached, state, OtaTrace.otaResources reached⟩

/-- Both machines connect, and each gets a request that it refuses. -/
def disturbed64 : List OtaEvent :=
  [.wifiRequest request64, .wifi (okInput []), .wifi (okInput []),
    .mcuRequest request64, .mcu (okInput []), .mcu (okInput []),
    .wifiRequest refused64, .mcuRequest refused64]

theorem otaResources_disturbed64 : ∃ t : OtaTrace countingEnv,
    (OtaTrace.initial fun _ => 0).nexts disturbed64 = some t ∧
    ¬ t.app.wifi.Resources ∧ ¬ t.app.mcu.Resources := by
  have ran : ((OtaTrace.initial fun _ => 0 : OtaTrace countingEnv).nexts disturbed64).map (fun t =>
      (t.app.wifi.para.httpState, t.app.wifi.para.otaServerSocket,
        t.app.mcu.para.httpState, t.app.mcu.para.otaServerSocket)) =
      some (.httpSendGet, -1, .httpSendGet, -1) := by decide +kernel
  obtain ⟨t, moved, states⟩ := Option.map_eq_some_iff.mp ran
  obtain ⟨wifiState, rest⟩ := Prod.mk.inj states
  obtain ⟨wifiSocket, rest⟩ := Prod.mk.inj rest
  obtain ⟨mcuState, mcuSocket⟩ := Prod.mk.inj rest
  refine ⟨t, moved, fun resources => ?_, fun resources => ?_⟩
  · have socket := (resources.line (.inl wifiState)).1
    rw [wifiSocket] at socket
    cases socket
  · have socket := (resources.line (.inl mcuState)).1
    rw [mcuSocket] at socket
    cases socket

end Tr6260
