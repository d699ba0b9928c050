import Tr6260.Ota.Integrity

/-!
# The controller's download next to the module's

Both machines use the one writer `g_otaInfo` and the one OTA partition:
`ya_http_ota_sector_erase` and `ya_http_ota_sector_write` ignore the address
they are given. Everything else the machines have apart. A run with the
controller's steps is compared with the run from which they are removed: as
long as the controller neither erases nor writes while the WiFi machine is
between `YA_EARSE_FLASH` and the reboot, and writes nowhere outside the
partition, the WiFi machine does not see the difference.
-/

namespace Tr6260

open FlashProg ByteMem

/-! ## Flags and requests write only -/

theorem halSpifiashWrite_blind (addr : Nat) (buf : List UInt8) :
    (halSpifiashWrite addr buf).Blind := by
  unfold halSpifiashWrite
  split <;> trivial

theorem halSpiflashErase_blind (addr len : Nat) : (halSpiflashErase addr len).Blind := by
  unfold halSpiflashErase
  split <;> trivial

theorem yaHalFlashEraseLoop_blind (addr count : Nat) : (yaHalFlashEraseLoop addr count).Blind := by
  induction count generalizing addr with
  | zero => trivial
  | succ count ih =>
    refine (halSpiflashErase_blind _ _).bind fun ret => ?_
    split
    · trivial
    · exact ih _

theorem yaHalFlashWrite_blind (board : Board) (addr : Nat) (data : List UInt8) :
    (yaHalFlashWrite board addr data).Blind := by
  refine (yaHalFlashEraseLoop_blind _ _).bind fun ret => ?_
  split
  · trivial
  · refine (halSpifiashWrite_blind _ _).bind fun ret => ?_
    split <;> trivial

theorem yaWriteFlash_blind (board : Board) (addr : Nat) (data : List UInt8) (block : UInt8) :
    (yaWriteFlash board addr data block).Blind := by
  unfold yaWriteFlash
  split
  · trivial
  split
  · trivial
  split
  · trivial
  split
  · trivial
  · exact (yaHalFlashWrite_blind _ _ _).bind fun ret => trivial

/-! ## What the WiFi machine reads -/

section Frame

variable {env : OtaEnv}

/-- The same WiFi machine next to another controller and another writer. -/
def OtaApp.beside (app : OtaApp env.md5) (mcu : OtaModule) (hal : OtaOperateInfo) :
    OtaApp env.md5 := { app with mcu, hal }

theorem wifiHeaderStep_beside (input : StepInput) (app : OtaApp env.md5) (mcu : OtaModule)
    (hal : OtaOperateInfo) :
    wifiHeaderStep env input (app.beside mcu hal) =
      (wifiHeaderStep env input app).map fun app => app.beside mcu hal := by
  unfold wifiHeaderStep OtaApp.beside
  dsimp only
  split
  · rfl
  · split
    · rfl
    split
    · split <;> rfl
    · rfl

/-- The states in which the WiFi machine has the writer and the partition in use. -/
def OtaStatus.writing : OtaStatus → Bool
  | .httpBodyHandle | .httpChecksum | .waitToReboot => true
  | _ => false

/-- Outside these states and the one that erases, a step sees neither the controller nor the
writer nor the flash. -/
theorem yaWifiOtaDownload_beside (input : StepInput) {app : OtaApp env.md5}
    (quiet : app.wifi.para.httpState.writing = false)
    (keeps : app.wifi.para.httpState ≠ .earseFlash) (mcu : OtaModule) (hal : OtaOperateInfo)
    (m m' : ByteMem) :
    (yaWifiOtaDownload env input (app.beside mcu hal)).run m' =
      (((yaWifiOtaDownload env input app).run m).1.map fun app => app.beside mcu hal, m') ∧
    ((yaWifiOtaDownload env input app).run m).2 = m := by
  unfold yaWifiOtaDownload
  have same : (app.beside mcu hal).wifi = app.wifi := rfl
  rw [same]
  cases state : app.wifi.para.httpState <;> rw [state] at quiet keeps
  case httpBodyHandle => cases quiet
  case httpChecksum => cases quiet
  case waitToReboot => cases quiet
  case earseFlash => exact absurd rfl keeps
  case httpSendGet =>
    dsimp only
    rw [run_pure, run_pure, Option.map_map]
    exact ⟨rfl, rfl⟩
  case httpHeaderHandle =>
    dsimp only
    rw [run_pure, run_pure, wifiHeaderStep_beside]
    exact ⟨rfl, rfl⟩
  all_goals exact ⟨rfl, rfl⟩

theorem wifiBodyStep_beside (input : StepInput) (app : OtaApp env.md5) (mcu : OtaModule)
    (m : ByteMem) :
    (wifiBodyStep env input { app with mcu }).run m =
      (((wifiBodyStep env input app).run m).1.map fun app => { app with mcu },
        ((wifiBodyStep env input app).run m).2) := by
  unfold wifiBodyStep
  dsimp only
  cases app.wifi.para.otaBuffer with
  | none => rfl
  | some buffer =>
    dsimp only
    rw [run_bind, run_bind]
    generalize (yaHttpBodyHandle app.wifi.file (input.read app.wifi.para.otaServerSocket) buffer
      app.hal).run m = outcome
    obtain ⟨_ | result, m'⟩ := outcome
    · rfl
    · dsimp only
      split
      · rfl
      split <;> rfl

theorem wifiChecksumStep_beside (app : OtaApp env.md5) (mcu : OtaModule) (m : ByteMem) :
    (wifiChecksumStep env { app with mcu }).run m =
      (((wifiChecksumStep env app).run m).1.map fun app => { app with mcu },
        ((wifiChecksumStep env app).run m).2) := by
  unfold wifiChecksumStep
  dsimp only
  rw [run_bind, run_bind]
  generalize (yaVerifyOtaChecksum env.md5 app.hal app.wifi.file.fileLen app.wifi.url.md5).run m =
    outcome
  obtain ⟨_ | verdict, m'⟩ := outcome
  · rfl
  · dsimp only
    split <;> rfl

/-- In these states a step does not see the controller. -/
theorem yaWifiOtaDownload_writing (input : StepInput) {app : OtaApp env.md5}
    (writing : app.wifi.para.httpState.writing = true) (mcu : OtaModule) (m : ByteMem) :
    (yaWifiOtaDownload env input { app with mcu }).run m =
      (((yaWifiOtaDownload env input app).run m).1.map fun app => { app with mcu },
        ((yaWifiOtaDownload env input app).run m).2) := by
  unfold yaWifiOtaDownload
  dsimp only
  cases state : app.wifi.para.httpState <;> rw [state] at writing
  case httpBodyHandle => exact wifiBodyStep_beside input app mcu m
  case httpChecksum => exact wifiChecksumStep_beside app mcu m
  case waitToReboot =>
    dsimp only
    rw [run_bind]
    rfl
  all_goals cases writing

theorem wifiRequire_beside (request : OtaRequest) (app : OtaApp env.md5) (mcu : OtaModule)
    (hal : OtaOperateInfo) (m : ByteMem) :
    (wifiRequire env request (app.beside mcu hal)).run m =
      (((wifiRequire env request app).run m).1.map fun app => app.beside mcu hal,
        ((wifiRequire env request app).run m).2) := by
  unfold wifiRequire OtaApp.beside
  dsimp only
  split
  · rfl
  · split
    · rfl
    · rw [run_bind, run_bind]
      generalize (yaWriteOtaEnableIntoFlash request.board _).run m = outcome
      obtain ⟨_ | code, m'⟩ := outcome
      · rfl
      · dsimp only
        split <;> rfl

theorem wifiRequire_blind (request : OtaRequest) (app : OtaApp env.md5) :
    (wifiRequire env request app).Blind := by
  unfold wifiRequire
  dsimp only
  split
  · trivial
  · split
    · trivial
    · refine (yaWriteFlash_blind _ _ _ _).bind fun code => ?_
      split
      · trivial
      · split <;> trivial

end Frame

/-! ## The condition -/

/-- An address that is not the partition's. -/
def OtaPlace.Outside (place : OtaPlace) (a : Nat) : Prop :=
  a < place.base ∨ place.base + place.len ≤ a

/-- `otaHal_write` does not refuse the bytes at once: they stay within the announced size, or
they hold a whole package header when none has been seen. -/
def OtaOperateInfo.Touches (info : OtaOperateInfo) (data : List UInt8) : Prop :=
  if info.getFirstFrame then u32 (info.offset + data.length) ≤ info.dataLen
  else sizeofOtaPkgHeader ≤ data.length

instance (info : OtaOperateInfo) (data : List UInt8) : Decidable (info.Touches data) :=
  inferInstanceAs (Decidable (if info.getFirstFrame = true then _ else _))

/-- Refused bytes leave everything as it is. -/
theorem otaHalWrite_untouched {info : OtaOperateInfo} {data : List UInt8}
    (refused : ¬ info.Touches data) : otaHalWrite info data = Pure.pure (-1, info) := by
  unfold OtaOperateInfo.Touches at refused
  unfold otaHalWrite
  split
  next first =>
    rw [if_pos first] at refused
    rw [otaHalAppend, if_pos (Nat.not_le.mp refused)]
  next first =>
    rw [if_neg first] at refused
    rw [if_pos (Nat.not_le.mp refused)]

/-- A write programs its bytes at one place or nothing. -/
theorem otaHalWrite_image (info : OtaOperateInfo) (data : List UInt8) (m : ByteMem) :
    ((otaHalWrite info data).run m).2 = m ∨
      ∃ addr, (otaHalWrite info data).writes m = [(addr, data)] ∧
        ((otaHalWrite info data).run m).2 = m.program addr data := by
  have append (info : OtaOperateInfo) : ((otaHalAppend info data).run m).2 = m ∨
      ∃ addr, (otaHalAppend info data).writes m = [(addr, data)] ∧
        ((otaHalAppend info data).run m).2 = m.program addr data := by
    unfold otaHalAppend
    split
    · exact .inl rfl
    · rw [run_bind, halSpifiashWrite_run, writes_bind, halSpifiashWrite_run]
      by_cases empty : data = []
      · rw [empty, program_nil]
        exact .inl rfl
      · rw [halSpifiashWrite_writes _ empty]
        exact .inr ⟨_, rfl, rfl⟩
  unfold otaHalWrite
  split
  · exact append _
  split
  · exact .inl rfl
  split
  · exact .inl rfl
  · exact append _

namespace OtaTrace

variable {env : OtaEnv}

/-- `otaHal_init` would find the writer and the partition as it leaves them. -/
def ErasesNothing (place : OtaPlace) (t : OtaTrace env) : Prop :=
  t.app.hal = place.fresh ∧ ∀ i < place.len, t.flash (place.base + i) = 0xFF

/-- What the next call of `ya_http_body_handle` for the controller hands to the writer. -/
def handed (t : OtaTrace env) : Option (List UInt8) :=
  t.app.mcu.para.otaBuffer.bind t.app.mcu.file.handsOver

/-- The controller's step keeps off: while the WiFi machine uses writer and partition it erases
nothing that is not erased and hands over no bytes that `otaHal_write` would take, and what it
writes at other times lies in the partition. -/
def KeepsOff (place : OtaPlace) (t : OtaTrace env) : OtaEvent → Prop
  | .mcu _ =>
    (t.app.mcu.para.httpState = .earseFlash → t.status.writing = true → t.ErasesNothing place) ∧
    (t.app.mcu.para.httpState = .httpBodyHandle → ∀ data ∈ t.handed,
      (t.status.writing = true → ¬ t.app.hal.Touches data) ∧
        ∀ write ∈ (otaHalWrite t.app.hal data).writes t.flash,
          place.base ≤ write.1 ∧ write.1 + write.2.length ≤ place.base + place.len)
  | _ => True

instance (place : OtaPlace) (t : OtaTrace env) : Decidable (t.ErasesNothing place) :=
  inferInstanceAs (Decidable (_ ∧ _))

instance (place : OtaPlace) (t : OtaTrace env) (event : OtaEvent) :
    Decidable (t.KeepsOff place event) :=
  match event with
  | .mcu _ => inferInstanceAs (Decidable (_ ∧ _))
  | .wifi _ | .wifiRequest _ | .mcuRequest _ => inferInstanceAs (Decidable True)

/-- Every action of the run keeps off. -/
def KeepsOffAlong (place : OtaPlace) : OtaTrace env → List OtaEvent → Prop
  | _, [] => True
  | t, event :: events =>
    t.KeepsOff place event ∧ ∀ t' ∈ t.next event, t'.KeepsOffAlong place events

instance decidableKeepsOffAlong (place : OtaPlace) :
    (events : List OtaEvent) → (t : OtaTrace env) → Decidable (t.KeepsOffAlong place events)
  | [], _ => inferInstanceAs (Decidable True)
  | event :: events, t =>
    have (t' : OtaTrace env) : Decidable (t'.KeepsOffAlong place events) :=
      decidableKeepsOffAlong place events t'
    inferInstanceAs (Decidable (t.KeepsOff place event ∧
      ∀ t' ∈ t.next event, t'.KeepsOffAlong place events))

/-! ## Two runs -/

/-- A controller that no request has reached. -/
def Unasked (u : OtaTrace env) : Prop :=
  u.app.mcu.url.httpHost = none ∧
    (u.app.mcu.para.httpState = .httpStart ∨ u.app.mcu.para.httpState = .httpIdle)

/-- The same WiFi machine, with the same flash but for the partition, and with the same writer
and partition while it uses them. -/
structure Alike (place : OtaPlace) (t u : OtaTrace env) : Prop where
  beside : t.app = u.app.beside t.app.mcu t.app.hal
  outside : ∀ a, place.Outside a → t.flash a = u.flash a
  inside : t.status.writing = true → t.app.hal = u.app.hal ∧ t.flash = u.flash

variable {place : OtaPlace} {t u : OtaTrace env}

theorem Alike.wifi (alike : Alike place t u) : t.app.wifi = u.app.wifi := by
  rw [alike.beside]
  rfl

theorem Alike.status (alike : Alike place t u) : t.status = u.status := by
  rw [OtaTrace.status, alike.wifi]
  rfl

/-! ## Steps of the controller -/

theorem ErasesNothing.erase (nothing : t.ErasesNothing place) :
    t.flash.erase place.base place.len = t.flash := by
  funext a
  unfold ByteMem.erase
  split
  next inside =>
    have blank := nothing.2 (a - place.base) (by omega)
    rw [Nat.add_sub_cancel' inside.1] at blank
    exact blank.symm
  · rfl

theorem alike_mcuErase (part : env.part = place.entry) (alike : Alike place t u)
    (off : t.status.writing = true → t.ErasesNothing place) (mcu : OtaModule) (event : OtaEvent) :
    Alike place (t.record event { t.app with mcu, hal := ((otaHalInit env.part).run t.flash).1.2 }
      ((otaHalInit env.part).run t.flash).2) u := by
  rw [part, otaHalInit_run]
  refine ⟨?_, fun a outside => ?_, fun writing => ?_⟩
  · change { t.app with mcu, hal := place.fresh } = u.app.beside mcu place.fresh
    rw [alike.beside]
    rfl
  · rw [← alike.outside a outside]
    exact if_neg (by rcases outside with low | high <;> omega)
  · have nothing := off writing
    obtain ⟨hal, flash⟩ := alike.inside writing
    exact ⟨nothing.1.symm.trans hal, nothing.erase.trans flash⟩

theorem alike_mcuWrite (alike : Alike place t u) {data : List UInt8} {ret : Int}
    {hal : OtaOperateInfo} {flash : ByteMem}
    (off : t.status.writing = true → ¬ t.app.hal.Touches data)
    (lies : ∀ write ∈ (otaHalWrite t.app.hal data).writes t.flash,
      place.base ≤ write.1 ∧ write.1 + write.2.length ≤ place.base + place.len)
    (ran : (otaHalWrite t.app.hal data).run t.flash = ((ret, hal), flash)) (mcu : OtaModule)
    (event : OtaEvent) : Alike place (t.record event { t.app with mcu, hal } flash) u := by
  refine ⟨?_, fun a outside => ?_, fun writing => ?_⟩
  · change { t.app with mcu, hal } = u.app.beside mcu hal
    rw [alike.beside]
    rfl
  · rw [← alike.outside a outside]
    have image := otaHalWrite_image t.app.hal data t.flash
    rw [ran] at image
    rcases image with same | ⟨addr, writes, same⟩
    · exact congrFun same a
    · obtain ⟨low, high⟩ := lies (addr, data) (by rw [writes]; exact List.mem_cons_self)
      refine (congrFun same a).trans (if_neg ?_)
      dsimp only at low high
      rcases outside with below | above <;> omega
  · change t.status.writing = true at writing
    rw [otaHalWrite_untouched (off writing)] at ran
    cases ran
    exact alike.inside writing

theorem alike_mcu (part : env.part = place.entry) (alike : Alike place t u) {input : StepInput}
    (off : t.KeepsOff place (.mcu input)) {app : OtaApp env.md5} {flash : ByteMem}
    (ran : (yaMcuOtaDownload env input t.app).run t.flash = (some app, flash)) :
    Alike place (t.record (.mcu input) app flash) u := by
  have only (mcu : OtaModule) : Alike place (t.record (.mcu input) { t.app with mcu } t.flash) u := by
    refine ⟨?_, alike.outside, alike.inside⟩
    change { t.app with mcu } = u.app.beside mcu t.app.hal
    rw [alike.beside]
    rfl
  rcases yaMcuOtaDownload_cases ran with ⟨⟨mcu, rfl⟩, rfl⟩ | ⟨at_, mcu, rfl, rfl⟩ |
    ⟨at_, mcu, buffer, result, buffered, handled, rfl⟩
  · exact only mcu
  · exact alike_mcuErase part alike (off.1 at_) mcu _
  · obtain ⟨-, ⟨-, hal, rfl⟩ | ⟨data, ret, given, written⟩⟩ := yaHttpBodyHandle_frame handled
    · rw [hal]
      exact only mcu
    · have handed : data ∈ t.handed := by
        rw [OtaTrace.handed, buffered]
        exact given
      obtain ⟨untouched, lies⟩ := off.2 at_ data handed
      exact alike_mcuWrite alike untouched lies written mcu _

theorem alike_mcuRequest (alike : Alike place t u) {request : OtaRequest} {app : OtaApp env.md5}
    (moved : mcuRequire env request t.app = some app) :
    Alike place (t.record (.mcuRequest request) app t.flash) u := by
  obtain ⟨mcu, rfl⟩ := mcuRequire_eq moved
  refine ⟨?_, alike.outside, alike.inside⟩
  change { t.app with mcu } = u.app.beside mcu t.app.hal
  rw [alike.beside]
  rfl

/-! ## Steps of both runs -/

/-- Only the erased partition leads into the states that use the writer. -/
theorem writing_successor {state state' : OtaStatus} (quiet : state.writing = false)
    (keeps : state ≠ .earseFlash) (successor : state' ∈ state.successors) :
    state'.writing = false := by
  revert quiet keeps successor
  cases state <;> cases state' <;> decide

theorem alike_erase (part : env.part = place.entry) (alike : Alike place t u) {input : StepInput}
    (at_ : t.status = .earseFlash) {app : OtaApp env.md5} {flash : ByteMem}
    (ran : (yaWifiOtaDownload env input t.app).run t.flash = (some app, flash)) :
    ∃ u', u.next (.wifi input) = some u' ∧ Alike place (t.record (.wifi input) app flash) u' := by
  have at' : u.status = .earseFlash := alike.status ▸ at_
  have erase (v : OtaTrace env) (state : v.status = .earseFlash) :
      (yaWifiOtaDownload env input v.app).run v.flash =
        (some { v.app with hal := place.fresh, wifi := v.app.wifi.setState .httpBodyHandle },
          v.flash.erase place.base place.len) := by
    unfold yaWifiOtaDownload
    rw [show v.app.wifi.para.httpState = .earseFlash from state]
    dsimp only
    rw [run_bind, wifiEarseStep_run part]
    rfl
  rw [erase t at_] at ran
  cases ran
  have flash : t.flash.erase place.base place.len = u.flash.erase place.base place.len := by
    funext a
    unfold ByteMem.erase
    split
    · rfl
    next outside => exact alike.outside a (by unfold OtaPlace.Outside; omega)
  refine ⟨_, next_of_run (erase u at'), ?_, fun a _ => congrFun flash a, fun _ => ⟨rfl, flash⟩⟩
  change { t.app with hal := place.fresh, wifi := t.app.wifi.setState .httpBodyHandle } =
    OtaApp.beside { u.app with hal := place.fresh, wifi := u.app.wifi.setState .httpBodyHandle }
      t.app.mcu place.fresh
  rw [alike.beside]
  rfl

theorem alike_writing (alike : Alike place t u) {input : StepInput}
    (writing : t.status.writing = true) {app : OtaApp env.md5} {flash : ByteMem}
    (ran : (yaWifiOtaDownload env input t.app).run t.flash = (some app, flash)) :
    ∃ u', u.next (.wifi input) = some u' ∧ Alike place (t.record (.wifi input) app flash) u' := by
  obtain ⟨hal, flash_eq⟩ := alike.inside writing
  have beside : t.app = { u.app with mcu := t.app.mcu } := by
    have same := alike.beside
    rw [hal] at same
    exact same
  have frame := yaWifiOtaDownload_writing input (alike.status ▸ writing : u.status.writing = true)
    t.app.mcu u.flash
  rw [← beside, ← flash_eq, ran] at frame
  obtain ⟨mapped, rfl⟩ := Prod.mk.inj frame
  obtain ⟨app', ran', rfl⟩ := Option.map_eq_some_iff.mp mapped.symm
  refine ⟨_, next_of_run (Prod.ext (by rw [← flash_eq]; exact ran') rfl), rfl, ?_, ?_⟩
  · intro a _
    rw [← flash_eq]
    rfl
  · intro _
    rw [← flash_eq]
    exact ⟨rfl, rfl⟩

theorem alike_quiet (alike : Alike place t u) {input : StepInput}
    (quiet : t.status.writing = false) (keeps : t.status ≠ .earseFlash) {app : OtaApp env.md5}
    {flash : ByteMem} (ran : (yaWifiOtaDownload env input t.app).run t.flash = (some app, flash)) :
    ∃ u', u.next (.wifi input) = some u' ∧ Alike place (t.record (.wifi input) app flash) u' := by
  have after := writing_successor quiet keeps (yaWifiOtaDownload_successor ran)
  rw [alike.status] at quiet keeps
  obtain ⟨frame, flash'⟩ := yaWifiOtaDownload_beside input quiet keeps t.app.mcu t.app.hal u.flash
    t.flash
  rw [← alike.beside, ran] at frame
  obtain ⟨mapped, rfl⟩ := Prod.mk.inj frame
  obtain ⟨app', ran', rfl⟩ := Option.map_eq_some_iff.mp mapped.symm
  refine ⟨_, next_of_run (Prod.ext ran' flash'), rfl, alike.outside, fun writing => ?_⟩
  change app'.wifi.para.httpState.writing = true at writing
  change app'.wifi.para.httpState.writing = false at after
  rw [after] at writing
  cases writing

theorem alike_wifi (part : env.part = place.entry) (alike : Alike place t u) {input : StepInput}
    {t' : OtaTrace env} (moved : t.next (.wifi input) = some t') :
    ∃ u', u.next (.wifi input) = some u' ∧ Alike place t' u' := by
  obtain ⟨app, flash, ran, rfl⟩ := next_eq moved
  by_cases erases : t.status = .earseFlash
  · exact alike_erase part alike erases ran
  cases writing : t.status.writing with
  | true => exact alike_writing alike writing ran
  | false => exact alike_quiet alike writing erases ran

theorem alike_wifiRequest (alike : Alike place t u) {request : OtaRequest} {t' : OtaTrace env}
    (moved : t.next (.wifiRequest request) = some t') :
    ∃ u', u.next (.wifiRequest request) = some u' ∧ Alike place t' u' := by
  obtain ⟨app, flash, ran, rfl⟩ := next_eq moved
  change (wifiRequire env request t.app).run t.flash = (some app, flash) at ran
  have frame := wifiRequire_beside request u.app t.app.mcu t.app.hal t.flash
  obtain ⟨result, image⟩ := (wifiRequire_blind request u.app).run_eq t.flash u.flash
  rw [← alike.beside, ran] at frame
  obtain ⟨mapped, rfl⟩ := Prod.mk.inj frame
  obtain ⟨app', ran', rfl⟩ := Option.map_eq_some_iff.mp mapped.symm
  rw [result] at ran'
  have moved' : (wifiRequire env request u.app).run u.flash =
      (some app', ((wifiRequire env request u.app).run u.flash).2) := Prod.ext ran' rfl
  refine ⟨_, next_of_run moved', rfl, fun a outside => image a (alike.outside a outside),
    fun writing => ?_⟩
  change app'.wifi.para.httpState.writing = true at writing
  have before : t.status.writing = true ∧ app'.hal = u.app.hal := by
    rw [alike.status]
    obtain ⟨ret, url, -, ⟨-, -, rfl⟩ | ⟨-, code, -, ⟨-, rfl⟩ | ⟨-, rfl⟩⟩⟩ :=
      wifiRequire_cases moved'
    · exact ⟨writing, rfl⟩
    · exact ⟨writing, rfl⟩
    · cases writing
  obtain ⟨hal, flash⟩ := alike.inside before.1
  exact ⟨hal.trans before.2.symm, funext fun a => image a (congrFun flash a)⟩

/-! ## A controller without a request -/

/-- Its steps change nothing but its own state. -/
theorem Unasked.next (unasked : u.Unasked) (input : StepInput) :
    ∃ mcu, u.next (.mcu input) = some (u.record (.mcu input) { u.app with mcu } u.flash) ∧
      OtaTrace.Unasked (u.record (.mcu input) { u.app with mcu } u.flash) := by
  obtain ⟨host, start | idle⟩ := unasked
  · have ran : (yaMcuOtaDownload env input u.app).run u.flash =
        (some { u.app with mcu := u.app.mcu.setState .httpIdle }, u.flash) := by
      unfold yaMcuOtaDownload OtaModule.startStep
      rw [start]
      dsimp only
      rw [if_pos (.inl host)]
      rfl
    exact ⟨_, next_of_run ran, host, .inr rfl⟩
  · have ran : (yaMcuOtaDownload env input u.app).run u.flash =
        (some { u.app with mcu := u.app.mcu }, u.flash) := by
      unfold yaMcuOtaDownload
      rw [idle]
      rfl
    exact ⟨_, next_of_run ran, host, .inr idle⟩

theorem Alike.right (alike : Alike place t u) (event : OtaEvent) (mcu : OtaModule) :
    Alike place t (u.record event { u.app with mcu } u.flash) :=
  ⟨alike.beside, alike.outside, alike.inside⟩

theorem Unasked.wifi (unasked : u.Unasked) {input : StepInput} {u' : OtaTrace env}
    (moved : u.next (.wifi input) = some u') : u'.Unasked := by
  obtain ⟨app, flash, ran, rfl⟩ := next_eq moved
  unfold OtaTrace.Unasked
  rw [show (u.record (.wifi input) app flash).app.mcu = u.app.mcu from yaWifiOtaDownload_mcu ran]
  exact unasked

theorem Unasked.wifiRequest (unasked : u.Unasked) {request : OtaRequest} {u' : OtaTrace env}
    (moved : u.next (.wifiRequest request) = some u') : u'.Unasked := by
  obtain ⟨app, flash, ran, rfl⟩ := next_eq moved
  obtain ⟨ret, url, -, ⟨-, -, rfl⟩ | ⟨-, code, -, ⟨-, rfl⟩ | ⟨-, rfl⟩⟩⟩ := wifiRequire_cases ran <;>
    exact unasked

/-! ## Runs -/

/-- The actions of a loop that receives no request for the controller. -/
def withoutMcuRequest (events : List OtaEvent) : List OtaEvent :=
  events.filter fun
    | .mcuRequest _ => false
    | _ => true

/-- The same result, and the same image while there is one: in the partition up to the reboot,
and with the state records behind it. -/
structure SameOutcome (t u : OtaTrace env) : Prop where
  wifi : t.app.wifi = u.app.wifi
  image : t.status.writing = true → t.app.hal = u.app.hal ∧ t.flash = u.flash
  done : t.status = .waitToReboot →
    ((otaHalDone env.crc32 t.app.hal).run t.flash).2 =
      ((otaHalDone env.crc32 u.app.hal).run u.flash).2

theorem Alike.sameOutcome (alike : Alike place t u) : t.SameOutcome u := by
  refine ⟨alike.wifi, alike.inside, fun reboot => ?_⟩
  obtain ⟨hal, flash⟩ := alike.inside (by rw [reboot]; rfl)
  rw [hal, flash]

/-- Action by action, the run without the requests follows the one with them. -/
theorem alike_nexts (part : env.part = place.entry) {t t' u : OtaTrace env}
    {events : List OtaEvent} (alike : Alike place t u) (unasked : u.Unasked)
    (ran : t.nexts events = some t') (off : t.KeepsOffAlong place events) :
    ∃ u', u.nexts (withoutMcuRequest events) = some u' ∧ Alike place t' u' := by
  induction events generalizing t u with
  | nil =>
    cases ran
    exact ⟨u, rfl, alike⟩
  | cons event events ih =>
    obtain ⟨t₁, first, rest⟩ := Option.bind_eq_some_iff.mp ran
    have off₁ := off.2 t₁ first
    cases event with
    | wifi input =>
      obtain ⟨u₁, moved, alike₁⟩ := alike_wifi part alike first
      obtain ⟨u', ran', alike'⟩ := ih alike₁ (unasked.wifi moved) rest off₁
      exact ⟨u', Option.bind_eq_some_iff.mpr ⟨u₁, moved, ran'⟩, alike'⟩
    | mcu input =>
      obtain ⟨mcu, moved, unasked₁⟩ := unasked.next input
      obtain ⟨app, flash, step, rfl⟩ := next_eq first
      have alike₁ := (alike_mcu part alike off.1 step).right (.mcu input) mcu
      obtain ⟨u', ran', alike'⟩ := ih alike₁ unasked₁ rest off₁
      exact ⟨u', Option.bind_eq_some_iff.mpr ⟨_, moved, ran'⟩, alike'⟩
    | wifiRequest request =>
      obtain ⟨u₁, moved, alike₁⟩ := alike_wifiRequest alike first
      obtain ⟨u', ran', alike'⟩ := ih alike₁ (unasked.wifiRequest moved) rest off₁
      exact ⟨u', Option.bind_eq_some_iff.mpr ⟨u₁, moved, ran'⟩, alike'⟩
    | mcuRequest request =>
      obtain ⟨app, flash, step, rfl⟩ := next_eq first
      obtain ⟨required, rfl⟩ := Prod.mk.inj step
      exact ih (alike_mcuRequest alike required) unasked rest off₁

end OtaTrace

/-- In every run in which the controller keeps off, the WiFi download leaves the image and ends
with the result it has when the controller's requests are not received. -/
theorem otaIsolation {env : OtaEnv} {place : OtaPlace} (part : env.part = place.entry)
    {flash : ByteMem} {events : List OtaEvent} {t : OtaTrace env}
    (ran : (OtaTrace.initial flash).nexts events = some t)
    (off : (OtaTrace.initial flash : OtaTrace env).KeepsOffAlong place events) :
    ∃ u, (OtaTrace.initial flash).nexts (OtaTrace.withoutMcuRequest events) = some u ∧
      t.SameOutcome u := by
  have start : OtaTrace.Alike place (OtaTrace.initial flash : OtaTrace env) (.initial flash) :=
    ⟨rfl, fun _ _ => rfl, fun _ => ⟨rfl, rfl⟩⟩
  have unasked : (OtaTrace.initial flash : OtaTrace env).Unasked := ⟨rfl, .inl rfl⟩
  obtain ⟨u, ran', alike⟩ := OtaTrace.alike_nexts part start unasked ran off
  exact ⟨u, ran', alike.sameOutcome⟩

/-! ## A download next to a file for the controller -/

/-- A streaming function that adds up the bytes. -/
def summingHash : Md5 where
  Ctx := Nat
  freed := 0
  starts := 0
  update := fun n bytes => n + (bytes.map UInt8.toNat).sum
  finish := fun n => UInt8.ofNat n :: List.replicate 15 0
  update_nil := fun _ => rfl
  update_append := fun n xs ys => by
    rw [List.map_append, List.sum_append, Nat.add_assoc]

def summingEnv : OtaEnv := deviceEnv summingHash

/-- The response that carries a package of 64 bytes. -/
def response64 : List UInt8 := header64 ++ bodyOf 64 0

/-- `count` rounds of the loop with an empty queue; both servers send the response. -/
def rounds (count : Nat) : List OtaEvent :=
  (List.replicate count [.wifi (okInput response64), .mcu (okInput response64)]).flatten

/-- Two requests, two rounds apart, and some rounds more. -/
def twoRequests (first second : OtaEvent) (count : Nat) : List OtaEvent :=
  rounds 1 ++ [first] ++ rounds 2 ++ [second] ++ rounds count

/-- The controller is two rounds ahead and through with its file when the WiFi machine erases. -/
theorem otaIsolation_mcuFirst : ∃ t u : OtaTrace summingEnv,
    (OtaTrace.initial fun _ => 0).nexts
      (twoRequests (.mcuRequest request64) (.wifiRequest request64) 8) = some t ∧
    (OtaTrace.initial fun _ => 0).nexts (OtaTrace.withoutMcuRequest
      (twoRequests (.mcuRequest request64) (.wifiRequest request64) 8)) = some u ∧
    t.status = .waitToReboot ∧ t.SameOutcome u := by
  have ran : ((OtaTrace.initial fun _ => 0 : OtaTrace summingEnv).nexts
      (twoRequests (.mcuRequest request64) (.wifiRequest request64) 8)).map OtaTrace.status =
      some .waitToReboot := by decide +kernel
  have off : (OtaTrace.initial fun _ => 0 : OtaTrace summingEnv).KeepsOffAlong dataOta
      (twoRequests (.mcuRequest request64) (.wifiRequest request64) 8) := by decide +kernel
  obtain ⟨t, moved, reboot⟩ := Option.map_eq_some_iff.mp ran
  obtain ⟨u, moved', same⟩ := otaIsolation rfl moved off
  exact ⟨t, u, moved, moved', reboot, same⟩

/-- The controller is two rounds behind and erases the image before it is verified. -/
theorem otaIsolation_wifiFirst : ∃ t u : OtaTrace summingEnv,
    (OtaTrace.initial fun _ => 0).nexts
      (twoRequests (.wifiRequest request64) (.mcuRequest request64) 6) = some t ∧
    (OtaTrace.initial fun _ => 0).nexts (OtaTrace.withoutMcuRequest
      (twoRequests (.wifiRequest request64) (.mcuRequest request64) 6)) = some u ∧
    t.status = .errorHandle ∧ u.status = .waitToReboot ∧ ¬ t.SameOutcome u := by
  have failed : ((OtaTrace.initial fun _ => 0 : OtaTrace summingEnv).nexts
      (twoRequests (.wifiRequest request64) (.mcuRequest request64) 6)).map OtaTrace.status =
      some .errorHandle := by decide +kernel
  have passed : ((OtaTrace.initial fun _ => 0 : OtaTrace summingEnv).nexts
      (OtaTrace.withoutMcuRequest
        (twoRequests (.wifiRequest request64) (.mcuRequest request64) 6))).map OtaTrace.status =
      some .waitToReboot := by decide +kernel
  obtain ⟨t, moved, failure⟩ := Option.map_eq_some_iff.mp failed
  obtain ⟨u, moved', success⟩ := Option.map_eq_some_iff.mp passed
  refine ⟨t, u, moved, moved', failure, success, fun same => ?_⟩
  have states : t.status = u.status := congrArg (fun wifi => wifi.para.httpState) same.wifi
  rw [failure, success] at states
  cases states

end Tr6260
