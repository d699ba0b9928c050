import Tr6260.Ota.Resources
import Tr6260.Ota.VersionGate
import Tr6260.Timer.HalTimer

/-!
# Retries

How often a download that fails is tried again, and how long the machine waits in between. A
request brings both as an `int`; the number of attempts is kept as a `uint32_t` and compared with
the requested one as such, and the minutes are turned into milliseconds in 32 bits.
-/

namespace Tr6260

open FlashProg ByteMem

/-! ## What a request asks for -/

/-- `failRetryTimes` and `failRetryInternal`. -/
def requestedRetry (request : OtaRequest) : Option (Int × Int) := do
  let root ← request.root
  let cmd ← root.getObjectItem (CString.ascii ['d', 'a', 't', 'a'])
  let times ← cmd.getObjectItem
    (CString.ascii ['f', 'a', 'i', 'l', 'R', 'e', 't', 'r', 'y', 'T', 'i', 'm', 'e', 's'])
  let times ← times.valuestring
  let interval ← cmd.getObjectItem (CString.ascii
    ['f', 'a', 'i', 'l', 'R', 'e', 't', 'r', 'y', 'I', 'n', 't', 'e', 'r', 'n', 'a', 'l'])
  let interval ← interval.valuestring
  return (times.atoi, interval.atoi)

theorem requestedRetry_bounds {request : OtaRequest} {n m : Int}
    (asked : requestedRetry request = some (n, m)) : -2 ^ 31 ≤ n ∧ n < 2 ^ 31 := by
  unfold requestedRetry at asked
  simp only [Option.bind_eq_bind, Option.bind_eq_some_iff] at asked
  rcases asked with ⟨_, -, _, -, _, -, times, -, _, -, interval, -, same⟩
  cases same
  exact CString.atoi_bounds times

theorem ran_bind_ok {α β : Type} {steps : RequireM α} {rest : α → RequireM β} {b : β}
    {url url' : OtaUrlPara} (ended : ran (steps >>= rest) url = some (.ok b, url')) :
    ∃ a url₁, ran steps url = some (.ok a, url₁) ∧ ran (rest a) url₁ = some (.ok b, url') := by
  rw [ran_bind] at ended
  rcases Option.bind_eq_some_iff.mp ended with ⟨⟨_ | a, url₁⟩, first, second⟩
  · cases second
  · exact ⟨a, url₁, first, second⟩

theorem memberItem_ok {object item : CJson} {name : List UInt8} {url url' : OtaUrlPara}
    (ended : ran (memberItem object name) url = some (.ok item, url')) :
    url' = url ∧ object.getObjectItem name = some item := by
  unfold memberItem at ended
  split at ended
  · cases ended
  next found =>
    cases ended
    exact ⟨rfl, found⟩

theorem memberText_ok {object : CJson} {name : List UInt8} {text : CString}
    {url url' : OtaUrlPara} (ended : ran (memberText object name) url = some (.ok text, url')) :
    url' = url ∧ ∃ item, object.getObjectItem name = some item ∧ item.valuestring = some text := by
  rcases ran_bind_ok ended with ⟨item, url₁, first, second⟩
  rcases memberItem_ok first with ⟨rfl, found⟩
  split at second
  · cases second
  next read =>
    cases second
    exact ⟨rfl, item, found, read⟩

/-- A request that is taken brings its numbers with it. -/
theorem requireBody_retry {otaType : OtaType} {cur : CString} {request : OtaRequest}
    {url url' : OtaUrlPara}
    (ended : ran (requireBody otaType cur request) url = some (.ok (), url')) :
    ∃ n m, requestedRetry request = some (n, m) ∧ url'.retryNum = n ∧
      url'.retryInterval = retryInterval m := by
  unfold requireBody at ended
  unfold requestedRetry
  cases tree : request.root with
  | none =>
    rw [tree] at ended
    cases ended
  | some root =>
    rw [tree] at ended
    rcases ran_bind_ok ended with ⟨cmd, url₁, data, ended⟩
    have found := (memberItem_ok data).2
    rcases ran_bind_ok ended with ⟨size, url₂, -, ended⟩
    rcases ran_bind_ok ended with ⟨_, url₃, -, ended⟩
    rcases ran_bind_ok ended with ⟨version, url₄, -, ended⟩
    have tail : ∃ url, ran (afterVersion cmd request.alloc) url = some (.ok (), url') := by
      cases otaType with
      | wifi =>
        rcases ran_bind_ok ended with ⟨_, url₅, -, ended⟩
        exact ⟨url₅, ended⟩
      | mcu =>
        rcases ran_bind_ok ended with ⟨_, url₅, -, ended⟩
        exact ⟨url₅, ended⟩
    rcases tail with ⟨url₅, ended⟩
    rcases ran_bind_ok ended with ⟨text, url₆, -, ended⟩
    rcases ran_bind_ok ended with ⟨_, url₇, -, ended⟩
    rcases ran_bind_ok ended with ⟨md5sum, url₈, -, ended⟩
    rcases ran_bind_ok ended with ⟨_, url₉, -, ended⟩
    rcases ran_bind_ok ended with ⟨times, url₁₀, first, ended⟩
    rcases memberText_ok first with ⟨-, timesItem, timesFound, timesText⟩
    rcases ran_bind_ok ended with ⟨_, url₁₁, setTimes, ended⟩
    rcases ran_bind_ok ended with ⟨interval, url₁₂, second, setInterval⟩
    rcases memberText_ok second with ⟨same, intervalItem, intervalFound, intervalText⟩
    cases setTimes
    cases setInterval
    refine ⟨times.atoi, interval.atoi, ?_, by rw [same], rfl⟩
    dsimp only [Option.bind_eq_bind, Option.bind_some]
    rw [found, Option.bind_some, timesFound, Option.bind_some, timesText, Option.bind_some,
      intervalFound, Option.bind_some, intervalText]
    rfl

theorem requireHandle_retry {otaType : OtaType} {cur : CString} {request : OtaRequest}
    {url url' : OtaUrlPara} {ret : Int}
    (handled : yaOtaRequireHandle otaType cur request url = some (ret, url'))
    (taken : ¬ Refuses ret) : ∃ n m, requestedRetry request = some (n, m) ∧ url'.retryNum = n ∧
      url'.retryInterval = retryInterval m := by
  unfold yaOtaRequireHandle at handled
  split at handled
  · cases handled
  next ended =>
    cases handled
    exact requireBody_retry ended
  next ended =>
    cases handled
    exact absurd (requireBody_yields otaType cur request _ _ _ trivial ended) taken

/-! ## The machine with its timer -/

/-- The countdown that `YA_ERROR_HANDLE` starts: `ya_init_timer`, and `ya_countdown_ms`, which does
nothing for 0 milliseconds. -/
def retryTimer (tick timeout : Nat) : YaTimer :=
  if timeout = 0 then yaInitTimer else yaCountdownMs tick timeout

/-- A pass through `YA_HTTP_RETRY_WAIT`: what was handed to `ya_countdown_ms`, what it made of it,
and when. -/
structure RetryWait where
  interval : Int
  timer : YaTimer
  since : Nat

/-- The application with `ya_ota_retry_timer`, the ticks since its start, and the passes through
`YA_HTTP_RETRY_WAIT` so far. -/
structure RetryRun (env : OtaEnv) where
  trace : OtaTrace env
  timer : YaTimer
  tick : Nat
  waits : List RetryWait

/-- What happens behind a request: a step of the machine, some ticks later, or what the
controller's machine does. -/
inductive RetryEvent
  | wifi (later : Nat) (input : StepInput)
  | mcu (input : StepInput)
  | mcuRequest (request : OtaRequest)

namespace RetryRun

variable {env : OtaEnv}

/-- A step has led into `YA_HTTP_RETRY_WAIT`. -/
def enters (t t' : OtaTrace env) : Bool := t.status = .errorHandle ∧ t'.status = .httpRetryWait

/-- The wait that a step from `t` starts. -/
def waitFrom (t : OtaTrace env) (tick : Nat) : RetryWait where
  interval := t.app.wifi.url.retryInterval
  timer := retryTimer tick (toU32 t.app.wifi.url.retryInterval)
  since := tick

/-- One action; whether the timer has expired is known from the timer. -/
def next (r : RetryRun env) : RetryEvent → Option (RetryRun env)
  | .wifi later input =>
    let tick := r.tick + later
    (r.trace.next (.wifi { input with expired := yaHasTimerExpired r.timer tick })).map fun t =>
      if enters r.trace t then
        ⟨t, (waitFrom r.trace tick).timer, tick, r.waits ++ [waitFrom r.trace tick]⟩
      else
        { r with trace := t, tick }
  | .mcu input => (r.trace.next (.mcu input)).map fun t => { r with trace := t }
  | .mcuRequest request => (r.trace.next (.mcuRequest request)).map fun t => { r with trace := t }

/-- There is memory for the download buffer when `YA_HTTP_START` asks for it. -/
def Supplied (r : RetryRun env) : RetryEvent → Prop
  | .wifi _ input => r.trace.status = .httpStart →
      (r.trace.app.wifi.para.otaBuffer <|> input.bufferAlloc).isSome = true
  | _ => True

/-- The runs with memory. -/
inductive Runs : RetryRun env → RetryRun env → Prop
  | start (r : RetryRun env) : Runs r r
  | next {r u u' : RetryRun env} {event : RetryEvent} (before : Runs r u)
      (supplied : u.Supplied event) (moved : u.next event = some u') : Runs r u'

end RetryRun

/-! ## The policy -/

/-- The milliseconds that so many minutes have; 5000 for none. -/
def minutesMs (minutes : Int) : Int := if minutes ≤ 0 then 5000 else minutes * 60000

/-- A wait of so many minutes: the number of milliseconds is right, and the timer expires when they
have passed. -/
structure RetryWait.Right (minutes : Int) (wait : RetryWait) : Prop where
  interval : wait.interval = minutesMs minutes
  expires : ∀ now ≥ wait.since, portTickPeriodMs * (now - wait.since) < 2 ^ 32 →
    (yaHasTimerExpired wait.timer now = true ↔
      minutesMs minutes < (portTickPeriodMs * (now - wait.since) : Nat))

/-- A download has been tried again as often as requested, and with the waits requested. -/
structure RetryRun.FollowsPolicy {env : OtaEnv} (n m : Int) (r : RetryRun env) : Prop where
  passes : (r.waits.length : Int) = max 0 n
  waits : ∀ wait ∈ r.waits, wait.Right m

theorem retryInterval_eq_iff (m : Int) : retryInterval m = minutesMs m ↔ m ≤ 35791 := by
  unfold retryInterval minutesMs toI32 toU32
  split
  · omega
  · split <;> omega

/-- The number of minutes is turned into milliseconds without a wrap. -/
theorem waitFrom_right {env : OtaEnv} {t : OtaTrace env} {m : Int} {tick : Nat}
    (interval : t.app.wifi.url.retryInterval = retryInterval m) :
    (RetryRun.waitFrom t tick).Right m ↔ m ≤ 35791 := by
  rw [← retryInterval_eq_iff]
  refine ⟨fun right => interval.symm.trans right.interval, fun same => ?_⟩
  have value : RetryRun.waitFrom t tick =
      ⟨minutesMs m, retryTimer tick (toU32 (minutesMs m)), tick⟩ := by
    rw [RetryRun.waitFrom, interval, same]
  rw [value]
  refine ⟨rfl, fun now later short => ?_⟩
  have few := (retryInterval_eq_iff m).mp same
  have some_ : 0 < minutesMs m ∧ minutesMs m < 2 ^ 32 ∧ minutesMs m % 5 = 0 := by
    unfold minutesMs
    split <;> omega
  have timeout : (toU32 (minutesMs m) : Int) = minutesMs m := by
    rw [toU32, Int.emod_eq_of_lt (Int.le_of_lt some_.1) some_.2.1,
      Int.toNat_of_nonneg (Int.le_of_lt some_.1)]
  generalize toU32 (minutesMs m) = ms at timeout later short ⊢
  have whole : ms % portTickPeriodMs = 0 := by
    unfold portTickPeriodMs
    omega
  dsimp only at later short ⊢
  rw [retryTimer, if_neg (by omega), yaHasTimerExpired_countdown later short whole, ← timeout,
    Int.ofNat_lt]

/-! ## Steps -/

section Steps

variable {env : OtaEnv}

/-- Outside `YA_ERROR_HANDLE` the request and the count are kept. -/
theorem yaWifiOtaDownload_kept {app app' : OtaApp env.md5} {input : StepInput} {m m' : ByteMem}
    (quiet : app.wifi.para.httpState ≠ .errorHandle)
    (ran : (yaWifiOtaDownload env input app).run m = (some app', m')) :
    app'.wifi.url = app.wifi.url ∧ app'.wifi.para.count = app.wifi.para.count := by
  unfold yaWifiOtaDownload at ran
  split at ran
  next =>
    cases ran
    change (app.wifi.startStep input).url = _ ∧ (app.wifi.startStep input).para.count = _
    unfold OtaModule.startStep
    split
    · exact ⟨rfl, rfl⟩
    · split <;> exact ⟨rfl, rfl⟩
  next => cases ran; exact ⟨rfl, rfl⟩
  next =>
    rcases Option.map_eq_some_iff.mp (congrArg Prod.fst ran) with ⟨wifi, moved, rfl⟩
    unfold OtaModule.sendGetStep at moved
    split at moved
    · split at moved
      · cases moved
      split at moved
      · cases moved
        exact ⟨rfl, rfl⟩
      split at moved
      · cases moved
      · cases moved
        exact ⟨rfl, rfl⟩
    · cases moved
  next =>
    rcases wifiHeaderStep_cases (congrArg Prod.fst ran) with ⟨ret, wifi, read, outcome⟩
    rcases headerRead_eq read with ⟨buffer, response, buffer', -, -, rfl⟩
    rcases outcome with rfl | ⟨-, rfl⟩ | ⟨-, -, rfl⟩
    · exact ⟨rfl, rfl⟩
    · exact ⟨rfl, rfl⟩
    · exact ⟨rfl, rfl⟩
  next => cases ran; exact ⟨rfl, rfl⟩
  next =>
    rw [run_bind, wifiEarseStep, run_bind] at ran
    cases ran
    exact ⟨rfl, rfl⟩
  next =>
    rcases wifiBodyStep_cases ran with ⟨buffer, result, -, -, ⟨-, rfl⟩ | ⟨-, rfl⟩ | ⟨-, rfl⟩⟩
    · exact ⟨rfl, rfl⟩
    · exact ⟨rfl, rfl⟩
    · exact ⟨rfl, rfl⟩
  next =>
    rcases wifiChecksumStep_cases ran with ⟨-, rfl | ⟨rfl, -⟩⟩
    · exact ⟨rfl, rfl⟩
    · exact ⟨rfl, rfl⟩
  next at_ => exact absurd at_ quiet
  next =>
    cases ran
    change (app.wifi.retryStep input).url = _ ∧ (app.wifi.retryStep input).para.count = _
    unfold OtaModule.retryStep
    split <;> exact ⟨rfl, rfl⟩
  next =>
    rw [run_bind] at ran
    cases ran
  all_goals
    cases ran
    exact ⟨rfl, rfl⟩

/-- Only a start without memory or address, and `YA_ERROR_HANDLE`, lead to `YA_HTTP_IDLE`. -/
theorem idle_successor {state : OtaStatus} (running : state ≠ .httpIdle)
    (start : state ≠ .httpStart) (error : state ≠ .errorHandle) :
    ∀ next ∈ state.successors, next ≠ .httpIdle := by
  cases state <;> first
    | exact absurd rfl running
    | exact absurd rfl start
    | exact absurd rfl error
    | decide

/-- A start with memory and an address goes on to the connection. -/
theorem startStep_connects {mod : OtaModule} {input : StepInput} (addressed : mod.url.Addressed)
    (memory : (mod.para.otaBuffer <|> input.bufferAlloc).isSome = true) :
    (mod.startStep input).para.httpState = .httpConnect := by
  unfold OtaModule.startStep
  rw [if_neg]
  · split
    next none_ =>
      rw [none_] at memory
      cases memory
    next => rfl
  · rcases addressed with ⟨host, resource⟩
    rintro (none_ | none_)
    · rw [none_] at host
      cases host
    · rw [none_] at resource
      cases resource

/-- `YA_ERROR_HANDLE` counts one more try, or gives up. -/
theorem errorStep_cases (mod : OtaModule) :
    (mod.para.count < toU32 mod.url.retryNum ∧
      mod.errorStep.para.httpState = .httpRetryWait ∧ mod.errorStep.url = mod.url ∧
      mod.errorStep.para.count = mod.para.count + 1) ∨
    (toU32 mod.url.retryNum ≤ mod.para.count ∧ mod.errorStep.para.httpState = .httpIdle ∧
      mod.errorStep.url = mod.url.freeResource ∧ mod.errorStep.para.count = mod.para.count) := by
  have few : toU32 mod.url.retryNum < 2 ^ 32 := by
    unfold toU32
    omega
  by_cases more : mod.para.count < toU32 mod.url.retryNum
  · have waits : mod.errorStep = _ := if_pos more
    have fits : u32 (mod.para.count + 1) = mod.para.count + 1 := u32_of_lt (by omega)
    rw [waits]
    exact .inl ⟨more, rfl, rfl, fits⟩
  · have stops : mod.errorStep = _ := if_neg more
    rw [stops]
    exact .inr ⟨Nat.not_lt.mp more, rfl, rfl, rfl⟩

end Steps

namespace RetryRun

variable {env : OtaEnv} {r u u' : RetryRun env} {n i : Int}

/-- The invariant behind a request for `n` retries with the waiting time `i`: the passes are
counted. -/
structure Retrying (n i : Int) (r : RetryRun env) : Prop where
  retryNum : r.trace.app.wifi.url.retryNum = n
  retryInterval : r.trace.app.wifi.url.retryInterval = i
  addressed : r.trace.status ≠ .httpIdle → r.trace.app.wifi.url.Addressed
  counted : r.trace.app.wifi.para.count = r.waits.length
  bound : r.waits.length ≤ toU32 n
  gaveUp : r.trace.status = .httpIdle → r.waits.length = toU32 n
  waits : ∀ wait ∈ r.waits, ∃ (t : OtaTrace env) (tick : Nat), wait = waitFrom t tick ∧
    t.app.wifi.url.retryInterval = i

/-- A step that leaves the WiFi machine alone. -/
theorem Retrying.beside (retrying : u.Retrying n i) {t : OtaTrace env}
    (same : t.app.wifi = u.trace.app.wifi) : Retrying n i { u with trace := t } := by
  refine ⟨?_, ?_, ?_, ?_, retrying.bound, ?_, retrying.waits⟩ <;> dsimp only
  · rw [same]
    exact retrying.retryNum
  · rw [same]
    exact retrying.retryInterval
  · unfold OtaTrace.status
    rw [same]
    exact retrying.addressed
  · rw [same]
    exact retrying.counted
  · unfold OtaTrace.status
    rw [same]
    exact retrying.gaveUp

/-- A step outside `YA_ERROR_HANDLE`. -/
theorem Retrying.quiet (retrying : u.Retrying n i) {later : Nat} {input : StepInput}
    (supplied : u.Supplied (.wifi later input)) (quiet : u.trace.status ≠ .errorHandle)
    (moved : u.next (.wifi later input) = some u') : u'.Retrying n i := by
  rcases Option.map_eq_some_iff.mp moved with ⟨t, stepped, rfl⟩
  have stay : ¬ enters u.trace t = true := fun enter => quiet (of_decide_eq_true enter).1
  rw [if_neg stay]
  rcases OtaTrace.next_eq stepped with ⟨app, flash, ran, rfl⟩
  rcases yaWifiOtaDownload_kept quiet ran with ⟨url, count⟩
  have successor := yaWifiOtaDownload_successor ran
  have running (idle : app.wifi.para.httpState = .httpIdle) : u.trace.status = .httpIdle := by
    by_contra running
    by_cases start : u.trace.status = .httpStart
    · have connects := startStep_connects (retrying.addressed running) (supplied start)
      unfold OtaTrace.status at start
      rw [otaStep, yaWifiOtaDownload, start] at ran
      cases ran
      cases connects.symm.trans idle
    · exact idle_successor running start quiet _ successor idle
  refine ⟨?_, ?_, ?_, ?_, retrying.bound, ?_, retrying.waits⟩
  · exact (congrArg OtaUrlPara.retryNum url).trans retrying.retryNum
  · exact (congrArg OtaUrlPara.retryInterval url).trans retrying.retryInterval
  · intro running'
    have before : u.trace.status ≠ .httpIdle := by
      intro idle
      unfold OtaTrace.status at idle
      rw [idle] at successor
      exact running' (List.mem_singleton.mp successor)
    change app.wifi.url.Addressed
    rw [url]
    exact retrying.addressed before
  · exact count.trans retrying.counted
  · exact fun idle => retrying.gaveUp (running idle)

/-- A step in `YA_ERROR_HANDLE` waits for another try, or gives up when all are used. -/
theorem Retrying.error (retrying : u.Retrying n i) {later : Nat} {input : StepInput}
    (at_ : u.trace.status = .errorHandle) (moved : u.next (.wifi later input) = some u') :
    u'.Retrying n i := by
  rcases Option.map_eq_some_iff.mp moved with ⟨t, stepped, rfl⟩
  rcases OtaTrace.next_eq stepped with ⟨app, flash, ran, rfl⟩
  have error := at_
  unfold OtaTrace.status at error
  rw [otaStep, yaWifiOtaDownload, error] at ran
  cases ran
  have addressed := retrying.addressed (by rw [at_]; nofun)
  have num := retrying.retryNum
  have counted := retrying.counted
  have bound := retrying.bound
  rcases errorStep_cases u.trace.app.wifi with
    ⟨more, status, url, count⟩ | ⟨used, status, url, count⟩
  · have enter : enters u.trace (u.trace.record (.wifi { input with
        expired := yaHasTimerExpired u.timer (u.tick + later) })
        { u.trace.app with
          wifi := u.trace.app.wifi.errorStep
          md5Stat := { u.trace.app.md5Stat with reset := true } } u.trace.flash) = true :=
      decide_eq_true ⟨at_, status⟩
    rw [if_pos enter]
    have length : (u.waits ++ [waitFrom u.trace (u.tick + later)]).length = u.waits.length + 1 := by
      rw [List.length_append, List.length_singleton]
    rw [num, counted] at more
    refine ⟨?_, ?_, fun _ => ?_, ?_, ?_, fun idle => ?_, fun wait inside => ?_⟩
    · exact (congrArg OtaUrlPara.retryNum url).trans num
    · exact (congrArg OtaUrlPara.retryInterval url).trans retrying.retryInterval
    · exact url ▸ addressed
    · rw [length, ← counted]
      exact count
    · rw [length]
      exact more
    · cases status.symm.trans idle
    · rcases List.mem_append.mp inside with before | new
      · exact retrying.waits wait before
      · exact ⟨u.trace, _, List.mem_singleton.mp new, retrying.retryInterval⟩
  · have stay : ¬ enters u.trace (u.trace.record (.wifi { input with
        expired := yaHasTimerExpired u.timer (u.tick + later) })
        { u.trace.app with
          wifi := u.trace.app.wifi.errorStep
          md5Stat := { u.trace.app.md5Stat with reset := true } } u.trace.flash) = true := by
      intro enter
      cases status.symm.trans (of_decide_eq_true enter).2
    rw [if_neg stay]
    rw [num, counted] at used
    refine ⟨?_, ?_, fun running => absurd status running, ?_, bound, fun _ => ?_, retrying.waits⟩
    · exact (congrArg OtaUrlPara.retryNum url).trans num
    · exact (congrArg OtaUrlPara.retryInterval url).trans retrying.retryInterval
    · exact count.trans counted
    · exact Nat.le_antisymm bound used

theorem Retrying.next (retrying : u.Retrying n i) {event : RetryEvent}
    (supplied : u.Supplied event) (moved : u.next event = some u') : u'.Retrying n i := by
  cases event with
  | wifi later input =>
    by_cases at_ : u.trace.status = .errorHandle
    · exact retrying.error at_ moved
    · exact retrying.quiet supplied at_ moved
  | mcu input =>
    rcases Option.map_eq_some_iff.mp moved with ⟨t, stepped, rfl⟩
    rcases OtaTrace.next_eq stepped with ⟨app, flash, ran, rfl⟩
    exact retrying.beside (yaMcuOtaDownload_wifi ran)
  | mcuRequest request =>
    rcases Option.map_eq_some_iff.mp moved with ⟨t, stepped, rfl⟩
    rcases OtaTrace.next_eq stepped with ⟨app, flash, ran, rfl⟩
    rcases mcuRequire_eq (Prod.mk.inj ran).1 with ⟨mcu, rfl⟩
    exact retrying.beside rfl

theorem Runs.retrying (runs : r.Runs u) (retrying : r.Retrying n i) : u.Retrying n i := by
  induction runs with
  | start => exact retrying
  | next before supplied moved ih => exact ih.next supplied moved

/-! ## From a request on -/

/-- An accepted request starts with nothing counted. -/
theorem retrying_request {t t₀ : OtaTrace env} {request : OtaRequest} {ret : Int}
    {url : OtaUrlPara} {m : Int}
    (handled : yaOtaRequireHandle .wifi env.curVersion request .zero = some (ret, url))
    (starts : t.Starts request ret url) (moved : t.next (.wifiRequest request) = some t₀)
    (asked : requestedRetry request = some (n, m)) (timer : YaTimer) (tick : Nat) :
    Retrying n (retryInterval m) ⟨t₀, timer, tick, []⟩ := by
  rcases starts with ⟨taken, noted⟩
  rcases requireHandle_retry handled taken with ⟨n', m', asked', num, interval⟩
  rw [asked] at asked'
  cases asked'
  have addressed := (yaOtaRequireHandle_filled handled taken).1
  rcases OtaTrace.next_eq moved with ⟨app, flash, ran, rfl⟩
  rcases wifiRequire_cases ran with ⟨ret', url', handled', outcome⟩
  rw [handled] at handled'
  cases handled'
  rcases outcome with ⟨refused, -, -⟩ | ⟨-, code, written, ⟨failed, -⟩ | ⟨-, rfl⟩⟩
  · exact absurd refused taken
  · rw [written] at noted
    exact absurd (Option.some.inj noted) failed
  · exact ⟨num, interval, fun _ => addressed, rfl, Nat.zero_le _, fun idle => (nomatch idle),
      fun _ inside => (nomatch inside)⟩

end RetryRun

/-- A download that has been given up was tried again as often and as late as requested, exactly
when the number of retries is not negative, and an `int` holds the milliseconds of the minutes in
between. -/
theorem retryPolicy_iff {env : OtaEnv} {t t₀ : OtaTrace env} {request : OtaRequest} {ret : Int}
    {url : OtaUrlPara} {n m : Int}
    (handled : yaOtaRequireHandle .wifi env.curVersion request .zero = some (ret, url))
    (starts : t.Starts request ret url) (moved : t.next (.wifiRequest request) = some t₀)
    (asked : requestedRetry request = some (n, m)) {timer : YaTimer} {tick : Nat}
    {r : RetryRun env} (runs : RetryRun.Runs ⟨t₀, timer, tick, []⟩ r)
    (gaveUp : r.trace.status = .httpIdle) :
    r.FollowsPolicy n m ↔ 0 ≤ n ∧ (n = 0 ∨ m ≤ 35791) := by
  have retrying := runs.retrying (RetryRun.retrying_request handled starts moved asked timer tick)
  have passes := retrying.gaveUp gaveUp
  have right {wait : RetryWait} (inside : wait ∈ r.waits) : wait.Right m ↔ m ≤ 35791 := by
    rcases retrying.waits wait inside with ⟨t, tick, rfl, interval⟩
    exact waitFrom_right interval
  have bounds := requestedRetry_bounds asked
  have count : (r.waits.length : Int) = n % 2 ^ 32 := by
    rw [passes, toU32]
    omega
  constructor
  · intro follows
    have same := follows.passes
    refine ⟨by omega, ?_⟩
    cases made : r.waits with
    | nil =>
      rw [made] at count
      exact .inl (by simp only [List.length_nil] at count; omega)
    | cons wait waits =>
      have first : wait ∈ r.waits := by
        rw [made]
        exact List.mem_cons_self
      exact .inr ((right first).mp (follows.waits wait first))
  · rintro ⟨some_, none_ | few⟩
    · have empty : r.waits = [] := List.eq_nil_of_length_eq_zero (by omega)
      exact ⟨by omega, fun wait inside => by rw [empty] at inside; cases inside⟩
    · exact ⟨by omega, fun wait inside => (right inside).mpr few⟩

/-! ## A server that cannot be reached -/

/-- Steps with memory make a run. -/
theorem RetryRun.Runs.steps {env : OtaEnv} {r u u' : RetryRun env} (runs : r.Runs u)
    {steps : List (Nat × StepInput)} (memory : ∀ s ∈ steps, s.2.bufferAlloc.isSome = true)
    (moved : steps.foldlM (fun r s => r.next (.wifi s.1 s.2)) u = some u') : r.Runs u' := by
  induction steps generalizing u with
  | nil =>
    cases moved
    exact runs
  | cons step steps ih =>
    rw [List.foldlM_cons] at moved
    rcases Option.bind_eq_some_iff.mp moved with ⟨u₁, first, rest⟩
    have supplied : u.Supplied (.wifi step.1 step.2) := by
      intro _
      have some_ := memory step List.mem_cons_self
      cases u.trace.app.wifi.para.otaBuffer with
      | none => exact some_
      | some buffer => rfl
    have memory' : ∀ s ∈ steps, s.2.bufferAlloc.isSome = true := fun s inside =>
      memory s (List.mem_cons_of_mem _ inside)
    exact ih (runs.next supplied first) memory' rest

/-- A request for a file of 64 bytes with the number of retries and the minutes in between. -/
def requestRetry (times interval : List Char) : OtaRequest :=
  otaMessage (fileFields ['6', '4'] ['4', '0'] ++
    [textField ['f', 'a', 'i', 'l', 'R', 'e', 't', 'r', 'y', 'T', 'i', 'm', 'e', 's'] times,
      textField
        ['f', 'a', 'i', 'l', 'R', 'e', 't', 'r', 'y', 'I', 'n', 't', 'e', 'r', 'n', 'a', 'l']
        interval])

/-- Start, connection and error. -/
def unreachable : List (Nat × StepInput) :=
  List.replicate 3 (0, { okInput [] with connect := none })

/-- The application behind the request. -/
def requestedRun (request : OtaRequest) : Option (RetryRun countingEnv) :=
  ((OtaTrace.initial fun _ => 0).next (.wifiRequest request)).map fun t => ⟨t, yaInitTimer, 0, []⟩

/-- One retry after one minute, with two tries that fail. -/
theorem retryPolicy_once : ∃ r : RetryRun countingEnv,
    ((requestedRun (requestRetry ['1'] ['1'])).bind fun r =>
      (unreachable ++ (60 * 200 + 1, okInput []) :: unreachable).foldlM
        (fun r s => r.next (.wifi s.1 s.2)) r) = some r ∧ r.FollowsPolicy 1 1 := by
  have ran : (((requestedRun (requestRetry ['1'] ['1'])).bind fun r =>
      (unreachable ++ (60 * 200 + 1, okInput []) :: unreachable).foldlM
        (fun r s => r.next (.wifi s.1 s.2)) r).map fun r => r.trace.status) =
      some .httpIdle := by decide +kernel
  have noted : (((yaOtaRequireHandle .wifi countingEnv.curVersion (requestRetry ['1'] ['1'])
      .zero).map fun result => (result.1, ((yaWriteOtaEnableIntoFlash
        (requestRetry ['1'] ['1']).board result.2).run fun _ => 0).1))) = some (0, some 0) := by
    decide +kernel
  rcases Option.map_eq_some_iff.mp ran with ⟨r, moved, gaveUp⟩
  rcases Option.map_eq_some_iff.mp noted with ⟨⟨ret, url⟩, handled, taken⟩
  rcases Prod.mk.inj taken with ⟨zero, written⟩
  dsimp only at zero
  subst zero
  refine ⟨r, moved, ?_⟩
  rcases Option.bind_eq_some_iff.mp moved with ⟨r₀, asked, rest⟩
  rcases Option.map_eq_some_iff.mp asked with ⟨t₀, requested, rfl⟩
  have starts : (OtaTrace.initial fun _ => 0 : OtaTrace countingEnv).Starts
      (requestRetry ['1'] ['1']) 0 url := ⟨by decide, written⟩
  refine (retryPolicy_iff handled starts requested rfl
    ((RetryRun.Runs.start _).steps (fun s inside => ?_) rest) gaveUp).mpr (by decide)
  simp only [unreachable, List.replicate, List.cons_append, List.nil_append, List.mem_cons,
    List.not_mem_nil, or_false] at inside
  rcases inside with rfl | rfl | rfl | rfl | rfl | rfl | rfl <;> rfl

/-- With -1 retries requested, the first failure leads to a wait. -/
theorem retryPolicy_negative : ∃ t₀ : OtaTrace countingEnv, ∃ r : RetryRun countingEnv,
    requestedRetry (requestRetry ['-', '1'] ['1']) = some (-1, 1) ∧
    (OtaTrace.initial fun _ => 0).next (.wifiRequest (requestRetry ['-', '1'] ['1'])) = some t₀ ∧
    RetryRun.Runs ⟨t₀, yaInitTimer, 0, []⟩ r ∧ r.trace.status = .httpRetryWait ∧
    max 0 (-1 : Int) < r.waits.length := by
  have ran : (((requestedRun (requestRetry ['-', '1'] ['1'])).bind fun r =>
      unreachable.foldlM (fun r s => r.next (.wifi s.1 s.2)) r).map fun r =>
        (r.trace.status, r.waits.length)) = some (.httpRetryWait, 1) := by decide +kernel
  rcases Option.map_eq_some_iff.mp ran with ⟨r, moved, states⟩
  rcases Option.bind_eq_some_iff.mp moved with ⟨r₀, asked, rest⟩
  rcases Option.map_eq_some_iff.mp asked with ⟨t₀, requested, rfl⟩
  rcases Prod.mk.inj states with ⟨waiting, passes⟩
  refine ⟨t₀, r, rfl, requested, (RetryRun.Runs.start _).steps (fun s inside => ?_) rest, waiting,
    by rw [passes]; decide⟩
  rw [List.eq_of_mem_replicate inside]
  rfl

end Tr6260
