import Tr6260.Timer.Clock

/-!
# Connecting to the router

Three parties share the connection: the loop of `ya_app_main` with its state
`ya_app_state`, the task `ya_wlan_connect`, one for each attempt, and the handler of
the driver's events. They meet in the queue of the main loop only, and an event
passes two filters on its way there. A failed attempt does not get through: the
task reports it as `YA_HAL_EVT_AP_START_FAILED`, which `ya_app_wlan_event_callback`
drops, or as `YA_HAL_EVT_LINK_LOST`, which the loop ignores without a connection;
`YA_HAL_EVT_STA_CONNECT_FAILED`, the event that would lead to a new attempt, is
sent by nobody.

A step is what one party does between two points at which another one can see it.
The queue takes every message. A reboot starts over with an empty queue and no task.
-/

namespace Tr6260

/-! ## States, messages, events -/

/-- `ya_app_status_t`. -/
inductive AppStatus
  | idle
  | snifferStart
  | sniffer
  | apStart
  | apState
  | toConnect
  | connecting
  | connected
  | waitToConnect
  | factoryTest
  deriving DecidableEq

/-- `ya_app_main_queue_type_t`. -/
inductive MainMsg
  | snifferSuccess
  | snifferFail
  | apConfigFail
  | apConfigSuccess
  | connectSuccess
  | connectFail
  | linkLost
  | changeToggleMode
  | changeApMode
  | changeSnifferMode
  | changeIdleNextReboot
  | setScanRssi
  | setOtaTest
  | factoryMode
  deriving DecidableEq

/-- The messages that `ya_app_wlan_event_callback` does not send. -/
def MainMsg.fromOthers : MainMsg → Bool
  | .connectSuccess | .connectFail | .linkLost => false
  | _ => true

/-- `ya_hal_wlan_event_t`. -/
inductive WlanEvent
  | linkLost
  | staConnectSuccess
  | staConnectFailed
  | apStartSuccess
  | apStartFailed
  deriving DecidableEq

/-- `ya_app_wlan_event_callback`: the message it sends; `none` is `C_ERROR`. -/
def yaAppWlanEventCallback : WlanEvent → Option MainMsg
  | .linkLost => some .linkLost
  | .staConnectSuccess => some .connectSuccess
  | .staConnectFailed => some .connectFail
  | _ => none

/-- The events of the driver. -/
inductive SystemEvent
  | staStart
  | staConnected
  | staGotIp
  | staDisconnected
  | other
  deriving DecidableEq

/-- The states in which `ya_app_main` begins. -/
inductive BootMode
  | ap
  | sniffer
  | connect
  | idle
  | factory
  deriving DecidableEq

/-- `ya_init_start_mode`, and the scan for the factory's routers. -/
def BootMode.status : BootMode → AppStatus
  | .ap => .apStart
  | .sniffer => .snifferStart
  | .connect => .toConnect
  | .idle => .idle
  | .factory => .factoryTest

/-! ## The task -/

/-- `ya_wifi_info`, by the lengths of its strings. All tasks read the same one. -/
structure WifiInfo where
  ssidLen : Nat
  pwdLen : Nat
  deriving DecidableEq

/-- The check of the lengths in `ya_wlan_connect_ap`. -/
def WifiInfo.invalid (info : WifiInfo) : Bool :=
  info.ssidLen = 0 ∨ info.ssidLen > 32 ∨ info.pwdLen > 64

/-- Where the task of an attempt is. -/
inductive AttemptPhase
  | created
  /-- The driver is not ready yet. -/
  | configuring
  /-- In the loop, with whether `sta_ip` is set. -/
  | polling (staIp : Bool) (count : Nat)
  deriving DecidableEq

/-- A task `ya_wlan_connect`. `noticed` says whether `SYSTEM_EVENT_STA_GOT_IP` has been handled
since it began; the code has no such variable. -/
structure Attempt where
  phase : AttemptPhase
  noticed : Bool
  deriving DecidableEq

/-- `SYSTEM_EVENT_STA_GOT_IP` has been handled. -/
def Attempt.notice (a : Attempt) : Attempt := { a with noticed := true }

/-- What a task does next: it goes on, or it ends with or without an event. -/
inductive AttemptStep
  | goesOn (a : Attempt)
  | ends (event : Option WlanEvent)

/-- `ya_wlan_connect_ap`, with the results of `wifi_is_ready` and `wifi_get_ip_addr`. -/
def Attempt.step (a : Attempt) (info : WifiInfo) (ready staIp : Bool) : AttemptStep :=
  match a.phase with
  | .created =>
    if info.invalid then
      .ends (some .linkLost)
    else
      .goesOn { a with phase := .configuring }
  | .configuring => .goesOn { a with phase := if ready then .polling staIp 0 else .configuring }
  | .polling seen count =>
    if seen = false ∧ count ≤ 300 then
      .goesOn { a with phase := .polling staIp (count + 1) }
    else if seen = false then
      .ends (some .apStartFailed)
    else
      .ends none

/-- The task is about to end without an address. -/
def Attempt.failed (a : Attempt) (info : WifiInfo) : Bool :=
  match a.phase with
  | .created => info.invalid
  | .configuring => false
  | .polling staIp count => !staIp && decide (300 < count)

/-- The task is about to end with one. -/
def Attempt.succeeded (a : Attempt) : Bool :=
  match a.phase with
  | .created | .configuring => false
  | .polling staIp _ => staIp

/-! ## The main loop -/

/-- The state of the three parties. -/
structure ConnState where
  appState : AppStatus
  linkConnect : Bool
  reconnectCount : Nat
  waitStartTimer : Nat
  wifiInfo : WifiInfo
  /-- The loop has been through the first `switch` and comes to the queue. -/
  receives : Bool
  queue : List MainMsg
  attempts : List Attempt
  deriving DecidableEq

/-- What a pass of the loop takes from its surroundings: the results of `start_smnt` and
`xTaskCreate`, the router in `ya_user_data`, the clock, and how a reboot ends. -/
structure MainEnv where
  smntStarted : Bool
  taskCreated : Bool
  router : WifiInfo
  now : Nat
  boot : BootMode

namespace ConnState

/-- After a start. -/
def booted (mode : BootMode) : ConnState := ⟨mode.status, false, 0, 0, ⟨0, 0⟩, false, [], []⟩

/-- `reconnect_timer`. -/
def reconnectTimer (s : ConnState) : Nat := if s.reconnectCount > 10 then 10000 else 3000

/-- The first `switch` of `ya_app_main`. -/
def switchState (s : ConnState) (env : MainEnv) : ConnState :=
  match s.appState with
  | .snifferStart => if env.smntStarted then { s with appState := .sniffer } else booted env.boot
  | .apStart => { s with appState := .apState }
  | .toConnect =>
    if env.taskCreated then
      { s with
        appState := .connecting
        wifiInfo := env.router
        attempts := s.attempts ++ [⟨.created, false⟩] }
    else
      booted env.boot
  | .waitToConnect =>
    if yaTimerCompare s.waitStartTimer env.now s.reconnectTimer = 0 then
      { s with reconnectCount := (s.reconnectCount + 1) % 2 ^ 16, appState := .toConnect }
    else
      s
  | _ => s

/-- The second `switch`. -/
def handle (s : ConnState) (env : MainEnv) : MainMsg → ConnState
  | .snifferSuccess => { s with appState := .toConnect }
  | .snifferFail => { s with appState := .idle }
  | .connectSuccess => { s with reconnectCount := 0, appState := .connected, linkConnect := true }
  | .connectFail => { s with appState := .waitToConnect, waitStartTimer := env.now }
  | .apConfigSuccess => { s with appState := .toConnect }
  | .apConfigFail => { s with appState := .idle }
  | .linkLost => if s.linkConnect then { s with appState := .toConnect, linkConnect := false } else s
  | .changeIdleNextReboot => s
  -- these save what they are asked for and reboot
  | .changeToggleMode | .changeApMode | .changeSnifferMode | .factoryMode | .setScanRssi
  | .setOtaTest => booted env.boot

/-- `ya_hal_os_queue_recv` and what follows. -/
def receive (s : ConnState) (env : MainEnv) : ConnState :=
  match s.queue with
  | [] => s
  | msg :: rest => { s with queue := rest }.handle env msg

/-- `wifi_event_handler`. -/
def wlanEvent (s : ConnState) (event : WlanEvent) : ConnState :=
  match yaAppWlanEventCallback event with
  | none => s
  | some msg => { s with queue := s.queue ++ [msg] }

/-- `tr_wifi_event_handler`. -/
def trWifiEventHandler (s : ConnState) : SystemEvent → ConnState
  | .staGotIp =>
    { s with attempts := s.attempts.map Attempt.notice }.wlanEvent .staConnectSuccess
  | .staDisconnected => s.wlanEvent .linkLost
  | _ => s

end ConnState

/-- What happens. -/
inductive ConnEvent
  | mainSwitch (env : MainEnv)
  | mainReceive (env : MainEnv)
  /-- The task of an attempt, with the results of `wifi_is_ready` and `wifi_get_ip_addr`. -/
  | connectTask (i : Nat) (ready staIp : Bool)
  | systemEvent (event : SystemEvent)
  /-- A message from elsewhere. -/
  | post (msg : MainMsg)

/-- One step; `none` when the event cannot happen. -/
def ConnState.step (s : ConnState) : ConnEvent → Option ConnState
  | .mainSwitch env =>
    if s.receives then none else some ({ s with receives := true }.switchState env)
  | .mainReceive env =>
    if s.receives then some ({ s with receives := false }.receive env) else none
  | .connectTask i ready staIp =>
    match s.attempts[i]? with
    | none => none
    | some a =>
      match a.step s.wifiInfo ready staIp with
      | .goesOn a => some { s with attempts := s.attempts.set i a }
      | .ends none => some { s with attempts := s.attempts.eraseIdx i }
      | .ends (some event) => some ({ s with attempts := s.attempts.eraseIdx i }.wlanEvent event)
  | .systemEvent event => some (s.trWifiEventHandler event)
  | .post msg => if msg.fromOthers then some { s with queue := s.queue ++ [msg] } else none

/-- The runs in which every event meets a condition. -/
inductive ConnRun (meets : ConnState → ConnEvent → Prop) : ConnState → Prop
  | start (mode : BootMode) : ConnRun meets (.booted mode)
  | step {s s' : ConnState} {event : ConnEvent} (run : ConnRun meets s) (met : meets s event)
      (moved : s.step event = some s') : ConnRun meets s'

/-- While it is connecting, an attempt is running or a message that ends the state is under way, and
an attempt that ends without an address leads to the next one. -/
structure ConnState.NotStranded (meets : ConnState → ConnEvent → Prop) (s : ConnState) : Prop where
  underWay : s.appState = .connecting →
    s.attempts ≠ [] ∨ ∃ msg ∈ s.queue, ∀ env, (s.handle env msg).appState ≠ .connecting
  reported : ∀ i ready staIp a s', meets s (.connectTask i ready staIp) →
    s.attempts[i]? = some a → a.failed s.wifiInfo → s.step (.connectTask i ready staIp) = some s' →
    .connectFail ∈ s'.queue
  waits : ∀ env, (s.handle env .connectFail).appState = .waitToConnect
  retries : ∀ env, s.appState = .waitToConnect →
    yaTimerCompare s.waitStartTimer env.now s.reconnectTimer = 0 → env.taskCreated →
    ((s.switchState env).switchState env).attempts.length = s.attempts.length + 1

/-- An attempt that ends has an address, and the driver's event for it has been handled. -/
def ConnState.GetsAddress (s : ConnState) : ConnEvent → Prop
  | .connectTask i _ _ => ∀ a, s.attempts[i]? = some a →
    a.failed s.wifiInfo = false ∧ (a.succeeded → a.noticed = true)
  | _ => True

/-! ## What keeps the connection going -/

section Keeps

variable {s s' : ConnState} {event : ConnEvent}

/-- While it is connecting, there is an attempt without its event, or the message of success. -/
def ConnState.UnderWay (s : ConnState) : Prop :=
  s.appState = .connecting → (∃ a ∈ s.attempts, a.noticed = false) ∨ .connectSuccess ∈ s.queue

theorem ConnState.booted_appState (mode : BootMode) :
    (ConnState.booted mode).appState ≠ .connecting := by
  cases mode <;> decide

theorem ConnState.booted_underWay (mode : BootMode) : (ConnState.booted mode).UnderWay :=
  fun connecting => absurd connecting (booted_appState mode)

/-- The loop comes to the state only by starting an attempt. -/
theorem ConnState.UnderWay.switchState (ok : s.UnderWay) (env : MainEnv) :
    (s.switchState env).UnderWay := by
  unfold ConnState.switchState
  split
  next =>
    split
    next => nofun
    next => exact ConnState.booted_underWay env.boot
  next => nofun
  next =>
    split
    next => exact fun _ => .inl ⟨_, List.mem_append_right _ (.head _), rfl⟩
    next => exact ConnState.booted_underWay env.boot
  next =>
    split
    next => nofun
    next => exact ok
  next => exact ok

/-- A message ends the connecting, or changes nothing and is not that of success. -/
theorem ConnState.handle_cases (s : ConnState) (env : MainEnv) (msg : MainMsg) :
    (s.handle env msg).appState ≠ .connecting ∨
      msg ≠ .connectSuccess ∧ s.handle env msg = s := by
  cases msg with
  | snifferSuccess | snifferFail | apConfigFail | apConfigSuccess | connectSuccess | connectFail =>
    exact .inl nofun
  | linkLost =>
    cases linked : s.linkConnect with
    | true =>
      refine .inl ?_
      rw [ConnState.handle, if_pos linked]
      nofun
    | false =>
      refine .inr ⟨nofun, ?_⟩
      rw [ConnState.handle, linked]
      rfl
  | changeIdleNextReboot => exact .inr ⟨nofun, rfl⟩
  | changeToggleMode | changeApMode | changeSnifferMode | factoryMode | setScanRssi | setOtaTest =>
    exact .inl (ConnState.booted_appState env.boot)

/-- The message of success is not lost. -/
theorem ConnState.UnderWay.receive (ok : s.UnderWay) (env : MainEnv) : (s.receive env).UnderWay := by
  unfold ConnState.receive
  split
  next => exact ok
  next msg rest waiting =>
    rcases ConnState.handle_cases { s with queue := rest } env msg with left | ⟨other, same⟩
    · exact fun connecting => absurd connecting left
    · rw [same]
      intro connecting
      refine (ok connecting).imp_right fun success => ?_
      rw [waiting, List.mem_cons] at success
      exact success.resolve_left (Ne.symm other)

theorem ConnState.UnderWay.wlanEvent (ok : s.UnderWay) (event : WlanEvent) :
    (s.wlanEvent event).UnderWay := by
  unfold ConnState.wlanEvent
  split
  next => exact ok
  next msg _ => exact fun connecting => (ok connecting).imp_right (List.mem_append_left _)

theorem Attempt.step_noticed {a a' : Attempt} {info : WifiInfo} {ready staIp : Bool}
    (on : a.step info ready staIp = .goesOn a') : a'.noticed = a.noticed := by
  unfold Attempt.step at on
  split at on
  next =>
    split at on
    next => cases on
    next => cases on; rfl
  next => cases on; rfl
  next =>
    split at on
    next => cases on; rfl
    next => split at on <;> cases on

/-- An attempt that ends has failed or succeeded. -/
theorem Attempt.step_ends {a : Attempt} {info : WifiInfo} {ready staIp : Bool}
    {event : Option WlanEvent} (ends : a.step info ready staIp = .ends event) :
    a.failed info ∨ a.succeeded := by
  unfold Attempt.step at ends
  unfold Attempt.failed Attempt.succeeded
  split at ends
  next =>
    split at ends
    next bad => exact .inl bad
    next => cases ends
  next => cases ends
  next seen count _ =>
    split at ends
    next => cases ends
    next stop =>
      cases seen with
      | true => exact .inr rfl
      | false =>
        refine .inl ?_
        rw [Bool.not_false, Bool.true_and, decide_eq_true_eq]
        exact Nat.lt_of_not_le fun more => stop ⟨rfl, more⟩

/-- An attempt without its event goes on. -/
theorem ConnState.UnderWay.connectTask (ok : s.UnderWay) {i : Nat} {ready staIp : Bool}
    (met : s.GetsAddress (.connectTask i ready staIp))
    (moved : s.step (.connectTask i ready staIp) = some s') : s'.UnderWay := by
  rw [ConnState.step] at moved
  split at moved
  next => cases moved
  next a found =>
  cases next : a.step s.wifiInfo ready staIp with
  | goesOn a' =>
    rw [next] at moved
    rcases Option.some.inj moved with rfl
    refine fun connecting => (ok connecting).imp_left ?_
    rintro ⟨b, mem, fresh⟩
    rcases List.mem_iff_getElem?.mp mem with ⟨j, at_j⟩
    by_cases same : i = j
    · obtain rfl : a = b := by
        rw [← same, found] at at_j
        exact Option.some.inj at_j
      have there : i < s.attempts.length := (List.getElem?_eq_some_iff.mp found).1
      exact ⟨a', List.mem_set there a', (Attempt.step_noticed next).trans fresh⟩
    · refine ⟨b, List.mem_iff_getElem?.mpr ⟨j, ?_⟩, fresh⟩
      rw [List.getElem?_set_ne same, at_j]
  | ends event =>
    have noticed : a.noticed = true := by
      rcases met a found with ⟨unfailed, notice⟩
      rcases Attempt.step_ends next with failed | succeeded
      · rw [unfailed] at failed
        cases failed
      · exact notice succeeded
    have erased : ({ s with attempts := s.attempts.eraseIdx i } : ConnState).UnderWay := by
      refine fun connecting => (ok connecting).imp_left ?_
      rintro ⟨b, mem, fresh⟩
      rcases List.mem_iff_getElem?.mp mem with ⟨j, at_j⟩
      refine ⟨b, List.mem_eraseIdx_iff_getElem?.mpr ⟨j, ?_, at_j⟩, fresh⟩
      rintro rfl
      rw [found] at at_j
      cases at_j
      rw [noticed] at fresh
      cases fresh
    rw [next] at moved
    cases event with
    | none =>
      rcases Option.some.inj moved with rfl
      exact erased
    | some event =>
      rcases Option.some.inj moved with rfl
      exact erased.wlanEvent event

theorem ConnState.UnderWay.step (ok : s.UnderWay) (met : s.GetsAddress event)
    (moved : s.step event = some s') : s'.UnderWay := by
  cases event with
  | mainSwitch env =>
    rw [ConnState.step] at moved
    split at moved
    next => cases moved
    next =>
      rcases Option.some.inj moved with rfl
      have before : ({ s with receives := true } : ConnState).UnderWay := ok
      exact before.switchState env
  | mainReceive env =>
    rw [ConnState.step] at moved
    split at moved
    next =>
      rcases Option.some.inj moved with rfl
      have before : ({ s with receives := false } : ConnState).UnderWay := ok
      exact before.receive env
    next => cases moved
  | connectTask i ready staIp => exact ok.connectTask met moved
  | systemEvent event =>
    rcases Option.some.inj moved with rfl
    cases event with
    | staGotIp => exact fun _ => .inr (List.mem_append_right _ (.head _))
    | staDisconnected => exact ok.wlanEvent .linkLost
    | staStart | staConnected | other => exact ok
  | post msg =>
    rw [ConnState.step] at moved
    split at moved
    next =>
      rcases Option.some.inj moved with rfl
      exact fun connecting => (ok connecting).imp_right (List.mem_append_left _)
    next => cases moved

theorem ConnRun.underWay (run : ConnRun ConnState.GetsAddress s) : s.UnderWay := by
  induction run with
  | start mode => exact ConnState.booted_underWay mode
  | step run met moved ok => exact ok.step met moved

/-- While every attempt gets an address whose event is handled before it ends, the machine is never
stranded. -/
theorem connection_notStranded (run : ConnRun ConnState.GetsAddress s) :
    s.NotStranded ConnState.GetsAddress := by
  refine ⟨fun connecting => ?_, fun i ready staIp a s' met found failed _ => ?_, fun _ => rfl,
    fun env waiting expired created => ?_⟩
  · rcases run.underWay connecting with ⟨a, mem, -⟩ | success
    · exact .inl (List.ne_nil_of_mem mem)
    · exact .inr ⟨.connectSuccess, success, fun env => nofun⟩
  · rw [(met a found).1] at failed
    cases failed
  · have first : s.switchState env = { s with
        reconnectCount := (s.reconnectCount + 1) % 2 ^ 16
        appState := .toConnect } := by
      rw [ConnState.switchState, waiting]
      exact if_pos expired
    rw [first]
    have second : env.taskCreated = true := created
    unfold ConnState.switchState
    dsimp only
    rw [if_pos second, List.length_append]
    rfl

end Keeps

/-- A router of one letter, without a password. -/
def MainEnv.plain : MainEnv := ⟨true, true, ⟨1, 0⟩, 0, .connect⟩

/-- An attempt has got its address, and the loop has not yet seen the message. -/
theorem connection_notStranded_success : ∃ s, ConnRun ConnState.GetsAddress s ∧
    s.appState = .connecting ∧ s.NotStranded ConnState.GetsAddress := by
  have begun : ConnRun ConnState.GetsAddress _ := .step (.start .connect) (by trivial)
    (rfl : ConnState.step _ (.mainSwitch .plain) = some _)
  have connected : ConnRun ConnState.GetsAddress _ := .step begun (by trivial)
    (rfl : ConnState.step _ (.systemEvent .staGotIp) = some _)
  exact ⟨_, connected, rfl, connection_notStranded connected⟩

/-- An attempt in its loop, with nothing in the queue. -/
def ConnState.polling (count : Nat) : ConnState :=
  ⟨.connecting, false, 0, 0, ⟨1, 0⟩, true, [], [⟨.polling false count, false⟩]⟩

/-- Without an address the loop of the task goes on to its last turn. -/
theorem ConnRun.polling {count : Nat} (bound : count ≤ 301) :
    ConnRun (fun _ _ => True) (.polling count) := by
  induction count with
  | zero =>
    have begun : ConnRun (fun _ _ => True) _ := .step (.start .connect) trivial
      (rfl : ConnState.step _ (.mainSwitch .plain) = some _)
    have checked : ConnRun (fun _ _ => True) _ := .step begun trivial
      (rfl : ConnState.step _ (.connectTask 0 true false) = some _)
    exact .step checked trivial (rfl : ConnState.step _ (.connectTask 0 true false) = some _)
  | succ count ih =>
    have turn : (ConnState.polling count).step (.connectTask 0 true false) =
        some (.polling (count + 1)) := by
      have more : (⟨.polling false count, false⟩ : Attempt).step ⟨1, 0⟩ true false =
          .goesOn ⟨.polling false (count + 1), false⟩ :=
        if_pos ⟨rfl, by omega⟩
      simp only [ConnState.step, ConnState.polling, List.getElem?_cons_zero, more]
      rfl
    exact .step (ih (by omega)) trivial turn

/-- Without a router the attempt ends, and nobody tells the loop. -/
theorem connection_stranded :
    ¬ ∀ s, ConnRun (fun _ _ => True) s → s.NotStranded fun _ _ => True := by
  intro safe
  have ended : ConnRun (fun _ _ => True) ⟨.connecting, false, 0, 0, ⟨1, 0⟩, true, [], []⟩ :=
    .step (.polling (Nat.le_refl 301)) trivial
      (rfl : ConnState.step _ (.connectTask 0 true false) = some _)
  rcases (safe _ ended).underWay rfl with running | ⟨msg, waiting, -⟩
  · exact running rfl
  · cases waiting

end Tr6260
