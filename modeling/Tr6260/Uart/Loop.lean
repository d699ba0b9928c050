import Tr6260.RequestLink
import Tr6260.Timer.HalTimer
import Tr6260.Uart.Frame

/-!
# The loop of the serial line

One pass of `ya_uart_app` looks at the line, then at the queue when `queue_rece_enable` is set, and
then at the retry timer when it is not. `loopPass` is that, with what it writes and frees as a trace
of the request link.

The link is not kept: `ya_hal_uart_write` returns `1` and not a length, so the timer is started for
messages of one byte only, and it is not started again after a retry; a reply is looked for only
while none is awaited, and for the command `cur_requeire_cmd`, which is never set; and that frees
what `msg` happens to hold. `LoopPass.Ok` leaves the passes that meet none of this, and runs of
these keep the rules.
-/

namespace Tr6260

/-- `UART_RETRY_NUM`. -/
def uartRetryNum : Nat := 3

/-- `UART_RETRY_INTERVAL`. -/
def uartRetryInterval : Nat := 1000

/-- `cur_requeire_cmd`. -/
def curRequeireCmd : UInt8 := 0

/-- `ya_hal_uart_write` on an open line. -/
def yaHalUartWrite (data : List UInt8) : Int := if data.length = 0 then -1 else 1

/-! ## The loop -/

/-- `msg`: as it was declared, after its `memset`, or message `n` of those taken from the queue. -/
inductive MsgSlot
  | unset
  | cleared
  | holds (n : Nat) (msg : UartMsg)
  deriving DecidableEq

/-- The variables of `ya_uart_app`, its queue, the clock, and how many messages were taken, which
only the trace uses. -/
structure UartLoop where
  queueReceEnable : Bool
  count : Nat
  msg : MsgSlot
  timer : YaTimer
  queue : List UartMsg
  tick : Nat
  taken : Nat
  deriving DecidableEq

/-- In front of the loop. -/
def UartLoop.start (tick : Nat) : UartLoop := ⟨true, 0, .unset, yaInitTimer, [], tick, 0⟩

/-- Ticks that go by. -/
def UartLoop.wait (s : UartLoop) (ticks : Nat) : UartLoop := { s with tick := s.tick + ticks }

/-- What a pass meets: the command of a frame that came whole, the messages put into the queue, and
the ticks until the queue is looked at and from then until the timer is. -/
structure LoopPass where
  frame : Option UInt8
  queued : List UartMsg
  untilSend : Nat
  untilRetry : Nat

/-- What the loop does to the line and to the buffers. -/
abbrev UartAct := RequestLink.Act UartMsg UInt8

/-- Ticks in milliseconds. -/
def ticksMs (tick : Nat) : Nat := tick * portTickPeriodMs

/-- `if(msg.addr) ya_hal_os_memory_free(msg.addr)`. -/
def MsgSlot.free : MsgSlot → List UartAct
  | .unset => [.released none]
  | .cleared => []
  | .holds n _ => [.released (some n)]

/-- Message `n` is there and needs a reply. -/
def MsgSlot.awaits (n : Nat) : MsgSlot → Bool
  | .holds k msg => decide (k = n ∧ msg.type = .withReply)
  | _ => false

/-- The message is one the timer is started for. -/
def MsgSlot.startsTimer : MsgSlot → Bool
  | .holds _ msg => decide (yaHalUartWrite msg.data = msg.data.length)
  | _ => false

/-- The receive part: the compare of the command. -/
def frameStep (frame : Option UInt8) (s : UartLoop) : List UartAct × UartLoop :=
  match frame with
  | none => ([], s)
  | some cmd =>
    if s.queueReceEnable = true ∧ cmd = curRequeireCmd then
      (.frame cmd :: s.msg.free, { s with count := 0, queueReceEnable := true })
    else
      ([.frame cmd], s)

/-- The queue part. -/
def queueStep (queued : List UartMsg) (s : UartLoop) : List UartAct × UartLoop :=
  if s.queueReceEnable then
    match s.queue ++ queued with
    | [] => ([], { s with msg := .cleared, queue := [] })
    | msg :: queue =>
      let sent : UartLoop := { s with msg := .holds s.taken msg, queue, taken := s.taken + 1 }
      match msg.type with
      | .withReply =>
        ([.sent s.taken msg (ticksMs s.tick)],
          { sent with
            count := 0
            queueReceEnable := false
            timer := if yaHalUartWrite msg.data ≠ msg.data.length then s.timer
              else yaCountdownMs s.tick uartRetryInterval })
      | .withoutReply =>
        ([.sent s.taken msg (ticksMs s.tick), .released (some s.taken)],
          { sent with queueReceEnable := true })
  else
    ([], { s with queue := s.queue ++ queued })

/-- The retry part. -/
def retryStep (s : UartLoop) : List UartAct × UartLoop :=
  if s.queueReceEnable = false ∧ yaHasTimerExpired s.timer s.tick then
    if s.count < uartRetryNum then
      match s.msg with
      | .holds n _ => ([.resent n (ticksMs s.tick)], { s with count := s.count + 1 })
      | _ => ([], { s with count := s.count + 1 })
    else
      ([], { s with count := 0, queueReceEnable := true })
  else
    ([], s)

/-- One pass. -/
def loopPass (p : LoopPass) (s : UartLoop) : List UartAct × UartLoop :=
  let (acts, s) := frameStep p.frame s
  let (acts', s) := queueStep p.queued (s.wait p.untilSend)
  let (acts'', s) := retryStep (s.wait p.untilRetry)
  (acts ++ acts' ++ acts'', s)

/-- Pass after pass. -/
def uartLoop : List LoopPass → UartLoop → List UartAct × UartLoop
  | [], s => ([], s)
  | p :: later, s =>
    let (acts, s) := loopPass p s
    let (acts', s) := uartLoop later s
    (acts ++ acts', s)

/-! ## The rules, and the passes that keep them -/

/-- The rules of the link: a reply has the command of its request. -/
def uartRules : RequestLink.Rules UartMsg UInt8 where
  needsReply msg := decide (msg.type = .withReply)
  answers cmd msg := msg.data[3]? == some cmd
  retries := uartRetryNum
  interval := uartRetryInterval

/-- The receive part frees nothing. -/
def FreesNothing (frame : Option UInt8) (s : UartLoop) : Prop :=
  s.queueReceEnable = true → frame = some curRequeireCmd → s.msg = .cleared

/-- The retry part does not take the timer of another message, or of a retry before, for that of the
message it waits with. -/
def RetryOk (s : UartLoop) : Prop :=
  s.queueReceEnable = false → yaHasTimerExpired s.timer s.tick = true →
    s.count = 0 ∧ s.msg.startsTimer = true

/-- The state when a pass looks at the timer. -/
def LoopPass.atTimer (p : LoopPass) (s : UartLoop) : UartLoop :=
  (queueStep p.queued ((frameStep p.frame s).2.wait p.untilSend)).2.wait p.untilRetry

/-- A pass that keeps the rules, in the state before it. -/
def LoopPass.Ok (p : LoopPass) (s : UartLoop) : Prop :=
  FreesNothing p.frame s ∧ RetryOk (p.atTimer s)

/-- Passes that each keep the rules. -/
def LoopOk : List LoopPass → UartLoop → Prop
  | [], _ => True
  | p :: later, s => p.Ok s ∧ LoopOk later (loopPass p s).2

/-! ## The loop and the link -/

open RequestLink in
/-- The link can take a message. -/
structure LinkReady (s : UartLoop) (st : State UartMsg) : Prop where
  enabled : s.queueReceEnable = true
  used : st.used = s.taken
  held : st.held = none
  finished : st.current.all (Open.finished uartRules) = true
  timer : s.timer = yaInitTimer

/-- The message that may still be there has been freed. -/
def SlotFreed (s : UartLoop) : Prop :=
  ∀ n msg, s.msg = .holds n msg → msg.type = .withoutReply ∧ n < s.taken

open RequestLink in
/-- A message waits for its reply. The timer is its own only when it was started for it. -/
structure LinkWaiting (s : UartLoop) (st : State UartMsg) (n : Nat) (msg : UartMsg) : Prop where
  disabled : s.queueReceEnable = false
  used : st.used = s.taken
  slot : s.msg = .holds n msg
  reply : msg.type = .withReply
  held : st.held = some n
  few : s.count ≤ 1
  own : s.msg.startsTimer = true → ∃ since ≤ s.tick,
    s.timer = yaCountdownMs since uartRetryInterval ∧
      (s.count = 0 → st.current = some ⟨n, msg, 0, ticksMs since⟩)
  other : s.msg.startsTimer = false → s.timer = yaInitTimer ∧ s.count = 0

open RequestLink in
/-- The state of the loop between two passes, as the link sees it. -/
def LinkSim (s : UartLoop) (st : State UartMsg) : Prop :=
  LinkReady s st ∧ SlotFreed s ∨ ∃ n msg, LinkWaiting s st n msg

section Simulation

open RequestLink

variable {s : UartLoop} {st : State UartMsg} {n : Nat} {msg : UartMsg}

/-- The timer is started for messages of one byte, which have no command. -/
theorem startsTimer_unanswered (slot : s.msg = .holds n msg) (own : s.msg.startsTimer = true)
    (cmd : UInt8) : uartRules.answers cmd msg = false := by
  rw [slot, MsgSlot.startsTimer, decide_eq_true_iff, yaHalUartWrite] at own
  have one : msg.data.length = 1 := by
    split at own <;> omega
  have none_ : msg.data[3]? = none := List.getElem?_eq_none (by omega)
  simp [uartRules, none_]

theorem LinkReady.wait (ready : LinkReady s st) (ticks : Nat) : LinkReady (s.wait ticks) st :=
  ⟨ready.enabled, ready.used, ready.held, ready.finished, ready.timer⟩

theorem LinkWaiting.wait (waiting : LinkWaiting s st n msg) (ticks : Nat) :
    LinkWaiting (s.wait ticks) st n msg where
  disabled := waiting.disabled
  used := waiting.used
  slot := waiting.slot
  reply := waiting.reply
  held := waiting.held
  few := waiting.few
  own starts := by
    obtain ⟨since, before, timer, current⟩ := waiting.own starts
    exact ⟨since, Nat.le_add_right_of_le before, timer, current⟩
  other := waiting.other

theorem LinkSim.wait (sim : LinkSim s st) (ticks : Nat) : LinkSim (s.wait ticks) st := by
  rcases sim with ⟨ready, freed⟩ | ⟨n, msg, waiting⟩
  · exact .inl ⟨ready.wait ticks, freed⟩
  · exact .inr ⟨n, msg, waiting.wait ticks⟩

/-- A frame is always accepted. It leaves a finished message finished. -/
theorem step_frame (st : State UartMsg) (cmd : UInt8) :
    ∃ st', step uartRules st (.frame cmd) = some st' ∧ st'.used = st.used ∧ st'.held = st.held ∧
      (st.current.all (Open.finished uartRules) = true →
        st'.current.all (Open.finished uartRules) = true) ∧
      (∀ o ∈ st.current, uartRules.answers cmd o.msg = false → o ∈ st'.current) := by
  by_cases answered : st.current.any fun o =>
      uartRules.needsReply o.msg && uartRules.answers cmd o.msg
  · refine ⟨{ st with current := none }, if_pos answered, rfl, rfl, fun _ => rfl, ?_⟩
    intro o current unanswered
    rw [Option.mem_def.mp current] at answered
    simp [unanswered] at answered
  · exact ⟨st, if_neg answered, rfl, rfl, id, fun o current _ => current⟩

/-- The receive part. -/
theorem frameStep_sim {frame : Option UInt8} (sim : LinkSim s st) (ok : FreesNothing frame s) :
    ∃ st', (frameStep frame s).1.foldlM (step uartRules) st = some st' ∧
      (LinkReady (frameStep frame s).2 st' ∨
        ∃ n msg, LinkWaiting (frameStep frame s).2 st' n msg) := by
  cases frame with
  | none =>
    refine ⟨st, rfl, ?_⟩
    rcases sim with ⟨ready, -⟩ | waiting
    · exact .inl ready
    · exact .inr waiting
  | some cmd =>
    obtain ⟨st1, accepted, used, held, finished, still⟩ := step_frame st cmd
    by_cases free : s.queueReceEnable = true ∧ cmd = curRequeireCmd
    · obtain ⟨enabled, rfl⟩ := free
      rw [frameStep, if_pos ⟨enabled, rfl⟩]
      rcases sim with ⟨ready, -⟩ | ⟨n, msg, waiting⟩
      · refine ⟨st1, ?_, .inl ⟨rfl, used.trans ready.used, held.trans ready.held,
          finished ready.finished, ready.timer⟩⟩
        simp [ok enabled rfl, MsgSlot.free, accepted]
      · rw [waiting.disabled] at enabled
        cases enabled
    · rw [frameStep, if_neg free]
      refine ⟨st1, by simp [accepted], ?_⟩
      rcases sim with ⟨ready, -⟩ | ⟨n, msg, waiting⟩
      · exact .inl ⟨ready.enabled, used.trans ready.used, held.trans ready.held,
          finished ready.finished, ready.timer⟩
      · refine .inr ⟨n, msg, waiting.disabled, used.trans waiting.used, waiting.slot, waiting.reply,
          held.trans waiting.held, waiting.few, ?_, waiting.other⟩
        intro own
        obtain ⟨since, before, timer, current⟩ := waiting.own own
        refine ⟨since, before, timer, fun first => ?_⟩
        exact still _ (current first) (startsTimer_unanswered waiting.slot own cmd)

/-- The queue part. -/
theorem queueStep_sim (queued : List UartMsg)
    (sim : LinkReady s st ∨ ∃ n msg, LinkWaiting s st n msg) :
    ∃ st', (queueStep queued s).1.foldlM (step uartRules) st = some st' ∧
      LinkSim (queueStep queued s).2 st' := by
  rcases sim with ready | ⟨n, msg, waiting⟩
  · rw [queueStep, if_pos ready.enabled]
    rcases s.queue ++ queued with _ | ⟨msg, queue⟩
    · exact ⟨st, rfl, .inl ⟨⟨ready.enabled, ready.used, ready.held, ready.finished, ready.timer⟩,
        fun n msg holds => (nomatch holds)⟩⟩
    · have sent : step uartRules st (.sent s.taken msg (ticksMs s.tick)) =
          some ⟨some ⟨s.taken, msg, 0, ticksMs s.tick⟩, some s.taken, s.taken + 1⟩ := by
        simp only [step]
        rw [if_pos ⟨ready.used.symm, ready.held, ready.finished⟩]
      dsimp only
      cases type : msg.type with
      | withReply =>
        refine ⟨⟨some ⟨s.taken, msg, 0, ticksMs s.tick⟩, some s.taken, s.taken + 1⟩,
          by simp [sent], .inr ⟨s.taken, msg, rfl, rfl, rfl, type, rfl, Nat.zero_le _, ?_, ?_⟩⟩
        · intro own
          refine ⟨s.tick, Nat.le_refl _, if_neg (not_not.mpr (of_decide_eq_true own)), fun _ => rfl⟩
        · intro other
          exact ⟨(if_pos (of_decide_eq_false other)).trans ready.timer, rfl⟩
      | withoutReply =>
        have released : step uartRules
            ⟨some ⟨s.taken, msg, 0, ticksMs s.tick⟩, some s.taken, s.taken + 1⟩
            (.released (some s.taken)) =
            some ⟨some ⟨s.taken, msg, 0, ticksMs s.tick⟩, none, s.taken + 1⟩ := if_pos ⟨rfl, rfl⟩
        refine ⟨⟨some ⟨s.taken, msg, 0, ticksMs s.tick⟩, none, s.taken + 1⟩, ?_,
          .inl ⟨⟨rfl, rfl, rfl, ?_, ready.timer⟩, ?_⟩⟩
        · simp [sent, released]
        · simp [Open.finished, uartRules, type]
        · rintro n msg' same
          cases same
          exact ⟨type, Nat.lt_succ_self _⟩
  · rw [queueStep, if_neg (by simp [waiting.disabled])]
    exact ⟨st, rfl, .inr ⟨n, msg, waiting.disabled, waiting.used, waiting.slot, waiting.reply,
      waiting.held, waiting.few, waiting.own, waiting.other⟩⟩

/-- A message that waits is written again while there are retries. -/
theorem retryStep_resent (disabled : s.queueReceEnable = false)
    (expired : yaHasTimerExpired s.timer s.tick = true) (few : s.count < uartRetryNum)
    (slot : s.msg = .holds n msg) :
    retryStep s = ([.resent n (ticksMs s.tick)], { s with count := s.count + 1 }) := by
  rw [retryStep, if_pos ⟨disabled, expired⟩, if_pos few, slot]

/-- The retry part. -/
theorem retryStep_sim (sim : LinkSim s st) (ok : RetryOk s) :
    ∃ st', (retryStep s).1.foldlM (step uartRules) st = some st' ∧
      LinkSim (retryStep s).2 st' := by
  rcases sim with ⟨ready, slot⟩ | ⟨n, msg, waiting⟩
  · rw [retryStep, if_neg (by simp [ready.enabled])]
    exact ⟨st, rfl, .inl ⟨ready, slot⟩⟩
  · by_cases expired : yaHasTimerExpired s.timer s.tick = true
    case neg =>
      rw [retryStep, if_neg (fun both => expired both.2)]
      exact ⟨st, rfl, .inr ⟨n, msg, waiting⟩⟩
    obtain ⟨first, starts⟩ := ok waiting.disabled expired
    obtain ⟨since, before, timer, current⟩ := waiting.own starts
    have more : s.count < uartRetryNum := by
      rw [first]
      decide
    rw [retryStep_resent waiting.disabled expired more waiting.slot]
    rw [timer] at expired
    have later : ticksMs since + uartRetryInterval ≤ ticksMs s.tick := by
      have gone := elapsed_of_expired before expired
      unfold ticksMs
      rw [Nat.mul_sub] at gone
      rw [Nat.mul_comm since, Nat.mul_comm s.tick]
      omega
    have resent : step uartRules st (.resent n (ticksMs s.tick)) =
        some { st with current := some ⟨n, msg, 1, ticksMs s.tick⟩ } := by
      simp only [step]
      rw [current first]
      dsimp only
      rw [if_pos]
      refine ⟨rfl, ?_, ?_, later⟩
      · simp [uartRules, waiting.reply]
      · decide
    refine ⟨{ st with current := some ⟨n, msg, 1, ticksMs s.tick⟩ }, by simp [resent],
      .inr ⟨n, msg, ?_⟩⟩
    refine ⟨waiting.disabled, waiting.used, waiting.slot, waiting.reply, waiting.held, ?_, ?_, ?_⟩
    · dsimp only
      omega
    · intro _
      exact ⟨since, before, timer, fun none_ => absurd none_ (Nat.succ_ne_zero _)⟩
    · intro other
      rw [starts] at other
      cases other

/-- The state when a pass looks at the timer. -/
theorem atTimer_sim {p : LoopPass} (sim : LinkSim s st) (ok : FreesNothing p.frame s) :
    ∃ st', ((frameStep p.frame s).1 ++
        (queueStep p.queued ((frameStep p.frame s).2.wait p.untilSend)).1).foldlM
          (step uartRules) st = some st' ∧ LinkSim (p.atTimer s) st' := by
  obtain ⟨st1, first, sim1⟩ := frameStep_sim sim ok
  have later : LinkReady ((frameStep p.frame s).2.wait p.untilSend) st1 ∨
      ∃ n msg, LinkWaiting ((frameStep p.frame s).2.wait p.untilSend) st1 n msg :=
    sim1.imp (·.wait _) fun ⟨n, msg, waiting⟩ => ⟨n, msg, waiting.wait _⟩
  obtain ⟨st2, second, sim2⟩ := queueStep_sim p.queued later
  refine ⟨st2, ?_, sim2.wait _⟩
  rw [List.foldlM_append, first]
  exact second

theorem loopPass_eq (p : LoopPass) (s : UartLoop) : loopPass p s =
    ((frameStep p.frame s).1 ++ (queueStep p.queued ((frameStep p.frame s).2.wait p.untilSend)).1 ++
      (retryStep (p.atTimer s)).1, (retryStep (p.atTimer s)).2) := rfl

/-- One pass. -/
theorem loopPass_sim {p : LoopPass} (sim : LinkSim s st) (ok : p.Ok s) :
    ∃ st', (loopPass p s).1.foldlM (step uartRules) st = some st' ∧
      LinkSim (loopPass p s).2 st' := by
  obtain ⟨st1, first, sim1⟩ := atTimer_sim sim ok.1
  obtain ⟨st2, second, sim2⟩ := retryStep_sim sim1 ok.2
  refine ⟨st2, ?_, sim2⟩
  rw [loopPass_eq]
  dsimp only
  rw [List.foldlM_append, first]
  exact second

/-- Pass after pass. -/
theorem uartLoop_sim {passes : List LoopPass} (sim : LinkSim s st) (ok : LoopOk passes s) :
    ∃ st', (uartLoop passes s).1.foldlM (step uartRules) st = some st' ∧
      LinkSim (uartLoop passes s).2 st' := by
  induction passes generalizing s st with
  | nil => exact ⟨st, rfl, sim⟩
  | cons p later ih =>
    obtain ⟨st1, first, sim1⟩ := loopPass_sim sim ok.1
    obtain ⟨st2, second, sim2⟩ := ih sim1 ok.2
    refine ⟨st2, ?_, sim2⟩
    simp only [uartLoop]
    rw [List.foldlM_append, first]
    exact second

/-- Only a message that needs a reply is held between two passes. -/
theorem LinkSim.held (sim : LinkSim s st) (n : Nat) : st.held = some n ↔ s.msg.awaits n = true := by
  rcases sim with ⟨ready, freed⟩ | ⟨k, msg, waiting⟩
  · rw [ready.held]
    cases holds : s.msg with
    | unset => simp [MsgSlot.awaits]
    | cleared => simp [MsgSlot.awaits]
    | holds k msg => simp [MsgSlot.awaits, (freed k msg holds).1]
  · rw [waiting.held, waiting.slot]
    simp [MsgSlot.awaits, waiting.reply]

theorem linkSim_start (tick : Nat) : LinkSim (.start tick) .start :=
  .inl ⟨⟨rfl, rfl, rfl, rfl, rfl⟩, fun _ _ holds => (nomatch holds)⟩

end Simulation

/-! ## Runs of such passes -/

/-- What is asked of a run so far: the protocol of the link, and that every message is released
once, but for one that still waits for its reply or has just been given up. -/
structure LinkKept (tick : Nat) (passes : List LoopPass) : Prop where
  protocol : RequestLink.Protocol uartRules (uartLoop passes (.start tick)).1
  released : ∀ n msg time, .sent n msg time ∈ (uartLoop passes (.start tick)).1 →
    RequestLink.releases (uartLoop passes (.start tick)).1 n =
      if (uartLoop passes (.start tick)).2.msg.awaits n then 0 else 1

theorem linkKept_of_ok {tick : Nat} {passes : List LoopPass} (ok : LoopOk passes (.start tick)) :
    LinkKept tick passes := by
  obtain ⟨st, accepted, sim⟩ := uartLoop_sim (linkSim_start tick) ok
  have inv := RequestLink.inv_of_run accepted
  refine ⟨RequestLink.protocol_of_run accepted, fun n msg time sent => ?_⟩
  rw [inv.owned.2 n (inv.known n msg time sent)]
  simp only [sim.held n]

end Tr6260
