import Tr6260.Uart.Loop

/-!
# Passes that follow each other at once

A pass of the loop takes a fraction of a second. When all passes do, `LoopPass.Ok` says exactly when
the link is kept: a pass that does not meet it frees a buffer that is not there, or writes a message
again within the interval, and no later pass undoes that.
-/

namespace Tr6260

open RequestLink

/-- The passes take less than the interval, and the counter of milliseconds does not wrap. -/
structure PromptRun (tick : Nat) (passes : List LoopPass) : Prop where
  prompt : ∀ p ∈ passes, ticksMs (p.untilSend + p.untilRetry) < uartRetryInterval
  small : ticksMs (uartLoop passes (.start tick)).2.tick < 2 ^ 32

/-! ## Time -/

section Time

variable {s : UartLoop} {p : LoopPass} {queued : List UartMsg} {frame : Option UInt8}

@[simp] theorem frameStep_tick : (frameStep frame s).2.tick = s.tick := by
  unfold frameStep
  split
  · rfl
  · split <;> rfl

@[simp] theorem queueStep_tick : (queueStep queued s).2.tick = s.tick := by
  unfold queueStep
  split
  · split
    · rfl
    · split <;> rfl
  · rfl

@[simp] theorem retryStep_tick : (retryStep s).2.tick = s.tick := by
  unfold retryStep
  split
  · split
    · split <;> rfl
    · rfl
  · rfl

theorem atTimer_tick : (p.atTimer s).tick = s.tick + p.untilSend + p.untilRetry := by
  simp [LoopPass.atTimer, UartLoop.wait]

theorem loopPass_tick : (loopPass p s).2.tick = s.tick + p.untilSend + p.untilRetry := by
  rw [loopPass_eq]
  dsimp only
  rw [retryStep_tick, atTimer_tick]

end Time

/-- The timer as it was at first is over unless no millisecond has passed. -/
theorem expired_init {tick : Nat} (small : ticksMs tick < 2 ^ 32) :
    yaHasTimerExpired yaInitTimer tick = true ↔ 0 < ticksMs tick := by
  have started : yaHalOsTicksToMsec yaInitTimer.initTick = 0 := rfl
  have now : yaHalOsTicksToMsec tick = ticksMs tick := by
    unfold ticksMs portTickPeriodMs at small
    unfold yaHalOsTicksToMsec ticksMs portTickPeriodMs
    omega
  unfold yaHasTimerExpired
  rw [started, now]
  dsimp only
  rw [if_pos (show ticksMs tick ≥ 0 from Nat.zero_le _), decide_eq_true_iff]
  rfl

/-- A countdown that is over stays so. -/
theorem expired_mono {since tick tick' : Nat} (before : since ≤ tick) (later : tick ≤ tick')
    (small : ticksMs tick' < 2 ^ 32)
    (expired : yaHasTimerExpired (yaCountdownMs since uartRetryInterval) tick = true) :
    yaHasTimerExpired (yaCountdownMs since uartRetryInterval) tick' = true := by
  have gone := elapsed_of_expired before expired
  unfold ticksMs at small
  apply (yaHasTimerExpired_countdown (before.trans later) ?_ (by decide)).mpr
  · exact gone.trans_le (Nat.mul_le_mul_left _ (Nat.sub_le_sub_right later _))
  · rw [Nat.mul_sub, Nat.mul_comm _ tick']
    omega

/-! ## When a message was written last -/

section Written

variable {s : UartLoop} {st : State UartMsg} {trace : List UartAct} {p : LoopPass} {n : Nat}
  {msg : UartMsg}

/-- The timer was started for the message, and is over. -/
def RunOut (s : UartLoop) : Prop :=
  ∃ since ≤ s.tick, s.timer = yaCountdownMs since uartRetryInterval ∧
    yaHasTimerExpired (yaCountdownMs since uartRetryInterval) s.tick = true

/-- A message that waits without a timer of its own, or with one that is over, was written when the
timer was looked at last. -/
def WrittenLate (s : UartLoop) (trace : List UartAct) : Prop :=
  s.queueReceEnable = false → ∀ n msg, s.msg = .holds n msg →
    s.count ≠ 0 ∨ s.msg.startsTimer = false →
      (times trace n).getLast? = some (ticksMs s.tick) ∧
        (s.count ≠ 0 → RunOut s)

theorem times_frameStep (frame : Option UInt8) (s : UartLoop) (n : Nat) :
    times (frameStep frame s).1 n = [] := by
  unfold frameStep
  split
  · rfl
  · split
    · unfold MsgSlot.free
      split <;> rfl
    · rfl

theorem frameStep_enabled (frame : Option UInt8) (enabled : s.queueReceEnable = true) :
    (frameStep frame s).2.queueReceEnable = true := by
  unfold frameStep
  split
  · exact enabled
  · split
    · rfl
    · exact enabled

theorem frameStep_disabled (frame : Option UInt8) (disabled : s.queueReceEnable = false) :
    (frameStep frame s).2 = s := by
  unfold frameStep
  split
  · rfl
  · rw [if_neg (by simp [disabled])]

/-- What the queue part can do. -/
theorem queueStep_cases (queued : List UartMsg) (s : UartLoop) :
    s.queueReceEnable = false ∧ queueStep queued s = ([], { s with queue := s.queue ++ queued }) ∨
      (queueStep queued s).2.queueReceEnable = true ∨
      ∃ msg, (queueStep queued s).1 = [.sent s.taken msg (ticksMs s.tick)] ∧
        (queueStep queued s).2.msg = .holds s.taken msg ∧ (queueStep queued s).2.count = 0 := by
  unfold queueStep
  cases enabled : s.queueReceEnable with
  | false => exact .inl ⟨rfl, rfl⟩
  | true =>
    rw [if_pos rfl]
    right
    rcases s.queue ++ queued with _ | ⟨msg, queue⟩
    · exact .inl rfl
    · dsimp only
      cases msg.type with
      | withReply => exact .inr ⟨msg, rfl, rfl, rfl⟩
      | withoutReply => exact .inl rfl

/-- Between the beginning of a pass and its look at the timer. -/
theorem written_atTimer (late : WrittenLate s trace)
    (disabled : (p.atTimer s).queueReceEnable = false) (slot : (p.atTimer s).msg = .holds n msg)
    (own : (p.atTimer s).count ≠ 0 ∨ (p.atTimer s).msg.startsTimer = false) :
    ∃ w, (times (trace ++ ((frameStep p.frame s).1 ++
        (queueStep p.queued ((frameStep p.frame s).2.wait p.untilSend)).1)) n).getLast? = some w ∧
      ticksMs s.tick ≤ w ∧ w ≤ ticksMs (p.atTimer s).tick ∧
      ((p.atTimer s).count ≠ 0 → (p.atTimer s).timer = s.timer ∧ RunOut s) := by
  have mono {a b : Nat} (le : a ≤ b) : ticksMs a ≤ ticksMs b := Nat.mul_le_mul_right _ le
  rw [atTimer_tick, times_append, times_append, times_frameStep, List.nil_append]
  unfold LoopPass.atTimer at disabled slot own ⊢
  rcases queueStep_cases p.queued ((frameStep p.frame s).2.wait p.untilSend) with
    ⟨still, step⟩ | enabled | ⟨msg', acts, slot', count⟩
  · rw [step] at disabled slot own ⊢
    have before : s.queueReceEnable = false := by
      cases enabled : s.queueReceEnable with
      | false => rfl
      | true =>
        have taken := frameStep_enabled p.frame enabled
        exact absurd (still.symm.trans taken) Bool.false_ne_true
    rw [frameStep_disabled p.frame before] at slot own ⊢
    obtain ⟨last, over_⟩ := late before n msg slot own
    refine ⟨_, ?_, le_refl _, mono (by omega), fun again => ⟨rfl, over_ again⟩⟩
    rw [show times ([] : List UartAct) n = [] from rfl, List.append_nil]
    exact last
  · exact absurd (disabled.symm.trans enabled) Bool.false_ne_true
  · have same : n = ((frameStep p.frame s).2.wait p.untilSend).taken := by
      have both := slot.symm.trans slot'
      cases both
      rfl
    rw [acts, times_sent, if_pos same.symm, List.getLast?_append]
    refine ⟨_, rfl, mono ?_, mono ?_, fun again => absurd count again⟩
    · simp [UartLoop.wait]
    · simp [UartLoop.wait]

/-- A pass that keeps the rules. -/
theorem writtenLate_pass (sim : LinkSim s st) (late : WrittenLate s trace) (ok : p.Ok s)
    (small : ticksMs (loopPass p s).2.tick < 2 ^ 32) :
    WrittenLate (loopPass p s).2 (trace ++ (loopPass p s).1) := by
  obtain ⟨st', -, sim'⟩ := atTimer_sim sim ok.1
  rw [loopPass_eq] at small ⊢
  dsimp only at small ⊢
  rw [retryStep_tick] at small
  rcases sim' with ⟨ready, -⟩ | ⟨k, msg', waiting⟩
  · intro disabled
    rw [retryStep, if_neg (by simp [ready.enabled]), ready.enabled] at disabled
    cases disabled
  by_cases expired : yaHasTimerExpired (p.atTimer s).timer (p.atTimer s).tick = true
  · -- the message's own timer is over for the first time
    obtain ⟨first, starts⟩ := ok.2 waiting.disabled expired
    obtain ⟨since, early, timer, -⟩ := waiting.own starts
    have few : (p.atTimer s).count < uartRetryNum := by rw [first]; decide
    rw [retryStep_resent waiting.disabled expired few waiting.slot]
    intro _ n msg slot _
    cases slot.symm.trans waiting.slot
    refine ⟨?_, fun _ => ⟨since, early, timer, timer ▸ expired⟩⟩
    rw [times_append, times_append, times_resent, if_pos rfl, ← List.append_assoc,
      List.getLast?_append]
    rfl
  · rw [retryStep, if_neg (fun both => expired both.2), List.append_nil]
    intro disabled n msg slot own
    obtain ⟨w, last, low, high, again⟩ := written_atTimer late disabled slot own
    have later : s.tick ≤ (p.atTimer s).tick := by
      rw [atTimer_tick]
      omega
    by_cases more : (p.atTimer s).count = 0
    · have starts := own.resolve_left (not_not.mpr more)
      rw [(waiting.other starts).1, expired_init small, not_lt, Nat.le_zero] at expired
      rw [expired, Nat.le_zero] at high
      rw [high] at last
      dsimp only
      rw [expired]
      exact ⟨last, fun again => absurd more again⟩
    · obtain ⟨timer, since, early, same, over_⟩ := again more
      rw [timer, same] at expired
      exact absurd (expired_mono early later small over_) expired

end Written

/-! ## A pass that does not keep the rules -/

section Broken

variable {s : UartLoop} {st : State UartMsg} {trace : List UartAct} {p : LoopPass}

/-- What is freed by the receive part is freed twice, or was never allocated. -/
theorem freesNothing_of_protocol (accepted : run uartRules trace = some st) (sim : LinkSim s st)
    (protocol : Protocol uartRules (trace ++ (loopPass p s).1)) : FreesNothing p.frame s := by
  intro enabled frame
  rcases sim with ⟨ready, freed⟩ | ⟨n, msg, waiting⟩
  case inr =>
    rw [waiting.disabled] at enabled
    cases enabled
  have begins : (frameStep p.frame s).1 = .frame curRequeireCmd :: s.msg.free := by
    rw [frame, frameStep, if_pos ⟨enabled, rfl⟩]
  rw [loopPass_eq] at protocol
  dsimp only at protocol
  rw [begins] at protocol
  cases slot : s.msg with
  | unset =>
    rw [slot] at protocol
    refine absurd ?_ protocol.once.1
    simp [MsgSlot.free]
  | cleared => rfl
  | holds n msg =>
    have inv := inv_of_run accepted
    have before := inv.owned.2 n (ready.used ▸ (freed n msg slot).2)
    rw [ready.held, if_neg (by simp)] at before
    have once := protocol.once.2 n
    rw [slot] at once
    simp only [MsgSlot.free, releases_append, before] at once
    have again : releases ([.frame curRequeireCmd, .released (some n)] : List UartAct) n = 1 := by
      rw [show ([.frame curRequeireCmd, .released (some n)] : List UartAct) =
        [.frame curRequeireCmd] ++ [.released (some n)] from rfl, releases_append,
        releases_frame, releases_released, if_pos rfl]
    omega

/-- What the retry part writes then is written too soon. -/
theorem retryOk_of_protocol (sim : LinkSim s st) (late : WrittenLate s trace)
    (ok : FreesNothing p.frame s)
    (prompt : ticksMs (p.untilSend + p.untilRetry) < uartRetryInterval)
    (protocol : Protocol uartRules (trace ++ (loopPass p s).1)) : RetryOk (p.atTimer s) := by
  intro disabled expired
  obtain ⟨st', -, sim'⟩ := atTimer_sim sim ok
  rcases sim' with ⟨ready, -⟩ | ⟨n, msg, waiting⟩
  case inl =>
    rw [ready.enabled] at disabled
    cases disabled
  by_contra other
  have own : (p.atTimer s).count ≠ 0 ∨ (p.atTimer s).msg.startsTimer = false := by
    rw [not_and_or, Bool.not_eq_true] at other
    exact other
  obtain ⟨w, last, low, -, -⟩ := written_atTimer late disabled waiting.slot own
  have few : (p.atTimer s).count < uartRetryNum := waiting.few.trans_lt (by decide)
  have resent := retryStep_resent disabled expired few waiting.slot
  have apart := protocol.apart n
  rw [loopPass_eq] at apart
  dsimp only at apart
  rw [resent, ← List.append_assoc, times_append, times_resent, if_pos rfl] at apart
  have far := (List.isChain_append.mp apart).2.2 w last _ rfl
  have now : ticksMs (p.atTimer s).tick =
      ticksMs s.tick + ticksMs (p.untilSend + p.untilRetry) := by
    rw [atTimer_tick]
    unfold ticksMs
    rw [Nat.add_assoc, Nat.add_mul]
  change w + uartRetryInterval ≤ _ at far
  omega

theorem ok_of_protocol (accepted : run uartRules trace = some st) (sim : LinkSim s st)
    (late : WrittenLate s trace)
    (prompt : ticksMs (p.untilSend + p.untilRetry) < uartRetryInterval)
    (protocol : Protocol uartRules (trace ++ (loopPass p s).1)) : p.Ok s := by
  have ok := freesNothing_of_protocol accepted sim protocol
  exact ⟨ok, retryOk_of_protocol sim late ok prompt protocol⟩

end Broken

/-! ## Runs -/

section Runs

variable {p : LoopPass} {passes : List LoopPass} {s : UartLoop} {tick : Nat}

theorem uartLoop_concat : uartLoop (passes ++ [p]) s =
    ((uartLoop passes s).1 ++ (loopPass p (uartLoop passes s).2).1,
      (loopPass p (uartLoop passes s).2).2) := by
  induction passes generalizing s with
  | nil => simp [uartLoop]
  | cons q passes ih => simp [uartLoop, ih]

theorem loopOk_concat :
    LoopOk (passes ++ [p]) s ↔ LoopOk passes s ∧ p.Ok (uartLoop passes s).2 := by
  induction passes generalizing s with
  | nil => simp [LoopOk, uartLoop]
  | cons q passes ih => simp [LoopOk, uartLoop, ih, and_assoc]

theorem PromptRun.init (run : PromptRun tick (passes ++ [p])) : PromptRun tick passes where
  prompt q member := run.prompt q (List.mem_append_left _ member)
  small := by
    have small := run.small
    rw [uartLoop_concat] at small
    dsimp only at small
    rw [loopPass_tick] at small
    unfold ticksMs at small ⊢
    exact (Nat.mul_le_mul_right _ (by omega)).trans_lt small

/-- Passes that keep the rules, one after the other. -/
theorem writtenLate_run (prompt : PromptRun tick passes) (ok : LoopOk passes (.start tick)) :
    WrittenLate (uartLoop passes (.start tick)).2 (uartLoop passes (.start tick)).1 := by
  induction passes using List.reverseRecOn with
  | nil =>
    intro disabled
    cases disabled
  | append_singleton passes p ih =>
    rw [loopOk_concat] at ok
    obtain ⟨st, -, sim⟩ := uartLoop_sim (linkSim_start tick) ok.1
    have small := prompt.small
    rw [uartLoop_concat] at small ⊢
    exact writtenLate_pass sim (ih prompt.init ok.1) ok.2 small

theorem loopOk_of_kept (prompt : PromptRun tick passes)
    (kept : ∀ front, front <+: passes → LinkKept tick front) : LoopOk passes (.start tick) := by
  induction passes using List.reverseRecOn with
  | nil => trivial
  | append_singleton passes p ih =>
    have ok := ih prompt.init fun front before => kept front (before.trans (List.prefix_append _ _))
    obtain ⟨st, accepted, sim⟩ := uartLoop_sim (linkSim_start tick) ok
    have protocol := (kept _ List.prefix_rfl).protocol
    rw [uartLoop_concat] at protocol
    have late := writtenLate_run prompt.init ok
    rw [loopOk_concat]
    refine ⟨ok, ok_of_protocol accepted sim late ?_ protocol⟩
    exact prompt.prompt p (List.mem_append_right _ (List.mem_singleton_self p))

theorem LoopOk.front {front : List LoopPass} (ok : LoopOk passes s) (before : front <+: passes) :
    LoopOk front s := by
  obtain ⟨rest, rfl⟩ := before
  induction front generalizing s with
  | nil => trivial
  | cons q front ih => exact ⟨ok.1, ih ok.2⟩

end Runs

/-- Every run of passes that each keep the rules keeps the protocol of the link in every state it
reaches, and where passes follow each other at once no other run does. -/
theorem uartLoop_protocol (tick : Nat) (passes : List LoopPass) :
    (LoopOk passes (.start tick) → ∀ front, front <+: passes → LinkKept tick front) ∧
      (PromptRun tick passes →
        ((∀ front, front <+: passes → LinkKept tick front) ↔ LoopOk passes (.start tick))) := by
  have enough (ok : LoopOk passes (.start tick)) :
      ∀ front, front <+: passes → LinkKept tick front :=
    fun front before => linkKept_of_ok (ok.front before)
  exact ⟨enough, fun prompt => ⟨loopOk_of_kept prompt, enough⟩⟩

/-! ## Two runs -/

instance (frame : Option UInt8) (s : UartLoop) : Decidable (FreesNothing frame s) :=
  inferInstanceAs (Decidable (_ → _ → _))

instance (s : UartLoop) : Decidable (RetryOk s) := inferInstanceAs (Decidable (_ → _ → _))

instance (p : LoopPass) (s : UartLoop) : Decidable (p.Ok s) :=
  inferInstanceAs (Decidable (_ ∧ _))

instance : (passes : List LoopPass) → (s : UartLoop) → Decidable (LoopOk passes s)
  | [], _ => .isTrue trivial
  | p :: later, s =>
    have := instDecidableLoopOk later (loopPass p s).2
    inferInstanceAs (Decidable (_ ∧ _))

/-- A report, which needs no reply. -/
def reportMsg : UartMsg := ⟨.withoutReply, [0x55, 0xAA, 0x00, 0x02, 0x00, 0x01, 0x04, 0x06]⟩

/-- A request of one byte. -/
def byteMsg : UartMsg := ⟨.withReply, [0x55]⟩

/-- Two reports, a frame with the command `0` when they are gone, and a request, with a frame while
it waits and a retry after it has waited for a second. -/
def reportPasses : List LoopPass :=
  [⟨none, [reportMsg, reportMsg], 4, 0⟩, ⟨some 8, [], 4, 0⟩, ⟨none, [], 4, 0⟩,
    ⟨some 0, [byteMsg], 4, 0⟩, ⟨some 1, [reportMsg], 80, 0⟩, ⟨none, [], 80, 0⟩, ⟨none, [], 80, 0⟩]

theorem uartLoop_protocol_reports :
    (∀ front, front <+: reportPasses → LinkKept 100 front) ∧
      (uartLoop reportPasses (.start 100)).1 =
        [.sent 0 reportMsg 520, .released (some 0), .frame 8, .sent 1 reportMsg 540,
          .released (some 1), .frame 0, .sent 2 byteMsg 580, .frame 1, .resent 2 1780] :=
  ⟨(uartLoop_protocol 100 reportPasses).1 (by decide), by decide⟩

/-- A request with the command `1`. -/
def queryMsg : UartMsg := ⟨.withReply, [0x55, 0xAA, 0x00, 0x01, 0x00, 0x00, 0x00]⟩

/-- The request at half a second, and its reply in the pass after. -/
def repliedPasses : List LoopPass := [⟨none, [queryMsg], 0, 0⟩, ⟨some 1, [], 0, 10⟩]

/-- The request is written again at once, and once more after its reply. -/
theorem uartLoop_replied_not_protocol :
    (uartLoop repliedPasses (.start 100)).1 =
        [.sent 0 queryMsg 500, .resent 0 500, .frame 1, .resent 0 550] ∧
      ¬ Protocol uartRules (uartLoop repliedPasses (.start 100)).1 := by
  have trace : (uartLoop repliedPasses (.start 100)).1 =
      [.sent 0 queryMsg 500, .resent 0 500, .frame 1, .resent 0 550] := by decide
  refine ⟨trace, fun protocol => ?_⟩
  have stops := protocol.stops 0 queryMsg 500 1 550 rfl rfl
  rw [trace] at stops
  exact stops (.cons_cons _ (.cons _ (.cons_cons _ (.cons_cons _ .slnil))))

end Tr6260
