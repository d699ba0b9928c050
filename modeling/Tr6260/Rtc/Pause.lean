import Tr6260.Rtc.Clock
import Tr6260.Rtc.ListKept

/-!
# Pauses of a countdown

A one-shot countdown that is suspended and resumed, while the rest of the list changes as it may.
`rtc_timer_suspend` would save what remains, but looks at a status that it has just overwritten, so
that every resume starts the whole countdown again.
-/

namespace Tr6260

namespace Rtc

/-! ## Statuses -/

/-- Of the timers only statuses have changed, to active ones. -/
structure OnlyStarted (s s' : RtcState) : Prop where
  live : s'.live = s.live
  timers : ∀ t, s'.timers t = s.timers t ∨
    ∃ status : TimerStatus, status.Active ∧ s'.timers t = { s.timers t with status }

section OnlyStarted

variable {s s' s'' : RtcState} {timer head : TimerPtr}

theorem OnlyStarted.of_eq (live : s'.live = s.live) (same : s'.timers = s.timers) :
    OnlyStarted s s' := by
  refine ⟨live, fun t => ?_⟩
  rw [same]
  exact .inl rfl

theorem OnlyStarted.trans (first : OnlyStarted s s') (second : OnlyStarted s' s'') :
    OnlyStarted s s'' := by
  refine ⟨second.live.trans first.live, fun t => ?_⟩
  rcases second.timers t with same | ⟨status, active, set_⟩
  · rw [same]
    exact first.timers t
  · refine .inr ⟨status, active, ?_⟩
    rw [set_]
    rcases first.timers t with same | ⟨status', -, set_'⟩
    · rw [same]
    · rw [set_']

theorem onlyStarted_setStatus (s : RtcState) (timer : TimerPtr) {status : TimerStatus}
    (active : status.Active) : OnlyStarted s (s.setStatus timer status) := by
  refine ⟨rfl, fun t => ?_⟩
  by_cases same : t = timer
  · rw [same, RtcState.setStatus, RtcState.modify_self]
    exact .inr ⟨status, active, rfl⟩
  · rw [RtcState.setStatus, RtcState.modify_of_ne s same]
    exact .inl rfl

/-- The rest of the state does not matter. -/
theorem OnlyStarted.congr (only_ : OnlyStarted s s') (live : s''.live = s'.live)
    (timers : s''.timers = s'.timers) : OnlyStarted s s'' := only_.trans (.of_eq live timers)

theorem onlyStarted_makeHead (s : RtcState) (head timer : TimerPtr) :
    OnlyStarted s (makeHead s head timer) := by
  have ready := onlyStarted_setStatus s head (.inl rfl : TimerStatus.Active .ready)
  have running := onlyStarted_setStatus (s.setStatus head .ready) timer
    (.inr rfl : TimerStatus.Active .running)
  exact (ready.trans running).congr rfl rfl

theorem onlyStarted_setAlarm (s : RtcState) (timer : Option TimerPtr) :
    OnlyStarted s (rtcTimerSetAlarm s timer) := by
  have stopped : OnlyStarted s (if s.timerListHead = none then rtcStopAlarm s else s) := by
    split
    · exact .of_eq rfl rfl
    · exact .of_eq rfl rfl
  cases timer with
  | none => exact stopped
  | some timer =>
    have running := onlyStarted_setStatus
      (if s.timerListHead = none then rtcStopAlarm s else s) timer
      (.inr rfl : TimerStatus.Active .running)
    exact (stopped.trans running).congr rfl rfl

theorem onlyStarted_insertLoop {fuel : Nat} {cur : TimerPtr}
    (run : insertLoop s head timer fuel cur = some s') : OnlyStarted s s' := by
  induction fuel generalizing cur with
  | zero => cases run
  | succ fuel ih =>
    rw [insertLoop] at run
    split at run
    · cases run
      exact .of_eq rfl rfl
    · split at run
      · cases run
        exact .of_eq rfl rfl
      · exact ih run

/-- A timer that is put in has been started. -/
theorem onlyStarted_insert (run : rtcTimerListInsert s timer = some s') :
    OnlyStarted (s.setStatus timer .ready) s' := by
  unfold rtcTimerListInsert at run
  dsimp only at run
  generalize s.setStatus timer .ready = s1 at run ⊢
  have linked (head : TimerPtr) : OnlyStarted s1 (rtListInsertBefore s1 head timer) :=
    .of_eq rfl rfl
  split at run
  · cases run
    exact (onlyStarted_setStatus s1 timer (.inr rfl)).congr rfl rfl
  · split at run
    · split at run
      · cases run
        exact (linked _).trans (onlyStarted_makeHead _ _ _)
      · cases run
        exact .of_eq rfl rfl
    · split at run
      · cases run
        exact (linked _).trans (onlyStarted_makeHead _ _ _)
      · split at run
        · cases run
          exact .of_eq rfl rfl
        · exact onlyStarted_insertLoop run

theorem onlyStarted_removeTimer (s : RtcState) (timer : TimerPtr) :
    OnlyStarted s (removeTimer s timer) := by
  have removed : OnlyStarted s (rtcTimerListheadRemove s) := by
    unfold rtcTimerListheadRemove
    split
    · exact .of_eq rfl rfl
    · dsimp only
      split
      · exact .of_eq rfl rfl
      · exact .of_eq rfl rfl
  unfold removeTimer
  split
  · exact removed.trans (onlyStarted_setAlarm _ _)
  · exact .of_eq rfl rfl

/-- What a timer has besides its status. -/
structure SameFields (t t' : RtcTimer) : Prop where
  type : t'.type = t.type
  remain : t'.setDateRemain = t.setDateRemain
  setDate : t'.setDate = t.setDate
  aim : t'.aimDate = t.aimDate

theorem OnlyStarted.fields (only_ : OnlyStarted s s') (t : TimerPtr) :
    SameFields (s.timers t) (s'.timers t) := by
  rcases only_.timers t with same | ⟨status, -, set_⟩
  · rw [same]
    exact ⟨rfl, rfl, rfl, rfl⟩
  · rw [set_]
    exact ⟨rfl, rfl, rfl, rfl⟩

theorem OnlyStarted.active (only_ : OnlyStarted s s') {t : TimerPtr}
    (active : (s.status t).Active) : (s'.status t).Active := by
  rw [RtcState.status]
  rcases only_.timers t with same | ⟨status, starts, set_⟩
  · rw [same]
    exact active
  · rw [set_]
    exact starts

/-- A timer with its date is put in. -/
theorem insert_started {s1 : RtcState}
    (run : rtcTimerListInsert (s.setStatus timer .ready) timer = some s1) :
    (rtcTimerSetAlarm s1 s1.timerListHead).live = s.live ∧
      ((rtcTimerSetAlarm s1 s1.timerListHead).status timer).Active ∧
      SameFields (s.timers timer) ((rtcTimerSetAlarm s1 s1.timerListHead).timers timer) := by
  have ready := onlyStarted_setStatus s timer (.inl rfl : TimerStatus.Active .ready)
  have again := onlyStarted_setStatus (s.setStatus timer .ready) timer
    (.inl rfl : TimerStatus.Active .ready)
  have rest := (onlyStarted_insert run).trans (onlyStarted_setAlarm s1 s1.timerListHead)
  have whole := (ready.trans again).trans rest
  refine ⟨whole.live, rest.active ?_, whole.fields timer⟩
  rw [RtcState.status_setStatus_self]
  exact .inl rfl

end OnlyStarted

/-! ## Runs of a countdown -/

/-- The clock shows the times from the midnight of `first` on, up to a last one. -/
structure Ticking (clock : Nat → Reading) (first : Day) (last : Nat) : Prop where
  valid : first.Valid
  shows : ∀ time < last, (clock time).date = dateAt first time
  years : ∀ time < last, (dayAt first (time / dayMs)).year < 65536

/-- What a call takes from outside when it is made at a time. -/
def worldAt (clock : Nat → Reading) (stack : Nat → Nat × Nat × Nat) (time : Nat) : World :=
  ⟨fun _ => clock time, stack⟩

/-- A countdown by a watch: the time of the last call, how long it ran up to its last pause, the
number of pauses that ended, and the time since which it runs. -/
structure Watch where
  now : Nat
  ran : Nat
  pauses : Nat
  since : Option Nat

namespace Watch

/-- The countdown starts. -/
def start (time : Nat) : Watch := ⟨time, 0, 0, some time⟩

/-- The countdown stops, if it runs. -/
def suspend (g : Watch) (time : Nat) : Watch :=
  match g.since with
  | none => { g with now := time }
  | some since => { g with now := time, ran := g.ran + (time - since), since := none }

/-- The countdown goes on, if it is stopped. -/
def resume (g : Watch) (time : Nat) : Watch :=
  match g.since with
  | none => { g with now := time, pauses := g.pauses + 1, since := some time }
  | some _ => { g with now := time }

/-- How many milliseconds the countdown may be off: less than a second for each pause, and without
a pause less than the second that a date shows. -/
def slack (g : Watch) : Nat := 1000 * max g.pauses 1

end Watch

/-- A change of the rest of the list: the list is as it should be, and the timer keeps its fields
and whether it is started. -/
structure Elsewhere (timer : TimerPtr) (s s' : RtcState) : Prop where
  kept : Kept s' noTimer
  live : timer ∈ s'.live
  fields : SameFields (s.timers timer) (s'.timers timer)
  active : (s.status timer).Active → (s'.status timer).Active
  idle : ¬ (s.status timer).Active → s'.status timer = s.status timer

/-- The starts and the resumes that a run may have. -/
structure Allowed where
  start : (time : Nat) → Prop
  resume : RtcState → Watch → (time : Nat) → Prop

/-- Every start and every resume. -/
def always : Allowed := ⟨fun _ => True, fun _ _ _ => True⟩

/-- The calls on a one-shot countdown before it expires, in the order of their times, up to a last
one. -/
inductive Life (clock : Nat → Reading) (stack : Nat → Nat × Nat × Nat) (last : Nat)
    (timer : TimerPtr) (d : Duration) (allowed : Allowed) : RtcState → Watch → Prop
  | start {s s' : RtcState} {time : Nat} : Kept s noTimer → timer ∈ s.live →
      (s.timers timer).type = .countDown → (s.timers timer).flag = .oneShot →
      s.status timer = .inactive → (s.timers timer).setDate = d.date →
      (s.timers timer).setDateRemain = 0 → time < last → allowed.start time →
      rtcTimerStart (worldAt clock stack time) s timer = some (true, s') →
      Life clock stack last timer d allowed s' (.start time)
  | suspend {s : RtcState} {g : Watch} {time : Nat} : Life clock stack last timer d allowed s g →
      g.now ≤ time → time < last → (g.since ≠ none → (clock time).date < s.aim timer) →
      Life clock stack last timer d allowed (rtcTimerSuspend (worldAt clock stack time) s timer)
        (g.suspend time)
  | resume {s s' : RtcState} {g : Watch} {time : Nat} : Life clock stack last timer d allowed s g →
      g.now ≤ time → time < last → allowed.resume s g time →
      rtcTimerResume (worldAt clock stack time) s timer = some s' →
      Life clock stack last timer d allowed s' (g.resume time)
  | elsewhere {s s' : RtcState} {g : Watch} : Life clock stack last timer d allowed s g →
      Elsewhere timer s s' → Life clock stack last timer d allowed s' g

/-- A countdown that is not suspended is in the list, and it is due when it ran for its duration,
up to the slack. -/
def OnTime (clock : Nat → Reading) (last : Nat) (timer : TimerPtr) (d : Duration) (s : RtcState)
    (g : Watch) : Prop :=
  ∀ since, g.since = some since → (∃ ring, s.RingIs ring ∧ timer ∈ ring) ∧
    ∀ time, since ≤ time → time < last →
      (s.aim timer ≤ (clock time).date →
        1000 * d.seconds < g.ran + (time - since) + g.slack) ∧
      ((clock time).date < s.aim timer →
        g.ran + (time - since) + 1 < 1000 * d.seconds + g.slack)

/-- The days from a time until a countdown ends agree with four-year cycles. -/
def PlainUntilDue (first : Day) (d : Duration) (time : Nat) : Prop :=
  ∀ i, time / dayMs ≤ i → i ≤ (wholeSeconds time + 1000 * d.seconds) / dayMs →
    (dayAt first i).Plain

/-- A timer is resumed while the list is not empty, and up to then it ran for less than a second for
each of its pauses, and the fraction of a second that the clock shows. -/
def continues (first : Day) (d : Duration) : Allowed where
  start time := PlainUntilDue first d time
  resume s g time := g.since = none → s.timerListHead ≠ none ∧ PlainUntilDue first d time ∧
    g.ran < 1000 * (g.pauses + 1) + time % 1000

/-! ## The calls -/

section Calls

variable {w : World} {s s' : RtcState} {timer : TimerPtr}

/-- A timer has been started with a new end. -/
structure Restarted (timer : TimerPtr) (aimDate : Nat) (s s' : RtcState) : Prop where
  live : s'.live = s.live
  active : (s'.status timer).Active
  type : (s'.timers timer).type = (s.timers timer).type
  remain : (s'.timers timer).setDateRemain = (s.timers timer).setDateRemain
  setDate : (s'.timers timer).setDate = (s.timers timer).setDate
  aim : s'.aim timer = aimDate

/-- A timer with a new end is put in. -/
theorem insert_restarted {reads aimDate : Nat} {s1 : RtcState}
    (run : rtcTimerListInsert (({ s with reads }.setAim timer aimDate).setStatus timer .ready)
      timer = some s1) :
    Restarted timer aimDate s (rtcTimerSetAlarm s1 s1.timerListHead) := by
  rcases insert_started run with ⟨live, active, fields⟩
  have new : ({ s with reads }.setAim timer aimDate).timers timer =
      { s.timers timer with aimDate } := RtcState.modify_self ..
  rw [new] at fields
  exact ⟨live, active, fields.type, fields.remain, fields.setDate, fields.aim⟩

/-- A countdown that is started ends its duration later. -/
theorem rtcTimerStart_started (inactive : s.status timer = .inactive)
    (type : (s.timers timer).type = .countDown) (run : rtcTimerStart w s timer = some (true, s')) :
    Restarted timer (rtcDateAdd (w.clock s.reads).date (s.timers timer).setDate) s s' := by
  unfold rtcTimerStart rtcTimerAimdateInit at run
  dsimp only [RtcState.read] at run
  rw [inactive, type] at run
  simp only [reduceCtorEq, or_self, if_false, if_true] at run
  rcases Option.bind_eq_some_iff.mp run with ⟨s1, inserted, same⟩
  cases same
  exact insert_restarted inserted

/-- So does one that is resumed, from the whole duration, as nothing remains of it. -/
theorem rtcTimerResume_started (nonempty : s.timerListHead ≠ none)
    (suspended : s.status timer = .suspend) (type : (s.timers timer).type = .countDown)
    (remain : (s.timers timer).setDateRemain = 0) (run : rtcTimerResume w s timer = some s') :
    Restarted timer (rtcDateAdd (w.clock s.reads).date (s.timers timer).setDate) s s' := by
  unfold rtcTimerResume at run
  dsimp only [RtcState.read] at run
  rw [if_neg (not_or.mpr ⟨nonempty, not_not.mpr suspended⟩), remain,
    if_neg (fun both => both.2 rfl), if_pos type] at run
  rcases Option.bind_eq_some_iff.mp run with ⟨s1, inserted, same⟩
  cases same
  exact insert_restarted inserted

/-- Nothing remains of a timer that is suspended. -/
theorem rtcTimerSuspend_fields (w : World) (s : RtcState) (timer : TimerPtr) :
    (rtcTimerSuspend w s timer).live = s.live ∧
      SameFields (s.timers timer) ((rtcTimerSuspend w s timer).timers timer) ∧
      (s.timerListHead ≠ none → (rtcTimerSuspend w s timer).status timer = .suspend) := by
  unfold rtcTimerSuspend
  split
  case isTrue empty => exact ⟨rfl, ⟨rfl, rfl, rfl, rfl⟩, fun nonempty => absurd empty nonempty⟩
  case isFalse =>
    dsimp only
    split
    case isTrue saves =>
      rw [RtcState.status_setStatus_self] at saves
      cases saves.2
    case isFalse =>
      have removed := onlyStarted_removeTimer s timer
      have fields := removed.fields timer
      refine ⟨removed.live, ?_, fun _ => RtcState.status_setStatus_self ..⟩
      rw [RtcState.setStatus, RtcState.modify_self]
      exact ⟨fields.type, fields.remain, fields.setDate, fields.aim⟩

end Calls

/-! ## Every run -/

section Life

variable {clock : Nat → Reading} {stack : Nat → Nat × Nat × Nat} {last : Nat} {timer : TimerPtr}
  {d : Duration} {first : Day} {s s' : RtcState} {g : Watch}

/-- What is known of a countdown and its watch: it ends its whole duration after it was resumed
last. -/
structure Counting (last : Nat) (timer : TimerPtr) (d : Duration) (first : Day) (s : RtcState)
    (g : Watch) : Prop where
  kept : Kept s noTimer
  live : timer ∈ s.live
  type : (s.timers timer).type = .countDown
  remain : (s.timers timer).setDateRemain = 0
  setDate : (s.timers timer).setDate = d.date
  suspended : g.since = none → s.status timer = .suspend
  running : ∀ since, g.since = some since → (s.status timer).Active ∧ since < last ∧
    s.aim timer = dateAt first (wholeSeconds since + 1000 * d.seconds) ∧
    g.ran < g.slack + since % 1000

/-- The whole duration from a time on. -/
theorem rtcDateAdd_ticking (ticks : Ticking clock first last) (fits : d.Fits) {time : Nat}
    (inside : time < last) (plain : PlainUntilDue first d time) :
    rtcDateAdd (clock time).date d.date = dateAt first (wholeSeconds time + 1000 * d.seconds) := by
  rw [ticks.shows time inside]
  exact rtcDateAdd_dateAt ticks.valid fits (ticks.years time inside) plain

theorem Counting.elsewhere (counting : Counting last timer d first s g)
    (change : Elsewhere timer s s') : Counting last timer d first s' g := by
  have fields := change.fields
  refine ⟨change.kept, change.live, fields.type.trans counting.type,
    fields.remain.trans counting.remain, fields.setDate.trans counting.setDate, ?_, ?_⟩
  · intro stopped
    have suspended := counting.suspended stopped
    rw [change.idle (by rw [suspended]; decide)]
    exact suspended
  · intro since runs
    rcases counting.running since runs with ⟨active, inside, aim, ran⟩
    exact ⟨change.active active, inside, fields.aim.trans aim, ran⟩

/-- A timer that runs is in the list. -/
theorem Kept.in_ring (kept : Kept s noTimer) (alive : timer ∈ s.live)
    (active : (s.status timer).Active) : ∃ ring, s.RingIs ring ∧ timer ∈ ring := by
  rcases kept.threads with ⟨ring, threads⟩
  exact ⟨ring, threads.linked, (threads.members timer id).mpr ⟨alive, active⟩⟩

theorem Counting.nonempty (counting : Counting last timer d first s g) {since : Nat}
    (runs : g.since = some since) : s.timerListHead ≠ none := by
  rcases counting.kept.in_ring counting.live (counting.running since runs).1 with
    ⟨ring, linked, inside⟩
  intro empty
  cases ring with
  | nil => cases inside
  | cons head rest => cases (ringIs_cons.mp linked).1.symm.trans empty

theorem Watch.suspend_since (g : Watch) (time : Nat) : (g.suspend time).since = none := by
  unfold Watch.suspend
  split
  · assumption
  · rfl

theorem Counting.suspend (counting : Counting last timer d first s g) {w : World} (time : Nat) :
    Counting last timer d first (rtcTimerSuspend w s timer) (g.suspend time) := by
  rcases rtcTimerSuspend_fields w s timer with ⟨live, fields, suspends⟩
  refine ⟨rtcTimerSuspend_kept counting.kept counting.live, live ▸ counting.live,
    fields.type.trans counting.type, fields.remain.trans counting.remain,
    fields.setDate.trans counting.setDate, ?_, ?_⟩
  · intro _
    by_cases empty : s.timerListHead = none
    · -- nothing was done, and nothing was to be done
      have unchanged : rtcTimerSuspend w s timer = s := if_pos empty
      rw [unchanged]
      cases before : g.since with
      | none => exact counting.suspended before
      | some since => exact absurd empty (counting.nonempty before)
    · exact suspends empty
  · intro since runs
    cases (g.suspend_since time).symm.trans runs

/-- The countdown starts over. -/
theorem Counting.restarted (ticks : Ticking clock first last) (fits : d.Fits)
    (kept : Kept s' noTimer) (live : timer ∈ s.live) (type : (s.timers timer).type = .countDown)
    (setDate : (s.timers timer).setDate = d.date) (remain : (s.timers timer).setDateRemain = 0)
    {time : Nat} (inside : time < last) (plain : PlainUntilDue first d time)
    (restarted : Restarted timer (rtcDateAdd (clock time).date (s.timers timer).setDate) s s')
    (since : g.since = some time) (ran : g.ran < g.slack + time % 1000) :
    Counting last timer d first s' g := by
  refine ⟨kept, restarted.live ▸ live, restarted.type.trans type, restarted.remain.trans remain,
    restarted.setDate.trans setDate, fun stopped => (nomatch since.symm.trans stopped), ?_⟩
  intro time' runs
  cases since.symm.trans runs
  refine ⟨restarted.active, inside, ?_, ran⟩
  rw [restarted.aim, setDate]
  exact rtcDateAdd_ticking ticks fits inside plain

theorem Counting.resume (ticks : Ticking clock first last) (fits : d.Fits)
    (counting : Counting last timer d first s g) {time : Nat} (inside : time < last)
    (goes : (continues first d).resume s g time)
    (run : rtcTimerResume (worldAt clock stack time) s timer = some s') :
    Counting last timer d first s' (g.resume time) := by
  cases before : g.since with
  | none =>
    rcases goes before with ⟨nonempty, plain, ran⟩
    have suspended := counting.suspended before
    have restarted := rtcTimerResume_started nonempty suspended counting.type counting.remain run
    rcases rtcTimerResume_kept (w := worldAt clock stack time) counting.kept counting.live with
      ⟨s'', returns, kept⟩
    cases run.symm.trans returns
    have watch : g.resume time =
        { g with now := time, pauses := g.pauses + 1, since := some time } := by
      rw [Watch.resume, before]
    rw [watch]
    refine Counting.restarted ticks fits kept counting.live counting.type counting.setDate
      counting.remain inside plain restarted rfl ?_
    change g.ran < 1000 * max (g.pauses + 1) 1 + time % 1000
    rw [Nat.max_eq_left (Nat.le_add_left 1 g.pauses)]
    exact ran
  | some since =>
    -- a timer that is not suspended is left alone
    have active := (counting.running since before).1
    have idle : s.status timer ≠ .suspend := by
      intro suspended
      rw [suspended] at active
      exact absurd active (by decide)
    have unchanged : rtcTimerResume (worldAt clock stack time) s timer = some s :=
      if_pos (.inr idle)
    cases run.symm.trans unchanged
    have watch : g.resume time = { g with now := time } := by
      rw [Watch.resume, before]
    rw [watch]
    exact ⟨counting.kept, counting.live, counting.type, counting.remain, counting.setDate,
      counting.suspended, counting.running⟩

theorem Life.counting (ticks : Ticking clock first last) (fits : d.Fits)
    (life : Life clock stack last timer d (continues first d) s g) :
    Counting last timer d first s g := by
  induction life with
  | start kept live type _ inactive setDate remain inside goes run =>
    have restarted := rtcTimerStart_started inactive type run
    rcases rtcTimerStart_kept kept live with ⟨ok, s'', returns, kept'⟩
    cases run.symm.trans returns
    refine Counting.restarted ticks fits kept' live type setDate remain inside goes restarted rfl ?_
    exact Nat.lt_of_lt_of_le (by decide : 0 < 1000) (Nat.le_add_right _ _)
  | suspend _ _ _ _ ih => exact ih.suspend _
  | resume _ _ inside goes run ih => exact ih.resume ticks fits inside goes run
  | elsewhere _ change ih => exact ih.elsewhere change

/-- A countdown is due from its end on, and not before. -/
theorem due_iff (ticks : Ticking clock first last) (fits : d.Fits) {since time : Nat}
    (began : since < last) (inside : time < last) :
    dateAt first (wholeSeconds since + 1000 * d.seconds) ≤ (clock time).date ↔
      wholeSeconds since + 1000 * d.seconds ≤ time := by
  rw [ticks.shows time inside]
  constructor
  · intro due
    by_contra early
    refine absurd due (Nat.not_le_of_lt (dateAt_lt ticks.valid (Nat.lt_of_not_le early) ?_))
    -- the end is less than a hundred days away
    have years := ticks.years since began
    have := fits.days
    have := fits.hours
    have := fits.mins
    have := fits.secs
    have days : ∃ m ≤ 99, (wholeSeconds since + 1000 * d.seconds) / dayMs = since / dayMs + m := by
      refine ⟨(wholeSeconds since + 1000 * d.seconds) / dayMs - since / dayMs, ?_, ?_⟩
      · unfold wholeSeconds Duration.seconds dayMs
        omega
      · unfold wholeSeconds Duration.seconds dayMs
        omega
    rcases days with ⟨m, few, same⟩
    have grows := (dayAt_year ticks.valid (since / dayMs) m).2
    rw [same]
    omega
  · intro due
    rcases Nat.lt_or_eq_of_le due with before | same
    · refine Nat.le_of_lt (dateAt_lt ticks.valid before ?_)
      exact Nat.lt_trans (ticks.years time inside) (by decide)
    · rw [same]

/-- In every run in which the list is not empty when the timer is resumed, and in which it runs for
less than a second a pause before, the countdown is in the list and ends on time. -/
theorem pause_continues (ticks : Ticking clock first last) (fits : d.Fits)
    (life : Life clock stack last timer d (continues first d) s g) :
    OnTime clock last timer d s g := by
  intro since runs
  have counting := life.counting ticks fits
  rcases counting.running since runs with ⟨active, began, aim, ran⟩
  refine ⟨counting.kept.in_ring counting.live active, fun time later inside => ?_⟩
  have due := due_iff ticks fits began inside
  rw [← aim] at due
  have second : wholeSeconds since + since % 1000 = since := by
    unfold wholeSeconds
    omega
  have fraction : since % 1000 < 1000 := Nat.mod_lt _ (by decide)
  have most : 1000 ≤ g.slack := Nat.mul_le_mul_left 1000 (Nat.le_max_right g.pauses 1)
  constructor
  · intro reached
    have ended := due.mp reached
    omega
  · intro pending
    have ends := mt due.mpr (Nat.not_le_of_lt pending)
    omega

end Life

/-! ## A countdown of a hundred seconds -/

/-- A clock on the first day of a year. -/
def newYearClock (time : Nat) : Reading where
  year := 2020
  month := 1
  day := 1
  hour := time / 3600000 % 24
  min := time / 60000 % 60
  sec := time / 1000 % 60
  ms := time % 1000
  valid :=
    { year_lt := by decide
      month_pos := by decide
      month_le := by decide
      day_pos := by decide
      day_le := by decide
      hour_lt := Nat.mod_lt _ (by decide)
      min_lt := Nat.mod_lt _ (by decide)
      sec_lt := Nat.mod_lt _ (by decide)
      ms_lt := Nat.mod_lt _ (by decide) }

theorem newYearClock_ticking : Ticking newYearClock ⟨2020, 1, 1⟩ dayMs where
  valid := ⟨by decide, by decide, by decide, by decide⟩
  shows time inside := by
    have hours : time / 3600000 % 24 = time / 3600000 := by
      unfold dayMs at inside
      omega
    rw [dateAt, Nat.div_eq_of_lt inside, Nat.mod_eq_of_lt inside, Reading.date, newYearClock]
    dsimp only
    rw [hours]
    rfl
  years time inside := by
    rw [Nat.div_eq_of_lt inside]
    decide

def noStack : Nat → Nat × Nat × Nat := fun _ => (0, 0, 0)

/-- A hundred seconds. -/
def hundred : Duration := ⟨0, 0, 1, 40⟩

/-- No timers. -/
def noneListed : RtcState :=
  halRtcInit ⟨fun _ => ⟨true, .countDown, .oneShot, .inactive, 0, 0, 0⟩, id, id, [], none, 0, 0, 0⟩

/-- A countdown of a hundred seconds, which is not started. -/
def addHundred (s : RtcState) : RtcState := rtcTimerCreate s 5 true hundred.date .countDown .oneShot

/-- What the new year's clock shows to a call. -/
def newYear (time : Nat) : World := worldAt newYearClock noStack time

/-- A timer of ten minutes and the countdown of a hundred seconds. -/
def twoTimers : RtcState :=
  addHundred (rtcTimerCreate noneListed 6 true (Duration.date ⟨0, 0, 10, 0⟩) .countDown .oneShot)

/-- Only the timer of ten minutes runs. -/
def tenMinutes : RtcState := ((rtcTimerStart (newYear 0) twoTimers 6).getD (false, twoTimers)).2

/-- The countdown is started. -/
def counting (s : RtcState) : RtcState := ((rtcTimerStart (newYear 0) s 5).getD (false, s)).2

/-- The countdown is suspended. -/
def pausedAt (s : RtcState) (time : Nat) : RtcState := rtcTimerSuspend (newYear time) (counting s) 5

/-- The countdown is resumed. -/
def resumedAt (s : RtcState) (time time' : Nat) : RtcState :=
  (rtcTimerResume (newYear time') (pausedAt s time) 5).getD s

theorem alone_kept : Kept (addHundred noneListed) noTimer := by
  have created : Run (newYear 0) (addHundred noneListed) :=
    .create true .countDown .oneShot (.init _) List.not_mem_nil (by decide)
  exact created.kept

theorem tenMinutes_kept : Kept tenMinutes noTimer := by
  have first : Run (newYear 0)
      (rtcTimerCreate noneListed 6 true (Duration.date ⟨0, 0, 10, 0⟩) .countDown .oneShot) :=
    .create true .countDown .oneShot (.init _) List.not_mem_nil (by decide)
  have created : Run (newYear 0) twoTimers :=
    .create true .countDown .oneShot first (by decide) (by decide)
  have alive : 6 ∈ twoTimers.live := by decide
  have run : Run (newYear 0) tenMinutes := .start created alive rfl
  exact run.kept

/-- The watch of the countdown behind its pause. -/
def pauseWatch (time time' : Nat) : Watch := ((Watch.start 0).suspend time).resume time'

section OnePause

variable {s : RtcState} {allowed : Allowed}

theorem hundred_life (time time' : Nat) (kept : Kept s noTimer) (alive : 5 ∈ s.live)
    (fresh : s.timers 5 = ⟨true, .countDown, .oneShot, .inactive, 0, hundred.date, hundred.date⟩)
    (starts : rtcTimerStart (newYear 0) s 5 = some (true, counting s)) (mayStart : allowed.start 0)
    (pending : (newYearClock time).date < (counting s).aim 5) (later : time ≤ time')
    (inside : time' < dayMs)
    (mayResume : allowed.resume (pausedAt s time) ((Watch.start 0).suspend time) time')
    (resumes : rtcTimerResume (newYear time') (pausedAt s time) 5 = some (resumedAt s time time')) :
    Life newYearClock noStack dayMs 5 hundred allowed (resumedAt s time time')
      (pauseWatch time time') := by
  have begun : Life newYearClock noStack dayMs 5 hundred allowed (counting s) (.start 0) := by
    refine .start kept alive ?_ ?_ ?_ ?_ ?_ (by decide) mayStart starts
    · rw [fresh]
    · rw [fresh]
    · rw [RtcState.status, fresh]
    · rw [fresh]
    · rw [fresh]
  have paused := begun.suspend (Nat.zero_le time) (Nat.lt_of_le_of_lt later inside) fun _ => pending
  exact paused.resume later inside mayResume resumes

end OnePause

theorem pause_continues_hundred : OnTime newYearClock dayMs 5 hundred (resumedAt tenMinutes 500 700)
    (pauseWatch 500 700) := by
  have plain : ∀ time, (wholeSeconds time + 1000 * hundred.seconds) / dayMs = 0 →
      PlainUntilDue ⟨2020, 1, 1⟩ hundred time := by
    intro time sameDay i _ high
    rw [sameDay, Nat.le_zero] at high
    rw [high]
    exact .inr (by decide)
  have life : Life newYearClock noStack dayMs 5 hundred (continues ⟨2020, 1, 1⟩ hundred)
      (resumedAt tenMinutes 500 700) (pauseWatch 500 700) := by
    refine hundred_life 500 700 tenMinutes_kept (by decide) rfl rfl (plain 0 (by decide))
      (by decide) (by decide) (by decide) ?_ rfl
    exact fun _ => ⟨by decide, plain 700 (by decide), by decide⟩
  exact pause_continues newYearClock_ticking (by constructor <;> decide) life

/-- A countdown of a hundred seconds that is suspended after a minute runs for another hundred; and
one that is alone in the list is not resumed at all. -/
theorem pause_restarts : Ticking newYearClock ⟨2020, 1, 1⟩ dayMs ∧ hundred.Fits ∧
    (∃ s g, Life newYearClock noStack dayMs 5 hundred always s g ∧ s.timerListHead ≠ none ∧
      ¬ OnTime newYearClock dayMs 5 hundred s g) ∧
    ∃ s g, Life newYearClock noStack dayMs 5 hundred always s g ∧ s.timerListHead = none ∧
      ¬ OnTime newYearClock dayMs 5 hundred s g := by
  refine ⟨newYearClock_ticking, by constructor <;> decide, ?_, ?_⟩
  · refine ⟨_, _, hundred_life 60000 60000 tenMinutes_kept (by decide) rfl rfl trivial (by decide)
      (by decide) (by decide) trivial rfl, by decide, fun onTime => ?_⟩
    have times := (onTime 60000 rfl).2 120000 (by decide) (by decide)
    exact absurd (times.2 (by decide)) (by decide)
  · refine ⟨_, _, hundred_life 60000 60000 alone_kept (by decide) rfl rfl trivial (by decide)
      (by decide) (by decide) trivial rfl, rfl, fun onTime => ?_⟩
    rcases (onTime 60000 rfl).1 with ⟨ring, linked, inside⟩
    have empty : (resumedAt (addHundred noneListed) 60000 60000).timerListHead = none := rfl
    cases ring with
    | nil => cases inside
    | cons head rest => cases linked.head?.symm.trans empty

end Rtc

end Tr6260
