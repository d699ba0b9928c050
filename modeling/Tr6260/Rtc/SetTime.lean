import Tr6260.Rtc.Instant
import Tr6260.Rtc.Restart

/-!
# The system time is set

`rtc_set_time` saves what is left of the countdown at the head, sets the clock and gives every timer
of the list a new date, where it stands. Each timer's date is worked out from the timer alone, so
that the whole call is one change of the timers; the order of the list is not looked at again.
-/

namespace Tr6260

namespace Rtc

/-! ## The calls -/

/-- A clock that stands still while a timer is given its date. -/
def standing (now : Reading) (stack : Nat × Nat × Nat) : World := ⟨fun _ => now, fun _ => stack⟩

/-- `rtc_timer_systime_change_pre`. -/
def rtcTimerSystimeChangePre (w : World) (s : RtcState) : RtcState :=
  match s.timerListHead with
  | none => s
  | some head =>
    if (s.timers head).type = .countDown then
      let (now, s) := s.read w
      s.modify head fun t =>
        { t with setDateRemain := remainDate (rtcSecondsInterval now.date t.aimDate) }
    else
      s

/-- What the loop of `rtc_timer_systime_change_after` does to a timer. -/
def changeAim (w : World) (s : RtcState) (timer : TimerPtr) : RtcState :=
  let t := s.timers timer
  if t.type = .countDown ∧ s.timerListHead = some timer then
    let (now, s) := s.read w
    (s.setAim timer (rtcDateAdd now.date t.setDateRemain)).modify timer
      fun t => { t with setDateRemain := 0 }
  else if t.type = .countDown then
    let (now, s) := s.read w
    s.setAim timer (rtcDateAdd now.date t.setDate)
  else
    rtcTimerAimdateForecast w s timer

/-- The loop of `rtc_timer_systime_change_after`. -/
def changeLoop (w : TimerPtr → World) : (left : Nat) → RtcState → TimerPtr → RtcState
  | 0, s, _ => s
  | left + 1, s, timer =>
    let s := changeAim (w timer) s timer
    changeLoop w left s (s.next timer)

/-- `rtc_timer_systime_change_after`. -/
def rtcTimerSystimeChangeAfter (w : TimerPtr → World) (s : RtcState) : Option RtcState :=
  match s.timerListHead with
  | none => some s
  | some head => do
    let len ← rtListLen s head (s.live.length + 1) head
    let s := changeLoop w len s head
    some (rtcTimerSetAlarm s s.timerListHead)

/-- The `struct tm` of `rtc_set_time`, a date and a time of day. -/
structure SysTime where
  year : Nat
  month : Nat
  day : Nat
  hour : Nat
  min : Nat
  sec : Nat
  valid : ValidDate year month day hour min sec 0

/-- What the clock shows once `sys_global_time` and `RTC_CNT_REG` are written. -/
def SysTime.reading (t : SysTime) : Reading :=
  ⟨t.year, t.month, t.day, t.hour, t.min, t.sec, 0, t.valid⟩

/-- `rtc_set_time`, with what the clock shows before it and what each timer's call finds on the
stack. -/
def rtcSetTime (old : Reading) (sysTime : SysTime) (stack : TimerPtr → Nat × Nat × Nat)
    (s : RtcState) : Option RtcState :=
  rtcTimerSystimeChangeAfter (fun timer => standing sysTime.reading (stack timer))
    (rtcTimerSystimeChangePre (standing old (0, 0, 0)) s)

/-! ## The date a timer gets -/

/-- A day with the time of day of a date. -/
def packAim (aim year month day : Nat) : Nat :=
  rtcDatePackage year month day (unpackHour aim) (unpackMin aim) (unpackSec aim) (unpackMs aim)

/-- The alarm of this month, whose hour and day stand in each other's place. -/
def swappedAim (now : Reading) (aim : Nat) : Nat :=
  rtcDatePackage now.year now.month (unpackHour aim) (unpackDay aim) (unpackMin aim)
    (unpackSec aim) (unpackMs aim)

/-- The next date of an alarm every day. -/
def nextDayAim (now : Reading) (aim : Nat) : Nat :=
  let todayAim := packAim aim now.year now.month now.day
  if now.date ≥ todayAim then
    let (year, month, day) := rtcNextTimeDayPeriod now.year now.month now.day
    packAim aim year month day
  else
    todayAim

/-- The next date of an alarm every month. -/
def nextMonthAim (now : Reading) (stack : Nat × Nat × Nat) (aim : Nat) : Nat :=
  if now.date ≥ swappedAim now aim then
    let (year, month, day) := rtcNextTimeMonthPeriod stack now.year now.month (unpackDay aim)
    packAim aim year month day
  else
    swappedAim now aim

/-- The next date of a timer that does not stand at the head. -/
def forecast (now : Reading) (stack : Nat × Nat × Nat) (t : RtcTimer) : Nat :=
  match t.type with
  | .countDown => rtcDateAdd now.date t.setDate
  | .targetDay => if now.date ≥ t.aimDate then nextDayAim now t.aimDate else t.aimDate
  | .targetMonth => if now.date ≥ t.aimDate then nextMonthAim now stack t.aimDate else t.aimDate

/-- The next date of a timer of the list, once what is left of the head is saved. -/
def changedAim (now : Reading) (stack : Nat × Nat × Nat) (first : Option TimerPtr)
    (timer : TimerPtr) (t : RtcTimer) : Nat :=
  if t.type = .countDown ∧ first = some timer then rtcDateAdd now.date t.setDateRemain
  else forecast now stack t

/-- A timer with what is left of it at a time, as the head's is saved. -/
def restSaved (old : Reading) (t : RtcTimer) : RtcTimer :=
  { t with setDateRemain := remainDate (rtcSecondsInterval old.date t.aimDate) }

/-- The date a timer of the list is due from the new time on. -/
def due (old new : Reading) (stack : TimerPtr → Nat × Nat × Nat) (s : RtcState)
    (timer : TimerPtr) : Nat :=
  changedAim new (stack timer) s.timerListHead timer (restSaved old (s.timers timer))

/-! ## The change of the timers -/

/-- The same list with other timers. -/
def RtcState.timed (s : RtcState) (timers : TimerPtr → RtcTimer) (reads : Nat) : RtcState :=
  { s with timers, reads }

section Change

variable {s : RtcState} {rest : List TimerPtr} {timer head p b : TimerPtr}

/-- A timer has a new aim, and at most its set dates are others besides. -/
structure Reaimed (aim : Nat) (t t' : RtcTimer) : Prop where
  aimDate : t'.aimDate = aim
  type : t'.type = t.type
  status : t'.status = t.status

/-- A timer with a new aim, and one with both of its dates new. -/
def RtcTimer.aimed (t : RtcTimer) (aimDate : Nat) : RtcTimer := { t with aimDate }
def RtcTimer.dated (t : RtcTimer) (date : Nat) : RtcTimer :=
  { t with setDate := date, aimDate := date }

/-- What a forecast makes of a timer: a countdown gets a new aim, an alarm that is due new dates. -/
def RtcTimer.forecasted (now : Reading) (stack : Nat × Nat × Nat) (t : RtcTimer) : RtcTimer :=
  if t.type = .countDown then t.aimed (forecast now stack t)
  else if now.date ≥ t.aimDate then t.dated (forecast now stack t)
  else t

theorem forecasted_reaimed (now : Reading) (stack : Nat × Nat × Nat) (t : RtcTimer) :
    Reaimed (forecast now stack t) t (t.forecasted now stack) := by
  unfold RtcTimer.forecasted
  split
  · exact ⟨rfl, rfl, rfl⟩
  · next alarm =>
    split
    · exact ⟨rfl, rfl, rfl⟩
    · next ahead =>
      refine ⟨?_, rfl, rfl⟩
      unfold forecast
      cases type : t.type with
      | countDown => exact absurd type alarm
      | targetDay => exact (if_neg ahead).symm
      | targetMonth => exact (if_neg ahead).symm

/-- `rtc_timer_aimdate_forecast` changes the timer and nothing else. -/
theorem forecast_timer (now : Reading) (stack : Nat × Nat × Nat) (s : RtcState)
    (timer : TimerPtr) :
    ∃ reads, rtcTimerAimdateForecast (standing now stack) s timer =
      s.timed (Function.update s.timers timer ((s.timers timer).forecasted now stack)) reads := by
  have keep : s.timed (Function.update s.timers timer (s.timers timer)) (s.reads + 1) =
      { s with reads := s.reads + 1 } := by
    rw [RtcState.timed, Function.update_eq_self]
  unfold rtcTimerAimdateForecast RtcTimer.forecasted forecast
  dsimp only [RtcState.read, standing]
  cases (s.timers timer).type with
  | countDown => exact ⟨_, rfl⟩
  | targetDay =>
    dsimp only
    rw [if_neg (by decide : ¬TimerType.targetDay = .countDown)]
    by_cases passed : now.date ≥ (s.timers timer).aimDate
    · rw [if_pos passed, if_pos passed, if_pos passed, nextDayAim, packAim]
      dsimp only
      split
      · exact ⟨_, rfl⟩
      · exact ⟨_, rfl⟩
    · rw [if_neg passed, if_neg passed]
      exact ⟨s.reads + 1, keep.symm⟩
  | targetMonth =>
    dsimp only
    rw [if_neg (by decide : ¬TimerType.targetMonth = .countDown)]
    by_cases passed : now.date ≥ (s.timers timer).aimDate
    · rw [if_pos passed, if_pos passed, if_pos passed, nextMonthAim, swappedAim]
      dsimp only
      split
      · exact ⟨_, rfl⟩
      · exact ⟨_, rfl⟩
    · rw [if_neg passed, if_neg passed]
      exact ⟨s.reads + 1, keep.symm⟩

/-- `rtc_timer_aimdate_forecast` works the date out from the timer alone. -/
theorem forecast_run (now : Reading) (stack : Nat × Nat × Nat) (s : RtcState) (timer : TimerPtr) :
    ∃ t' reads, rtcTimerAimdateForecast (standing now stack) s timer =
        s.timed (Function.update s.timers timer t') reads ∧
      Reaimed (forecast now stack (s.timers timer)) (s.timers timer) t' := by
  obtain ⟨reads, run⟩ := forecast_timer now stack s timer
  exact ⟨_, reads, run, forecasted_reaimed now stack _⟩

/-- And so does each pass of the loop. -/
theorem changeAim_run (now : Reading) (stack : Nat × Nat × Nat) (s : RtcState) (timer : TimerPtr) :
    ∃ t' reads, changeAim (standing now stack) s timer =
        s.timed (Function.update s.timers timer t') reads ∧
      Reaimed (changedAim now stack s.timerListHead timer (s.timers timer)) (s.timers timer)
        t' := by
  unfold changeAim changedAim
  dsimp only [RtcState.read, standing]
  by_cases first : (s.timers timer).type = .countDown ∧ s.timerListHead = some timer
  · rw [if_pos first, if_pos first, RtcState.setAim, RtcState.modify_modify]
    exact ⟨_, _, rfl, rfl, rfl, rfl⟩
  · rw [if_neg first, if_neg first]
    by_cases counts : (s.timers timer).type = .countDown
    · have later : forecast now stack (s.timers timer) =
          rtcDateAdd now.date (s.timers timer).setDate := by
        unfold forecast
        rw [counts]
      rw [if_pos counts, later]
      exact ⟨_, _, rfl, rfl, rfl, rfl⟩
    · rw [if_neg counts]
      exact forecast_run now stack s timer

/-- The loop gives each timer of the ring its date. -/
theorem changeLoop_run (now : Reading) (stack : TimerPtr → Nat × Nat × Nat)
    (path : LinkPath s.next s.prev p rest b) (distinct : (p :: rest).Nodup) : ∃ timers reads,
      changeLoop (fun timer => standing now (stack timer)) (rest.length + 1) s p =
        s.timed timers reads ∧
      (∀ t ∈ p :: rest, Reaimed (changedAim now (stack t) s.timerListHead t (s.timers t))
        (s.timers t) (timers t)) ∧
      ∀ t, t ∉ p :: rest → timers t = s.timers t := by
  induction rest generalizing p s with
  | nil =>
    rcases changeAim_run now (stack p) s p with ⟨t', reads, step, aimed⟩
    refine ⟨Function.update s.timers p t', reads, ?_, ?_, ?_⟩
    · rw [List.length_nil, changeLoop, changeLoop]
      exact step
    · intro t inside
      cases List.mem_singleton.mp inside
      rw [Function.update_self]
      exact aimed
    · intro t outside
      rw [List.mem_singleton] at outside
      exact Function.update_of_ne outside ..
  | cons x rest ih =>
    rcases changeAim_run now (stack p) s p with ⟨t', reads, step, aimed⟩
    rcases List.nodup_cons.mp distinct with ⟨fresh, distinct⟩
    rcases path with ⟨⟨next, -⟩, path⟩
    have other : ∀ t, t ≠ p → Function.update s.timers p t' t = s.timers t :=
      fun t ne => Function.update_of_ne ne ..
    rcases ih (s := s.timed (Function.update s.timers p t') reads) path distinct with
      ⟨timers, reads', run, aims, kept⟩
    refine ⟨timers, reads', ?_, ?_, ?_⟩
    · rw [List.length_cons, changeLoop, step]
      rw [show (s.timed (Function.update s.timers p t') reads).next p = x from next, run]
      rfl
    · intro t inside
      rcases List.mem_cons.mp inside with rfl | later
      · rw [kept t fresh]
        change Reaimed _ _ (Function.update s.timers t t' t)
        rw [Function.update_self]
        exact aimed
      · have ne : t ≠ p := fun same => fresh (same ▸ later)
        have here := aims t later
        rw [show (s.timed (Function.update s.timers p t') reads).timers t = s.timers t from
          other t ne] at here
        exact here
    · intro t outside
      rw [List.mem_cons, not_or] at outside
      exact (kept t outside.2).trans (other t outside.1)

/-- What is saved of the head. -/
theorem changePre_run (old : Reading) (first : s.timerListHead = some head)
    (stack₀ : Nat × Nat × Nat) :
    ∃ reads, rtcTimerSystimeChangePre (standing old stack₀) s =
      s.timed (Function.update s.timers head (if (s.timers head).type = .countDown then
        restSaved old (s.timers head) else s.timers head)) reads := by
  unfold rtcTimerSystimeChangePre
  rw [first]
  dsimp only [RtcState.read, standing]
  split
  · exact ⟨_, rfl⟩
  · refine ⟨s.reads, ?_⟩
    rw [Function.update_eq_self]
    rfl

/-- `rtc_timer_systime_change_after` of a list that is not empty. -/
theorem changeAfter_run (now : Reading) (stack : TimerPtr → Nat × Nat × Nat)
    (first : s.timerListHead = some head)
    (path : LinkPath s.next s.prev head rest head) (distinct : (head :: rest).Nodup)
    (alive : ∀ t ∈ head :: rest, t ∈ s.live) : ∃ timers reads,
      rtcTimerSystimeChangeAfter (fun timer => standing now (stack timer)) s =
        some (rtcTimerSetAlarm (s.timed timers reads) (some head)) ∧
      (∀ t ∈ head :: rest, Reaimed (changedAim now (stack t) s.timerListHead t (s.timers t))
        (s.timers t) (timers t)) ∧
      ∀ t, t ∉ head :: rest → timers t = s.timers t := by
  have count : rtListLen s head (s.live.length + 1) head = some (rest.length + 1) := by
    apply rtListLen_run path (List.nodup_cons.mp distinct).1
    have few := (distinct.subperm alive).length_le
    rw [List.length_cons] at few
    omega
  rcases changeLoop_run now stack path distinct with ⟨timers, reads, run, made⟩
  refine ⟨timers, reads, ?_, made⟩
  unfold rtcTimerSystimeChangeAfter
  rw [first]
  dsimp only
  rw [count]
  dsimp only [Option.bind_eq_bind, Option.bind_some]
  rw [run, show (s.timed timers reads).timerListHead = some head from first]

theorem changedAim_rest {old now : Reading} {t : RtcTimer} {first : Option TimerPtr}
    (other : ¬ (t.type = .countDown ∧ first = some timer)) (garbage : Nat × Nat × Nat) :
    changedAim now garbage first timer (restSaved old t) =
      changedAim now garbage first timer t := by
  have other' : ¬ ((restSaved old t).type = .countDown ∧ first = some timer) := other
  rw [changedAim, changedAim, if_neg other, if_neg other']
  rfl

/-- `rtc_set_time` of a list that is not empty. -/
theorem rtcSetTime_run (old : Reading) (sysTime : SysTime)
    (stack : TimerPtr → Nat × Nat × Nat) (linked : s.RingIs (head :: rest))
    (distinct : (head :: rest).Nodup) (alive : ∀ t ∈ head :: rest, t ∈ s.live) :
    ∃ timers reads, rtcSetTime old sysTime stack s =
        some (rtcTimerSetAlarm (s.timed timers reads) (some head)) ∧
      (∀ t ∈ head :: rest, Reaimed (due old sysTime.reading stack s t) (s.timers t) (timers t)) ∧
      ∀ t, t ∉ head :: rest → timers t = s.timers t := by
  rcases ringIs_cons.mp linked with ⟨first, path⟩
  rcases changePre_run old first (0, 0, 0) with ⟨reads₀, saved⟩
  generalize rested_eq : (if (s.timers head).type = .countDown then restSaved old (s.timers head)
    else s.timers head) = rested at saved
  let s₀ := s.timed (Function.update s.timers head rested) reads₀
  rcases changeAfter_run (s := s₀) sysTime.reading stack first path distinct alive with
    ⟨timers, reads, run, aims, kept⟩
  have self : s₀.timers head = rested := Function.update_self ..
  have other : ∀ t, t ≠ head → s₀.timers t = s.timers t := fun t ne => Function.update_of_ne ne ..
  refine ⟨timers, reads, ?_, ?_, ?_⟩
  · rw [rtcSetTime, saved]
    exact run
  · intro t inside
    have aimed := aims t inside
    rw [due]
    by_cases same : t = head
    · subst same
      rw [self, ← rested_eq] at aimed
      split at aimed
      · exact ⟨aimed.aimDate, aimed.type, aimed.status⟩
      case isFalse notCounting =>
        rw [changedAim_rest fun both => notCounting both.1]
        exact aimed
    · have notFirst : s.timerListHead ≠ some t :=
        fun is => same (Option.some.inj (is.symm.trans first))
      rw [other t same] at aimed
      rw [changedAim_rest fun both => notFirst both.2]
      exact aimed
  · intro t outside
    rw [kept t outside]
    exact other t fun same => outside (same ▸ List.mem_cons_self)

end Change

end Rtc

end Tr6260
