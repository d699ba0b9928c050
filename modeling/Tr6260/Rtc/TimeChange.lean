import Tr6260.Rtc.Pause
import Tr6260.Rtc.SetTime

/-!
# The timers when the system time is set

Every alarm should keep its time of day and every countdown what is left of it. What is left passes
through a field of six bits, only the head's is saved, an alarm every month packs its hour and its
day in each other's place, and the list stays in its old order.
-/

namespace Tr6260

namespace Rtc

/-! ## What is wanted -/

/-- The time of day of a packed date. -/
def timeOfDay (date : Nat) : Nat × Nat × Nat × Nat :=
  (unpackHour date, unpackMin date, unpackSec date, unpackMs date)

/-- A timer is in the list. -/
def RtcState.Listed (s : RtcState) (timer : TimerPtr) : Prop :=
  timer ∈ s.live ∧ (s.status timer).Active

/-- The timers are right behind a change of the time from `old` to `new`. -/
structure TimersRight (old new : Reading) (s s' : RtcState) : Prop where
  list : ListRight s'
  same : ∀ timer, s'.Listed timer ↔ s.Listed timer
  countdowns : ∀ timer, s.Listed timer → (s.timers timer).type = .countDown →
    (remaining new.date (s'.aim timer) - remaining old.date (s.aim timer)).natAbs < 1000
  alarms : ∀ timer, s.Listed timer → (s.timers timer).type ≠ .countDown →
    (s.timers timer).flag = .periodic →
      timeOfDay (s'.aim timer) = timeOfDay (s.aim timer) ∧ new.date < s'.aim timer

/-- A countdown is not over at a time, and what is left of it fits into 32 bits. -/
structure Pending (now : Reading) (aim : Nat) : Prop where
  notDue : now.date ≤ aim
  left : secondsOf now.date ≤ secondsOf aim
  fits : secondsOf aim < secondsOf now.date + 2 ^ 32

/-- The seconds that are left of a countdown. -/
def secondsLeft (now : Reading) (aim : Nat) : Nat := secondsOf aim - secondsOf now.date

/-- The new time takes some seconds without a day that only four-year cycles have. -/
def Reading.Adds (r : Reading) (seconds : Nat) : Prop := ¬ DayLost r.today (daysOn r seconds)

/-- The seconds that a whole countdown gets from the new time on, short of a day that is lost. -/
def secondsGiven (new : Reading) (setDate : Nat) : Int :=
  tagSeconds setDate - if DayLost new.today (daysOn new (tagSeconds setDate)) then 86400 else 0

/-- When the change does no harm. -/
structure Harmless (old new : Reading) (s : RtcState) : Prop where
  head : ∀ head, s.timerListHead = some head → (s.timers head).type = .countDown →
    secondsLeft old (s.aim head) < 64 ∧ new.Adds (secondsLeft old (s.aim head))
  behind : ∀ timer, s.Listed timer → s.timerListHead ≠ some timer →
    (s.timers timer).type = .countDown →
      (1000 * secondsGiven new (s.timers timer).setDate - remaining old.date (s.aim timer)).natAbs <
        1000
  months : ∀ timer, s.Listed timer → (s.timers timer).type = .targetMonth →
    (s.timers timer).flag = .periodic → s.aim timer ≤ new.date →
      if swappedAim new (s.aim timer) ≤ new.date then unpackDay (s.aim timer) ≤ 28
      else unpackDay (s.aim timer) = unpackHour (s.aim timer)
  order : ∀ ring, s.RingIs ring → ring.Nodup → ∀ stack,
    ring.Pairwise fun timer later => due old new stack s timer ≤ due old new stack s later

/-! ## Alarms -/

section Alarms

variable {now : Reading} {aim year month day : Nat}

theorem packAim_fit (aim : Nat) (y : year < 2 ^ 23) (m : month < 16) (d : day < 32) :
    FieldsFit year month day (unpackHour aim) (unpackMin aim) (unpackSec aim) (unpackMs aim) := by
  refine ⟨y, m, d, ?_, ?_, ?_, ?_⟩
  · rw [unpackHour_eq]; omega
  · rw [unpackMin_eq]; omega
  · rw [unpackSec_eq]; omega
  · rw [unpackMs_eq]; omega

theorem timeOfDay_packAim (y : year < 2 ^ 23) (m : month < 16) (d : day < 32) :
    timeOfDay (packAim aim year month day) = timeOfDay aim := by
  have fit := packAim_fit aim y m d
  rw [timeOfDay, packAim, fit.unpackHour, fit.unpackMin, fit.unpackSec, fit.unpackMs, timeOfDay]

/-- A time on a later day is later. -/
theorem lt_packAim (y : year < 2 ^ 23) (m : month < 16) (d : day < 32)
    (later : now.today.code < Day.code ⟨year, month, day⟩) :
    now.date < packAim aim year month day := by
  have fit := packAim_fit aim y m d
  have short := now.fit.time_lt
  rw [packAim, Reading.date, fit.package_eq, now.fit.package_eq]
  exact code_lt later short

theorem rtcNextTimeDayPeriod_eq {day : Day} (valid : day.Valid) :
    rtcNextTimeDayPeriod day.year day.month day.mday =
      ((updateDays day).year, (updateDays day).month, (updateDays day).mday) := by
  rw [rtcNextTimeDayPeriod]
  rcases updateDays_cases valid with ⟨inside, next⟩ | ⟨last, before, next⟩ | ⟨last, december, next⟩
  · rw [if_neg (Nat.ne_of_lt inside), next]
  · rw [if_pos last, if_neg (Nat.ne_of_lt before), next]
  · rw [if_pos last, if_pos december, next]

/-- An alarm every day is always right. -/
theorem nextDayAim_right (now : Reading) (aim : Nat) :
    timeOfDay (nextDayAim now aim) = timeOfDay aim ∧ now.date < nextDayAim now aim := by
  have valid := now.today_valid
  have small : now.today.year < 65536 := now.valid.year_lt
  rw [nextDayAim]
  dsimp only
  split
  · have next := valid.next
    have short := (rtcMonthdayNum_lt (updateDays now.today).year next.month_pos next.month_le).2
    have year : (updateDays now.today).year < 2 ^ 23 := by
      have step := (dayAt_year valid 0 1).2
      change (updateDays now.today).year ≤ now.today.year + 1 at step
      omega
    have month : (updateDays now.today).month < 16 := Nat.lt_of_le_of_lt next.month_le (by decide)
    have mday := Nat.lt_of_le_of_lt next.mday_le short
    rw [show rtcNextTimeDayPeriod now.year now.month now.day = _ from rtcNextTimeDayPeriod_eq valid]
    exact ⟨timeOfDay_packAim year month mday, lt_packAim year month mday (Day.code_next valid)⟩
  case isFalse today =>
    refine ⟨timeOfDay_packAim now.fit.year now.fit.month now.fit.day, ?_⟩
    exact Nat.lt_of_not_le today

/-- The next month, on a day that every month has. -/
theorem rtcNextTimeMonthPeriod_right (now : Reading) (stack : Nat × Nat × Nat) (early : day ≤ 28) :
    ∃ year month, rtcNextTimeMonthPeriod stack now.year now.month day = (year, month, day) ∧
      year < 2 ^ 23 ∧ month < 16 ∧ now.today.code < Day.code ⟨year, month, day⟩ := by
  have valid := now.valid
  have today := now.fit.day
  have low := valid.month_pos
  have high := valid.month_le
  have years := valid.year_lt
  rw [rtcNextTimeMonthPeriod, if_neg (by omega)]
  split
  · refine ⟨_, _, rfl, by omega, by omega, ?_⟩
    rw [Day.code, Day.code, Reading.today]
    dsimp only
    omega
  · refine ⟨_, _, rfl, by omega, by omega, ?_⟩
    rw [Day.code, Day.code, Reading.today]
    dsimp only
    omega

/-- An alarm every month keeps its time of day where that is the day, too, or the date of this month
is over and the next month has the day. -/
theorem nextMonthAim_right_iff (now : Reading) (aim : Nat) :
    (∀ stack, timeOfDay (nextMonthAim now stack aim) = timeOfDay aim ∧
        now.date < nextMonthAim now stack aim) ↔
      if swappedAim now aim ≤ now.date then unpackDay aim ≤ 28
      else unpackDay aim = unpackHour aim := by
  unfold nextMonthAim
  split
  case isTrue passed =>
    constructor
    · intro right
      by_contra late
      have behind := (right (0, 0, 0)).2
      rw [rtcNextTimeMonthPeriod, if_pos (by omega)] at behind
      dsimp only at behind
      have fit := packAim_fit aim (by decide : 0 < 2 ^ 23) (by decide : 0 < 16)
        (by decide : 0 < 32)
      have short := fit.time_lt
      have low := now.valid.month_pos
      rw [packAim, Reading.date, fit.package_eq, now.fit.package_eq] at behind
      omega
    · intro early stack
      rcases rtcNextTimeMonthPeriod_right now stack early with ⟨year, month, next, y, m, later⟩
      rw [next]
      have day : unpackDay aim < 32 := by omega
      exact ⟨timeOfDay_packAim y m day, lt_packAim y m day later⟩
  case isFalse ahead =>
    have hour : unpackHour aim < 32 := by rw [unpackHour_eq]; omega
    have day : unpackDay aim < 32 := by rw [unpackDay_eq]; omega
    have base := packAim_fit aim now.fit.year now.fit.month hour
    have fit : FieldsFit now.year now.month (unpackHour aim) (unpackDay aim) (unpackMin aim)
        (unpackSec aim) (unpackMs aim) :=
      ⟨base.year, base.month, hour, day, base.min, base.sec, base.cnt⟩
    have swapped : timeOfDay (swappedAim now aim) =
        (unpackDay aim, unpackMin aim, unpackSec aim, unpackMs aim) := by
      rw [timeOfDay, swappedAim, fit.unpackHour, fit.unpackMin, fit.unpackSec, fit.unpackMs]
    rw [swapped, timeOfDay]
    constructor
    · intro right
      exact congrArg Prod.fst (right (0, 0, 0)).1
    · intro same _
      rw [same]
      exact ⟨rfl, Nat.lt_of_not_le ahead⟩

end Alarms

/-! ## Countdowns -/

section Countdowns

variable {old new : Reading} {aim left : Nat}

/-- The seconds that are left, over all the fields of a date. -/
theorem remainDate_fields (short : left < 2 ^ 32) :
    unpackYear (remainDate left) = left / 2 ^ 26 ∧
      unpackMonth (remainDate left) = left / 2 ^ 22 % 16 ∧
      unpackDay (remainDate left) = left / 2 ^ 17 % 32 ∧
      unpackHour (remainDate left) = left / 2 ^ 12 % 32 ∧
      unpackMin (remainDate left) = left / 2 ^ 6 % 64 ∧
      unpackSec (remainDate left) = left % 64 ∧ unpackMs (remainDate left) = 0 := by
  have sum : remainDate left = left * 2 ^ 15 := by
    rw [remainDate, rtcDatePackage]
    simp only [Nat.zero_shiftLeft, Nat.zero_or, Nat.or_zero]
    rw [Nat.shiftLeft_eq]
    omega
  rw [unpackYear, Nat.shiftRight_eq_div_pow, unpackMonth_eq, unpackDay_eq, unpackHour_eq,
    unpackMin_eq, unpackSec_eq, unpackMs_eq, sum]
  omega

theorem monthDays_le (year : Nat) {month : Nat} (small : month < 16) :
    monthDays year month ≤ 31 * month := by
  unfold monthDays rtcMonthdayNum
  cases leapyear year with
  | true =>
    have table : ∀ m < 16,
        ((List.range' 1 (m - 1)).map fun i => monthdayLeapyear.getD i 0).sum ≤ 31 * m := by decide
    exact table month small
  | false =>
    have table : ∀ m < 16,
        ((List.range' 1 (m - 1)).map fun i => monthdayNoryear.getD i 0).sum ≤ 31 * m := by decide
    exact table month small

theorem rtcYeardaysToDays_le (year day : Nat) {month : Nat} (small : month < 16) :
    rtcYeardaysToDays year month day ≤ 366 * year + 31 * month + day := by
  have months := monthDays_le year small
  have fourths : year % 4 = 0 ∨ year % 4 = 1 ∨ year % 4 = 2 ∨ year % 4 = 3 := by omega
  unfold rtcYeardaysToDays
  refine Nat.le_trans (Nat.mod_le _ _) ?_
  rcases fourths with r | r | r | r
  · rw [r]
    change year / 4 * 1461 + monthDays year month + day ≤ _
    omega
  · rw [r]
    change year / 4 * 1461 + 366 + monthDays year month + day ≤ _
    omega
  · rw [r]
    change year / 4 * 1461 + 731 + monthDays year month + day ≤ _
    omega
  · rw [r]
    change year / 4 * 1461 + 1096 + monthDays year month + day ≤ _
    omega

/-- The fields of a number of seconds. -/
theorem seconds_parts (left : Nat) : left = left / 2 ^ 26 * 2 ^ 26 + left / 2 ^ 22 % 16 * 2 ^ 22 +
    left / 2 ^ 17 % 32 * 2 ^ 17 + left / 2 ^ 12 % 32 * 2 ^ 12 + left / 2 ^ 6 % 64 * 2 ^ 6 +
    left % 64 := by
  have field (low n : Nat) : left / low = left / (low * n) * n + left / low % n := by
    rw [← Nat.div_div_eq_div_mul, Nat.div_add_mod']
  have secs := field 1 64
  have mins := field (2 ^ 6) 64
  have hours := field (2 ^ 12) 32
  have days := field (2 ^ 17) 32
  have months := field (2 ^ 22) 16
  simp only [Nat.reducePow, Nat.reduceMul, Nat.div_one] at secs mins hours days months ⊢
  generalize left % 64 = c at secs ⊢
  generalize left / 64 % 64 = i at mins ⊢
  generalize left / 4096 % 32 = h at hours ⊢
  generalize left / 131072 % 32 = d at days ⊢
  generalize left / 4194304 % 16 = m at months ⊢
  rw [months] at days
  rw [days] at hours
  rw [hours] at mins
  rw [mins] at secs
  generalize left / 67108864 = y at secs ⊢
  omega

/-- Less than a minute and four seconds pass through the field of the seconds; of more some are
lost, as the fields in front count in sixties. -/
theorem tagSeconds_remainDate (short : left < 2 ^ 32) :
    (left < 64 → tagDays (remainDate left) = 0 ∧ tagSeconds (remainDate left) = left) ∧
      (64 ≤ left → tagDays (remainDate left) < 2 ^ 31 ∧
        tagSeconds (remainDate left) + 4 ≤ left) := by
  rcases remainDate_fields short with ⟨year, month, day, hour, min, sec, -⟩
  have few : tagDays (remainDate left) ≤ 366 * (left / 2 ^ 26) + 31 * (left / 2 ^ 22 % 16) +
      left / 2 ^ 17 % 32 := by
    rw [tagDays, year, month, day]
    exact rtcYeardaysToDays_le _ _ (Nat.mod_lt _ (by decide))
  have seconds : tagSeconds (remainDate left) = 86400 * tagDays (remainDate left) +
      (left / 2 ^ 12 % 32 * 3600 + left / 2 ^ 6 % 64 * 60 + left % 64) := by
    rw [tagSeconds, secondOfDay, hour, min, sec]
  have parts := seconds_parts left
  have years : left / 2 ^ 26 < 64 := Nat.div_lt_of_lt_mul short
  have months : left / 2 ^ 22 % 16 < 16 := Nat.mod_lt _ (by decide)
  have secs : left % 64 < 64 := Nat.mod_lt _ (by decide)
  generalize left / 2 ^ 26 = y at few parts years
  generalize left / 2 ^ 22 % 16 = m at few parts months
  generalize left / 2 ^ 17 % 32 = d at few parts
  generalize left / 2 ^ 12 % 32 = h at seconds parts
  generalize left / 2 ^ 6 % 64 = i at seconds parts
  generalize left % 64 = c at seconds parts secs
  constructor
  · intro small
    omega
  · intro large
    omega

theorem Pending.interval (pending : Pending old aim) :
    rtcSecondsInterval old.date aim = secondsLeft old aim := by
  have years : unpackYear old.date ≤ unpackYear aim := by
    rw [unpackYear, unpackYear, Nat.shiftRight_eq_div_pow, Nat.shiftRight_eq_div_pow]
    exact Nat.div_le_div_right pending.notDue
  have left := pending.left
  have fits := pending.fits
  rw [rtcSecondsInterval_eq years, secondsLeft, toU32]
  omega

theorem Reading.unpackMs_date (r : Reading) : unpackMs r.date = r.ms := r.fit.unpackMs

/-- What is left of the head is kept where it fits into the field of the seconds and no day is
lost. -/
theorem head_right_iff (pending : Pending old aim) (fresh : new.ms = 0)
    (millis : unpackMs aim < 1000) :
    (remaining new.date (rtcDateAdd new.date (remainDate (rtcSecondsInterval old.date aim))) -
        remaining old.date aim).natAbs < 1000 ↔
      secondsLeft old aim < 64 ∧ new.Adds (secondsLeft old aim) := by
  have left := pending.left
  have fits := pending.fits
  have before := old.valid.ms_lt
  have short : secondsLeft old aim < 2 ^ 32 := by
    unfold secondsLeft
    omega
  rw [pending.interval, remaining, remaining, new.unpackMs_date, old.unpackMs_date, fresh]
  have whole := (remainDate_fields short).2.2.2.2.2.2
  rcases tagSeconds_remainDate short with ⟨small, large⟩
  have rest : secondsOf aim = secondsOf old.date + secondsLeft old aim := by
    unfold secondsLeft
    omega
  generalize secondsLeft old aim = left at short whole small large rest ⊢
  have exact_ : unpackMs (rtcDateAdd new.date (remainDate left)) = 0 := by
    rw [rtcDateAdd, unpackMs_package]
  rw [exact_]
  rcases Nat.lt_or_ge left 64 with fewer | more
  · rcases small fewer with ⟨noDays, seconds⟩
    have soon : daysOn new (tagSeconds (remainDate left)) ≤ 60 := by
      have := new.secondOfDay_date
      have := new.valid.hour_lt
      have := new.valid.min_lt
      have := new.valid.sec_lt
      rw [seconds, daysOn]
      omega
    have sum := rtcDateAdd_seconds new whole soon
    rw [seconds] at sum
    unfold Reading.Adds
    split at sum
    case isTrue lost =>
      constructor
      · intro near
        omega
      · exact fun both => absurd lost both.2
    case isFalse kept =>
      constructor
      · exact fun _ => ⟨fewer, kept⟩
      · intro _
        omega
  · rcases large more with ⟨days, lost⟩
    have sum := rtcDateAdd_le new whole days
    constructor
    · intro near
      omega
    · intro both
      omega

theorem Duration.Fits.tagSeconds {d : Duration} (fits : d.Fits) :
    Rtc.tagSeconds d.date = d.seconds ∧ unpackMs d.date = 0 := by
  have fields := fits.fields
  refine ⟨?_, fields.unpackMs⟩
  rw [Rtc.tagSeconds, tagDays, secondOfDay, Duration.date, fields.unpackYear, fields.unpackMonth,
    fields.unpackDay, fields.unpackHour, fields.unpackMin, fields.unpackSec,
    rtcYeardaysToDays_days fits.days, Duration.seconds]
  omega

/-- A countdown behind the head gets the whole of its time. -/
theorem behind_seconds {d : Duration} (fits : d.Fits) (fresh : new.ms = 0) :
    remaining new.date (rtcDateAdd new.date d.date) = 1000 * secondsGiven new d.date := by
  rcases fits.tagSeconds with ⟨seconds, whole⟩
  have soon : daysOn new (tagSeconds d.date) ≤ 60 := by
    have := new.secondOfDay_date
    have := new.valid.hour_lt
    have := new.valid.min_lt
    have := new.valid.sec_lt
    have := fits.days
    have := fits.hours
    have := fits.mins
    have := fits.secs
    rw [seconds, daysOn, Duration.seconds]
    omega
  have sum := rtcDateAdd_seconds new whole soon
  have exact_ : unpackMs (rtcDateAdd new.date d.date) = 0 := by
    rw [rtcDateAdd, unpackMs_package]
  rw [remaining, new.unpackMs_date, fresh, exact_, secondsGiven]
  split at sum
  case isTrue lost =>
    rw [if_pos lost]
    omega
  case isFalse kept =>
    rw [if_neg kept]
    omega

end Countdowns

/-! ## The list -/

section List

variable {old new : Reading} {stack : TimerPtr → Nat × Nat × Nat} {s : RtcState}
  {ring : List TimerPtr} {timer : TimerPtr}

theorem unpackMs_forecast {t : RtcTimer} (millis : unpackMs t.aimDate < 1000)
    (garbage : Nat × Nat × Nat) : unpackMs (forecast new garbage t) < 1000 := by
  have kept : unpackMs t.aimDate % 32768 < 1000 := Nat.lt_of_le_of_lt (Nat.mod_le _ _) millis
  unfold forecast nextDayAim nextMonthAim packAim swappedAim
  cases t.type with
  | countDown =>
    dsimp only
    rw [rtcDateAdd, unpackMs_package]
    decide
  | targetDay =>
    dsimp only
    split
    · split
      · rwa [unpackMs_package]
      · rwa [unpackMs_package]
    · exact millis
  | targetMonth =>
    dsimp only
    split
    · split
      · rwa [unpackMs_package]
      · rwa [unpackMs_package]
    · exact millis

theorem unpackMs_due (millis : unpackMs (s.aim timer) < 1000) :
    unpackMs (due old new stack s timer) < 1000 := by
  rw [due, changedAim]
  split
  · rw [rtcDateAdd, unpackMs_package]
    decide
  · exact unpackMs_forecast millis _

/-- What `rtc_set_time` does to the list: every timer has its date, and in the order of these dates
the list is as it should be. -/
theorem rtcSetTime_spec (old : Reading) (sysTime : SysTime) (stack : TimerPtr → Nat × Nat × Nat)
    (kept : Kept s noTimer) (threads : Threads s ring noTimer) :
    ∃ s', rtcSetTime old sysTime stack s = some s' ∧ s'.RingIs ring ∧
      (∀ t ∈ ring, s'.aim t = due old sysTime.reading stack s t) ∧
      (∀ t, s'.Listed t ↔ s.Listed t) ∧
      ((ring.Pairwise fun t later => due old sysTime.reading stack s t ≤
        due old sysTime.reading stack s later) → Kept s' noTimer) := by
  cases ring with
  | nil =>
    have empty := ringIs_nil.mp threads.linked
    refine ⟨s, ?_, threads.linked, fun t inside => absurd inside List.not_mem_nil,
      fun t => Iff.rfl, fun _ => kept⟩
    have pre : rtcTimerSystimeChangePre (standing old (0, 0, 0)) s = s := by
      unfold rtcTimerSystimeChangePre
      rw [empty]
    rw [rtcSetTime, pre, rtcTimerSystimeChangeAfter, empty]
  | cons head rest =>
    have first := (ringIs_cons.mp threads.linked).1
    rcases rtcSetTime_run old sysTime stack threads.linked threads.distinct
      (fun t inside => threads.live inside) with ⟨timers, reads, run, aims, other⟩
    let s₁ := s.timed timers reads
    have started := onlyStarted_setAlarm s₁ (some head)
    have status : ∀ t, s₁.status t = s.status t := by
      intro t
      change (timers t).status = (s.timers t).status
      by_cases inside : t ∈ head :: rest
      · exact (aims t inside).status
      · rw [other t inside]
    have dated : (∀ t ∈ head :: rest, s₁.aim t = due old sysTime.reading stack s t) :=
      fun t inside => (aims t inside).aimDate
    have linked' : s₁.RingIs (head :: rest) := threads.linked
    have set_ : rtcTimerSetAlarm s₁ (some head) =
        { s₁.setStatus head .running with
          alarmReg := alarmValue ((s₁.setStatus head .running).aim head)
          ctrlReg := s₁.ctrlReg ||| 2 } := by
      unfold rtcTimerSetAlarm
      rw [show s₁.timerListHead = some head from first, if_neg (Option.some_ne_none head)]
      rfl
    refine ⟨rtcTimerSetAlarm s₁ (some head), run, ?_, ?_, ?_, ?_⟩
    · rw [set_]
      exact linked'
    · intro t inside
      exact (started.fields t).aim.trans (dated t inside)
    · intro t
      have live : (rtcTimerSetAlarm s₁ (some head)).live = s.live := by rw [set_]; rfl
      rw [RtcState.Listed, RtcState.Listed, live]
      refine and_congr_right fun _ => ?_
      by_cases same : t = head
      · subst same
        have active := (threads.members t id).mp List.mem_cons_self
        refine ⟨fun _ => active.2, fun _ => started.active ?_⟩
        rw [status]
        exact active.2
      · rw [set_]
        change ((s₁.setStatus head .running).status t).Active ↔ _
        rw [RtcState.status_setStatus_of_ne _ same, status]
    · intro sorted
      have threads' : Threads s₁ (head :: rest) noTimer := by
        refine ⟨linked', threads.distinct, ?_, threads.apart, threads.alone, ?_, ?_, ?_,
          threads.blocks⟩
        · intro t notOut
          rw [status]
          exact threads.members t notOut
        · exact sorted.imp_of_mem fun inside behind ordered => by
            rw [dated _ inside, dated _ behind]
            exact ordered
        · intro t inside
          rw [status]
          exact threads.ready t inside
        · intro t alive
          by_cases inside : t ∈ head :: rest
          · rw [dated t inside]
            exact unpackMs_due (threads.millis t alive)
          · change unpackMs (timers t).aimDate < 1000
            rw [other t inside]
            exact threads.millis t alive
      have alarmed := threads'.setAlarm
      rw [show s₁.timerListHead = some head from first] at alarmed
      exact alarmed

/-- An alarm every day is right, and one every month where its date is. -/
theorem alarm_right_iff (old : Reading) (alarm : (s.timers timer).type ≠ .countDown) :
    (∀ stack, timeOfDay (due old new stack s timer) = timeOfDay (s.aim timer) ∧
        new.date < due old new stack s timer) ↔
      ((s.timers timer).type = .targetMonth → s.aim timer ≤ new.date →
        if swappedAim new (s.aim timer) ≤ new.date then unpackDay (s.aim timer) ≤ 28
        else unpackDay (s.aim timer) = unpackHour (s.aim timer)) := by
  have other : ¬ ((restSaved old (s.timers timer)).type = .countDown ∧
      s.timerListHead = some timer) := fun both => alarm both.1
  have dueIs : ∀ stack, due old new stack s timer =
      forecast new (stack timer) (restSaved old (s.timers timer)) := by
    intro stack
    rw [due, changedAim, if_neg other]
  simp only [dueIs]
  unfold forecast
  rw [show (restSaved old (s.timers timer)).type = (s.timers timer).type from rfl,
    show (restSaved old (s.timers timer)).aimDate = s.aim timer from rfl]
  cases type : (s.timers timer).type with
  | countDown => exact absurd type alarm
  | targetDay =>
    dsimp only
    refine ⟨fun _ month => (by cases month), fun _ _ => ?_⟩
    split
    · exact nextDayAim_right _ _
    case isFalse ahead => exact ⟨rfl, Nat.lt_of_not_le ahead⟩
  | targetMonth =>
    dsimp only
    split
    case isTrue passed =>
      have month := nextMonthAim_right_iff new (s.aim timer)
      constructor
      · exact fun right _ _ => month.mp fun garbage => right fun _ => garbage
      · exact fun right stack => month.mpr (right rfl passed) (stack timer)
    case isFalse ahead =>
      exact ⟨fun _ _ passed => absurd passed ahead, fun _ _ => ⟨rfl, Nat.lt_of_not_le ahead⟩⟩

/-- The head keeps what is left of it where that fits and no day is lost. -/
theorem due_head (first : s.timerListHead = some timer)
    (counts : (s.timers timer).type = .countDown) : due old new stack s timer =
      rtcDateAdd new.date (remainDate (rtcSecondsInterval old.date (s.aim timer))) := by
  rw [due, changedAim, if_pos ⟨counts, first⟩]
  rfl

theorem due_behind (behind : s.timerListHead ≠ some timer)
    (counts : (s.timers timer).type = .countDown) : due old new stack s timer =
      rtcDateAdd new.date (s.timers timer).setDate := by
  rw [due, changedAim, if_neg fun both => behind both.2, forecast,
    show (restSaved old (s.timers timer)).type = .countDown from counts]
  rfl

end List

/-! ## Countdowns of one day -/

theorem secondsLeft_day {now : Reading} {aim : Nat} (same : now.today = dayOf aim) :
    secondsLeft now aim = secondOfDay aim - secondOfDay now.date := by
  rw [secondsLeft, secondsOf, secondsOf, now.dayOf_date, same]
  omega

theorem Pending.of_day {now : Reading} {aim : Nat} (same : now.today = dayOf aim)
    (notDue : now.date ≤ aim) (later : secondOfDay now.date ≤ secondOfDay aim)
    (fits : secondOfDay aim < 2 ^ 32) : Pending now aim := by
  refine ⟨notDue, ?_, ?_⟩
  · rw [secondsOf, secondsOf, now.dayOf_date, same]
    omega
  · rw [secondsOf, secondsOf, now.dayOf_date, same]
    omega

/-- The countdown of ten seconds runs. -/
def tenSeconds : RtcState := ((rtcTimerStart (newYear 0) oneTimer 5).getD (false, oneTimer)).2

/-- A noon in another year. -/
def summer : SysTime := ⟨2021, 6, 1, 12, 0, 0, by constructor <;> decide⟩

/-- The tenth second of the new year. -/
def tenthSecond : SysTime := ⟨2020, 1, 1, 0, 0, 10, by constructor <;> decide⟩

/-! ## The whole call -/

section Whole

variable {old : Reading} {sysTime : SysTime} {s : RtcState}

/-- Where the timers stay right the change did no harm. -/
theorem Harmless.of_right (kept : Kept s noTimer)
    (durations : ∀ timer, s.Listed timer → (s.timers timer).type = .countDown →
      ∃ d : Duration, d.Fits ∧ (s.timers timer).setDate = d.date)
    (pending : ∀ timer, s.Listed timer → (s.timers timer).type = .countDown →
      Pending old (s.aim timer))
    (right : ∀ stack, ∃ s', rtcSetTime old sysTime stack s = some s' ∧
      TimersRight old sysTime.reading s s') : Harmless old sysTime.reading s := by
  rcases kept.threads with ⟨ring, threads⟩
  have member : ∀ t, s.Listed t ↔ t ∈ ring := fun t => (threads.members t id).symm
  have found : ∀ stack, ∃ s', TimersRight old sysTime.reading s s' ∧ s'.RingIs ring ∧
      ∀ t ∈ ring, s'.aim t = due old sysTime.reading stack s t := by
    intro stack
    rcases right stack with ⟨s', returns, right⟩
    rcases rtcSetTime_spec old sysTime stack kept threads with ⟨s'', returns', linked, aims, -⟩
    cases returns.symm.trans returns'
    exact ⟨s', right, linked, aims⟩
  refine ⟨?_, ?_, ?_, ?_⟩
  · intro head first counts
    have inside := threads.head_mem first
    have listed := (member head).mpr inside
    rcases found fun _ => (0, 0, 0) with ⟨s', right, -, aims⟩
    have near := right.countdowns head listed counts
    rw [aims head inside, due_head first counts] at near
    exact (head_right_iff (pending head listed counts) rfl (threads.millis head listed.1)).mp near
  · intro timer listed behind counts
    rcases found fun _ => (0, 0, 0) with ⟨s', right, -, aims⟩
    rcases durations timer listed counts with ⟨d, fits, is⟩
    have near := right.countdowns timer listed counts
    rw [aims timer ((member timer).mp listed), due_behind behind counts, is,
      behind_seconds fits rfl] at near
    rw [is]
    exact near
  · intro timer listed month periodic
    have alarm : (s.timers timer).type ≠ .countDown := fun counts => by
      cases month.symm.trans counts
    refine (alarm_right_iff old alarm).mp (fun stack => ?_) month
    rcases found stack with ⟨s', right, -, aims⟩
    rw [← aims timer ((member timer).mp listed)]
    exact right.alarms timer listed alarm periodic
  · intro ring' linked' distinct' stack
    cases linked'.unique threads.linked distinct' threads.distinct
    rcases found stack with ⟨s', right, linked, aims⟩
    rcases right.list.ring with ⟨ring'', linked'', distinct'', -, sorted⟩
    cases linked''.unique linked distinct'' threads.distinct
    exact sorted.imp_of_mem fun inside behind ordered => by
      rw [← aims _ inside, ← aims _ behind]
      exact ordered

/-- A change that does no harm keeps the timers right. -/
theorem Harmless.right (harmless : Harmless old sysTime.reading s) (kept : Kept s noTimer)
    (durations : ∀ timer, s.Listed timer → (s.timers timer).type = .countDown →
      ∃ d : Duration, d.Fits ∧ (s.timers timer).setDate = d.date)
    (pending : ∀ timer, s.Listed timer → (s.timers timer).type = .countDown →
      Pending old (s.aim timer)) (stack : TimerPtr → Nat × Nat × Nat) :
    ∃ s', rtcSetTime old sysTime stack s = some s' ∧ TimersRight old sysTime.reading s s' := by
  rcases kept.threads with ⟨ring, threads⟩
  have member : ∀ t, s.Listed t ↔ t ∈ ring := fun t => (threads.members t id).symm
  rcases rtcSetTime_spec old sysTime stack kept threads with ⟨s', returns, -, aims, same, sorted⟩
  have kept' := sorted (harmless.order ring threads.linked threads.distinct stack)
  refine ⟨s', returns, kept'.right, same, ?_, ?_⟩
  · intro timer listed counts
    have inside := (member timer).mp listed
    rw [aims timer inside]
    by_cases first : s.timerListHead = some timer
    · rw [due_head first counts]
      exact (head_right_iff (pending timer listed counts) rfl (threads.millis timer listed.1)).mpr
        (harmless.head timer first counts)
    · rcases durations timer listed counts with ⟨d, fits, is⟩
      have near := harmless.behind timer listed first counts
      rw [due_behind first counts, is, behind_seconds fits rfl]
      rw [is] at near
      exact near
  · intro timer listed alarm periodic
    rw [aims timer ((member timer).mp listed)]
    exact (alarm_right_iff old alarm).mpr
      (fun month => harmless.months timer listed month periodic) stack

end Whole

/-- Setting the time keeps the timers right, whatever stands on the stack, exactly where it does no
harm. -/
theorem setTime_right_iff (old : Reading) (sysTime : SysTime) (s : RtcState) (kept : Kept s noTimer)
    (durations : ∀ timer, s.Listed timer → (s.timers timer).type = .countDown →
      ∃ d : Duration, d.Fits ∧ (s.timers timer).setDate = d.date)
    (pending : ∀ timer, s.Listed timer → (s.timers timer).type = .countDown →
      Pending old (s.aim timer)) :
    (∀ stack, ∃ s', rtcSetTime old sysTime stack s = some s' ∧
        TimersRight old sysTime.reading s s') ↔
      Harmless old sysTime.reading s :=
  ⟨fun right => .of_right kept durations pending right,
    fun harmless => harmless.right kept durations pending⟩

/-- A few seconds of a countdown that is alone in the list are kept. -/
theorem setTime_right_ten : ∃ s',
    rtcSetTime (newYearClock 4500) summer (fun _ => (0, 0, 0)) tenSeconds = some s' ∧
      TimersRight (newYearClock 4500) summer.reading tenSeconds s' := by
  have created : Run (newYear 0) oneTimer :=
    .create true .countDown .oneShot (.init _) List.not_mem_nil (by decide)
  have run : Run (newYear 0) tenSeconds := .start created List.mem_cons_self rfl
  have only_ : ∀ t, tenSeconds.Listed t → t = 5 := fun t listed => List.mem_singleton.mp listed.1
  refine (setTime_right_iff (newYearClock 4500) summer tenSeconds run.kept ?_ ?_).mpr ?_ _
  · rintro t listed -
    cases only_ t listed
    exact ⟨⟨0, 0, 0, 10⟩, by constructor <;> decide, rfl⟩
  · rintro t listed -
    cases only_ t listed
    exact .of_day (by decide) (by decide) (by decide) (by decide)
  · refine ⟨?_, ?_, ?_, ?_⟩
    · rintro head first -
      cases first
      have left : secondsLeft (newYearClock 4500) (tenSeconds.aim 5) = 6 :=
        secondsLeft_day (by decide)
      rw [left]
      exact ⟨by decide, by unfold Reading.Adds; decide⟩
    · intro t listed behind
      cases only_ t listed
      exact absurd rfl behind
    · intro t listed month
      cases only_ t listed
      cases month
    · intro ring linked distinct stack
      rcases run.kept.threads with ⟨ring', threads⟩
      cases linked.unique threads.linked distinct threads.distinct
      have only' : ∀ t ∈ ring, t = 5 :=
        fun t inside => only_ t ((threads.members t id).mp inside)
      cases ring with
      | nil => exact .nil
      | cons head rest =>
        have alone : rest = [] := List.eq_nil_iff_forall_not_mem.mpr fun t inside => by
          cases only' head List.mem_cons_self
          cases only' t (List.mem_cons_of_mem _ inside)
          exact (List.nodup_cons.mp distinct).1 inside
        rw [alone]
        exact List.pairwise_singleton _ _

/-- A countdown of ten minutes behind another starts again at the tenth second, though the time is
set to what it is. -/
theorem setTime_restarts :
    let s := counting tenMinutes
    Kept s noTimer ∧
    (∀ timer, s.Listed timer → (s.timers timer).type = .countDown →
      ∃ d : Duration, d.Fits ∧ (s.timers timer).setDate = d.date) ∧
    (∀ timer, s.Listed timer → (s.timers timer).type = .countDown →
      Pending (newYearClock 10000) (s.aim timer)) ∧
    ¬ ∀ stack, ∃ s', rtcSetTime (newYearClock 10000) tenthSecond stack s = some s' ∧
      TimersRight (newYearClock 10000) tenthSecond.reading s s' := by
  have kept : Kept (counting tenMinutes) noTimer := by
    have alive : 5 ∈ tenMinutes.live := by decide
    rcases rtcTimerStart_kept (w := newYear 0) tenMinutes_kept alive with ⟨ok, s', started, kept⟩
    rw [counting, started]
    exact kept
  have only_ : ∀ t, (counting tenMinutes).Listed t → t = 5 ∨ t = 6 := by
    intro t listed
    have inside : t ∈ [5, 6] := listed.1
    simpa using inside
  refine ⟨kept, ?_, ?_, ?_⟩
  · rintro t listed -
    rcases only_ t listed with rfl | rfl
    · exact ⟨⟨0, 0, 1, 40⟩, by constructor <;> decide, rfl⟩
    · exact ⟨⟨0, 0, 10, 0⟩, by constructor <;> decide, rfl⟩
  · rintro t listed -
    rcases only_ t listed with rfl | rfl
    · exact .of_day (by decide) (by decide) (by decide) (by decide)
    · exact .of_day (by decide) (by decide) (by decide) (by decide)
  · intro right
    rcases right fun _ => (0, 0, 0) with ⟨s', returns, right⟩
    have near := right.countdowns 6 ⟨by decide, by decide⟩ rfl
    cases returns
    rw [remaining_day (by decide), remaining_day (by decide)] at near
    exact absurd near (by decide)

end Rtc

end Tr6260
