import Mathlib.Order.Bounds.Basic
import Tr6260.Gregorian
import Tr6260.Rtc.Service

/-!
# The next time of an alarm

An alarm of every day should be due next at the first date-time behind the present one with its time
of day, an alarm of every month at the first one with its day and its time of day. The alarm of this
month is packed with its hour and its day in each other's place.
-/

namespace Tr6260

namespace Rtc

/-! ## Date-times -/

/-- The day of a packed date, in the Gregorian calendar. -/
def gregorian (date : Nat) : Gregorian.Date := ⟨unpackYear date, unpackMonth date, unpackDay date⟩

/-- A packed date-time that there is. -/
structure IsDateTime (date : Nat) : Prop where
  packed : date < 2 ^ 64
  day : (gregorian date).Valid
  hour : unpackHour date < 24
  min : unpackMin date < 60
  sec : unpackSec date < 60
  ms : unpackMs date < 1000

/-- The next time of an alarm of every day. -/
def NextDaily (now aim next : Nat) : Prop :=
  IsLeast { date | IsDateTime date ∧ now < date ∧ timeOfDay date = timeOfDay aim } next

/-- The next time of an alarm of every month. -/
def NextMonthly (now aim next : Nat) : Prop :=
  IsLeast { date | IsDateTime date ∧ now < date ∧ unpackDay date = unpackDay aim ∧
    timeOfDay date = timeOfDay aim } next

/-- What `rtc_timer_aimdate_forecast` should make of an alarm. -/
structure Forecasted (now : Reading) (t t' : RtcTimer) : Prop where
  ahead : now.date < t.aimDate → t' = t
  setDate : t.aimDate ≤ now.date → t'.setDate = t'.aimDate
  day : t.aimDate ≤ now.date → t.type = .targetDay → NextDaily now.date t.aimDate t'.aimDate
  month : t.aimDate ≤ now.date → t.type = .targetMonth → NextMonthly now.date t.aimDate t'.aimDate

/-- Minutes, seconds and milliseconds, behind the hour. -/
def Reading.inHour (r : Reading) : Nat := (r.min * 60 + r.sec) * 1000 + r.ms
def inHour (date : Nat) : Nat := (unpackMin date * 60 + unpackSec date) * 1000 + unpackMs date

/-- A time of this month is over. -/
def Reading.Passed (now : Reading) (day hour inHour : Nat) : Prop :=
  day < now.day ∨ day = now.day ∧ (hour < now.hour ∨ hour = now.hour ∧ inHour ≤ now.inHour)

/-- The hour of an alarm of every month is its day, or its time of this month is over and so is the
time with hour and day exchanged. -/
def MonthRight (now : Reading) (aim : Nat) : Prop :=
  unpackDay aim = unpackHour aim ∨
    now.Passed (unpackDay aim) (unpackHour aim) (inHour aim) ∧
      now.Passed (unpackHour aim) (unpackDay aim) (inHour aim)

/-! ## The order of the days -/

section Days

variable {day day' : Gregorian.Date}

/-- A day's place among the days. -/
def code (day : Gregorian.Date) : Nat := (day.year * 16 + day.month) * 32 + day.day

theorem next_code_le (valid : day.Valid) (valid' : day'.Valid) (later : code day < code day') :
    code day.next ≤ code day' := by
  have short := (Gregorian.monthLength_bounds day.year day.month).2
  have short' := (Gregorian.monthLength_bounds day'.year day'.month).2
  obtain ⟨⟨_, high⟩, ⟨_, last⟩⟩ := valid
  obtain ⟨⟨low', high'⟩, ⟨first', last'⟩⟩ := valid'
  unfold Gregorian.Date.next
  split
  · exact later
  · next whole =>
    -- another day of the same month would be behind its last one
    have months : day.year * 16 + day.month < day'.year * 16 + day'.month := by
      by_contra same
      have year : day'.year = day.year := by
        unfold code at later
        omega
      have month : day'.month = day.month := by
        unfold code at later
        omega
      rw [year, month] at last'
      unfold code at later
      omega
    split
    · unfold code
      dsimp only
      omega
    · unfold code
      dsimp only
      omega

/-- Both calendars agree on the years of the clock. -/
theorem leapyear_iff {year : Nat} (small : year < 65536) :
    leapyear year = true ↔ Gregorian.Leap year := by
  unfold leapyear Gregorian.Leap
  rw [Nat.mod_eq_of_lt small]
  dsimp only
  split <;> rw [decide_eq_true_iff] <;> omega

theorem rtcMonthdayNum_eq {year month : Nat} (small : year < 65536) (low : 1 ≤ month)
    (high : month ≤ 12) : rtcMonthdayNum year month = Gregorian.monthLength year month := by
  have leap := leapyear_iff small
  have leapTable : ∀ m < 13, 1 ≤ m → monthdayLeapyear.getD m 0 =
      if m = 2 then 29 else if m = 4 ∨ m = 6 ∨ m = 9 ∨ m = 11 then 30 else 31 := by
    decide
  have table : ∀ m < 13, 1 ≤ m → monthdayNoryear.getD m 0 =
      if m = 2 then 28 else if m = 4 ∨ m = 6 ∨ m = 9 ∨ m = 11 then 30 else 31 := by
    decide
  unfold rtcMonthdayNum Gregorian.monthLength
  by_cases isLeap : Gregorian.Leap year
  · rw [if_pos (leap.mpr isLeap), if_pos isLeap]
    exact leapTable month (Nat.lt_succ_of_le high) low
  · rw [if_neg (mt leap.mp isLeap), if_neg isLeap]
    exact table month (Nat.lt_succ_of_le high) low

end Days

/-! ## Dates from days and times of day -/

section Dates

variable {aim date year month day : Nat} {now : Reading}

theorem date_parts (date : Nat) : date = code (gregorian date) * 2 ^ 32 + date % 2 ^ 32 := by
  unfold code gregorian
  rw [unpackMonth_eq, unpackDay_eq, unpackYear, Nat.shiftRight_eq_div_pow]
  dsimp only
  omega

theorem timeOfDay_eq_iff {date' : Nat} :
    timeOfDay date = timeOfDay date' ↔ date % 2 ^ 32 = date' % 2 ^ 32 := by
  unfold timeOfDay
  rw [unpackHour_eq, unpackMin_eq, unpackSec_eq, unpackMs_eq, unpackHour_eq, unpackMin_eq,
    unpackSec_eq, unpackMs_eq, Prod.mk.injEq, Prod.mk.injEq, Prod.mk.injEq]
  omega

theorem packAim_parts (aim : Nat) (y : year < 2 ^ 23) (m : month < 16) (d : day < 32) :
    packAim aim year month day = code ⟨year, month, day⟩ * 2 ^ 32 + aim % 2 ^ 32 := by
  rw [packAim, (packAim_fit aim y m d).package_eq, unpackHour_eq, unpackMin_eq, unpackSec_eq,
    unpackMs_eq]
  unfold code
  dsimp only
  omega

theorem IsDateTime.packAim (valid : IsDateTime aim) (y : year < 2 ^ 23)
    (inside : Gregorian.Date.Valid ⟨year, month, day⟩) :
    IsDateTime (packAim aim year month day) := by
  have short := (Gregorian.monthLength_bounds year month).2
  have m : month < 16 := Nat.lt_of_le_of_lt inside.month.2 (by decide)
  have d : day < 32 := Nat.lt_of_le_of_lt (Nat.le_trans inside.day.2 short) (by decide)
  have fit := packAim_fit aim y m d
  refine ⟨?_, ?_, ?_, ?_, ?_, ?_⟩
  · rw [packAim_parts aim y m d]
    unfold code
    dsimp only
    omega
  · rw [gregorian, Rtc.packAim, fit.unpackYear, fit.unpackMonth, fit.unpackDay]
    exact inside
  · rw [Rtc.packAim, fit.unpackHour]
    exact valid.hour
  · rw [Rtc.packAim, fit.unpackMin]
    exact valid.min
  · rw [Rtc.packAim, fit.unpackSec]
    exact valid.sec
  · rw [Rtc.packAim, fit.unpackMs]
    exact valid.ms

/-- The day of the clock, in the Gregorian calendar. -/
def Reading.gregorian (r : Reading) : Gregorian.Date := ⟨r.year, r.month, r.day⟩

theorem Reading.gregorian_valid (r : Reading) : r.gregorian.Valid := by
  have valid := r.valid
  refine ⟨⟨valid.month_pos, valid.month_le⟩, valid.day_pos, ?_⟩
  change r.day ≤ Gregorian.monthLength r.year r.month
  rw [← rtcMonthdayNum_eq valid.year_lt valid.month_pos valid.month_le]
  exact valid.day_le

theorem Reading.date_parts (r : Reading) :
    ∃ time < 2 ^ 32, r.date = code r.gregorian * 2 ^ 32 + time :=
  ⟨_, r.fit.time_lt, by rw [Reading.date, r.fit.package_eq]; rfl⟩

theorem packAim_code (aim : Nat) (inside : Gregorian.Date.Valid ⟨year, month, day⟩)
    (y : year < 2 ^ 23) :
    packAim aim year month day = code ⟨year, month, day⟩ * 2 ^ 32 + aim % 2 ^ 32 := by
  have short := (Gregorian.monthLength_bounds year month).2
  exact packAim_parts aim y (Nat.lt_of_le_of_lt inside.month.2 (by decide))
    (Nat.lt_of_le_of_lt (Nat.le_trans inside.day.2 short) (by decide))

theorem timeOfDay_package (aim : Nat) (inside : Gregorian.Date.Valid ⟨year, month, day⟩)
    (y : year < 2 ^ 23) : timeOfDay (packAim aim year month day) = timeOfDay aim := by
  rw [timeOfDay_eq_iff, packAim_code aim inside y, Nat.mul_add_mod_of_lt (Nat.mod_lt _ (by decide))]

/-- A date with the same time of day as one that is over is on a later day, if it is ahead. -/
theorem code_lt_of_passed (inside : Gregorian.Date.Valid ⟨year, month, day⟩) (y : year < 2 ^ 23)
    (passed : packAim aim year month day ≤ now.date) (ahead : now.date < date)
    (same : timeOfDay date = timeOfDay aim) :
    code ⟨year, month, day⟩ < code (gregorian date) := by
  rw [packAim_code aim inside y] at passed
  rw [timeOfDay_eq_iff] at same
  have parts := Rtc.date_parts date
  omega

/-- On a day that is no later, the same time of day is no later. -/
theorem packAim_le (inside : Gregorian.Date.Valid ⟨year, month, day⟩) (y : year < 2 ^ 23)
    (days : code ⟨year, month, day⟩ ≤ code (gregorian date))
    (same : timeOfDay date = timeOfDay aim) : packAim aim year month day ≤ date := by
  rw [packAim_code aim inside y]
  rw [timeOfDay_eq_iff] at same
  have parts := Rtc.date_parts date
  omega

/-- What is ahead is today or later. -/
theorem today_le (ahead : now.date < date) : code now.gregorian ≤ code (gregorian date) := by
  obtain ⟨time, short, nowDate⟩ := now.date_parts
  have parts := Rtc.date_parts date
  omega

/-! ## Every day -/

/-- The day after, by either calendar. -/
theorem rtcNextTimeDayPeriod_next (now : Reading) :
    rtcNextTimeDayPeriod now.year now.month now.day =
      (now.gregorian.next.year, now.gregorian.next.month, now.gregorian.next.day) := by
  have valid := now.valid
  have last := valid.day_le
  have high := valid.month_le
  rw [rtcNextTimeDayPeriod, Gregorian.Date.next, Reading.gregorian]
  dsimp only
  rw [← rtcMonthdayNum_eq valid.year_lt valid.month_pos high]
  by_cases whole : now.day = rtcMonthdayNum now.year now.month
  · rw [if_pos whole, if_neg (Nat.not_lt_of_le whole.ge)]
    by_cases december : now.month = 12
    · rw [if_pos december, if_neg (by omega)]
    · rw [if_neg december, if_pos (by omega)]
  · rw [if_neg whole, if_pos (Nat.lt_of_le_of_ne last whole)]

theorem next_year (now : Reading) : now.gregorian.next.year < 2 ^ 23 := by
  have years := now.valid.year_lt
  unfold Gregorian.Date.next Reading.gregorian
  split
  · dsimp only
    omega
  · split
    · dsimp only
      omega
    · dsimp only
      omega

/-- An alarm of every day gets its next time. -/
theorem nextDayAim_next (now : Reading) (valid : IsDateTime aim) :
    NextDaily now.date aim (nextDayAim now aim) := by
  have today := now.gregorian_valid
  obtain ⟨same, later⟩ := nextDayAim_right now aim
  rw [nextDayAim, rtcNextTimeDayPeriod_next] at *
  dsimp only at *
  by_cases passed : now.date ≥ packAim aim now.year now.month now.day
  · rw [if_pos passed] at *
    refine ⟨⟨valid.packAim (next_year now) today.next, later, same⟩, ?_⟩
    intro date next
    obtain ⟨isDate, ahead, time⟩ := next
    -- as today's time is over, the date is on another day
    have tomorrow := code_lt_of_passed today now.fit.year passed ahead time
    exact packAim_le today.next (next_year now) (next_code_le today isDate.day tomorrow) time
  · rw [if_neg passed] at *
    refine ⟨⟨valid.packAim now.fit.year today, later, same⟩, ?_⟩
    intro date next
    obtain ⟨isDate, ahead, time⟩ := next
    exact packAim_le today now.fit.year (today_le ahead) time

/-! ## Every month -/

/-- The month after. -/
def nextMonth (year month : Nat) : Nat × Nat :=
  if month = 12 then (year + 1, 1) else (year, month + 1)

theorem rtcNextTimeMonthPeriod_next (stack : Nat × Nat × Nat) (year month : Nat)
    (early : day ≤ 28) : rtcNextTimeMonthPeriod stack year month day =
      ((nextMonth year month).1, (nextMonth year month).2, day) := by
  rw [rtcNextTimeMonthPeriod, if_neg (Nat.not_lt_of_le early), nextMonth]
  split <;> rfl

/-- The next time of an alarm of every month: this month's, or the next month's once it is over. -/
def monthAhead (now : Reading) (aim : Nat) : Nat :=
  let monthAim := packAim aim now.year now.month (unpackDay aim)
  if now.date ≥ monthAim then
    let (year, month) := nextMonth now.year now.month
    packAim aim year month (unpackDay aim)
  else
    monthAim

/-- A day that every month has. -/
theorem day_valid (low : 1 ≤ day) (early : day ≤ 28) {year month : Nat} (first : 1 ≤ month)
    (last : month ≤ 12) : Gregorian.Date.Valid ⟨year, month, day⟩ :=
  ⟨⟨first, last⟩, low, Nat.le_trans early (Gregorian.monthLength_bounds year month).1⟩

theorem nextMonth_valid (now : Reading) :
    (nextMonth now.year now.month).1 < 2 ^ 23 ∧ 1 ≤ (nextMonth now.year now.month).2 ∧
      (nextMonth now.year now.month).2 ≤ 12 := by
  have valid := now.valid
  have high := valid.month_le
  have years := valid.year_lt
  unfold nextMonth
  split
  · exact ⟨by omega, Nat.le_refl 1, (by decide : 1 ≤ 12)⟩
  · exact ⟨by omega, by omega, by omega⟩

/-- The day of an alarm in the month after. -/
def dayAhead (now : Reading) (day : Nat) : Gregorian.Date :=
  ⟨(nextMonth now.year now.month).1, (nextMonth now.year now.month).2, day⟩

theorem dayAhead_code_le (now : Reading) {date : Gregorian.Date} (valid : date.Valid)
    (same : date.day = day) (later : code ⟨now.year, now.month, day⟩ < code date) :
    code (dayAhead now day) ≤ code date := by
  have first := now.valid.month_pos
  have last := now.valid.month_le
  obtain ⟨⟨low, high⟩, -⟩ := valid
  unfold code at *
  unfold dayAhead nextMonth
  split
  · dsimp only at *
    omega
  · dsimp only at *
    omega

/-- The day of this month is the first one from today on, if it is still to come. -/
theorem monthDay_code_le (now : Reading) {date : Gregorian.Date} (same : date.day = day)
    (short : day < 32) (later : code now.gregorian ≤ code date) :
    code ⟨now.year, now.month, day⟩ ≤ code date := by
  unfold code Reading.gregorian at *
  dsimp only at *
  omega

/-- It is behind today, and behind every day of this month. -/
theorem code_lt_dayAhead (now : Reading) {day day' : Nat} (low : 1 ≤ day') (short : day < 32) :
    code ⟨now.year, now.month, day⟩ < code (dayAhead now day') := by
  have last := now.valid.month_le
  unfold code dayAhead nextMonth
  split
  · dsimp only
    omega
  · dsimp only
    omega

theorem dayAhead_valid (now : Reading) (low : 1 ≤ day) (early : day ≤ 28) :
    (dayAhead now day).Valid :=
  day_valid low early (nextMonth_valid now).2.1 (nextMonth_valid now).2.2

theorem monthAhead_next (now : Reading) (valid : IsDateTime aim) (early : unpackDay aim ≤ 28) :
    NextMonthly now.date aim (monthAhead now aim) := by
  have low : 1 ≤ unpackDay aim := valid.day.day.1
  have short : unpackDay aim < 32 := Nat.lt_of_le_of_lt early (by decide)
  have isDay : Gregorian.Date.Valid ⟨now.year, now.month, unpackDay aim⟩ :=
    day_valid low early now.valid.month_pos now.valid.month_le
  unfold monthAhead
  dsimp only
  by_cases passed : now.date ≥ packAim aim now.year now.month (unpackDay aim)
  · rw [if_pos passed]
    obtain ⟨nextYear, -, nextHigh⟩ := nextMonth_valid now
    have month := Nat.lt_of_le_of_lt nextHigh (by decide : 12 < 16)
    have isNext := dayAhead_valid now low early
    refine ⟨⟨valid.packAim nextYear isNext, ?_, (packAim_fit aim nextYear month short).unpackDay,
      timeOfDay_package aim isNext nextYear⟩, ?_⟩
    · exact lt_packAim nextYear month short (code_lt_dayAhead now low now.fit.day)
    · intro date ⟨isDate, ahead, day, time⟩
      have later := code_lt_of_passed isDay now.fit.year passed ahead time
      exact packAim_le isNext nextYear (dayAhead_code_le now isDate.day day later) time
  · rw [if_neg passed]
    have fit := packAim_fit aim now.fit.year now.fit.month short
    refine ⟨⟨valid.packAim now.fit.year isDay, Nat.lt_of_not_le passed, fit.unpackDay,
      timeOfDay_package aim isDay now.fit.year⟩, ?_⟩
    intro date ⟨isDate, ahead, day, time⟩
    have days := @monthDay_code_le _ now (gregorian date) day short (today_le ahead)
    exact packAim_le isDay now.fit.year days time

/-- Packed minutes, seconds and milliseconds are in the order of the times. -/
theorem inHour_le_iff {min sec ms min' sec' ms' : Nat} (s : sec < 60) (c : ms < 1000)
    (s' : sec' < 60) (c' : ms' < 1000) :
    min * 2 ^ 21 + sec * 2 ^ 15 + ms ≤ min' * 2 ^ 21 + sec' * 2 ^ 15 + ms' ↔
      (min * 60 + sec) * 1000 + ms ≤ (min' * 60 + sec') * 1000 + ms' := by
  rcases Nat.lt_trichotomy min min' with before | rfl | behind
  · omega
  · rcases Nat.lt_trichotomy sec sec' with before | rfl | behind
    · omega
    · omega
    · omega
  · omega

theorem inHour_lt {min sec ms : Nat} (m : min < 60) (s : sec < 60) (c : ms < 1000) :
    min * 2 ^ 21 + sec * 2 ^ 15 + ms < 2 ^ 27 := by
  omega

/-- So are dates of one month, by their days and hours first. -/
theorem inMonth_le_iff {month day hour rest day' hour' rest' : Nat} (h : hour < 32)
    (r : rest < 2 ^ 27) (h' : hour' < 32) (r' : rest' < 2 ^ 27) :
    (month * 32 + day) * 2 ^ 32 + (hour * 2 ^ 27 + rest) ≤
        (month * 32 + day') * 2 ^ 32 + (hour' * 2 ^ 27 + rest') ↔
      day < day' ∨ day = day' ∧ (hour < hour' ∨ hour = hour' ∧ rest ≤ rest') := by
  rcases Nat.lt_trichotomy day day' with before | rfl | behind
  · omega
  · rcases Nat.lt_trichotomy hour hour' with before | rfl | behind
    · omega
    · omega
    · omega
  · omega

/-- When a date of this month is over. -/
theorem package_le_iff (now : Reading) {day hour min sec ms : Nat} (d : day < 32) (h : hour < 32)
    (m : min < 60) (s : sec < 60) (c : ms < 1000) :
    rtcDatePackage now.year now.month day hour min sec ms ≤ now.date ↔
      now.Passed day hour ((min * 60 + sec) * 1000 + ms) := by
  have clock := now.valid
  have fit : FieldsFit now.year now.month day hour min sec ms :=
    ⟨now.fit.year, now.fit.month, d, h, Nat.lt_trans m (by decide), Nat.lt_trans s (by decide),
      Nat.lt_trans c (by decide)⟩
  have order := @inMonth_le_iff (now.year * 16 + now.month) day hour _ now.day now.hour _ h
    (inHour_lt m s c) now.fit.hour (inHour_lt clock.min_lt clock.sec_lt clock.ms_lt)
  rw [inHour_le_iff s c clock.sec_lt clock.ms_lt] at order
  rw [Reading.date, fit.package_eq, now.fit.package_eq, Reading.Passed, Reading.inHour, ← order]
  simp only [Nat.add_assoc]

/-- The next month's date is behind all those of this month. -/
theorem package_lt_next (now : Reading) (aim : Nat) {day hour min sec ms day' : Nat}
    (fit : FieldsFit now.year now.month day hour min sec ms) (low : 1 ≤ day') (early : day' ≤ 28) :
    rtcDatePackage now.year now.month day hour min sec ms <
      packAim aim (nextMonth now.year now.month).1 (nextMonth now.year now.month).2 day' := by
  rw [packAim_code aim (dayAhead_valid now low early) (nextMonth_valid now).1, fit.package_eq]
  exact code_lt (code_lt_dayAhead now low fit.day) fit.time_lt

/-- The two dates of this month that the code could compare with the clock. -/
theorem month_fits (now : Reading) (valid : IsDateTime aim) :
    FieldsFit now.year now.month (unpackDay aim) (unpackHour aim) (unpackMin aim) (unpackSec aim)
        (unpackMs aim) ∧
      FieldsFit now.year now.month (unpackHour aim) (unpackDay aim) (unpackMin aim)
        (unpackSec aim) (unpackMs aim) := by
  have day : unpackDay aim < 32 := by
    rw [unpackDay_eq]
    exact Nat.mod_lt _ (by decide)
  have hour : unpackHour aim < 32 := Nat.lt_trans valid.hour (by decide)
  have fit := packAim_fit aim now.fit.year now.fit.month day
  exact ⟨fit, ⟨fit.year, fit.month, hour, day, fit.min, fit.sec, fit.cnt⟩⟩

/-- When they are over. -/
theorem monthAim_passed_iff (now : Reading) (valid : IsDateTime aim) :
    packAim aim now.year now.month (unpackDay aim) ≤ now.date ↔
      now.Passed (unpackDay aim) (unpackHour aim) (inHour aim) := by
  have fit := (month_fits now valid).1
  exact package_le_iff now fit.day fit.hour valid.min valid.sec valid.ms

theorem swappedAim_passed_iff (now : Reading) (valid : IsDateTime aim) :
    swappedAim now aim ≤ now.date ↔
      now.Passed (unpackHour aim) (unpackDay aim) (inHour aim) := by
  have fit := (month_fits now valid).2
  exact package_le_iff now fit.day fit.hour valid.min valid.sec valid.ms

/-- They are one where hour and day agree. -/
theorem swappedAim_eq_iff (now : Reading) (valid : IsDateTime aim) :
    swappedAim now aim = packAim aim now.year now.month (unpackDay aim) ↔
      unpackDay aim = unpackHour aim := by
  obtain ⟨fit, swapped⟩ := month_fits now valid
  constructor
  · intro same
    have days := congrArg unpackDay same
    rw [swappedAim, packAim, swapped.unpackDay, fit.unpackDay] at days
    exact days.symm
  · intro same
    rw [swappedAim, packAim, same]

/-- `rtc_timer_aimdate_forecast` finds the next time of an alarm of every month just as
`MonthRight` says. -/
theorem nextMonthAim_next_iff (now : Reading) (stack : Nat × Nat × Nat) (valid : IsDateTime aim)
    (early : unpackDay aim ≤ 28) :
    NextMonthly now.date aim (nextMonthAim now stack aim) ↔ MonthRight now aim := by
  have low : 1 ≤ unpackDay aim := valid.day.day.1
  obtain ⟨fit, swappedFit⟩ := month_fits now valid
  have least := monthAhead_next now valid early
  have next : NextMonthly now.date aim (nextMonthAim now stack aim) ↔
      nextMonthAim now stack aim = monthAhead now aim :=
    ⟨fun next => next.unique least, fun same => same ▸ least⟩
  have agree := swappedAim_eq_iff now valid
  rw [next, MonthRight, ← monthAim_passed_iff now valid, ← swappedAim_passed_iff now valid,
    nextMonthAim, monthAhead, rtcNextTimeMonthPeriod_next stack _ _ early]
  dsimp only
  -- the next month is behind both
  have monthNext : packAim aim now.year now.month (unpackDay aim) < _ :=
    package_lt_next now aim fit low early
  have swappedNext : swappedAim now aim < _ := package_lt_next now aim swappedFit low early
  by_cases passed : now.date ≥ swappedAim now aim
  · rw [if_pos passed]
    by_cases gone : now.date ≥ packAim aim now.year now.month (unpackDay aim)
    · rw [if_pos gone]
      exact ⟨fun _ => .inr ⟨gone, passed⟩, fun _ => rfl⟩
    · rw [if_neg gone]
      refine ⟨fun same => absurd same monthNext.ne', ?_⟩
      rintro (same | ⟨gone', -⟩)
      · exact absurd (agree.mpr same ▸ passed) gone
      · exact absurd gone' gone
  · rw [if_neg passed]
    have only : (unpackDay aim = unpackHour aim ∨
        packAim aim now.year now.month (unpackDay aim) ≤ now.date ∧ swappedAim now aim ≤ now.date) ↔
          unpackDay aim = unpackHour aim :=
      or_iff_left fun both => passed both.2
    rw [only, ← agree]
    split
    · next gone =>
      refine ⟨fun same => absurd same swappedNext.ne, fun same => ?_⟩
      exact absurd (same ▸ gone) passed
    · exact Iff.rfl

end Dates

/-! ## The function -/

/-- An alarm that is due gets the date that `forecast` works out, and any other stays. -/
theorem forecast_alarm {w : World} {now : Reading} (clock : ∀ n, w.clock n = now) (s : RtcState)
    {timer : TimerPtr} (alarm : (s.timers timer).type ≠ .countDown) :
    (rtcTimerAimdateForecast w s timer).timers timer =
      if now.date ≥ (s.timers timer).aimDate then
        (s.timers timer).dated (forecast now (w.stack (s.reads + 4)) (s.timers timer))
      else s.timers timer := by
  obtain ⟨reads, run⟩ := forecast_timer now (w.stack (s.reads + 4)) s timer
  rw [forecast_standing clock, run, RtcState.timed]
  dsimp only
  rw [Function.update_self, RtcTimer.forecasted, if_neg alarm]

theorem forecasted_iff_of_due {now : Reading} {t t' : RtcTimer} (due : t.aimDate ≤ now.date) :
    Forecasted now t t' ↔ t'.setDate = t'.aimDate ∧
      (t.type = .targetDay → NextDaily now.date t.aimDate t'.aimDate) ∧
      (t.type = .targetMonth → NextMonthly now.date t.aimDate t'.aimDate) := by
  constructor
  · intro forecasted
    exact ⟨forecasted.setDate due, forecasted.day due, forecasted.month due⟩
  · intro ⟨dates, day, month⟩
    exact ⟨fun ahead => absurd due (Nat.not_le_of_lt ahead), fun _ => dates, fun _ => day,
      fun _ => month⟩

/-- An alarm is forecast to its next time unless it is one of every month that is due and whose
hour and day in each other's place show. -/
theorem rtcTimerAimdateForecast_next_iff {w : World} {now : Reading}
    (clock : ∀ n, w.clock n = now) {s : RtcState} {timer : TimerPtr}
    (alarm : (s.timers timer).type ≠ .countDown) (valid : IsDateTime (s.aim timer))
    (early : (s.timers timer).type = .targetMonth → unpackDay (s.aim timer) ≤ 28) :
    Forecasted now (s.timers timer) ((rtcTimerAimdateForecast w s timer).timers timer) ↔
      ((s.timers timer).type = .targetMonth → s.aim timer ≤ now.date →
        MonthRight now (s.aim timer)) := by
  have run := forecast_alarm clock s alarm
  unfold RtcState.aim at *
  by_cases due : now.date ≥ (s.timers timer).aimDate
  · rw [if_pos due] at run
    rw [run, forecasted_iff_of_due due]
    unfold forecast
    cases type : (s.timers timer).type with
    | countDown => exact absurd type alarm
    | targetDay =>
      dsimp only [RtcTimer.dated]
      rw [if_pos due]
      apply iff_of_true
      · exact ⟨rfl, fun _ => nextDayAim_next now valid, nofun⟩
      · exact nofun
    | targetMonth =>
      dsimp only [RtcTimer.dated]
      rw [if_pos due]
      have next := nextMonthAim_next_iff now (w.stack (s.reads + 4)) valid (early type)
      constructor
      · intro ⟨_, _, month⟩ _ _
        exact next.mp (month rfl)
      · intro right
        exact ⟨rfl, nofun, fun _ => next.mpr (right rfl due)⟩
  · rw [if_neg due] at run
    rw [run]
    apply iff_of_true
    · exact ⟨fun _ => rfl, fun passed => absurd passed due, fun passed => absurd passed due,
        fun passed => absurd passed due⟩
    · intro _ passed
      exact absurd passed due

/-- An alarm at half past eight on the fifteenth of every month, last due in May. -/
def fifteenth : RtcState :=
  rtcTimerCreate noneListed 5 true (rtcDatePackage 2021 5 15 8 30 0 0) .targetMonth .periodic

/-- The tenth and the twentieth of June. -/
def juneTenth : Reading := ⟨2021, 6, 10, 0, 0, 0, 0, by constructor <;> decide⟩
def juneTwentieth : Reading := ⟨2021, 6, 20, 0, 0, 0, 0, by constructor <;> decide⟩

theorem fifteenth_valid : IsDateTime (fifteenth.aim 5) := by
  refine ⟨by decide, ⟨by decide, by decide⟩, ?_, ?_, ?_, ?_⟩
  · decide
  · decide
  · decide
  · decide

theorem rtcTimerAimdateForecast_next_june :
    Forecasted juneTwentieth (fifteenth.timers 5)
      ((rtcTimerAimdateForecast (standing juneTwentieth (0, 0, 0)) fifteenth 5).timers 5) := by
  apply (rtcTimerAimdateForecast_next_iff (fun _ => rfl) (by decide) fifteenth_valid
    (fun _ => by decide)).mpr
  intro _ _
  exact .inr ⟨.inl (by decide), .inl (by decide)⟩

/-- On the tenth of June the alarm of the fifteenth is still to come, but the eighth is over, which
is its hour: the alarm of June is left out. -/
theorem rtcTimerAimdateForecast_skips :
    IsDateTime (fifteenth.aim 5) ∧ fifteenth.aim 5 ≤ juneTenth.date ∧
      (rtcTimerAimdateForecast (standing juneTenth (0, 0, 0)) fifteenth 5).aim 5 =
        rtcDatePackage 2021 7 15 8 30 0 0 ∧
      IsLeast { date | IsDateTime date ∧ juneTenth.date < date ∧ unpackDay date = 15 ∧
        timeOfDay date = (8, 30, 0, 0) } (rtcDatePackage 2021 6 15 8 30 0 0) ∧
      ¬ Forecasted juneTenth (fifteenth.timers 5)
        ((rtcTimerAimdateForecast (standing juneTenth (0, 0, 0)) fifteenth 5).timers 5) := by
  have due : fifteenth.aim 5 ≤ juneTenth.date := by decide
  have june := monthAhead_next juneTenth fifteenth_valid (by decide)
  have july : (rtcTimerAimdateForecast (standing juneTenth (0, 0, 0)) fifteenth 5).aim 5 =
      rtcDatePackage 2021 7 15 8 30 0 0 := by decide
  refine ⟨fifteenth_valid, due, july, june, fun forecasted => ?_⟩
  have next := (forecasted.month due rfl).unique june
  exact absurd (july.symm.trans next) (by decide)

end Rtc

end Tr6260
