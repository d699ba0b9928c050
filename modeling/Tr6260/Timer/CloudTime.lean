import Tr6260.Gregorian
import Tr6260.Timer.Schedule

/-!
# The clock and the calendar

What `sys_time` shows against the calendar: a second is counted from the beginning of the year 0,
and one call of `sys_update_cloud_time` should move what is shown one second on. `days_in_month`
gives November a thirty-first, so the clock goes wrong at the end of every 30th of November, and
nowhere else.
-/

namespace Tr6260

open Gregorian

/-- The date on the clock. -/
def SysTime.date (t : SysTime) : Date := ⟨t.year.toNat, t.month.toNat, t.day.toNat⟩

/-- The clock shows second `s` of the calendar. The day of the week it shows is `skew` days ahead of
the calendar. -/
structure SysTime.Shows (skew s : Nat) (t : SysTime) : Prop where
  date : t.date.Valid
  hour : t.hour ≤ 23
  minute : t.minute ≤ 59
  second : t.second ≤ 59
  week : t.week.toNat = (weekday t.date.number + skew) % 7 + 1
  instant : s = 86400 * t.date.number + t.secondOfDay

/-- The last day of November. -/
def NovemberEnd (date : Date) : Prop := date.month = 11 ∧ date.day = 30

/-! ## Months -/

theorem isLeapYear_iff (year : Nat) : isLeapYear year = true ↔ Leap year := decide_eq_true_iff

/-- `days_in_month` is right but for November. -/
theorem toNat_daysInMonth (month : UInt8) (year : UInt16) : (daysInMonth month year).toNat =
    if month.toNat = 11 then 31 else monthLength year.toNat month.toNat := by
  unfold daysInMonth monthLength
  simp only [← UInt8.toNat_inj, UInt8.reduceToNat, isLeapYear_iff]
  split
  case isTrue long =>
    rw [if_neg (by omega)]
    split
    · omega
    · split <;> first | omega | rfl
  case isFalse =>
    split
    case isTrue short =>
      rw [if_neg (by omega), if_neg (by omega), if_pos (by omega)]
      rfl
    case isFalse =>
      split
      case isTrue february =>
        have other : ¬ month.toNat = 11 := by omega
        rw [if_neg other]
        by_cases leap : Leap year.toNat
        · rw [if_pos leap, if_pos leap]
          rfl
        · rw [if_neg leap, if_neg leap]
          rfl
      case isFalse =>
        split
        · rfl
        · rw [if_neg (by omega)]
          rfl

/-- Whether a month is over. -/
theorem day_gt_daysInMonth {t : SysTime} (valid : t.date.Valid) (other : ¬ NovemberEnd t.date) :
    t.day + 1 > daysInMonth t.month t.year ↔
      ¬ t.date.day < monthLength t.date.year t.date.month := by
  have day := valid.day
  have long := (monthLength_bounds t.date.year t.date.month).2
  have within : t.day ≤ 31 := UInt8.le_iff_toNat_le.mpr (Nat.le_trans day.2 long)
  have succ : (t.day + 1).toNat = t.date.day + 1 := UInt8.succ_le within (by decide)
  rw [GT.gt, UInt8.lt_iff_toNat_lt, toNat_daysInMonth, succ]
  unfold NovemberEnd at other
  split
  case isTrue november =>
    have november' : t.date.month = 11 := november
    have short : monthLength t.date.year t.date.month = 30 := by
      rw [november']
      rfl
    omega
  case isFalse =>
    change monthLength t.date.year t.date.month < _ ↔ _
    omega

/-- The day after, on the clock. -/
theorem nextDay_date_next {t : SysTime} (valid : t.date.Valid) (other : ¬ NovemberEnd t.date)
    (fits : t.date.next.year < 2 ^ 16) : (nextDay t).date = t.date.next := by
  have month := valid.month
  have long := (monthLength_bounds t.date.year t.date.month).2
  have day := valid.day
  have ends := day_gt_daysInMonth valid other
  have dayWithin : t.day ≤ 31 := UInt8.le_iff_toNat_le.mpr (Nat.le_trans day.2 long)
  have daySucc : (t.day + 1).toNat = t.day.toNat + 1 := UInt8.succ_le dayWithin (by decide)
  have monthWithin : t.month ≤ 12 := UInt8.le_iff_toNat_le.mpr month.2
  have monthSucc : (t.month + 1).toNat = t.month.toNat + 1 :=
    UInt8.succ_le monthWithin (by decide)
  unfold Date.next at fits ⊢
  rw [nextDay_eq]
  dsimp only
  by_cases more : t.date.day < monthLength t.date.year t.date.month
  · rw [if_neg fun gt => ends.mp gt more, if_pos more]
    unfold SysTime.date
    dsimp only
    rw [daySucc]
  · rw [if_pos (ends.mpr more), if_neg more]
    rw [if_neg more] at fits
    by_cases inYear : t.date.month < 12
    · rw [if_pos inYear, if_neg ?_]
      · unfold SysTime.date
        dsimp only
        rw [monthSucc]
        rfl
      · rw [GT.gt, UInt8.lt_iff_toNat_lt, monthSucc]
        exact Nat.not_lt.mpr inYear
    · rw [if_neg inYear, if_pos ?_]
      · rw [if_neg inYear] at fits
        have yearSucc : (t.year + 1).toNat = t.year.toNat + 1 := by
          rw [UInt16.toNat_add, UInt16.toNat_one]
          exact Nat.mod_eq_of_lt fits
        unfold SysTime.date
        dsimp only
        rw [yearSucc]
        rfl
      · rw [GT.gt, UInt8.lt_iff_toNat_lt, monthSucc]
        exact Nat.lt_succ_of_le (Nat.not_lt.mp inYear)

/-! ## Seconds -/

section Second

variable {skew s : Nat} {t : SysTime}

theorem SysTime.Shows.valid (shows : t.Shows skew s) : t.Valid := by
  have month := shows.date.month
  have day := shows.date.day
  have long := (monthLength_bounds t.date.year t.date.month).2
  have week := shows.week
  refine ⟨⟨?_, ?_⟩, ⟨?_, ?_⟩, shows.hour, shows.minute, shows.second, ?_, ?_⟩ <;>
    rw [UInt8.le_iff_toNat_le]
  · exact month.1
  · exact month.2
  · exact day.1
  · exact Nat.le_trans day.2 long
  · rw [UInt8.toNat_one]
    omega
  · change _ ≤ 7
    omega

/-- The date is that of the second. -/
theorem SysTime.Shows.number (shows : t.Shows skew s) : t.date.number = s / 86400 := by
  have inside := shows.valid.secondOfDay_lt
  have instant := shows.instant
  omega

/-- Inside a day nothing but the time of day moves. -/
theorem clockTick_inside (valid : t.Valid) (inside : t.secondOfDay < 86399) :
    (clockTick t).date = t.date ∧ (clockTick t).week = t.week ∧
      (clockTick t).secondOfDay = t.secondOfDay + 1 := by
  have after := clockTick_secondOfDay valid
  rw [Nat.mod_eq_of_lt (by omega)] at after
  rcases clockTick_cases valid with ⟨-, ticked⟩ | ⟨-, -, ticked⟩ | ⟨-, -, -, ticked⟩ |
    ⟨last, last', last'', -⟩
  · exact ⟨by rw [ticked]; rfl, by rw [ticked], after⟩
  · exact ⟨by rw [ticked]; rfl, by rw [ticked], after⟩
  · exact ⟨by rw [ticked]; rfl, by rw [ticked], after⟩
  · unfold SysTime.secondOfDay at inside
    rw [last, last', last''] at inside
    exact absurd inside (by decide)

/-- The last second of a day leads to the next day. -/
theorem clockTick_midnight (valid : t.Valid) (last : t.secondOfDay = 86399) :
    clockTick t = nextDay { t with second := 0, minute := 0, hour := 24 } := by
  have hour := UInt8.le_iff_toNat_le.mp valid.hour
  have minute := UInt8.le_iff_toNat_le.mp valid.minute
  have second := UInt8.le_iff_toNat_le.mp valid.second
  simp only [UInt8.reduceToNat] at hour minute second
  unfold SysTime.secondOfDay at last
  rcases clockTick_cases valid with ⟨more, -⟩ | ⟨-, more, -⟩ | ⟨-, -, more, -⟩ | ⟨-, -, -, ticked⟩
  · omega
  · omega
  · omega
  · exact ticked

/-- One second, unless a 30th of November ends with it. -/
theorem SysTime.Shows.tick (shows : t.Shows skew s) (fits : s + 1 < 86400 * yearStart (2 ^ 16))
    (right : t.secondOfDay = 86399 → ¬ NovemberEnd t.date) :
    (clockTick t).Shows skew (s + 1) := by
  have valid := shows.valid
  have after := clockTick_valid valid
  have instant := shows.instant
  by_cases last : t.secondOfDay = 86399
  · have fresh := clockTick_secondOfDay valid
    rw [last] at fresh
    have number := shows.date.number_next
    have inYears : t.date.next.year < 2 ^ 16 := by
      have bound := shows.date.next.number_year.1
      rcases Nat.lt_or_ge t.date.next.year (2 ^ 16) with small | large
      · exact small
      · have := yearStart_le large
        omega
    have midnight := clockTick_midnight valid last
    have date : (clockTick t).date = t.date.next := by
      rw [midnight]
      exact nextDay_date_next shows.date (right last) inYears
    refine ⟨?_, after.hour, after.minute, after.second, ?_, ?_⟩
    · rw [date]
      exact shows.date.next
    · have week : (clockTick t).week = if t.week + 1 > 7 then 1 else t.week + 1 := by
        rw [midnight, (nextDay_time _).1]
      have succ := UInt8.succ_le valid.week.2 (by decide)
      have sunday : t.week + 1 > 7 ↔ 7 < t.week.toNat + 1 := by
        rw [GT.gt, UInt8.lt_iff_toNat_lt, succ]
        rfl
      have before := shows.week
      rw [date, number, week]
      unfold weekday at before ⊢
      split
      next beyond =>
        have := sunday.mp beyond
        rw [UInt8.toNat_one]
        omega
      next inside =>
        have : ¬ 7 < t.week.toNat + 1 := fun beyond => inside (sunday.mpr beyond)
        rw [succ]
        omega
    · rw [date, number, fresh]
      omega
  · have small := valid.secondOfDay_lt
    rcases clockTick_inside valid (by omega) with ⟨date, week, second⟩
    refine ⟨?_, after.hour, after.minute, after.second, ?_, ?_⟩
    · rw [date]
      exact shows.date
    · rw [date, week]
      exact shows.week
    · rw [date, second]
      omega

/-- The end of a 30th of November is missed. -/
theorem SysTime.Shows.november (shows : t.Shows skew s) (last : t.secondOfDay = 86399)
    (november : NovemberEnd t.date) : ¬ (clockTick t).date.Valid := by
  rcases november with ⟨month, day⟩
  have month' : t.month = 11 := UInt8.toNat_inj.mp month
  have day' : t.day = 30 := UInt8.toNat_inj.mp day
  have moved : (clockTick t).month = 11 ∧ (clockTick t).day = 31 := by
    rw [clockTick_midnight shows.valid last]
    unfold nextDay
    dsimp only
    rw [month', day']
    split
    · exact ⟨rfl, rfl⟩
    · exact ⟨rfl, rfl⟩
  intro valid
  have day := valid.day.2
  unfold SysTime.date at day
  rw [moved.1, moved.2] at day
  exact absurd day (by change ¬ 31 ≤ 30; decide)

end Second

/-! ## Runs -/

/-- The clock is right after every call exactly when no 30th of November ends meanwhile. -/
theorem clockTicks_calendar_iff {skew s : Nat} {t : SysTime} (shows : t.Shows skew s) {n : Nat}
    (fits : s + n < 86400 * yearStart (2 ^ 16)) :
    (∀ k ≤ n, (clockTick^[k] t).Shows skew (s + k)) ↔
      ∀ date : Date, date.Valid → NovemberEnd date →
        86400 * (date.number + 1) ≤ s ∨ s + n < 86400 * (date.number + 1) := by
  constructor
  · intro right date valid november
    by_contra ends
    have begun : s < 86400 * (date.number + 1) := by omega
    have past : 86400 * (date.number + 1) ≤ s + n := by omega
    -- the last second of the 30th
    have before : ∃ k, s + k = 86400 * date.number + 86399 :=
      ⟨86400 * date.number + 86399 - s, by omega⟩
    rcases before with ⟨k, last⟩
    have here := right k (by omega)
    have same : (clockTick^[k] t).date = date := by
      refine here.date.number_inj valid ?_
      rw [here.number]
      omega
    have second : (clockTick^[k] t).secondOfDay = 86399 := by
      have instant := here.instant
      rw [same] at instant
      omega
    have next := right (k + 1) (by omega)
    rw [Function.iterate_succ_apply'] at next
    exact here.november second (same.symm ▸ november) next.date
  · intro none_ k within
    induction k with
    | zero => exact shows
    | succ k ih =>
      have here := ih (by omega)
      rw [Function.iterate_succ_apply']
      refine here.tick (by omega) fun last november => ?_
      have instant := here.instant
      rcases none_ _ here.date november with early | late
      · omega
      · omega

/-- Four weeks after a start. -/
theorem clockTicks_calendar_start :
    (clockTick^[2419200] sysAbstimeInit).Shows 0 (63113904000 + 2419200) := by
  have start : yearStart 2000 = 730485 := yearStart_eq 2000
  have shows : sysAbstimeInit.Shows 0 63113904000 := by
    have number : sysAbstimeInit.date.number = 730485 := by
      unfold Date.number
      rw [yearStart_eq]
      decide
    refine ⟨⟨by decide, by decide⟩, by decide, by decide, by decide, ?_, ?_⟩
    · rw [number]
      decide
    · rw [number]
      decide
  refine (clockTicks_calendar_iff shows (by rw [yearStart_eq]; decide)).mpr ?_ _ (Nat.le_refl _)
  intro date valid november
  rcases Nat.lt_or_ge date.year 2000 with before | from_
  · have := valid.number_year.2
    have := yearStart_le (Nat.succ_le_of_lt before)
    rw [Nat.succ_eq_add_one] at this
    omega
  · have := valid.number_month.1
    have := yearStart_le from_
    have := (monthLength_bounds date.year 1).1
    have : monthStart date.year 2 = monthStart date.year 1 + monthLength date.year 1 :=
      monthStart_succ date.year (Nat.le_refl 1)
    have := monthStart_le date.year (show 2 ≤ date.month by rw [november.1]; decide)
    omega

/-- The last second of the 30th of November 2021, a Tuesday. -/
def novemberNight : SysTime := ⟨2021, 11, 30, 23, 59, 59, 2⟩

/-- The second it shows. -/
def novemberSecond : Nat := 63805535999

theorem novemberNight_shows : novemberNight.Shows 0 novemberSecond := by
  have number : novemberNight.date.number = 738489 := by
    unfold Date.number
    rw [yearStart_eq]
    decide
  refine ⟨⟨by decide, by decide⟩, by decide, by decide, by decide, ?_, ?_⟩
  · rw [number]
    decide
  · rw [number]
    decide

/-- A second later the clock shows the 31st. -/
theorem clockTicks_november : novemberNight.Shows 0 novemberSecond ∧
    novemberSecond + 1 < 86400 * yearStart (2 ^ 16) ∧
    clockTick^[1] novemberNight = ⟨2021, 11, 31, 0, 0, 0, 3⟩ ∧
    ¬ (clockTick^[1] novemberNight).Shows 0 (novemberSecond + 1) := by
  refine ⟨novemberNight_shows, ?_, by decide, fun shows => ?_⟩
  · rw [yearStart_eq]
    decide
  · exact absurd shows.date.day.2 (by decide)

end Tr6260
