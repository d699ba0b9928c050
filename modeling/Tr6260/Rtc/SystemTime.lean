import Mathlib.Data.Nat.ModEq
import Mathlib.Logic.Function.Iterate
import Mathlib.Tactic.IntervalCases
import Tr6260.Rtc.Arithmetic
import Tr6260.Sntp.LocalTime

/-!
# The system time from day to day

`sys_global_time` holds the date, `RTC_CNT_REG` the time of day, and the interrupt of each midnight
calls `update_days`. The date follows the calendar, and so does the name of `rtc_get_weekday`;
`tm_wday` stays as it was set. `rtc_get_time_of_day` counts the days of the years and of the months
before, and leaves out those of the month.
-/

namespace Tr6260

open CString

namespace HalRtc

open Gregorian
open Sntp (RtcClock Tm)

/-- `monthDays`. -/
def monthDays (month : Nat) : Nat :=
  [0, 31, 28, 31, 30, 31, 30, 31, 31, 30, 31, 30, 31].getD month 0

/-- `febofleapYear`. -/
def febofleapYear : Nat := 29

/-- `week`. -/
def week : List String := ["Sun", "Mon", "Tues", "Wed", "Thur", "Fri", "Sat"]

/-- The days of a month, as `update_days` and `rtc_get_time_of_day` take them. -/
def daysofmonth (year month : Nat) : Nat :=
  if Rtc.leapyear year ∧ month = 2 then febofleapYear else monthDays month

/-- `update_days`. -/
def updateDays (clock : RtcClock) : RtcClock :=
  let mday := clock.mday + 1
  if mday.toNat > daysofmonth clock.year.toNat clock.mon.toNat then
    let mon := clock.mon + 1
    if mon > 12 then
      { clock with mday := 1, mon := 1, year := clock.year + 1 }
    else
      { clock with mday := 1, mon := mon }
  else
    { clock with mday := mday }

/-- `rtc_get_time_of_day`. What `rtc_read_time` reads is the time of day of the system time. -/
def rtcGetTimeOfDay (clock : RtcClock) : Nat :=
  let tm := Sntp.rtcGetSystemTime clock
  let nPass4year := toU32 (((clock.year.toNat : Int) - 1970).tdiv 4)
  let nYearremaining := (((clock.year.toNat : Int) - 1970).tmod 4 % 2 ^ 8).toNat
  let days := (nPass4year * 1461 + nYearremaining * 365) % 2 ^ 32
  let days := (List.range clock.mon.toNat).foldl
    (fun days month => (days + daysofmonth clock.year.toNat month) % 2 ^ 32) days
  (days * 24 * 3600 + tm.hour.toNat * 3600 + tm.min.toNat * 60 + tm.sec.toNat) % 2 ^ 32

/-- `rtc_get_weekday`. -/
def rtcGetWeekday (year month day : Int) : Option String :=
  let early := 1 = month ∨ 2 = month
  let month' := if early then month + 12 else month
  let year' := if early then year - 1 else year
  let weekday := (day + 1 + 2 * month' + (3 * (month' + 1)).tdiv 5 + year' + year'.tdiv 4 -
    year'.tdiv 100 + year'.tdiv 400).tmod 7
  if weekday ≥ 0 ∧ weekday ≤ 6 then week[weekday.toNat]? else none

/-! ## The date -/

/-- The date of `sys_global_time`. -/
def day (clock : RtcClock) : Rtc.Day := ⟨clock.year.toNat, clock.mon.toNat, clock.mday.toNat⟩

def date (clock : RtcClock) : Date := (day clock).date

/-- The day of the week of a number, Sunday as 0. -/
def sundayWeekday (number : Nat) : Nat := (weekday number + 1) % 7

section Clock

variable {clock : RtcClock}

theorem daysofmonth_length {year month : Nat} (small : year < 65536) (low : 1 ≤ month)
    (high : month ≤ 12) : daysofmonth year month = monthLength year month := by
  have leap := Rtc.leapyear_iff small
  unfold daysofmonth monthLength
  simp only [leap]
  interval_cases month <;> simp [monthDays, febofleapYear]

theorem day_valid (valid : (date clock).Valid) : (day clock).Valid :=
  (Rtc.Day.date_valid_iff clock.year.toNat_lt).mp valid

/-- The year behind the last day of a year fits, if its number does. -/
theorem year_fits (valid : (date clock).Valid) (fits : (date clock).number + 1 < yearStart 65536)
    (next : (date clock).next.year = clock.year.toNat + 1) : clock.year.toNat + 1 < 65536 := by
  have before := (valid.next.year_lt_iff 65536).mpr (valid.number_next ▸ fits)
  rwa [next] at before

/-- The step of `sys_global_time` is that of its date, while the year fits. -/
theorem updateDays_day (valid : (date clock).Valid)
    (fits : (date clock).number + 1 < yearStart 65536) :
    day (updateDays clock) = Rtc.updateDays (day clock) := by
  have isDay := day_valid valid
  have low : 1 ≤ clock.mon.toNat := isDay.month_pos
  have month : clock.mon.toNat ≤ 12 := isDay.month_le
  have inMonth := (Rtc.rtcMonthdayNum_lt clock.year.toNat low month).2
  have short : clock.mday.toNat < 32 := Nat.lt_of_le_of_lt isDay.mday_le inMonth
  have mday : (clock.mday + 1).toNat = clock.mday.toNat + 1 := by
    rw [UInt8.toNat_add]
    exact Nat.mod_eq_of_lt (by change clock.mday.toNat + 1 < 256; omega)
  have mon : (clock.mon + 1).toNat = clock.mon.toNat + 1 := by
    rw [UInt8.toNat_add]
    exact Nat.mod_eq_of_lt (by change clock.mon.toNat + 1 < 256; omega)
  have length : daysofmonth clock.year.toNat clock.mon.toNat =
      Rtc.rtcMonthdayNum clock.year.toNat clock.mon.toNat := by
    rw [daysofmonth_length clock.year.toNat_lt low month,
      Rtc.rtcMonthdayNum_eq clock.year.toNat_lt low month]
  have december : clock.mon + 1 > 12 ↔ clock.mon.toNat + 1 > 12 := by
    rw [GT.gt, UInt8.lt_iff_toNat_lt, mon]
    rfl
  unfold updateDays
  dsimp only
  rw [mday, length]
  have cases_ := Rtc.updateDays_cases isDay
  unfold day at cases_ ⊢
  dsimp only at cases_
  rcases cases_ with ⟨inside, next⟩ | ⟨whole, before, next⟩ | ⟨whole, last, next⟩
  · rw [next, if_neg (Nat.not_lt_of_le inside)]
    rw [mday]
  · rw [next, if_pos (Nat.lt_succ_of_le whole.ge), if_neg]
    · rw [mon]
      rfl
    · rw [december]
      exact Nat.not_lt_of_le before
  · rw [next, if_pos (Nat.lt_succ_of_le whole.ge), if_pos]
    · have year := year_fits valid fits (by
        rw [date, ← Rtc.Day.date_next clock.year.toNat_lt isDay, day, next]
        rfl)
      dsimp only
      rw [UInt16.toNat_add]
      exact congrArg (Rtc.Day.mk · 1 1) (Nat.mod_eq_of_lt year)
    · rw [december]
      exact Nat.lt_succ_of_le last.ge

/-- The date goes to the next one. -/
theorem updateDays_date (valid : (date clock).Valid)
    (fits : (date clock).number + 1 < yearStart 65536) :
    date (updateDays clock) = (date clock).next := by
  rw [date, updateDays_day valid fits, Rtc.Day.date_next clock.year.toNat_lt (day_valid valid)]
  rfl

/-- Weekday and time of day stay. -/
theorem updateDays_keeps (clock : RtcClock) :
    (updateDays clock).wday = clock.wday ∧ (updateDays clock).cnt = clock.cnt := by
  unfold updateDays
  dsimp only
  split
  · split
    · exact ⟨rfl, rfl⟩
    · exact ⟨rfl, rfl⟩
  · exact ⟨rfl, rfl⟩

/-- The date is the one some days later, once there were as many interrupts. -/
theorem updateDays_run (valid : (date clock).Valid) (n : Nat)
    (fits : (date clock).number + n < yearStart 65536) :
    (date (updateDays^[n] clock)).Valid ∧
      (date (updateDays^[n] clock)).number = (date clock).number + n ∧
      (updateDays^[n] clock).wday = clock.wday := by
  induction n with
  | zero => exact ⟨valid, rfl, rfl⟩
  | succ n ih =>
    obtain ⟨valid', number, wday⟩ := ih (Nat.lt_of_succ_lt fits)
    have next := updateDays_date valid' (number.symm ▸ fits)
    rw [Function.iterate_succ_apply', next, valid'.number_next, number,
      (updateDays_keeps _).1, wday]
    exact ⟨valid'.next, rfl, rfl⟩

end Clock

/-! ## The weekday -/

/-- The days before the 1st of January behind a year. -/
theorem yearStart_succ (year : Nat) :
    yearStart (year + 1) + year / 100 = 365 * year + 366 + year / 4 + year / 400 := by
  rw [yearStart_eq]
  omega

/-- The days of a year before a month, from March on. -/
theorem monthStart_march (year : Nat) {month : Nat} (march : 3 ≤ month) (high : month ≤ 12) :
    monthStart year month + 365 =
      yearLength year + [0, 0, 0, 59, 90, 120, 151, 181, 212, 243, 273, 304, 334].getD month 0 := by
  unfold yearLength
  by_cases leap : Leap year
  · interval_cases month <;> simp [monthStart, monthLength, leap]
  · interval_cases month <;> simp [monthStart, monthLength, leap]

/-- The sum of the formula. -/
def weekdaySum (year month day : Nat) : Nat :=
  day + 1 + 2 * month + 3 * (month + 1) / 5 + year + year / 4 - year / 100 + year / 400

theorem weekdaySum_int (year month day : Nat) :
    ((day : Int) + 1 + 2 * month + (3 * ((month : Int) + 1)).tdiv 5 + year + (year : Int).tdiv 4 -
      (year : Int).tdiv 100 + (year : Int).tdiv 400).tmod 7 =
      (weekdaySum year month day % 7 : Nat) := by
  have quarter := Int.tdiv_eq_ediv_of_nonneg (b := 4) (Int.natCast_nonneg year)
  have century := Int.tdiv_eq_ediv_of_nonneg (b := 100) (Int.natCast_nonneg year)
  have cycle := Int.tdiv_eq_ediv_of_nonneg (b := 400) (Int.natCast_nonneg year)
  have months : 3 * ((month : Int) + 1) = (3 * (month + 1) : Nat) := by omega
  rw [months, quarter, century, cycle, Int.tdiv_eq_ediv_of_nonneg (Int.natCast_nonneg _),
    Int.tmod_eq_emod_of_nonneg (by omega)]
  unfold weekdaySum
  omega

/-- Months from March on, and January and February as months of the year before. -/
theorem weekdaySum_march {date : Date} (valid : date.Valid) (march : 3 ≤ date.month) :
    weekdaySum date.year date.month date.day % 7 = sundayWeekday date.number := by
  have start := yearStart_succ date.year
  have month := monthStart_march date.year march valid.month.2
  have high := valid.month.2
  have first := valid.day.1
  rw [yearStart] at start
  unfold weekdaySum sundayWeekday weekday Date.number
  generalize date.month = m at *
  interval_cases m <;> simp only [List.getD_cons_succ, List.getD_cons_zero] at month <;> omega

theorem weekdaySum_early {date : Date} {year : Nat} (valid : date.Valid) (early : date.month < 3)
    (is : date.year = year + 1) :
    weekdaySum year (date.month + 12) date.day % 7 = sundayWeekday date.number := by
  have start := yearStart_succ year
  have low := valid.month.1
  have first := valid.day.1
  have second : monthStart (year + 1) 2 = 31 := rfl
  unfold weekdaySum sundayWeekday weekday Date.number
  rw [is]
  generalize date.month = m at *
  interval_cases m
  · have january : monthStart (year + 1) 1 = 0 := rfl
    omega
  · omega

/-- The name of the formula is that of the weekday. -/
theorem rtcGetWeekday_eq {date : Date} (valid : date.Valid) (pos : 1 ≤ date.year) :
    rtcGetWeekday date.year date.month date.day = week[sundayWeekday date.number]? := by
  have named (year month : Nat) (sum : weekdaySum year month date.day % 7 =
      sundayWeekday date.number) :
      (let weekday := ((date.day : Int) + 1 + 2 * month + (3 * ((month : Int) + 1)).tdiv 5 + year +
        (year : Int).tdiv 4 - (year : Int).tdiv 100 + (year : Int).tdiv 400).tmod 7
      if weekday ≥ 0 ∧ weekday ≤ 6 then week[weekday.toNat]? else none) =
        week[sundayWeekday date.number]? := by
    have small : sundayWeekday date.number < 7 := Nat.mod_lt _ (by decide)
    rw [weekdaySum_int, sum]
    dsimp only
    rw [if_pos (by omega), Int.toNat_natCast]
  unfold rtcGetWeekday
  dsimp only
  by_cases early : date.month < 3
  · obtain ⟨year, is⟩ := Nat.exists_eq_add_of_le' pos
    have month : 1 = (date.month : Int) ∨ 2 = (date.month : Int) := by
      have low := valid.month.1
      omega
    have before : ((year + 1 : Nat) : Int) - 1 = year := by omega
    rw [if_pos month, if_pos month, is, before]
    exact named year (date.month + 12) (weekdaySum_early valid early is)
  · have month : ¬ (1 = (date.month : Int) ∨ 2 = (date.month : Int)) := by omega
    rw [if_neg month, if_neg month]
    exact named date.year date.month (weekdaySum_march valid (Nat.le_of_not_lt early))

/-! ## Date and weekday -/

/-- What `rtc_get_system_time` reports so many interrupts after `rtc_set_time`. -/
def reported (tm : Tm) (n : Nat) : Tm :=
  Sntp.rtcGetSystemTime (updateDays^[n] (Sntp.rtcSetTime tm))

/-- The date some days later is reported, with its weekday and the name of it. -/
structure Together (tm : Tm) (n : Nat) : Prop where
  valid : (reported tm n).date.Valid
  later : (reported tm n).date.number = tm.date.number + n
  wday : (reported tm n).wday.toNat = sundayWeekday (tm.date.number + n)
  name : rtcGetWeekday (reported tm n).year.toNat (reported tm n).mon.toNat
    (reported tm n).mday.toNat = week[sundayWeekday (tm.date.number + n)]?

section Run

variable {tm : Tm} {n : Nat}

/-- The date is right, and so is the name of its weekday. -/
theorem reported_date (valid : tm.date.Valid) (fits : tm.date.number + n < yearStart 65536) :
    (reported tm n).date.Valid ∧ (reported tm n).date.number = tm.date.number + n ∧
      (reported tm n).wday = tm.wday :=
  @updateDays_run (Sntp.rtcSetTime tm) valid n fits

/-- Later dates are in no earlier years. -/
theorem year_pos {date date' : Date} (valid : date.Valid) (valid' : date'.Valid)
    (pos : 1 ≤ date.year) (later : date.number ≤ date'.number) : 1 ≤ date'.year := by
  by_contra before
  refine Nat.not_le_of_lt ((valid'.year_lt_iff 1).mp (Nat.lt_of_not_le before)) ?_
  exact Nat.le_trans (Nat.le_trans (yearStart_le pos) valid.number_year.1) later

theorem reported_name (valid : tm.date.Valid) (pos : 1 ≤ tm.date.year)
    (fits : tm.date.number + n < yearStart 65536) :
    rtcGetWeekday (reported tm n).year.toNat (reported tm n).mon.toNat
      (reported tm n).mday.toNat = week[sundayWeekday (tm.date.number + n)]? := by
  obtain ⟨valid', number, -⟩ := reported_date valid fits
  have start : tm.date.number ≤ (reported tm n).date.number := by
    rw [number]
    exact Nat.le_add_right _ _
  have name := rtcGetWeekday_eq valid' (year_pos valid valid' pos start)
  rw [number] at name
  exact name

/-- As `tm_wday` stays, they go together after whole weeks only. -/
theorem together_iff (valid : tm.date.Valid) (pos : 1 ≤ tm.date.year)
    (wday : tm.wday.toNat = sundayWeekday tm.date.number)
    (fits : tm.date.number + n < yearStart 65536) : Together tm n ↔ 7 ∣ n := by
  obtain ⟨valid', number, stays⟩ := reported_date valid fits
  have weeks : sundayWeekday tm.date.number = sundayWeekday (tm.date.number + n) ↔ 7 ∣ n := by
    unfold sundayWeekday weekday
    omega
  constructor
  · intro together
    have now := together.wday
    rw [stays, wday] at now
    exact weeks.mp now
  · intro whole
    refine ⟨valid', number, ?_, reported_name valid pos fits⟩
    rw [stays, wday]
    exact weeks.mpr whole

/-- The morning of Wednesday, 2024-02-28. -/
def wednesday : Tm := ⟨0, 0, 9, 28, 2, 2024, 3⟩

theorem wednesday_valid : wednesday.date.Valid := ⟨by decide, by decide⟩

theorem wednesday_number : wednesday.date.number = 739309 := by
  have year : yearStart 2024 = 739251 := yearStart_eq 2024
  have month : monthStart 2024 2 = 31 := rfl
  have date : wednesday.date = ⟨2024, 2, 28⟩ := by decide
  rw [date, Date.number]
  dsimp only
  rw [year, month]

theorem wednesday_fits {n : Nat} (few : n ≤ 7) : wednesday.date.number + n < yearStart 65536 := by
  rw [wednesday_number, yearStart_eq]
  omega

theorem wednesday_wday : wednesday.wday.toNat = sundayWeekday wednesday.date.number := by
  rw [wednesday_number]
  decide

theorem together_week : Together wednesday 7 :=
  (together_iff wednesday_valid (by decide) wednesday_wday (wednesday_fits (by decide))).mpr
    (by decide)

/-- The day after is still called a Wednesday, while its name is that of a Thursday. -/
theorem reported_thursday : wednesday.date.Valid ∧
    wednesday.wday.toNat = sundayWeekday wednesday.date.number ∧
    wednesday.date.number + 1 < yearStart 65536 ∧
    (reported wednesday 1).date = ⟨2024, 2, 29⟩ ∧ (reported wednesday 1).wday = 3 ∧
    rtcGetWeekday 2024 2 29 = some "Thur" ∧ ¬ Together wednesday 1 := by
  refine ⟨wednesday_valid, wednesday_wday, wednesday_fits (by decide), by decide, by decide,
    by decide, ?_⟩
  intro together
  have wday := together.wday
  rw [wednesday_number] at wday
  revert wday
  decide

end Run

/-! ## Seconds from 1970 on -/

/-- The time of day. -/
def secondsOfDay (clock : RtcClock) : Nat :=
  let tm := Sntp.rtcGetSystemTime clock
  tm.hour.toNat * 3600 + tm.min.toNat * 60 + tm.sec.toNat

/-- The seconds from 1970-01-01 00:00:00 on. -/
def unixTime (clock : RtcClock) : Nat :=
  ((date clock).number - Sntp.epoch) * 86400 + secondsOfDay clock

/-- The days that `rtc_get_time_of_day` counts. -/
def countedDays (date : Date) : Nat :=
  (date.year - 1970) / 4 * 1461 + (date.year - 1970) % 4 * 365 + monthStart date.year date.month

/-- The days on which it counts right: the first of a month, except where cycles of four years that
begin in 1970 have the leap day too late or, after 2100, one too many. -/
def CountsRight (date : Date) : Prop :=
  date.year ≤ 2100 ∧ date.year % 4 ≠ 1 ∧ date.day = 1 ∨
    2100 < date.year ∧ (date.year % 4 = 1 ∧ date.day = 1 ∨ date.year % 4 ≠ 1 ∧ date.day = 2)

instance (date : Date) : Decidable (CountsRight date) := inferInstanceAs (Decidable (_ ∨ _))

/-- The months of `rtc_get_time_of_day`. -/
theorem months_counted {year : Nat} (small : year < 65536) {days month : Nat}
    (high : month ≤ 12) :
    (List.range (month + 1)).foldl
        (fun days month => (days + daysofmonth year month) % 2 ^ 32) (days % 2 ^ 32) =
      (days + monthStart year (month + 1)) % 2 ^ 32 := by
  induction month with
  | zero =>
    have none_ : daysofmonth year 0 = 0 := by
      rw [daysofmonth, if_neg fun both => absurd both.2 (by decide)]
      rfl
    have start : monthStart year (0 + 1) = 0 := rfl
    rw [List.range_succ, List.foldl_append, List.range_zero, List.foldl_nil, List.foldl_cons,
      List.foldl_nil, none_, start, Nat.add_zero, Nat.add_zero, Nat.mod_mod]
  | succ month ih =>
    have length := daysofmonth_length small (Nat.le_add_left 1 month) high
    rw [List.range_succ, List.foldl_append, List.foldl_cons, List.foldl_nil,
      ih (Nat.le_of_succ_le high), length, monthStart_succ year (Nat.le_add_left 1 month),
      Nat.mod_add_mod, Nat.add_assoc]

section Seconds

variable {clock : RtcClock}

theorem rtcGetTimeOfDay_eq (valid : (date clock).Valid) (from_ : 1970 ≤ clock.year.toNat) :
    rtcGetTimeOfDay clock = (countedDays (date clock) * 86400 + secondsOfDay clock) % 2 ^ 32 := by
  have small := clock.year.toNat_lt
  have fourths : toU32 (((clock.year.toNat : Int) - 1970).tdiv 4) =
      (clock.year.toNat - 1970) / 4 := by
    rw [Int.tdiv_eq_ediv_of_nonneg (by omega)]
    unfold toU32
    omega
  have remaining : (((clock.year.toNat : Int) - 1970).tmod 4 % 2 ^ 8).toNat =
      (clock.year.toNat - 1970) % 4 := by
    rw [Int.tmod_eq_emod_of_nonneg (by omega)]
    omega
  obtain ⟨month, is⟩ := Nat.exists_eq_add_of_le' (show 1 ≤ clock.mon.toNat from valid.month.1)
  have high : clock.mon.toNat ≤ 12 := valid.month.2
  have months := @months_counted clock.year.toNat small
    ((clock.year.toNat - 1970) / 4 * 1461 + (clock.year.toNat - 1970) % 4 * 365) month (by omega)
  unfold rtcGetTimeOfDay
  dsimp only
  rw [fourths, remaining, is, months, ← is]
  unfold countedDays secondsOfDay
  rw [Nat.mul_assoc, Nat.add_assoc, Nat.add_assoc, ← Nat.add_assoc (_ * 3600)]
  exact ((Nat.mod_modEq _ (2 ^ 32)).mul_right 86400).add_right _

/-- The starts of the years behind 1970, by cycles of four years. -/
theorem yearStart_cycles {past : Nat} (to_ : past < 230) :
    yearStart (1970 + past) + (if 130 < past then 1 else 0) =
      719528 + past / 4 * 1461 + past % 4 * 365 + (if past % 4 = 3 then 1 else 0) := by
  have centuries : (1970 + past + 399) / 400 + 15 + (if 130 < past then 1 else 0) =
      (1970 + past + 99) / 100 := by
    split <;> omega
  have few : (1970 + past + 99) / 100 ≤ 22 := by omega
  rw [yearStart_eq]
  revert centuries few
  generalize (1970 + past + 399) / 400 = leaps
  generalize (1970 + past + 99) / 100 = skipped
  generalize (if 130 < past then 1 else 0) = late
  split <;> omega

/-- What the count leaves out. -/
theorem countedDays_eq {date : Date} (valid : date.Valid) (from_ : 1970 ≤ date.year)
    (to_ : date.year < 2200) :
    date.number - Sntp.epoch + (if 2100 < date.year then 2 else 1) =
      countedDays date + date.day + (if date.year % 4 = 1 then 1 else 0) := by
  have first := valid.day.1
  obtain ⟨past, year⟩ := Nat.exists_eq_add_of_le from_
  have start := @yearStart_cycles past (by omega)
  rw [Sntp.epoch_eq]
  unfold countedDays Date.number
  have late : 2100 < 1970 + past ↔ 130 < past := by omega
  have third : (1970 + past) % 4 = 1 ↔ past % 4 = 3 := by omega
  rw [year, Nat.add_sub_cancel_left]
  simp only [late, third]
  by_cases late_ : 130 < past
  · by_cases third_ : past % 4 = 3
    · simp only [late_, third_, if_true] at start ⊢
      omega
    · simp only [late_, third_, if_true, if_false] at start ⊢
      omega
  · by_cases third_ : past % 4 = 3
    · simp only [late_, third_, if_true, if_false] at start ⊢
      omega
    · simp only [late_, third_, if_false] at start ⊢
      omega

theorem countsRight_iff {date : Date} (valid : date.Valid) (from_ : 1970 ≤ date.year)
    (to_ : date.year < 2200) :
    CountsRight date ↔ countedDays date = date.number - Sntp.epoch := by
  have count := countedDays_eq valid from_ to_
  have first := valid.day.1
  unfold CountsRight
  split at count <;> split at count <;> omega

/-- Within a month nothing is counted, and at its end the whole month. -/
theorem countedDays_next {date : Date} (valid : date.Valid) (from_ : 1970 ≤ date.year) :
    ∃ more, countedDays date.next = countedDays date + more ∧ more ≠ 1 ∧ more ≤ 32 := by
  have length := monthLength_bounds date.year date.month
  have month := monthStart_succ date.year valid.month.1
  have high := valid.month.2
  unfold Date.next
  split
  · refine ⟨0, ?_, by decide, by decide⟩
    unfold countedDays
    dsimp only
    exact (Nat.add_zero _).symm
  split
  · refine ⟨monthLength date.year date.month, ?_, by omega, by omega⟩
    unfold countedDays
    dsimp only
    rw [month]
    exact (Nat.add_assoc _ _ _).symm
  · have last : date.month = 12 := by omega
    have whole : monthStart date.year (date.month + 1) = yearLength date.year := by
      rw [last]
      exact monthStart_end date.year
    have december : monthLength date.year date.month = 31 := by
      rw [last]
      rfl
    have january : monthStart (date.year + 1) 1 = 0 := rfl
    have years := yearLength_bounds date.year
    have spread : countedDays date + 30 ≤ countedDays ⟨date.year + 1, 1, 1⟩ ∧
        countedDays ⟨date.year + 1, 1, 1⟩ ≤ countedDays date + 32 := by
      unfold countedDays
      dsimp only
      rw [january]
      by_cases leap : Leap date.year
      · have fourth : date.year % 4 = 0 := by
          unfold Leap at leap
          omega
        omega
      · have short : yearLength date.year = 365 := if_neg leap
        omega
    obtain ⟨more, is⟩ := Nat.exists_eq_add_of_le (Nat.le_of_add_right_le spread.1)
    exact ⟨more, is, by omega, by omega⟩

theorem secondsOfDay_updateDays (clock : RtcClock) :
    secondsOfDay (updateDays clock) = secondsOfDay clock := by
  unfold secondsOfDay Sntp.rtcGetSystemTime
  dsimp only
  rw [(updateDays_keeps clock).2]

theorem next_year_le {date : Date} : date.year ≤ date.next.year := by
  unfold Date.next
  split
  · exact Nat.le_refl _
  · split
    · exact Nat.le_refl _
    · exact Nat.le_succ _

/-- Days that hardly exceed fitting ones are told apart modulo 2^32. -/
theorem daysMod_eq_iff {days days' rest : Nat} (fits : days * 86400 + rest < 2 ^ 32)
    (near : days' ≤ days + 1) : (days' * 86400 + rest) % 2 ^ 32 = days * 86400 + rest ↔
      days' = days := by
  have apart (n : Nat) : (n + 86400) % 2 ^ 32 ≠ n := by omega
  constructor
  · intro same
    rcases Nat.lt_or_eq_of_le near with few | more
    · have less := Nat.mul_le_mul_right 86400 (Nat.le_of_lt_succ few)
      rw [Nat.mod_eq_of_lt (Nat.lt_of_le_of_lt (Nat.add_le_add_right less _) fits)] at same
      exact Nat.eq_of_mul_eq_mul_right (by decide) (Nat.add_right_cancel same)
    · rw [more, Nat.succ_mul, Nat.add_right_comm] at same
      exact absurd same (apart _)
  · intro same
    rw [same, Nat.mod_eq_of_lt fits]

/-- A day more shows modulo 2^32. -/
theorem daysMod_grow {days more rest : Nat} (grown : more ≠ 1) (few : more ≤ 32) :
    ((days + more) * 86400 + rest) % 2 ^ 32 ≠
      ((days * 86400 + rest) % 2 ^ 32 + 86400) % 2 ^ 32 := by
  have small : more * 86400 < 2 ^ 32 :=
    Nat.lt_of_le_of_lt (Nat.mul_le_mul_right _ few) (by decide)
  intro same
  rw [Nat.mod_add_mod, Nat.add_mul, Nat.add_right_comm] at same
  have step : more * 86400 % 2 ^ 32 = 1 * 86400 % 2 ^ 32 :=
    @Nat.ModEq.add_left_cancel' (2 ^ 32) _ _ (days * 86400 + rest) same
  rw [Nat.mod_eq_of_lt small] at step
  exact grown (Nat.eq_of_mul_eq_mul_right (by decide) step)

/-- The count is right on the days that `CountsRight` says, and no interrupt of a midnight adds a
day to it. -/
theorem rtcGetTimeOfDay_unix_iff (valid : (date clock).Valid) (from_ : 1970 ≤ (date clock).year)
    (fits : unixTime clock < 2 ^ 32) :
    (rtcGetTimeOfDay clock = unixTime clock ↔ CountsRight (date clock)) ∧
      rtcGetTimeOfDay (updateDays clock) ≠ (rtcGetTimeOfDay clock + 86400) % 2 ^ 32 := by
  have few : (date clock).number - Sntp.epoch < 49711 := by
    unfold unixTime at fits
    omega
  have epoch := Sntp.epoch_eq
  have until_ : (date clock).year < 2200 := by
    apply (valid.year_lt_iff 2200).mpr
    rw [yearStart_eq]
    omega
  have room : (date clock).number + 1 < yearStart 65536 := by
    rw [yearStart_eq]
    omega
  have next := updateDays_date valid room
  have count := countedDays_eq valid from_ until_
  have first := valid.day.1
  have near : countedDays (date clock) ≤ (date clock).number - Sntp.epoch + 1 := by
    split at count <;> omega
  constructor
  · rw [countsRight_iff valid from_ until_, rtcGetTimeOfDay_eq valid from_]
    exact daysMod_eq_iff fits near
  · have valid' : (date (updateDays clock)).Valid := next ▸ valid.next
    have from' : 1970 ≤ (updateDays clock).year.toNat := by
      change 1970 ≤ (date (updateDays clock)).year
      rw [next]
      exact Nat.le_trans from_ next_year_le
    obtain ⟨more, counted, grown, few⟩ := countedDays_next valid from_
    rw [rtcGetTimeOfDay_eq valid' from', rtcGetTimeOfDay_eq valid from_, next,
      secondsOfDay_updateDays, counted]
    exact daysMod_grow grown few

/-- Noon of 2024-01-01. -/
def newYearNoon : RtcClock := Sntp.rtcSetTime ⟨0, 0, 12, 1, 1, 2024, 1⟩

theorem newYearNoon_valid : (date newYearNoon).Valid := ⟨by decide, by decide⟩

theorem unixTime_january {day : Nat} (is : date clock = ⟨2024, 1, day⟩)
    (noon : secondsOfDay clock = 43200) : unixTime clock = (19723 + (day - 1)) * 86400 + 43200 := by
  have year : yearStart 2024 = 739251 := yearStart_eq 2024
  have month : monthStart 2024 1 = 0 := rfl
  rw [unixTime, is, noon, Sntp.epoch_eq, Date.number]
  dsimp only
  rw [year, month]
  omega

theorem newYearNoon_unix : unixTime newYearNoon = 1704110400 :=
  @unixTime_january newYearNoon 1 (by decide) (by decide)

theorem rtcGetTimeOfDay_newYear : rtcGetTimeOfDay newYearNoon = unixTime newYearNoon :=
  (rtcGetTimeOfDay_unix_iff newYearNoon_valid (by decide)
    (newYearNoon_unix ▸ by decide)).1.mpr (by decide)

/-- Noon of the day after. -/
def secondNoon : RtcClock := updateDays newYearNoon

theorem secondNoon_unix : unixTime secondNoon = 1704196800 :=
  @unixTime_january secondNoon 2 (by decide) (by decide)

/-- The seconds stay as they are at midnight. -/
theorem rtcGetTimeOfDay_second : date secondNoon = ⟨2024, 1, 2⟩ ∧ (date secondNoon).Valid ∧
    unixTime secondNoon = 1704196800 ∧ rtcGetTimeOfDay secondNoon = 1704110400 ∧
    rtcGetTimeOfDay secondNoon ≠ unixTime secondNoon ∧
    rtcGetTimeOfDay secondNoon ≠ rtcGetTimeOfDay newYearNoon + 86400 := by
  have unix := secondNoon_unix
  have counted : rtcGetTimeOfDay secondNoon = 1704110400 := by decide
  have before : rtcGetTimeOfDay newYearNoon = 1704110400 := by decide
  refine ⟨by decide, ⟨by decide, by decide⟩, unix, counted, ?_, ?_⟩
  · rw [counted, unix]
    decide
  · rw [counted, before]
    decide

end Seconds

end HalRtc

end Tr6260
