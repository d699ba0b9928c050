import Tr6260.CString

/-!
# Dates of the RTC timers

`hal_rtc.c` packs a date into 64 bits, so that dates are compared as numbers, and computes with
days since the year 0. `rtc_base_t` is a 32-bit number, `rtc_date_t` one of 64 bits. Years are
counted in cycles of 1461 days there and back, whatever `leapyear` says of a century.
-/

namespace Tr6260

open CString

namespace Rtc

/-! ## Packed dates -/

/-- `RTC_DATE_PACKAGE`. -/
def rtcDatePackage (year month day hour min sec cnt : Nat) : Nat :=
  (year <<< 41 ||| month <<< 37 ||| day <<< 32 ||| hour <<< 27 ||| min <<< 21 ||| sec <<< 15 |||
    cnt) % 2 ^ 64

/-- `RTC_DATE_UNPACKAGE_YEAR` and the others. -/
def unpackYear (date : Nat) : Nat := date >>> 41
def unpackMonth (date : Nat) : Nat := (date >>> 37) &&& 0xf
def unpackDay (date : Nat) : Nat := (date >>> 32) &&& 0x1f
def unpackHour (date : Nat) : Nat := (date >>> 27) &&& 0x1f
def unpackMin (date : Nat) : Nat := (date >>> 21) &&& 0x3f
def unpackSec (date : Nat) : Nat := (date >>> 15) &&& 0x3f
def unpackMs (date : Nat) : Nat := date &&& 0x7fff

theorem unpackMonth_eq (date : Nat) : unpackMonth date = date / 2 ^ 37 % 16 := by
  rw [unpackMonth, Nat.shiftRight_eq_div_pow]
  exact Nat.and_two_pow_sub_one_eq_mod _ 4

theorem unpackDay_eq (date : Nat) : unpackDay date = date / 2 ^ 32 % 32 := by
  rw [unpackDay, Nat.shiftRight_eq_div_pow]
  exact Nat.and_two_pow_sub_one_eq_mod _ 5

theorem unpackHour_eq (date : Nat) : unpackHour date = date / 2 ^ 27 % 32 := by
  rw [unpackHour, Nat.shiftRight_eq_div_pow]
  exact Nat.and_two_pow_sub_one_eq_mod _ 5

theorem unpackMin_eq (date : Nat) : unpackMin date = date / 2 ^ 21 % 64 := by
  rw [unpackMin, Nat.shiftRight_eq_div_pow]
  exact Nat.and_two_pow_sub_one_eq_mod _ 6

theorem unpackSec_eq (date : Nat) : unpackSec date = date / 2 ^ 15 % 64 := by
  rw [unpackSec, Nat.shiftRight_eq_div_pow]
  exact Nat.and_two_pow_sub_one_eq_mod _ 6

theorem unpackMs_eq (date : Nat) : unpackMs date = date % 32768 :=
  Nat.and_two_pow_sub_one_eq_mod _ 15

/-- The milliseconds are kept, whatever stands in front of them. -/
theorem unpackMs_package (year month day hour min sec cnt : Nat) :
    unpackMs (rtcDatePackage year month day hour min sec cnt) = cnt % 32768 := by
  have low : ∀ a i : Nat, 15 ≤ i → (a <<< i) % 2 ^ 15 = 0 := by
    intro a i large
    rw [Nat.shiftLeft_eq]
    exact Nat.mod_eq_zero_of_dvd (Nat.dvd_mul_left_of_dvd (Nat.pow_dvd_pow 2 large) a)
  rw [unpackMs_eq, rtcDatePackage, Nat.mod_mod_of_dvd _ (by decide)]
  change _ % 2 ^ 15 = cnt % 2 ^ 15
  simp only [Nat.or_mod_two_pow]
  rw [low _ 41 (by decide), low _ 37 (by decide), low _ 32 (by decide), low _ 27 (by decide),
    low _ 21 (by decide), low _ 15 (by decide)]
  simp only [Nat.zero_or]

/-- Fields of their widths, side by side. -/
theorem rtcDatePackage_eq {year month day hour min sec cnt : Nat} (y : year < 2 ^ 23)
    (m : month < 16) (d : day < 32) (h : hour < 32) (i : min < 64) (s : sec < 64)
    (c : cnt < 32768) :
    rtcDatePackage year month day hour min sec cnt =
      year * 2 ^ 41 + month * 2 ^ 37 + day * 2 ^ 32 + hour * 2 ^ 27 + min * 2 ^ 21 + sec * 2 ^ 15 +
        cnt := by
  have step (a i : Nat) {b : Nat} (small : b < 2 ^ i) : a <<< i ||| b = a * 2 ^ i + b := by
    rw [← Nat.shiftLeft_add_eq_or_of_lt small, Nat.shiftLeft_eq]
  rw [rtcDatePackage]
  simp only [Nat.or_assoc]
  rw [step sec 15 (by omega), step min 21 (by omega), step hour 27 (by omega),
    step day 32 (by omega), step month 37 (by omega), step year 41 (by omega),
    Nat.mod_eq_of_lt (by omega)]
  omega

/-! ## The calendar -/

/-- `leapyear`, of a `uint16_t`. -/
def leapyear (year : Nat) : Bool :=
  let year := year % 65536
  if year % 100 ≠ 0 then year % 4 = 0 else year % 400 = 0

/-- `monthday_leapyear` and `monthday_noryear`. -/
def monthdayLeapyear : List Nat := [0, 31, 29, 31, 30, 31, 30, 31, 31, 30, 31, 30, 31]
def monthdayNoryear : List Nat := [0, 31, 28, 31, 30, 31, 30, 31, 31, 30, 31, 30, 31]

/-- `rtc_year_to_day`. -/
def rtcYearToDay (year : Nat) : Nat := if leapyear year then 366 else 365

/-- `rtc_monthday_num`. -/
def rtcMonthdayNum (year month : Nat) : Nat :=
  if leapyear year then monthdayLeapyear.getD month 0 else monthdayNoryear.getD month 0

/-- The loop over the months before `month`. -/
def monthDays (year month : Nat) : Nat :=
  ((List.range' 1 (month - 1)).map (rtcMonthdayNum year)).sum

/-- `rtc_days_interval`. -/
def rtcDaysInterval (yearnow monthnow daynow yeartag monthtag daytag : Nat) : Nat :=
  let passdaysNow := monthDays yearnow monthnow + daynow
  let passdaysTag := monthDays yeartag monthtag + daytag
  if yearnow = yeartag then
    toU32 (passdaysTag - passdaysNow)
  else
    let years := ((List.range' (yearnow + 1) (yeartag - (yearnow + 1))).map rtcYearToDay).sum
    toU32 (rtcYearToDay yearnow - passdaysNow + passdaysTag + years)

/-- `rtc_yeardays_to_days`. -/
def rtcYeardaysToDays (year month day : Nat) : Nat :=
  let days := year / 4 * 1461
  let days := match year % 4 with
    | 1 => days + 366
    | 2 => days + 731
    | 3 => days + 1096
    | _ => days
  (days + monthDays year month + day) % 2 ^ 32

/-- `leapMonthDays` and `notleapMonthDays`. -/
def leapMonthDays : List Nat := [0, 31, 60, 91, 121, 152, 182, 213, 244, 274, 305, 335, 366]
def notleapMonthDays : List Nat := [0, 31, 59, 90, 120, 151, 181, 212, 243, 273, 304, 334, 365]

/-- The loops of `rtc_days_to_yeardays`, over what was there. -/
def monthOfDays (table : List Nat) (days : Nat) (old : Nat × Nat) : Nat × Nat :=
  (List.range' 1 12).foldl (fun found i =>
    if table.getD (i - 1) 0 < days ∧ days ≤ table.getD i 0 then (i, days - table.getD (i - 1) 0)
    else found) old

/-- `rtc_days_to_yeardays`, over what was there. -/
def rtcDaysToYeardays (days : Nat) (old : Nat × Nat × Nat) : Nat × Nat × Nat :=
  let years := days / 1461 * 4
  let daysRemain := days % 1461
  if days = 0 then
    old
  else if daysRemain = 0 then
    (toU32 (years - 1), 12, 31)
  else if daysRemain ≤ 366 then
    (years, monthOfDays leapMonthDays daysRemain old.2)
  else if daysRemain ≤ 731 then
    (years + 1, monthOfDays notleapMonthDays (daysRemain - 366) old.2)
  else if daysRemain ≤ 1096 then
    (years + 2, monthOfDays notleapMonthDays (daysRemain - 731) old.2)
  else
    (years + 3, monthOfDays notleapMonthDays (daysRemain - 1096) old.2)

/-! ## Sums and differences -/

/-- `rtc_date_add`. -/
def rtcDateAdd (datenow datetag : Nat) : Nat :=
  let tag := (unpackYear datetag, unpackMonth datetag, unpackDay datetag)
  let daytag := rtcYeardaysToDays tag.1 tag.2.1 tag.2.2
  let daynow := rtcYeardaysToDays (unpackYear datenow) (unpackMonth datenow) (unpackDay datenow)
  let ms := unpackMs datenow + unpackMs datetag
  let sec := unpackSec datenow + unpackSec datetag + ms / 1000
  let mini := unpackMin datenow + unpackMin datetag + sec / 60
  let hour := unpackHour datenow + unpackHour datetag + mini / 60
  let day := (daytag + daynow + hour / 24) % 2 ^ 32
  let (year, month, mday) := rtcDaysToYeardays day tag
  rtcDatePackage year month mday (hour % 24) (mini % 60) (sec % 60) 0

/-- `rtc_seconds_interval`. -/
def rtcSecondsInterval (datenow datetag : Nat) : Nat :=
  let dayInterval := rtcDaysInterval (unpackYear datenow) (unpackMonth datenow) (unpackDay datenow)
    (unpackYear datetag) (unpackMonth datetag) (unpackDay datetag)
  let secpassnow := unpackHour datenow * 60 * 60 + unpackMin datenow * 60 + unpackSec datenow
  let secpasstag := unpackHour datetag * 60 * 60 + unpackMin datetag * 60 + unpackSec datetag
  if dayInterval = 0 then
    toU32 (secpasstag - secpassnow)
  else
    toU32 (24 * 60 * 60 - secpassnow + secpasstag + (dayInterval - 1) * 24 * 60 * 60)

/-! ## Periods -/

/-- `rtc_next_time_day_period`. -/
def rtcNextTimeDayPeriod (yearnow monthnow daynow : Nat) : Nat × Nat × Nat :=
  if daynow = rtcMonthdayNum yearnow monthnow then
    if monthnow = 12 then (yearnow + 1, 1, 1) else (yearnow, monthnow + 1, 1)
  else
    (yearnow, monthnow, daynow + 1)

/-- `rtc_next_time_month_period`. Behind the 28th nothing is written, and the caller's variables
show what was on the stack. -/
def rtcNextTimeMonthPeriod (stack : Nat × Nat × Nat) (yearnow monthnow daynow : Nat) :
    Nat × Nat × Nat :=
  if daynow > 28 then stack
  else if monthnow = 12 then (yearnow + 1, 1, daynow)
  else (yearnow, monthnow + 1, daynow)

/-! ## The clock -/

/-- A date of the calendar, with a time of day. -/
structure ValidDate (year month day hour min sec ms : Nat) : Prop where
  year_lt : year < 65536
  month_pos : 1 ≤ month
  month_le : month ≤ 12
  day_pos : 1 ≤ day
  day_le : day ≤ rtcMonthdayNum year month
  hour_lt : hour < 24
  min_lt : min < 60
  sec_lt : sec < 60
  ms_lt : ms < 1000

/-- What `sys_global_time` and `rtc_read_time` show at a time. -/
structure Reading where
  year : Nat
  month : Nat
  day : Nat
  hour : Nat
  min : Nat
  sec : Nat
  ms : Nat
  valid : ValidDate year month day hour min sec ms

/-- `rtc_get_now_date`. -/
def Reading.date (r : Reading) : Nat :=
  rtcDatePackage r.year r.month r.day r.hour r.min r.sec r.ms

end Rtc

end Tr6260
