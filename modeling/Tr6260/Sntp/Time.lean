import Tr6260.CString

/-!
# The time of the network

`sntp_tr.c`: the seconds a time server sends are moved by the time zone and taken apart into a date
and a time of day for the clock, and put together again from the clock when the zone changes.
`month_sec` and the seconds are `unsigned int`, the fields of `struct tm` have 8 and 16 bits.
-/

namespace Tr6260

open CString

namespace Sntp

/-! ## The clock -/

/-- `struct tm`. -/
structure Tm where
  sec : UInt8
  min : UInt8
  hour : UInt8
  mday : UInt8
  mon : UInt8
  year : UInt16
  wday : UInt8
  deriving DecidableEq

/-- `sys_global_time` and the counter of the time of day, `RTC_CNT_REG`. -/
structure RtcClock where
  mday : UInt8
  mon : UInt8
  year : UInt16
  wday : UInt8
  cnt : Nat
  deriving DecidableEq

/-- `rtc_set_time`, without the timers that hang on the clock. -/
def rtcSetTime (sysTime : Tm) : RtcClock where
  mday := sysTime.mday
  mon := sysTime.mon
  year := sysTime.year
  wday := sysTime.wday
  cnt := sysTime.hour.toNat <<< 12 ||| sysTime.min.toNat <<< 6 ||| sysTime.sec.toNat

/-- `rtc_get_system_time`. -/
def rtcGetSystemTime (clock : RtcClock) : Tm where
  sec := UInt8.ofNat (clock.cnt &&& 0x3F)
  min := UInt8.ofNat (clock.cnt >>> 6 &&& 0x3F)
  hour := UInt8.ofNat (clock.cnt >>> 12 &&& 0x1F)
  mday := clock.mday
  mon := clock.mon
  year := clock.year
  wday := clock.wday

/-! ## The calendar of the conversion -/

/-- `IS_LEAP_YEAR`. -/
def isLeapYear (year : Nat) : Bool := year % 400 = 0 ∨ (year % 4 = 0 ∧ year % 100 ≠ 0)

/-- `SEC_NUM_DAY`. -/
def secNumDay : Nat := 24 * 3600

/-- `SEC_NUM_YEAR`. -/
def secNumYear : Nat := (31 + 28 + 31 + 30 + 31 + 30 + 31 + 31 + 30 + 31 + 30 + 31) * secNumDay

/-- `SEC_NUM_LEAR_YEAR`. -/
def secNumLeapYear : Nat := secNumYear + secNumDay

/-- `IS_LEAP_YEAR(tblock.tm_year+1)`. The macro has no brackets around its argument, so that its
divisions are of the 1 alone. -/
def isLeapYearAfter (year : Nat) : Bool :=
  year + 1 % 400 = 0 ∨ (year + 1 % 4 = 0 ∧ year + 1 % 100 ≠ 0)

/-- `monthDays`. -/
def monthDays (month : Nat) : Nat :=
  [0, 31, 28, 31, 30, 31, 30, 31, 31, 30, 31, 30, 31].getD month 0

/-- `get_local_time`. The additions are modulo 2^32. -/
def getLocalTime (clock : RtcClock) : Nat :=
  let curTime := rtcGetSystemTime clock
  let years := (List.range' 1970 (curTime.year.toNat - 1970)).map fun num =>
    if isLeapYear num then secNumLeapYear else secNumYear
  let months := (List.range' 1 (curTime.mon.toNat - 1)).map fun num =>
    monthDays num * secNumDay
  let leap := if isLeapYear curTime.year.toNat ∧ curTime.mon > 2 then secNumDay else 0
  toU32 ((years.sum + months.sum + leap : Nat) + ((curTime.mday.toNat : Int) - 1) * secNumDay +
    (curTime.hour.toNat * 3600 + curTime.min.toNat * 60 + curTime.sec.toNat : Nat))

/-! ## Seconds taken apart -/

/-- The years of `set_local_time`: the year and the seconds left over. -/
def yearLoop : (fuel year newtime : Nat) → Option (Nat × Nat)
  | 0, _, _ => none
  | fuel + 1, year, newtime =>
    if isLeapYear year then
      if newtime < secNumYear then
        some (year, newtime)
      else
        yearLoop fuel ((year + 1) % 2 ^ 16) (toU32 ((newtime : Int) - secNumLeapYear))
    else if isLeapYearAfter year ∧ newtime < secNumLeapYear then
      some (year, newtime)
    else if newtime < secNumYear then
      some (year, newtime)
    else
      yearLoop fuel ((year + 1) % 2 ^ 16) (toU32 ((newtime : Int) - secNumYear))

/-- `month_sec`. -/
def monthSec (year mon : Nat) : Nat :=
  monthDays mon * secNumDay + if mon = 2 ∧ isLeapYear year then secNumDay else 0

/-- The months of `set_local_time`, with so many still to look at. -/
def monthLoop (year : Nat) : (left newtime : Nat) → Nat × Nat
  | 0, newtime => (13, newtime)
  | left + 1, newtime =>
    if newtime < monthSec year (12 - left) then
      (12 - left, newtime)
    else
      monthLoop year left (newtime - monthSec year (12 - left))

/-- The days of `set_local_time`, with so many still to look at. -/
def dayLoop : (left mday newtime : Nat) → Nat × Nat
  | 0, mday, newtime => (mday, newtime)
  | left + 1, mday, newtime =>
    if newtime < secNumDay then (mday, newtime)
    else dayLoop left (mday + 1) (newtime - secNumDay)

/-- `day_num`. -/
def dayNum (year mon : Nat) : Nat :=
  monthDays mon + if mon = 2 ∧ isLeapYear year then 1 else 0

/-- `set_local_time`: what it passes to `rtc_set_time`, when its loop over the years ends. -/
def setLocalTime (fuel newtime : Nat) : Option Tm := do
  let wday := UInt8.ofNat (4 + newtime / secNumDay) % 7
  let (year, newtime) ← yearLoop fuel 1970 newtime
  let (mon, newtime) := monthLoop year 12 newtime
  let (mday, newtime) := dayLoop (dayNum year mon) 1 newtime
  return {
    sec := UInt8.ofNat (newtime % 3600 % 60)
    min := UInt8.ofNat (newtime % 3600 / 60)
    hour := UInt8.ofNat (newtime / 3600)
    mday := UInt8.ofNat mday
    mon := UInt8.ofNat mon
    year := UInt16.ofNat year
    wday }

/-! ## The time zone -/

/-- The clock and `timezone`. -/
structure LocalClock where
  clock : RtcClock
  timezone : Int

/-- `set_system_time`. -/
def setSystemTime (fuel : Nat) (s : LocalClock) (newtime : Nat) :
    Option (Int × LocalClock) :=
  let newtime := toU32 (newtime + s.timezone * 3600)
  -- negative as an `int`
  if newtime ≥ 2 ^ 31 then
    return (-1, s)
  else do
    let tblock ← setLocalTime fuel newtime
    return (0, { s with clock := rtcSetTime tblock })

/-- `set_timezone`, without what it keeps in the non-volatile memory and the request it makes. -/
def setTimezone (fuel : Nat) (s : LocalClock) (tz : Int) :
    Option (Int × LocalClock) :=
  if tz > 13 ∨ tz < -13 then
    return (-1, s)
  else
    let curTime := getLocalTime s.clock
    if toU32 (curTime + s.timezone * 3600) ≥ 2 ^ 31 then
      return (-1, s)
    else
      let curTime := toU32 (curTime - s.timezone * 3600)
      if toU32 (curTime + tz * 3600) ≥ 2 ^ 31 then
        return (-1, s)
      else do
        let tblock ← setLocalTime fuel (toU32 (curTime + tz * 3600))
        return (0, ⟨rtcSetTime tblock, tz⟩)

end Sntp

end Tr6260
