import Tr6260.Rtc.NextAlarm

/-!
# Sums and differences of dates

The sum of `rtc_date_add` and the differences of `rtc_days_interval`, `rtc_seconds_interval` and
`rtc_ms_interval`, against the milliseconds of the Gregorian calendar. The sum goes by four-year
cycles, which the calendar keeps to from 1970 to 2099; the differences go by the lengths of the
years and months.
-/

namespace Tr6260

open CString

namespace Rtc

/-- A value of a `uint64_t`. -/
def toU64 (n : Int) : Nat := (n % 2 ^ 64).toNat

/-- `rtc_ms_interval`. -/
def rtcMsInterval (datenow datetag : Nat) : Nat :=
  let dayInterval := rtcDaysInterval (unpackYear datenow) (unpackMonth datenow) (unpackDay datenow)
    (unpackYear datetag) (unpackMonth datetag) (unpackDay datetag)
  let mspassnow := (unpackHour datenow * 60 * 60 + unpackMin datenow * 60 + unpackSec datenow) *
    1000 + unpackMs datenow
  let mspasstag := (unpackHour datetag * 60 * 60 + unpackMin datetag * 60 + unpackSec datetag) *
    1000 + unpackMs datetag
  if dayInterval = 0 then
    toU64 (mspasstag - mspassnow)
  else
    toU64 (24 * 60 * 60 * 1000 - mspassnow + mspasstag + (dayInterval - 1) * 24 * 60 * 60 * 1000)

/-! ## Milliseconds of the calendar -/

/-- The milliseconds of a time of day. -/
def msOfDay (date : Nat) : Nat := secondOfDay date * 1000 + unpackMs date

/-- The milliseconds from the first day of the year 0 to a date. -/
def millisOf (date : Nat) : Nat := (gregorian date).number * dayMs + msOfDay date

/-- A duration that is added, with its milliseconds. -/
def Duration.packed (d : Duration) (ms : Nat) : Nat :=
  rtcDatePackage 0 0 d.days d.hours d.mins d.secs ms

/-! ## Both calendars -/

/-- A day of the clock in the Gregorian calendar. -/
def Day.date (day : Day) : Gregorian.Date := ⟨day.year, day.month, day.mday⟩

section Days

variable {day : Day}

theorem Day.date_valid_iff (small : day.year < 65536) : day.date.Valid ↔ day.Valid := by
  constructor
  · intro ⟨⟨low, high⟩, first, last⟩
    refine ⟨low, high, first, ?_⟩
    exact Nat.le_trans last (Nat.le_of_eq (rtcMonthdayNum_eq small low high).symm)
  · intro ⟨low, high, first, last⟩
    refine ⟨⟨low, high⟩, first, ?_⟩
    rw [rtcMonthdayNum_eq small low high] at last
    exact last

/-- The years begin on the same days. -/
theorem yearDays_eq {year : Nat} (small : year ≤ 65536) :
    yearDays year = Gregorian.yearStart year := by
  induction year with
  | zero => rfl
  | succ year ih =>
    rw [yearDays, Gregorian.yearStart, ih (Nat.le_of_succ_le small), rtcYearToDay,
      Gregorian.yearLength]
    exact congrArg _ (if_congr (leapyear_iff small) rfl rfl)

theorem monthDays_gregorian {year month : Nat} (small : year < 65536) (low : 1 ≤ month)
    (high : month ≤ 12) : monthDays year month = Gregorian.monthStart year month := by
  induction month with
  | zero => cases low
  | succ month ih =>
    rcases Nat.eq_zero_or_pos month with rfl | pos
    · rfl
    · have before := Nat.le_of_succ_le high
      rw [monthDays_succ year pos, ih pos before, Gregorian.monthStart_succ year pos,
        rtcMonthdayNum_eq small pos before]

/-- The clock's number of a day counts from 1. -/
theorem Day.number_date (small : day.year < 65536) (valid : day.Valid) :
    day.number = day.date.number + 1 := by
  have first := valid.mday_pos
  have month := monthDays_gregorian small valid.month_pos valid.month_le
  rw [Day.number, yearDays_eq (Nat.le_of_lt small), Day.ofYear, month]
  unfold Gregorian.Date.number Day.date
  dsimp only
  omega

/-- `update_days` goes to the next day of the calendar. -/
theorem Day.date_next (small : day.year < 65536) (valid : day.Valid) :
    (updateDays day).date = day.date.next := by
  have length := rtcMonthdayNum_eq small valid.month_pos valid.month_le
  unfold Gregorian.Date.next Day.date
  dsimp only
  rw [← length]
  rcases updateDays_cases valid with ⟨inside, next⟩ | ⟨whole, before, next⟩ | ⟨whole, last, next⟩
  · rw [next, if_pos inside]
  · rw [next, if_neg (Nat.not_lt_of_le whole.ge), if_pos before]
  · rw [next, if_neg (Nat.not_lt_of_le whole.ge), if_neg (Nat.not_lt_of_le last.ge)]

end Days

/-! ## Date-times -/

section DateTimes

variable {now tag : Nat}

/-- A date-time is packed from what is unpacked. -/
theorem IsDateTime.package (valid : IsDateTime now) :
    rtcDatePackage (unpackYear now) (unpackMonth now) (unpackDay now) (unpackHour now)
      (unpackMin now) (unpackSec now) (unpackMs now) = now := by
  have year : unpackYear now < 2 ^ 23 := by
    have small := valid.packed
    rw [unpackYear, Nat.shiftRight_eq_div_pow]
    omega
  have month : unpackMonth now < 16 := by rw [unpackMonth_eq]; exact Nat.mod_lt _ (by decide)
  have day : unpackDay now < 32 := by rw [unpackDay_eq]; exact Nat.mod_lt _ (by decide)
  change Rtc.packAim now _ _ _ = now
  rw [packAim_parts now year month day]
  exact (date_parts now).symm

/-- What the clock shows at a date-time. -/
def IsDateTime.reading (valid : IsDateTime now) (small : unpackYear now < 65536) : Reading where
  year := unpackYear now
  month := unpackMonth now
  day := unpackDay now
  hour := unpackHour now
  min := unpackMin now
  sec := unpackSec now
  ms := unpackMs now
  valid :=
    have day : (dayOf now).Valid := (Day.date_valid_iff small).mp valid.day
    ⟨small, day.month_pos, day.month_le, day.mday_pos, day.mday_le, valid.hour, valid.min,
      valid.sec, valid.ms⟩

theorem IsDateTime.reading_date (valid : IsDateTime now) (small : unpackYear now < 65536) :
    (valid.reading small).date = now := valid.package

theorem msOfDay_lt (valid : IsDateTime now) : msOfDay now < dayMs := by
  have hour := valid.hour
  have min := valid.min
  have sec := valid.sec
  have ms := valid.ms
  unfold msOfDay secondOfDay dayMs
  omega

/-- Whole seconds of the calendar. -/
theorem millisOf_seconds (valid : IsDateTime now) :
    millisOf now / 1000 = (gregorian now).number * 86400 + secondOfDay now := by
  have ms := valid.ms
  unfold millisOf msOfDay dayMs
  omega

/-- Later date-times are in later years, or in the same. -/
theorem year_le (valid : IsDateTime now) (valid' : IsDateTime tag)
    (order : millisOf now ≤ millisOf tag) : unpackYear now ≤ unpackYear tag := by
  have short := msOfDay_lt valid
  have short' := msOfDay_lt valid'
  have days : (gregorian now).number ≤ (gregorian tag).number := by
    by_contra before
    have later : ((gregorian tag).number + 1) * dayMs ≤ (gregorian now).number * dayMs :=
      Nat.mul_le_mul_right _ (Nat.lt_of_not_le before)
    unfold millisOf at order
    rw [Nat.succ_mul] at later
    omega
  by_contra before
  have last := (valid'.day.year_lt_iff (gregorian now).year).mp (Nat.lt_of_not_le before)
  have first := valid.day.number_year.1
  omega

/-! ## Differences -/

/-- Two date-times that the differences are for. -/
structure Ordered (now tag : Nat) : Prop where
  valid : IsDateTime now
  valid' : IsDateTime tag
  order : millisOf now ≤ millisOf tag
  small : unpackYear tag < 65536

theorem Ordered.year_le (ordered : Ordered now tag) : unpackYear now ≤ unpackYear tag :=
  Rtc.year_le ordered.valid ordered.valid' ordered.order

/-- The numbers of both days, as the clock counts them. -/
theorem Ordered.numbers (ordered : Ordered now tag) :
    (dayOf now).number = (gregorian now).number + 1 ∧
      (dayOf tag).number = (gregorian tag).number + 1 ∧
      (gregorian now).number ≤ (gregorian tag).number ∧ (gregorian tag).number < 2 ^ 25 := by
  have small' := Nat.lt_of_le_of_lt ordered.year_le ordered.small
  have valid := (@Day.date_valid_iff (dayOf now) small').mp ordered.valid.day
  have valid' := (@Day.date_valid_iff (dayOf tag) ordered.small).mp ordered.valid'.day
  have short := msOfDay_lt ordered.valid
  have short' := msOfDay_lt ordered.valid'
  have order := ordered.order
  refine ⟨Day.number_date small' valid, Day.number_date ordered.small valid', ?_, ?_⟩
  · unfold millisOf at order
    unfold dayMs at *
    omega
  · have last := (ordered.valid'.day.year_lt_iff 65536).mp ordered.small
    have limit : Gregorian.yearStart 65536 < 2 ^ 25 := by
      rw [Gregorian.yearStart_eq]
      decide
    omega

theorem Ordered.days (ordered : Ordered now tag) :
    rtcDaysInterval (unpackYear now) (unpackMonth now) (unpackDay now) (unpackYear tag)
      (unpackMonth tag) (unpackDay tag) = (gregorian tag).number - (gregorian now).number := by
  obtain ⟨number, number', order, small⟩ := ordered.numbers
  have days := @rtcDaysInterval_eq (dayOf now) (dayOf tag) ordered.year_le
  rw [number, number'] at days
  refine days.trans ?_
  unfold toU32
  omega

theorem Ordered.seconds (ordered : Ordered now tag)
    (short : millisOf tag / 1000 - millisOf now / 1000 < 2 ^ 32) :
    rtcSecondsInterval now tag = millisOf tag / 1000 - millisOf now / 1000 := by
  obtain ⟨number, number', -, -⟩ := ordered.numbers
  have order := Nat.div_le_div_right (c := 1000) ordered.order
  rw [millisOf_seconds ordered.valid, millisOf_seconds ordered.valid'] at *
  rw [rtcSecondsInterval_eq ordered.year_le, secondsOf, secondsOf, number, number']
  unfold toU32
  omega

theorem Ordered.millis (ordered : Ordered now tag) :
    rtcMsInterval now tag = millisOf tag - millisOf now := by
  obtain ⟨-, -, days, small⟩ := ordered.numbers
  have order := ordered.order
  have short := msOfDay_lt ordered.valid
  have short' := msOfDay_lt ordered.valid'
  rw [rtcMsInterval, ordered.days]
  unfold millisOf msOfDay secondOfDay at *
  unfold toU64 dayMs at *
  split <;> omega

/-! ## The sum -/

/-- Cycles miss no leap day from 1970 to 2099. -/
theorem skips_same (n : Nat) (few : n ≤ 130) : skips (1970 + n) = skips 1970 := by
  induction n with
  | zero => rfl
  | succ n ih =>
    have none_ : ¬Skips (1970 + n) := by
      intro ⟨fourth, noleap⟩
      have small : 1970 + n < 65536 := by omega
      have leap : leapyear (1970 + n) = true := by
        rw [leapyear_iff small]
        unfold Gregorian.Leap
        omega
      exact Bool.false_ne_true (noleap.symm.trans leap)
    rw [← Nat.add_assoc, skips_succ, if_neg none_, Nat.add_zero]
    exact ih (Nat.le_of_succ_le few)

theorem skips_year {year : Nat} (from_ : 1970 ≤ year) (to_ : year ≤ 2099) :
    skips year = skips 1970 := by
  have same := skips_same (year - 1970) (by omega)
  rwa [Nat.add_sub_cancel' from_] at same

/-- In these years cycles find the day that is some days behind another one. -/
theorem CycleDay.eq_later {first day day' : Day} {days : Nat} (valid' : day'.Valid)
    (from_ : 1970 ≤ first.year) (years : first.year ≤ day'.year)
    (to_ : day'.year ≤ 2099) (number : day'.number = first.number + days)
    (cycle : CycleDay (first.count + days) day) : day = day' := by
  have plain := @plain_of_year day' (Nat.le_trans from_ years) to_
  have cycle' := Day.cycle valid' plain (Nat.lt_of_le_of_lt to_ (by decide))
  have count : day'.count = first.count + days := by
    rw [Day.count_eq, Day.count_eq, number, skips_year (Nat.le_trans from_ years) to_,
      skips_year from_ (Nat.le_trans years to_)]
    omega
  exact cycle.unique (count ▸ cycle')

/-- A duration's milliseconds. -/
def Duration.millis (d : Duration) (ms : Nat) : Nat := d.seconds * 1000 + ms

theorem packed_parts {d : Duration} (fits : d.Fits) {ms : Nat} (small : ms < 1000) :
    tagDays (d.packed ms) = d.days ∧
      secondOfDay (d.packed ms) = d.hours * 3600 + d.mins * 60 + d.secs ∧
      unpackMs (d.packed ms) = ms := by
  have fit : FieldsFit 0 0 d.days d.hours d.mins d.secs ms :=
    ⟨by decide, by decide, fits.days, fits.hours, fits.mins, fits.secs,
      Nat.lt_trans small (by decide)⟩
  refine ⟨?_, ?_, fit.unpackMs⟩
  · rw [tagDays, Duration.packed, fit.unpackYear, fit.unpackMonth, fit.unpackDay]
    exact rtcYeardaysToDays_days fits.days
  · rw [secondOfDay, Duration.packed, fit.unpackHour, fit.unpackMin, fit.unpackSec]

/-- The first date-time behind the years of exact sums. -/
def newCentury : Nat := rtcDatePackage 2100 1 1 0 0 0 0

theorem newCentury_valid : IsDateTime newCentury := by
  refine ⟨by decide, ⟨by decide, by decide⟩, ?_, ?_, ?_, ?_⟩
  · decide
  · decide
  · decide
  · decide

theorem millisOf_newCentury : millisOf newCentury = Gregorian.yearStart 2100 * dayMs := by
  have time : msOfDay newCentury = 0 := by decide
  have date : gregorian newCentury = ⟨2100, 1, 1⟩ := by decide
  have first : Gregorian.monthStart 2100 1 = 0 := rfl
  rw [millisOf, time, date, Gregorian.Date.number]
  dsimp only
  rw [first, Nat.sub_self, Nat.add_zero, Nat.add_zero]

/-- A day with a time of day in seconds. -/
theorem isDateTime_package {year month day hour min sec : Nat}
    (fit : FieldsFit year month day hour min sec 0)
    (valid : Gregorian.Date.Valid ⟨year, month, day⟩) (h : hour < 24) (m : min < 60)
    (s : sec < 60) :
    IsDateTime (rtcDatePackage year month day hour min sec 0) ∧
      millisOf (rtcDatePackage year month day hour min sec 0) =
        Gregorian.Date.number ⟨year, month, day⟩ * dayMs +
          (hour * 3600 + min * 60 + sec) * 1000 := by
  have date : gregorian (rtcDatePackage year month day hour min sec 0) = ⟨year, month, day⟩ := by
    rw [gregorian, fit.unpackYear, fit.unpackMonth, fit.unpackDay]
  constructor
  · refine ⟨fit.package_lt, date ▸ valid, ?_, ?_, ?_, ?_⟩
    · rwa [fit.unpackHour]
    · rwa [fit.unpackMin]
    · rwa [fit.unpackSec]
    · rw [fit.unpackMs]
      decide
  · rw [millisOf, date, msOfDay, secondOfDay, fit.unpackHour, fit.unpackMin, fit.unpackSec,
      fit.unpackMs, Nat.add_zero]

/-- Seconds behind a midnight, split into days and the rest. -/
theorem days_seconds (day days seconds : Nat) :
    (day + (days + seconds / 86400)) * dayMs + seconds % 86400 * 1000 =
      (day * 86400 + days * 86400 + seconds) * 1000 := by
  unfold dayMs
  omega

/-- `rtc_date_add` is exact from 1970 to 2099, up to the milliseconds it leaves out. -/
theorem rtcDateAdd_exact (valid : IsDateTime now) (from_ : 1970 ≤ unpackYear now) {d : Duration}
    (fits : d.Fits) {ms : Nat} (small : ms < 1000)
    (to_ : millisOf now + d.millis ms < millisOf newCentury) :
    IsDateTime (rtcDateAdd now (d.packed ms)) ∧
      millisOf (rtcDateAdd now (d.packed ms)) = wholeSeconds (millisOf now + d.millis ms) := by
  obtain ⟨days, seconds, millis⟩ := packed_parts fits small
  rw [millisOf_newCentury] at to_
  have short := msOfDay_lt valid
  have early : unpackYear now < 2100 := by
    apply (valid.day.year_lt_iff 2100).mpr
    unfold millisOf dayMs at to_
    omega
  have year : unpackYear now < 65536 := Nat.lt_trans early (by decide)
  have reading := valid.reading_date year
  -- the day of the sum, and its seconds from the midnight before `now` on
  have total : sumSeconds (valid.reading year) (d.packed ms) = secondOfDay now +
      (d.hours * 3600 + d.mins * 60 + d.secs) + (unpackMs now + ms) / 1000 := by
    rw [sumSeconds, reading, seconds, millis]
    rfl
  have sum : (millisOf now + d.millis ms) / 1000 = (gregorian now).number * 86400 +
      d.days * 86400 + sumSeconds (valid.reading year) (d.packed ms) := by
    rw [total]
    unfold millisOf msOfDay Duration.millis Duration.seconds dayMs
    omega
  obtain ⟨date, isDate, number⟩ := Gregorian.Date.exists_number ((gregorian now).number +
    (d.days + sumSeconds (valid.reading year) (d.packed ms) / 86400))
  have until_ : date.year < 2100 := by
    apply (isDate.year_lt_iff 2100).mpr
    unfold dayMs at to_
    omega
  have years : unpackYear now ≤ date.year := by
    by_contra before
    have last := (isDate.year_lt_iff (gregorian now).year).mp (Nat.lt_of_not_le before)
    have first := valid.day.number_year.1
    omega
  have small' : date.year < 65536 := Nat.lt_trans until_ (by decide)
  have isDay : Day.Valid ⟨date.year, date.month, date.day⟩ :=
    (@Day.date_valid_iff ⟨date.year, date.month, date.day⟩ small').mp isDate
  have today : (valid.reading year).today.number = (gregorian now).number + 1 :=
    Day.number_date year (valid.reading year).today_valid
  have later : Day.number ⟨date.year, date.month, date.day⟩ = (valid.reading year).today.number +
      (d.days + sumSeconds (valid.reading year) (d.packed ms) / 86400) := by
    rw [@Day.number_date ⟨date.year, date.month, date.day⟩ small' isDay, today]
    change date.number + 1 = _
    rw [number, Nat.add_right_comm]
  have counted : sumCount (valid.reading year) (d.packed ms) ≤ cycleStart (2 ^ 23) := by
    have count := (valid.reading year).count_lt
    have dayFits := fits.days
    have hour := valid.hour
    have min := valid.min
    have sec := valid.sec
    have hours := fits.hours
    have mins := fits.mins
    have secs := fits.secs
    have now_ : secondOfDay now = unpackHour now * 3600 + unpackMin now * 60 + unpackSec now := rfl
    have carry : (unpackMs now + ms) / 1000 ≤ 1 := by
      have := valid.ms
      omega
    rw [sumCount, days, cycleStart_packed, total]
    omega
  obtain ⟨day, hour, min, sec, cycle, fit, m, s, run, rest⟩ :=
    rtcDateAdd_parts (valid.reading year) counted
  rw [sumCount, days] at cycle
  obtain rfl := CycleDay.eq_later isDay from_ years (Nat.le_of_lt_succ until_) later cycle
  rw [reading] at run
  have hour_lt : hour < 24 := by
    have inDay := Nat.mod_lt (sumSeconds (valid.reading year) (d.packed ms))
      (show 0 < 86400 by decide)
    omega
  obtain ⟨dateTime, millis'⟩ := isDateTime_package fit isDate hour_lt m s
  rw [run]
  refine ⟨dateTime, millis'.trans ?_⟩
  change date.number * dayMs + _ = _
  rw [number, rest, wholeSeconds, sum]
  exact days_seconds _ _ _

/-- Sums are dates of the calendar, and differences are its differences. -/
theorem rtcDate_arithmetic (valid : IsDateTime now) :
    (1970 ≤ unpackYear now → ∀ d : Duration, d.Fits → ∀ ms < 1000,
        millisOf now + d.millis ms < millisOf newCentury →
        IsDateTime (rtcDateAdd now (d.packed ms)) ∧
          millisOf (rtcDateAdd now (d.packed ms)) = wholeSeconds (millisOf now + d.millis ms)) ∧
      ∀ tag, IsDateTime tag → millisOf now ≤ millisOf tag → unpackYear tag < 65536 →
        rtcDaysInterval (unpackYear now) (unpackMonth now) (unpackDay now) (unpackYear tag)
            (unpackMonth tag) (unpackDay tag) =
          (gregorian tag).number - (gregorian now).number ∧
        rtcMsInterval now tag = millisOf tag - millisOf now ∧
        (millisOf tag / 1000 - millisOf now / 1000 < 2 ^ 32 →
          rtcSecondsInterval now tag = millisOf tag / 1000 - millisOf now / 1000) := by
  constructor
  · intro from_ d fits ms small to_
    exact rtcDateAdd_exact valid from_ fits small to_
  · intro tag valid' order small
    have ordered : Ordered now tag := ⟨valid, valid', order, small⟩
    exact ⟨ordered.days, ordered.millis, ordered.seconds⟩

/-- The last second of a four-year cycle. -/
def cycleEnd : Nat := rtcDatePackage 2023 12 31 23 59 59 999

theorem cycleEnd_valid : IsDateTime cycleEnd := by
  refine ⟨by decide, ⟨by decide, by decide⟩, ?_, ?_, ?_, ?_⟩
  · decide
  · decide
  · decide
  · decide

/-- The next year begins a millisecond behind it. -/
theorem millisOf_cycleEnd : millisOf cycleEnd + 1 = Gregorian.yearStart 2024 * dayMs := by
  have time : msOfDay cycleEnd + 1 = dayMs := by decide
  have date : gregorian cycleEnd = Gregorian.Date.yearEnd 2023 := by decide
  have next := Gregorian.Date.yearEnd_number 2023
  simp only [Nat.reduceAdd] at next
  rw [millisOf, Nat.add_assoc, time, date, ← Nat.succ_mul, Nat.succ_eq_add_one, next]

theorem cycleEnd_early : millisOf cycleEnd + 1 < millisOf newCentury := by
  have years : Gregorian.yearStart 2024 < Gregorian.yearStart 2100 := by
    rw [Gregorian.yearStart_eq, Gregorian.yearStart_eq]
    decide
  rw [millisOf_cycleEnd, millisOf_newCentury]
  exact Nat.mul_lt_mul_of_pos_right years (by decide)

theorem rtcDate_arithmetic_cycleEnd :
    IsDateTime cycleEnd ∧ 1970 ≤ unpackYear cycleEnd ∧
      millisOf (rtcDateAdd cycleEnd (Duration.packed ⟨0, 0, 0, 0⟩ 1)) =
        wholeSeconds (millisOf cycleEnd + 1) ∧
      rtcMsInterval cycleEnd newCentury = millisOf newCentury - millisOf cycleEnd := by
  have exact_ := rtcDate_arithmetic cycleEnd_valid
  have fits : Duration.Fits ⟨0, 0, 0, 0⟩ := ⟨by decide, by decide, by decide, by decide⟩
  have moment : Duration.millis ⟨0, 0, 0, 0⟩ 1 = 1 := rfl
  have sum := exact_.1 (by decide) ⟨0, 0, 0, 0⟩ fits 1 (by decide) (moment.symm ▸ cycleEnd_early)
  rw [moment] at sum
  have order : millisOf cycleEnd ≤ millisOf newCentury := by
    have early := cycleEnd_early
    omega
  have difference := exact_.2 newCentury newCentury_valid order (by decide)
  exact ⟨cycleEnd_valid, by decide, sum.2, difference.2.1⟩

end DateTimes

end Rtc

end Tr6260
