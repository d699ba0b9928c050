import Mathlib.Tactic.IntervalCases
import Tr6260.Gregorian
import Tr6260.Sntp.Time

/-!
# What the clock is set to

`set_local_time` against the calendar. Years, months and days are taken off as the calendar has
them, but for the 31st of December of a leap year: there the seconds left are not below
`SEC_NUM_YEAR`, a leap year is taken off that they do not fill, and the loop goes on for the 136
years that 2^32 seconds make up. The day of the week is cut to 8 bits before it is reduced.
`get_local_time` is right in all cases.
-/

namespace Tr6260

open CString Gregorian

namespace Sntp

/-- The day 1970-01-01. -/
def epoch : Nat := yearStart 1970

theorem epoch_eq : epoch = 719528 := yearStart_eq 1970

/-- The last day of a leap year. -/
def LeapYearEnd (date : Date) : Prop := Leap date.year ∧ date.month = 12 ∧ date.day = 31

theorem LeapYearEnd.eq {date : Date} (end_ : LeapYearEnd date) : date = Date.yearEnd date.year := by
  rcases end_ with ⟨-, month, day⟩
  cases date
  cases month
  cases day
  rfl

/-! ## Years -/

theorem isLeapYear_iff (year : Nat) : isLeapYear year = true ↔ Leap year := by
  unfold isLeapYear Leap
  rw [decide_eq_true_iff]
  exact Or.comm

/-- No year is taken for the one before a leap year. -/
theorem isLeapYearAfter_eq (year : Nat) : isLeapYearAfter year = false := by
  unfold isLeapYearAfter
  rw [decide_eq_false_iff_not]
  omega

theorem secNumYear_eq : secNumYear = 86400 * 365 := rfl

theorem secNumLeapYear_eq : secNumLeapYear = 86400 * 366 := rfl

section Years

variable {fuel year rest : Nat}

/-- One year, with its length by the calendar. -/
theorem yearLoop_eq (fuel year rest : Nat) : yearLoop (fuel + 1) year rest =
    if rest < secNumYear then some (year, rest)
    else yearLoop fuel ((year + 1) % 2 ^ 16) (toU32 ((rest : Int) - 86400 * yearLength year)) := by
  have never : ¬ (isLeapYearAfter year = true ∧ rest < secNumLeapYear) := by
    rw [isLeapYearAfter_eq]
    exact fun both => Bool.false_ne_true both.1
  rw [yearLoop, if_neg never]
  unfold yearLength
  by_cases leap : Leap year
  · rw [if_pos leap, if_pos ((isLeapYear_iff year).mpr leap)]
    rfl
  · rw [if_neg leap, if_neg fun is => leap ((isLeapYear_iff year).mp is)]
    rfl

theorem yearLoop_stop (less : rest < secNumYear) :
    yearLoop (fuel + 1) year rest = some (year, rest) := by
  rw [yearLoop_eq, if_pos less]

theorem yearLoop_step (more : 86400 * yearLength year ≤ rest) (small : rest < 2 ^ 32)
    (fits : year + 1 < 2 ^ 16) :
    yearLoop (fuel + 1) year rest =
      yearLoop fuel (year + 1) (rest - 86400 * yearLength year) := by
  have length := yearLength_bounds year
  have taken : toU32 ((rest : Int) - 86400 * yearLength year) =
      rest - 86400 * yearLength year := by
    unfold toU32
    omega
  rw [yearLoop_eq, if_neg (by rw [secNumYear_eq]; omega), Nat.mod_eq_of_lt fits, taken]

/-- The last day of a leap year: a leap year is taken off that is not over. -/
theorem yearLoop_wraps (leap : Leap year) (last : secNumYear ≤ rest) (less : rest < secNumLeapYear)
    (fits : year + 1 < 2 ^ 16) :
    yearLoop (fuel + 1) year rest = yearLoop fuel (year + 1) (rest + 2 ^ 32 - secNumLeapYear) := by
  have taken : toU32 ((rest : Int) - 86400 * yearLength year) =
      rest + 2 ^ 32 - secNumLeapYear := by
    rw [secNumYear_eq] at last
    rw [secNumLeapYear_eq] at less ⊢
    rw [yearLength, if_pos leap]
    unfold toU32
    omega
  rw [yearLoop_eq, if_neg (Nat.not_lt.mpr last), Nat.mod_eq_of_lt fits, taken]

/-- Whole years are taken off one by one. -/
theorem yearLoop_skip (k : Nat)
    (more : 86400 * yearStart (year + k) ≤ 86400 * yearStart year + rest) (small : rest < 2 ^ 32)
    (fits : year + k < 2 ^ 16) :
    yearLoop (k + fuel) year rest =
      yearLoop fuel (year + k) (86400 * yearStart year + rest - 86400 * yearStart (year + k)) := by
  induction k generalizing year rest with
  | zero => rw [Nat.zero_add, Nat.add_zero, Nat.add_sub_cancel_left]
  | succ k ih =>
    have next : yearStart (year + 1) = yearStart year + yearLength year := rfl
    have swap : year + (k + 1) = year + 1 + k := by omega
    rw [swap] at more fits ⊢
    have later := yearStart_le (Nat.le_add_right (year + 1) k)
    rw [Nat.add_right_comm, yearLoop_step (by omega) small (by omega)]
    rw [ih (by omega) (by omega) fits]
    congr 1
    omega

/-- More fuel changes nothing. -/
theorem yearLoop_mono {a : Nat × Nat} (found : yearLoop fuel year rest = some a) (more : Nat) :
    yearLoop (fuel + more) year rest = some a := by
  induction fuel generalizing year rest with
  | zero => cases found
  | succ fuel ih =>
    rw [Nat.add_right_comm, yearLoop_eq]
    rw [yearLoop_eq] at found
    split at found
    case isTrue less =>
      rw [if_pos less]
      exact found
    case isFalse more' =>
      rw [if_neg more']
      exact ih found

/-- The year of a day that is not the last of a leap year. -/
theorem yearLoop_date {date : Date} (valid : date.Valid) (usual : ¬ LeapYearEnd date)
    (later : year ≤ date.year) (fits : date.year < 2 ^ 16) (small : rest < 2 ^ 32)
    (day : (86400 * yearStart year + rest) / 86400 = date.number) :
    ∃ fuel, yearLoop fuel year rest = some (date.year,
      86400 * (date.number - yearStart date.year) + rest % 86400) := by
  have inside := valid.number_year
  have short : date.number < yearStart date.year + 365 := by
    rcases Nat.lt_or_ge date.number (yearStart date.year + 365) with less | last
    · exact less
    exfalso
    have length := (yearLength_bounds date.year).2
    rw [yearStart] at inside
    have whole : date.number = yearStart date.year + 365 := by omega
    have leap : Leap date.year := by
      by_contra plain
      rw [yearLength, if_neg plain] at inside
      omega
    have same : date = Date.yearEnd date.year := by
      refine valid.number_inj (Date.yearEnd_valid _) ?_
      have last := Date.yearEnd_number date.year
      rw [yearStart, yearLength, if_pos leap] at last
      omega
    refine usual ⟨leap, ?_, ?_⟩
    · rw [same]
      rfl
    · rw [same]
      rfl
  rcases Nat.exists_eq_add_of_le later with ⟨k, year'⟩
  refine ⟨k + 1, ?_⟩
  have more : 86400 * yearStart (year + k) ≤ 86400 * yearStart year + rest := by
    rw [← year']
    omega
  rw [yearLoop_skip k more small (by omega), ← year', yearLoop_stop]
  · congr 2
    omega
  · rw [secNumYear_eq]
    omega

end Years

/-! ## Months and days -/

theorem dayNum_eq (year : Nat) {mon : Nat} (low : 1 ≤ mon) (high : mon ≤ 12) :
    dayNum year mon = monthLength year mon := by
  unfold dayNum monthLength
  by_cases leap : Leap year
  · have is := (isLeapYear_iff year).mpr leap
    interval_cases mon <;> simp [monthDays, leap, is]
  · have is : isLeapYear year = false :=
      eq_false_of_ne_true fun is => leap ((isLeapYear_iff year).mp is)
    interval_cases mon <;> simp [monthDays, leap, is]

theorem monthSec_eq (year : Nat) {mon : Nat} (low : 1 ≤ mon) (high : mon ≤ 12) :
    monthSec year mon = 86400 * monthLength year mon := by
  rw [← dayNum_eq year low high]
  unfold monthSec dayNum secNumDay
  split <;> omega

/-- The month of a second of the year. -/
theorem monthLoop_found {year month rest : Nat} (low : 1 ≤ month) (high : month ≤ 12)
    (from_ : 86400 * monthStart year month ≤ rest)
    (below : rest < 86400 * monthStart year (month + 1)) {left : Nat} (some_ : left ≤ 12)
    (ahead : 13 ≤ month + left) :
    monthLoop year left (rest - 86400 * monthStart year (13 - left)) =
      (month, rest - 86400 * monthStart year month) := by
  induction left with
  | zero => omega
  | succ left ih =>
    have this_ : 13 - (left + 1) = 12 - left := by omega
    have first : 1 ≤ 12 - left := by omega
    have sec := monthSec_eq year first (Nat.sub_le 12 left)
    have next := monthStart_succ year first
    rw [this_, monthLoop, sec]
    by_cases here : month = 12 - left
    · rw [here] at from_ below ⊢
      rw [if_pos (by omega)]
    · have later := monthStart_le year (show 12 - left + 1 ≤ month by omega)
      rw [if_neg (by omega), ← ih (by omega) (by omega)]
      congr 1
      have : 13 - left = 12 - left + 1 := by omega
      rw [this]
      omega

/-- The day of a second of the month. -/
theorem dayLoop_found {left rest : Nat} (below : rest < 86400 * left) (mday : Nat) :
    dayLoop left mday rest = (mday + rest / 86400, rest % 86400) := by
  induction left generalizing mday rest with
  | zero => omega
  | succ left ih =>
    have day : secNumDay = 86400 := rfl
    rw [dayLoop, day]
    split
    case isTrue less =>
      have zero : rest / 86400 = 0 := by omega
      have whole : rest % 86400 = rest := by omega
      rw [zero, whole, Nat.add_zero]
    case isFalse more =>
      have days : mday + 1 + (rest - 86400) / 86400 = mday + rest / 86400 := by omega
      have same : (rest - 86400) % 86400 = rest % 86400 := by omega
      exact (ih (by omega) (mday + 1)).trans (by rw [days, same])

/-! ## The clock -/

/-- What shows a second of a date, with a day of the week. -/
def Tm.showing (date : Date) (sec : Nat) (wday : UInt8) : Tm where
  sec := UInt8.ofNat (sec % 3600 % 60)
  min := UInt8.ofNat (sec % 3600 / 60)
  hour := UInt8.ofNat (sec / 3600)
  mday := UInt8.ofNat date.day
  mon := UInt8.ofNat date.month
  year := UInt16.ofNat date.year
  wday

/-- The day of the week in 8 bits. -/
def shownWeekday (t : Nat) : UInt8 := UInt8.ofNat (4 + t / secNumDay) % 7

section Clock

variable {date : Date} {fuel t sec : Nat}

/-- The rest of `set_local_time` behind the loop over the years. -/
theorem setLocalTime_found (valid : date.Valid) (below : sec < 86400)
    (found : yearLoop fuel 1970 t = some (date.year,
      86400 * (date.number - yearStart date.year) + sec)) :
    setLocalTime fuel t = some (Tm.showing date sec (shownWeekday t)) := by
  have month := valid.month
  have day := valid.day
  have next := monthStart_succ date.year month.1
  have number : date.number - yearStart date.year =
      monthStart date.year date.month + (date.day - 1) := by
    unfold Date.number
    omega
  have months : monthLoop date.year 12 (86400 * (date.number - yearStart date.year) + sec) =
      (date.month, 86400 * (date.day - 1) + sec) := by
    have found : monthLoop date.year 12 (86400 * (date.number - yearStart date.year) + sec -
        86400 * monthStart date.year (13 - 12)) = (date.month,
          86400 * (date.number - yearStart date.year) + sec -
            86400 * monthStart date.year date.month) :=
      monthLoop_found month.1 month.2 (by omega) (by omega) (Nat.le_refl 12) (by omega)
    have first : monthStart date.year (13 - 12) = 0 := rfl
    rw [first, Nat.mul_zero, Nat.sub_zero] at found
    rw [found, number]
    congr 1
    omega
  have days : dayLoop (dayNum date.year date.month) 1 (86400 * (date.day - 1) + sec) =
      (date.day, sec) := by
    rw [dayNum_eq _ month.1 month.2, dayLoop_found (by omega)]
    congr 1 <;> omega
  unfold setLocalTime
  rw [found]
  dsimp only [Option.bind_eq_bind, Option.bind_some]
  rw [months]
  dsimp only
  rw [days]
  rfl

/-- The counter holds a time of day. -/
theorem rtcGetSystemTime_set {tm : Tm} (hour : tm.hour.toNat < 32) (min : tm.min.toNat < 64)
    (sec : tm.sec.toNat < 64) : rtcGetSystemTime (rtcSetTime tm) = tm := by
  have low : tm.min.toNat <<< 6 ||| tm.sec.toNat = tm.min.toNat * 2 ^ 6 + tm.sec.toNat := by
    rw [← Nat.shiftLeft_add_eq_or_of_lt (show tm.sec.toNat < 2 ^ 6 from sec), Nat.shiftLeft_eq]
  have cnt : (rtcSetTime tm).cnt =
      tm.hour.toNat * 2 ^ 12 + (tm.min.toNat * 2 ^ 6 + tm.sec.toNat) := by
    have small : tm.min.toNat * 2 ^ 6 + tm.sec.toNat < 2 ^ 12 := by omega
    change tm.hour.toNat <<< 12 ||| tm.min.toNat <<< 6 ||| tm.sec.toNat = _
    rw [Nat.or_assoc, low, ← Nat.shiftLeft_add_eq_or_of_lt small, Nat.shiftLeft_eq]
  have secs : (rtcSetTime tm).cnt &&& 0x3F = tm.sec.toNat := by
    rw [cnt, Nat.and_two_pow_sub_one_eq_mod _ 6]
    omega
  have mins : (rtcSetTime tm).cnt >>> 6 &&& 0x3F = tm.min.toNat := by
    rw [cnt, Nat.and_two_pow_sub_one_eq_mod _ 6, Nat.shiftRight_eq_div_pow]
    omega
  have hours : (rtcSetTime tm).cnt >>> 12 &&& 0x1F = tm.hour.toNat := by
    rw [cnt, Nat.and_two_pow_sub_one_eq_mod _ 5, Nat.shiftRight_eq_div_pow]
    omega
  unfold rtcGetSystemTime
  rw [secs, mins, hours, UInt8.ofNat_toNat, UInt8.ofNat_toNat, UInt8.ofNat_toNat]
  rfl

/-- The years of `get_local_time`. -/
theorem years_sum (k : Nat) :
    ((List.range' 1970 k).map fun num =>
        if isLeapYear num then secNumLeapYear else secNumYear).sum =
      86400 * (yearStart (1970 + k) - epoch) := by
  induction k with
  | zero => rw [Nat.add_zero, epoch, Nat.sub_self]; rfl
  | succ k ih =>
    have length : (if isLeapYear (1970 + k) then secNumLeapYear else secNumYear) =
        86400 * yearLength (1970 + k) := by
      unfold yearLength
      by_cases leap : Leap (1970 + k)
      · rw [if_pos leap, if_pos ((isLeapYear_iff _).mpr leap), secNumLeapYear_eq]
      · rw [if_neg leap, if_neg fun is => leap ((isLeapYear_iff _).mp is), secNumYear_eq]
    have later : epoch ≤ yearStart (1970 + k) := yearStart_le (Nat.le_add_right 1970 k)
    rw [List.range'_1_concat, List.map_append, List.sum_append, ih, List.map_singleton,
      List.sum_singleton, length, ← Nat.add_assoc, yearStart]
    omega

/-- The months of `get_local_time`. -/
theorem months_sum (year : Nat) {k : Nat} (small : k ≤ 12) :
    ((List.range' 1 k).map fun num => monthDays num * secNumDay).sum +
      (if isLeapYear year ∧ 2 < k + 1 then secNumDay else 0) = 86400 * monthStart year (k + 1) := by
  induction k with
  | zero =>
    rw [if_neg fun both => absurd both.2 (by decide)]
    rfl
  | succ k ih =>
    have before := ih (by omega)
    have sec := monthSec_eq year (Nat.le_add_left 1 k) small
    have next := monthStart_succ year (Nat.le_add_left 1 k)
    unfold monthSec at sec
    rw [List.range'_1_concat, List.map_append, List.sum_append, List.map_singleton,
      List.sum_singleton, next, Nat.add_comm 1 k]
    by_cases leap : isLeapYear year = true
    · simp only [leap, true_and, and_true] at before sec ⊢
      split at before <;> split at sec <;> split <;> omega
    · rw [if_neg fun both => leap both.1] at before ⊢
      rw [if_neg fun both => leap both.2] at sec
      omega

theorem Tm.showing_date (valid : date.Valid) (fits : date.year < 2 ^ 16) (sec : Nat)
    (wday : UInt8) :
    (Tm.showing date sec wday).year.toNat = date.year ∧
      (Tm.showing date sec wday).mon.toNat = date.month ∧
      (Tm.showing date sec wday).mday.toNat = date.day := by
  have month := valid.month
  have day := valid.day
  have long := (monthLength_bounds date.year date.month).2
  unfold Tm.showing
  dsimp only
  rw [UInt16.toNat_ofNat', UInt8.toNat_ofNat', UInt8.toNat_ofNat']
  exact ⟨Nat.mod_eq_of_lt fits, Nat.mod_eq_of_lt (by omega), Nat.mod_eq_of_lt (by omega)⟩

theorem Tm.showing_time (date : Date) (below : sec < 86400) (wday : UInt8) :
    (Tm.showing date sec wday).hour.toNat = sec / 3600 ∧
      (Tm.showing date sec wday).min.toNat = sec % 3600 / 60 ∧
      (Tm.showing date sec wday).sec.toNat = sec % 3600 % 60 := by
  unfold Tm.showing
  dsimp only
  rw [UInt8.toNat_ofNat', UInt8.toNat_ofNat', UInt8.toNat_ofNat']
  omega

/-- What is shown is read as the seconds from 1970 on. -/
theorem getLocalTime_showing (valid : date.Valid) (from_ : 1970 ≤ date.year)
    (fits : date.year < 2 ^ 16) (below : sec < 86400) (wday : UInt8) :
    getLocalTime (rtcSetTime (Tm.showing date sec wday)) =
      (86400 * (date.number - epoch) + sec) % 2 ^ 32 := by
  rcases Tm.showing_date valid fits sec wday with ⟨year, month, day⟩
  rcases Tm.showing_time date below wday with ⟨hour, min, sec'⟩
  have low := valid.month
  have first := valid.day
  have years := years_sum (date.year - 1970)
  have months := months_sum date.year (show date.month - 1 ≤ 12 by omega)
  have later : epoch ≤ yearStart date.year := yearStart_le from_
  have last : 1970 + (date.year - 1970) = date.year := by omega
  have last' : date.month - 1 + 1 = date.month := by omega
  have march : (Tm.showing date sec wday).mon > 2 ↔ 2 < date.month := by
    rw [GT.gt, UInt8.lt_iff_toNat_lt, month]
    rfl
  have leap : (if isLeapYear date.year ∧ (Tm.showing date sec wday).mon > 2 then secNumDay else 0) =
      if isLeapYear date.year ∧ 2 < date.month then secNumDay else 0 := by
    simp only [march]
  have dayLength : secNumDay = 86400 := rfl
  rw [last] at years
  rw [last'] at months
  unfold getLocalTime
  dsimp only
  rw [rtcGetSystemTime_set (by omega) (by omega) (by omega), year, month, day, hour, min, sec',
    years, leap]
  rw [dayLength] at months ⊢
  unfold toU32 Date.number
  omega

theorem setLocalTime_mono {tm : Tm} (set : setLocalTime fuel t = some tm) (more : Nat) :
    setLocalTime (fuel + more) t = some tm := by
  unfold setLocalTime at set ⊢
  cases found : yearLoop fuel 1970 t with
  | none =>
    rw [found] at set
    cases set
  | some years =>
    rw [found] at set
    rw [yearLoop_mono found more]
    exact set

/-- What is set does not depend on the fuel. -/
theorem setLocalTime_agree {fuel' : Nat} {tm tm' : Tm} (set : setLocalTime fuel t = some tm)
    (set' : setLocalTime fuel' t = some tm') : tm = tm' := by
  have first := setLocalTime_mono set fuel'
  have second := setLocalTime_mono set' fuel
  rw [Nat.add_comm, second] at first
  exact (Option.some.inj first).symm

end Clock

/-! ## All times -/

section All

variable {t : Nat} {date : Date}

/-- The years that 31 bits of seconds reach. -/
theorem year_bounds (small : t < 2 ^ 31) (valid : date.Valid)
    (day : date.number = epoch + t / 86400) : 1970 ≤ date.year ∧ date.year ≤ 2038 := by
  have inside := valid.number_year
  constructor
  · by_contra early
    have before : yearStart (date.year + 1) ≤ epoch := yearStart_le (by omega)
    omega
  · by_contra late
    have after := yearStart_le (show 2039 ≤ date.year by omega)
    rw [yearStart_eq 2039] at after
    rw [epoch_eq] at day
    omega

theorem setLocalTime_usual (small : t < 2 ^ 31) (valid : date.Valid)
    (day : date.number = epoch + t / 86400) (usual : ¬ LeapYearEnd date) :
    ∃ fuel, setLocalTime fuel t = some (Tm.showing date (t % 86400) (shownWeekday t)) := by
  rcases year_bounds small valid day with ⟨from_, to_⟩
  have whole : (86400 * yearStart 1970 + t) / 86400 = date.number := by
    rw [day, epoch]
    omega
  rcases yearLoop_date valid usual from_ (by omega) (by omega) whole with ⟨fuel, found⟩
  exact ⟨fuel, setLocalTime_found valid (Nat.mod_lt _ (by decide)) found⟩

/-- The 136 years behind a leap year, of which 2100 is none. -/
theorem yearStart_wrap {year : Nat} (leap : Leap year) (from_ : 1970 ≤ year) (to_ : year ≤ 2038) :
    yearStart (year + 137) = yearStart (year + 1) + 49673 ∧ yearLength (year + 137) = 365 := by
  have fourth : year % 4 = 0 := by
    unfold Leap at leap
    omega
  constructor
  · rw [yearStart_eq, yearStart_eq]
    omega
  · rw [yearLength, if_neg]
    unfold Leap
    omega

/-- The day that 2^32 seconds lead to from the last of a leap year is another one, of a later
year. -/
theorem wrapped_year {date' : Date} (small : t < 2 ^ 31) (valid : date.Valid)
    (day : date.number = epoch + t / 86400) (end_ : LeapYearEnd date) (valid' : date'.Valid)
    (day' : date'.number = epoch + (t + 2 ^ 32) / 86400) :
    date'.year = date.year + 137 ∧ ¬ LeapYearEnd date' := by
  rcases year_bounds small valid day with ⟨from_, to_⟩
  rcases yearStart_wrap end_.1 from_ to_ with ⟨wrap, length⟩
  have number := Date.yearEnd_number date.year
  rw [← end_.eq] at number
  have inside := valid'.number_year
  -- the day is the 37th or 38th of its year
  have days : t / 86400 + 49710 ≤ (t + 2 ^ 32) / 86400 ∧
      (t + 2 ^ 32) / 86400 ≤ t / 86400 + 49711 := by
    omega
  have after : yearStart (date.year + 137) + 36 ≤ date'.number := by omega
  have before : date'.number ≤ yearStart (date.year + 137) + 37 := by omega
  have year : date'.year = date.year + 137 := by
    have next : yearStart (date.year + 137 + 1) = yearStart (date.year + 137) + 365 := by
      rw [yearStart, length]
    rcases Nat.lt_trichotomy date'.year (date.year + 137) with early | same | late
    · have := yearStart_le (Nat.succ_le_of_lt early)
      rw [Nat.succ_eq_add_one] at this
      omega
    · exact same
    · have := yearStart_le (Nat.succ_le_of_lt late)
      rw [Nat.succ_eq_add_one] at this
      omega
  refine ⟨year, fun again => ?_⟩
  have number' := Date.yearEnd_number date'.year
  rw [← again.eq, year, yearStart, length] at number'
  omega

theorem setLocalTime_leapYearEnd (small : t < 2 ^ 31) (valid : date.Valid)
    (day : date.number = epoch + t / 86400) (end_ : LeapYearEnd date) {date' : Date}
    (valid' : date'.Valid) (day' : date'.number = epoch + (t + 2 ^ 32) / 86400) :
    ∃ fuel, setLocalTime fuel t =
      some (Tm.showing date' ((t + 2 ^ 32) % 86400) (shownWeekday t)) := by
  rcases year_bounds small valid day with ⟨from_, to_⟩
  rcases wrapped_year small valid day end_ valid' day' with ⟨year', usual⟩
  have leap := end_.1
  have number : date.number = yearStart date.year + 365 := by
    have last := Date.yearEnd_number date.year
    rw [← end_.eq, yearStart, yearLength, if_pos leap] at last
    omega
  have next : yearStart (date.year + 1) = yearStart date.year + 366 := by
    rw [yearStart, yearLength, if_pos leap]
  rcases Nat.exists_eq_add_of_le from_ with ⟨k, year⟩
  have epoch' : yearStart 1970 = epoch := rfl
  -- the seconds left on the last day, and behind the year that is taken off
  have left : 86400 * yearStart 1970 + t - 86400 * yearStart (1970 + k) =
      86400 * 365 + t % 86400 := by
    rw [← year, epoch']
    omega
  have whole : (86400 * yearStart (date.year + 1) + (86400 * 365 + t % 86400 + 2 ^ 32 -
      secNumLeapYear)) / 86400 = date'.number := by
    rw [secNumLeapYear_eq]
    omega
  have rest : (86400 * 365 + t % 86400 + 2 ^ 32 - secNumLeapYear) % 86400 =
      (t + 2 ^ 32) % 86400 := by
    rw [secNumLeapYear_eq]
    omega
  rcases yearLoop_date valid' usual (show date.year + 1 ≤ date'.year by omega) (by omega)
    (by rw [secNumLeapYear_eq]; omega) whole with ⟨fuel, found⟩
  refine ⟨k + (fuel + 1), setLocalTime_found valid' (Nat.mod_lt _ (by decide)) ?_⟩
  rw [yearLoop_skip k (by rw [← year, epoch']; omega) (by omega) (by omega), left, ← year,
    yearLoop_wraps leap (by rw [secNumYear_eq]; omega) (by rw [secNumLeapYear_eq]; omega)
      (by omega), found, rest]

end All

/-! ## The conversion -/

/-- The date of the fields. -/
def Tm.date (tm : Tm) : Date := ⟨tm.year.toNat, tm.mon.toNat, tm.mday.toNat⟩

/-- The fields show the second `t` from 1970 on, with Sunday as the day 0 of the week, and are read
back as it. -/
structure Right (t : Nat) (tm : Tm) : Prop where
  date : tm.date.Valid
  day : tm.date.number = epoch + t / 86400
  fields : tm.hour.toNat < 24 ∧ tm.min.toNat < 60 ∧ tm.sec.toNat < 60
  time : tm.hour.toNat * 3600 + tm.min.toNat * 60 + tm.sec.toNat = t % 86400
  wday : tm.wday.toNat = (weekday tm.date.number + 1) % 7
  back : getLocalTime (rtcSetTime tm) = t

section Conversion

variable {t : Nat} {date : Date}

/-- The day of the week is right in the weeks where the cut takes off whole weeks. -/
theorem shownWeekday_iff (t : Nat) :
    (shownWeekday t).toNat = (weekday (epoch + t / 86400) + 1) % 7 ↔ 7 ∣ (4 + t / 86400) / 256 := by
  have shown : (shownWeekday t).toNat = (4 + t / 86400) % 256 % 7 := by
    unfold shownWeekday secNumDay
    rw [UInt8.toNat_mod, UInt8.toNat_ofNat']
    rfl
  rw [shown, epoch_eq, weekday]
  omega

theorem Tm.date_showing {sec : Nat} (valid : date.Valid) (fits : date.year < 2 ^ 16)
    (wday : UInt8) : (Tm.showing date sec wday).date = date := by
  rcases Tm.showing_date valid fits sec wday with ⟨year, month, day⟩
  unfold Tm.date
  rw [year, month, day]

theorem getLocalTime_usual (small : t < 2 ^ 31) (valid : date.Valid)
    (day : date.number = epoch + t / 86400) (wday : UInt8) :
    getLocalTime (rtcSetTime (Tm.showing date (t % 86400) wday)) = t := by
  rcases year_bounds small valid day with ⟨from_, to_⟩
  rw [getLocalTime_showing valid from_ (by omega) (Nat.mod_lt _ (by decide)), day]
  omega

theorem getLocalTime_leapYearEnd (small : t < 2 ^ 31) (valid : date.Valid)
    (day : date.number = epoch + t / 86400) (end_ : LeapYearEnd date) {date' : Date}
    (valid' : date'.Valid) (day' : date'.number = epoch + (t + 2 ^ 32) / 86400) (wday : UInt8) :
    getLocalTime (rtcSetTime (Tm.showing date' ((t + 2 ^ 32) % 86400) wday)) = t := by
  rcases year_bounds small valid day with ⟨from_, to_⟩
  have year := (wrapped_year small valid day end_ valid' day').1
  rw [getLocalTime_showing valid' (by omega) (by omega) (Nat.mod_lt _ (by decide)), day']
  omega

/-- Every time is set, and read back. -/
theorem setLocalTime_back (small : t < 2 ^ 31) :
    ∃ fuel tm, setLocalTime fuel t = some tm ∧ getLocalTime (rtcSetTime tm) = t := by
  rcases Date.exists_number (epoch + t / 86400) with ⟨date, valid, day⟩
  by_cases end_ : LeapYearEnd date
  · rcases Date.exists_number (epoch + (t + 2 ^ 32) / 86400) with ⟨date', valid', day'⟩
    rcases setLocalTime_leapYearEnd small valid day end_ valid' day' with ⟨fuel, set⟩
    exact ⟨fuel, _, set, getLocalTime_leapYearEnd small valid day end_ valid' day' _⟩
  · rcases setLocalTime_usual small valid day end_ with ⟨fuel, set⟩
    exact ⟨fuel, _, set, getLocalTime_usual small valid day _⟩

theorem setLocalTime_right_iff (small : t < 2 ^ 31) :
    (∃ fuel tm, setLocalTime fuel t = some tm ∧ Right t tm) ↔
      7 ∣ (4 + t / 86400) / 256 ∧
        ∀ date : Date, date.Valid → date.number = epoch + t / 86400 → ¬ LeapYearEnd date := by
  constructor
  · rintro ⟨fuel, tm, set, right⟩
    have usual : ∀ date : Date, date.Valid → date.number = epoch + t / 86400 →
        ¬ LeapYearEnd date := by
      intro date valid day end_
      rcases Date.exists_number (epoch + (t + 2 ^ 32) / 86400) with ⟨date', valid', day'⟩
      rcases setLocalTime_leapYearEnd small valid day end_ valid' day' with ⟨fuel', set'⟩
      have year := (wrapped_year small valid day end_ valid' day').1
      have bounds := year_bounds small valid day
      have shown := right.day
      rw [setLocalTime_agree set set', Tm.date_showing valid' (by omega), day'] at shown
      omega
    refine ⟨?_, usual⟩
    rcases Date.exists_number (epoch + t / 86400) with ⟨date, valid, day⟩
    rcases setLocalTime_usual small valid day (usual date valid day) with ⟨fuel', set'⟩
    have week := right.wday
    rw [right.day, setLocalTime_agree set set'] at week
    exact (shownWeekday_iff t).mp week
  · rintro ⟨week, usual⟩
    rcases Date.exists_number (epoch + t / 86400) with ⟨date, valid, day⟩
    rcases year_bounds small valid day with ⟨from_, to_⟩
    rcases setLocalTime_usual small valid day (usual date valid day) with ⟨fuel, set⟩
    have same : (Tm.showing date (t % 86400) (shownWeekday t)).date = date :=
      Tm.date_showing valid (by omega) _
    rcases Tm.showing_time date (Nat.mod_lt t (show 0 < 86400 by decide))
      (shownWeekday t) with ⟨hour, min, sec⟩
    refine ⟨fuel, _, set, ?_, ?_, ?_, ?_, ?_, getLocalTime_usual small valid day _⟩
    · rw [same]
      exact valid
    · rw [same]
      exact day
    · rw [hour, min, sec]
      omega
    · rw [hour, min, sec]
      omega
    · rw [same, day]
      exact (shownWeekday_iff t).mpr week

end Conversion

/-! ## The time zone -/

section Zone

variable {u : Nat} {z z' : Int} {clock : RtcClock}

/-- The zone is in range and the local time has 31 bits. -/
structure ZoneFits (u : Nat) (z : Int) : Prop where
  zone : -13 ≤ z ∧ z ≤ 13
  sum : 0 ≤ u + 3600 * z ∧ u + 3600 * z < 2 ^ 31

/-- `set_system_time` and then `set_timezone` end, and leave this local time. -/
def Leaves (clock : RtcClock) (z z' : Int) (u : Nat) (local_ : Int) : Prop :=
  ∃ fuel r r' s s', setSystemTime fuel ⟨clock, z⟩ u = some (r, s) ∧
    setTimezone fuel s z' = some (r', s') ∧ getLocalTime s'.clock = local_

theorem setSystemTime_fits (fits : ZoneFits u z) (fuel : Nat) : setSystemTime fuel ⟨clock, z⟩ u =
    (setLocalTime fuel (u + 3600 * z).toNat).bind fun tblock =>
      some (0, ⟨rtcSetTime tblock, z⟩) := by
  have sum := fits.sum
  have local_ : toU32 (u + z * 3600) = (u + 3600 * z).toNat := by
    unfold toU32
    omega
  unfold setSystemTime
  dsimp only
  rw [local_, if_neg (by omega)]
  rfl

/-- The sum that `set_timezone` checks is not the time it goes on with. -/
theorem setTimezone_fits (fits : ZoneFits u z) (fits' : ZoneFits u z') (fuel : Nat)
    (local_ : (getLocalTime clock : Int) = u + 3600 * z) : setTimezone fuel ⟨clock, z⟩ z' =
      if 0 ≤ u + 7200 * z ∧ u + 7200 * z < 2 ^ 31 then
        (setLocalTime fuel (u + 3600 * z').toNat).bind fun tblock =>
          some (0, ⟨rtcSetTime tblock, z'⟩)
      else some (-1, ⟨clock, z⟩) := by
  have zone := fits.zone
  have zone' := fits'.zone
  have sum := fits.sum
  have sum' := fits'.sum
  have taken : (getLocalTime clock : Int) - z * 3600 = u := by omega
  have wraps : ((toU32 u : Int) + z' * 3600) % 2 ^ 32 = (u + z' * 3600) % 2 ^ 32 := by
    unfold toU32
    omega
  have back : toU32 ((toU32 (getLocalTime clock - z * 3600) : Int) + z' * 3600) =
      (u + 3600 * z').toNat := by
    rw [taken, toU32, wraps]
    omega
  unfold setTimezone
  dsimp only
  rw [if_neg (by omega), back, local_]
  by_cases checked : 0 ≤ u + 7200 * z ∧ u + 7200 * z < 2 ^ 31
  · rw [if_pos checked, if_neg (by unfold toU32; omega), if_neg (by omega)]
    rfl
  · rw [if_neg checked, if_pos (by unfold toU32; omega)]
    rfl

theorem setTimezone_iff (fits : ZoneFits u z) (fits' : ZoneFits u z') :
    Leaves clock z z' u (u + 3600 * z') ↔ z = z' ∨ 0 ≤ u + 7200 * z ∧ u + 7200 * z < 2 ^ 31 := by
  have sum := fits.sum
  have sum' := fits'.sum
  rcases setLocalTime_back (t := (u + 3600 * z).toNat) (by omega) with ⟨fuel, tm, set, back⟩
  rcases setLocalTime_back (t := (u + 3600 * z').toNat) (by omega) with ⟨fuel', tm', set', back'⟩
  have local_ : (getLocalTime (rtcSetTime tm) : Int) = u + 3600 * z := by omega
  constructor
  · rintro ⟨fuel₂, r, r', s, s', system, zone, left⟩
    rw [setSystemTime_fits fits] at system
    cases ran : setLocalTime fuel₂ (u + 3600 * z).toNat with
    | none =>
      rw [ran] at system
      cases system
    | some tm₂ =>
      rw [ran] at system
      cases system
      rw [setLocalTime_agree ran set, setTimezone_fits fits fits' fuel₂ local_] at zone
      by_contra neither
      rw [not_or] at neither
      rw [if_neg neither.2] at zone
      cases zone
      refine neither.1 ?_
      rw [left] at local_
      omega
  · intro right
    have system : setSystemTime (fuel + fuel') ⟨clock, z⟩ u = some (0, ⟨rtcSetTime tm, z⟩) := by
      rw [setSystemTime_fits fits, setLocalTime_mono set fuel']
      rfl
    have more : setLocalTime (fuel + fuel') (u + 3600 * z').toNat = some tm' := by
      rw [Nat.add_comm]
      exact setLocalTime_mono set' fuel
    by_cases checked : 0 ≤ u + 7200 * z ∧ u + 7200 * z < 2 ^ 31
    · refine ⟨fuel + fuel', 0, 0, _, ⟨rtcSetTime tm', z'⟩, system, ?_, ?_⟩
      · rw [setTimezone_fits fits fits' _ local_, if_pos checked, more]
        rfl
      · dsimp only
        omega
    · have same : z = z' := right.resolve_right checked
      refine ⟨fuel + fuel', 0, -1, _, ⟨rtcSetTime tm, z⟩, system, ?_, ?_⟩
      · rw [setTimezone_fits fits fits' _ local_, if_neg checked]
      · dsimp only
        rw [local_, same]

end Zone

/-- A time is set right, and moved right from zone to zone, exactly when it is not in the last day
of a leap year, the cut of the day of the week takes off whole weeks, and the sum checked has 31
bits. -/
theorem localTime_iff {t u : Nat} {z z' : Int} (small : t < 2 ^ 31) (fits : ZoneFits u z)
    (fits' : ZoneFits u z') (clock : RtcClock) :
    ((∃ fuel tm, setLocalTime fuel t = some tm ∧ Right t tm) ↔
        7 ∣ (4 + t / 86400) / 256 ∧
          ∀ date : Date, date.Valid → date.number = epoch + t / 86400 → ¬ LeapYearEnd date) ∧
      (Leaves clock z z' u (u + 3600 * z') ↔
        z = z' ∨ 0 ≤ u + 7200 * z ∧ u + 7200 * z < 2 ^ 31) :=
  ⟨setLocalTime_right_iff small, setTimezone_iff fits fits'⟩

/-- The eleventh day, and a time that moves from the zone of the start to the next. -/
theorem localTime_early : (∃ fuel tm, setLocalTime fuel 864001 = some tm ∧ Right 864001 tm) ∧
    Leaves ⟨1, 1, 1970, 4, 0⟩ 7 8 1000000000 1000028800 := by
  have both := localTime_iff (t := 864001) (u := 1000000000) (by decide)
    (⟨by decide, by decide⟩ : ZoneFits _ 7) (⟨by decide, by decide⟩ : ZoneFits _ 8)
    ⟨1, 1, 1970, 4, 0⟩
  refine ⟨both.1.mpr ⟨by decide, fun date valid day end_ => ?_⟩, both.2.mpr (.inr (by decide))⟩
  have eleventh : (⟨1970, 1, 11⟩ : Date).Valid := ⟨by decide, by decide⟩
  have number : (⟨1970, 1, 11⟩ : Date).number = epoch + 864001 / 86400 := by
    unfold Date.number
    rw [yearStart_eq, epoch_eq]
    decide
  rw [valid.number_inj eleventh (day.trans number.symm)] at end_
  exact absurd end_.2.1 (by decide)

/-- The 31st of December 2024 is set as the 6th of February 2161. -/
theorem localTime_leapYearEnd :
    setLocalTime 200 1735603200 = some ⟨16, 28, 6, 6, 2, 2161, 5⟩ ∧
      ¬ ∃ fuel tm, setLocalTime fuel 1735603200 = some tm ∧ Right 1735603200 tm := by
  have set : setLocalTime 200 1735603200 = some ⟨16, 28, 6, 6, 2, 2161, 5⟩ := by decide +kernel
  refine ⟨set, ?_⟩
  rintro ⟨fuel, tm, set', right⟩
  have day := right.day
  rw [setLocalTime_agree set' set, epoch_eq] at day
  unfold Date.number Tm.date at day
  rw [yearStart_eq] at day
  exact absurd day (by decide)

end Sntp

end Tr6260
