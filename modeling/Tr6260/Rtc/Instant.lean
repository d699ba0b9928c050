import Tr6260.Rtc.Clock

/-!
# Seconds of the calendar

A packed date as a number of seconds, by the lengths of the years and months. `rtc_seconds_interval`
is the difference of two; the sum of `rtc_date_add` is short of a day for each leap day that
four-year cycles have and the calendar has not.
-/

namespace Tr6260

open CString

namespace Rtc

/-! ## Dates as seconds -/

/-- The days of the years before a year. -/
def yearDays : Nat → Nat
  | 0 => 0
  | year + 1 => yearDays year + rtcYearToDay year

/-- The number of a day in the calendar. A 29th of February that there is not counts as the 1st of
March. -/
def Day.number (day : Day) : Nat := yearDays day.year + day.ofYear

/-- The day of a packed date. -/
def dayOf (date : Nat) : Day := ⟨unpackYear date, unpackMonth date, unpackDay date⟩

def secondOfDay (date : Nat) : Nat := unpackHour date * 3600 + unpackMin date * 60 + unpackSec date

/-- The seconds from the beginning of the year 0 to a packed date. -/
def secondsOf (date : Nat) : Nat := 86400 * (dayOf date).number + secondOfDay date

/-- The milliseconds from one packed date to another. -/
def remaining (now aim : Nat) : Int :=
  (1000 * secondsOf aim + unpackMs aim : Nat) - (1000 * secondsOf now + unpackMs now : Nat)

/-- On one day only the times of day differ. -/
theorem remaining_day {now aim : Nat} (same : dayOf now = dayOf aim) :
    remaining now aim = (1000 * secondOfDay aim + unpackMs aim : Nat) -
      (1000 * secondOfDay now + unpackMs now : Nat) := by
  rw [remaining, secondsOf, secondsOf, same]
  omega

/-! ## Differences -/

theorem yearDays_add (year n : Nat) :
    yearDays (year + n) = yearDays year + ((List.range' year n).map rtcYearToDay).sum := by
  induction n with
  | zero => rfl
  | succ n ih =>
    rw [← Nat.add_assoc, yearDays, ih, List.range'_1_concat, List.map_append, List.sum_append]
    simp only [List.map_cons, List.map_nil, List.sum_cons, List.sum_nil]
    omega

/-- The difference of two days, in 32 bits. -/
theorem rtcDaysInterval_eq {day day' : Day} (years : day.year ≤ day'.year) :
    rtcDaysInterval day.year day.month day.mday day'.year day'.month day'.mday =
      toU32 ((day'.number : Int) - day.number) := by
  unfold rtcDaysInterval
  dsimp only
  split
  case isTrue same =>
    unfold Day.number Day.ofYear
    rw [same]
    congr 1
    omega
  case isFalse other =>
    have between := yearDays_add (day.year + 1) (day'.year - (day.year + 1))
    have last : day.year + 1 + (day'.year - (day.year + 1)) = day'.year := by omega
    rw [last, yearDays] at between
    unfold Day.number Day.ofYear
    congr 1
    omega

/-- The difference of two dates in seconds, in 32 bits. -/
theorem rtcSecondsInterval_eq {now tag : Nat} (years : unpackYear now ≤ unpackYear tag) :
    rtcSecondsInterval now tag = toU32 ((secondsOf tag : Int) - secondsOf now) := by
  have days : rtcDaysInterval (unpackYear now) (unpackMonth now) (unpackDay now) (unpackYear tag)
      (unpackMonth tag) (unpackDay tag) = toU32 (((dayOf tag).number : Int) - (dayOf now).number) :=
    rtcDaysInterval_eq (show (dayOf now).year ≤ (dayOf tag).year from years)
  unfold rtcSecondsInterval secondsOf secondOfDay
  rw [days]
  unfold toU32
  dsimp only
  split <;> omega

/-! ## Four-year cycles and the calendar -/

/-- A year that four-year cycles take for a leap year, and that is none. -/
def Skips (year : Nat) : Prop := year % 4 = 0 ∧ leapyear year = false

instance (year : Nat) : Decidable (Skips year) := inferInstanceAs (Decidable (_ ∧ _))

/-- The years before a year that cycles take for leap years and that are none. -/
def skips : Nat → Nat
  | 0 => 0
  | year + 1 => skips year + if Skips year then 1 else 0

theorem cycleYear_eq (year : Nat) :
    cycleYear year = rtcYearToDay year + if Skips year then 1 else 0 := by
  unfold cycleYear rtcYearToDay
  by_cases leap : leapyear year = true
  · have none_ : ¬ Skips year := fun both => Bool.false_ne_true (both.2.symm.trans leap)
    rw [if_pos (leapyear_four leap), if_pos leap, if_neg none_]
  · rw [if_neg leap]
    by_cases fourth : year % 4 = 0
    · rw [if_pos fourth, if_pos ⟨fourth, eq_false_of_ne_true leap⟩]
    · rw [if_neg fourth, if_neg fun both => fourth both.1]

/-- Cycles are ahead of the calendar by the leap days that there are not. -/
theorem cycleStart_eq (year : Nat) : cycleStart year = yearDays year + skips year := by
  induction year with
  | zero => rfl
  | succ year ih =>
    rw [cycleStart_succ, ih, cycleYear_eq, yearDays, skips]
    omega

theorem cycleStart_le {year year' : Nat} (later : year ≤ year') :
    cycleStart year ≤ cycleStart year' := by
  induction later with
  | refl => exact Nat.le_refl _
  | step _ ih =>
    rw [Nat.succ_eq_add_one, cycleStart_succ]
    exact Nat.le_trans ih (Nat.le_add_right _ _)

theorem skips_le {year year' : Nat} (later : year ≤ year') : skips year ≤ skips year' := by
  induction later with
  | refl => exact Nat.le_refl _
  | step _ ih => exact Nat.le_trans ih (Nat.le_add_right _ _)

theorem Day.count_eq (day : Day) : day.count = day.number + skips day.year := by
  change cycleStart day.year + day.ofYear = yearDays day.year + day.ofYear + skips day.year
  rw [cycleStart_eq]
  omega

/-- The tables of four-year cycles. -/
def cycleMonthDays (year : Nat) : List Nat :=
  if year % 4 = 0 then leapMonthDays else notleapMonthDays

/-- The month of a day, from the days before each month. -/
theorem month_exists {table : List Nat} (start : table.getD 0 0 = 0) {days : Nat} (pos : 1 ≤ days)
    (n : Nat) (inside : days ≤ table.getD n 0) :
    ∃ month, 1 ≤ month ∧ month ≤ n ∧ table.getD (month - 1) 0 < days ∧
      days ≤ table.getD month 0 := by
  induction n with
  | zero => omega
  | succ n ih =>
    rcases Nat.lt_or_ge (table.getD n 0) days with behind | before
    · exact ⟨n + 1, Nat.le_add_left 1 n, Nat.le_refl _, behind, inside⟩
    · rcases ih before with ⟨month, low, high, found⟩
      exact ⟨month, low, Nat.le_succ_of_le high, found⟩

/-- The loops of `rtc_days_to_yeardays` find the month and the day. -/
theorem monthOfDays_spec {table : List Nat}
    (either : table = leapMonthDays ∨ table = notleapMonthDays) {days : Nat} (pos : 1 ≤ days)
    (inside : days ≤ table.getD 12 0) (old : Nat × Nat) :
    ∃ month mday, monthOfDays table days old = (month, mday) ∧ 1 ≤ month ∧ month ≤ 12 ∧ 1 ≤ mday ∧
      mday ≤ 31 ∧ days = table.getD (month - 1) 0 + mday ∧ days ≤ table.getD month 0 := by
  have tables : table.getD 0 0 = 0 ∧ Rising table ∧
      ∀ m < 13, 1 ≤ m → table.getD m 0 ≤ table.getD (m - 1) 0 + 31 := by
    rcases either with rfl | rfl
    · exact ⟨rfl, rising_tables.1, by decide⟩
    · exact ⟨rfl, rising_tables.2, by decide⟩
  rcases month_exists tables.1 pos 12 inside with ⟨month, low, high, after, upTo⟩
  have steps := tables.2.2 month (by omega) low
  refine ⟨month, days - table.getD (month - 1) 0, ?_, low, high, by omega, by omega, by omega, upTo⟩
  exact monthOfDays_eq tables.2.1 low high after upTo old

/-- A day of four-year cycles. -/
structure CycleDay (count : Nat) (day : Day) : Prop where
  month_pos : 1 ≤ day.month
  month_le : day.month ≤ 12
  mday_pos : 1 ≤ day.mday
  mday_le : day.mday ≤ 31
  behind : cycleStart day.year < count
  upTo : count ≤ cycleStart (day.year + 1)
  count_eq : count =
    cycleStart day.year + ((cycleMonthDays day.year).getD (day.month - 1) 0 + day.mday)
  month_end : count ≤ cycleStart day.year + (cycleMonthDays day.year).getD day.month 0

theorem cycleMonthDays_either (year : Nat) :
    cycleMonthDays year = leapMonthDays ∨ cycleMonthDays year = notleapMonthDays := by
  unfold cycleMonthDays
  split
  · exact .inl rfl
  · exact .inr rfl

theorem cycleMonthDays_year (year : Nat) : (cycleMonthDays year).getD 12 0 = cycleYear year := by
  unfold cycleMonthDays cycleYear
  split <;> rfl

/-- A number in a year of a cycle gives a day of it. -/
theorem CycleDay.of_ofYear (year : Nat) {days : Nat} (pos : 1 ≤ days)
    (inside : days ≤ cycleYear year) (old : Nat × Nat) : ∃ day,
      monthOfDays (cycleMonthDays year) days old = (day.month, day.mday) ∧ day.year = year ∧
        CycleDay (cycleStart year + days) day := by
  rw [← cycleMonthDays_year] at inside
  rcases monthOfDays_spec (cycleMonthDays_either year) pos inside old with
    ⟨month, mday, found, low, high, first, last, sum, upTo⟩
  rw [cycleMonthDays_year] at inside
  refine ⟨⟨year, month, mday⟩, found, rfl, low, high, first, last, ?_, ?_, ?_, ?_⟩
  · exact Nat.lt_add_of_pos_right pos
  · rw [cycleStart_succ]
    exact Nat.add_le_add_left inside _
  · rw [sum]
  · exact Nat.add_le_add_left upTo _

/-- `rtc_days_to_yeardays` finds the day of a number. -/
theorem rtcDaysToYeardays_spec {count : Nat} (pos : 1 ≤ count) (small : count < 2 ^ 32)
    (old : Nat × Nat × Nat) : ∃ day, rtcDaysToYeardays count old = (day.year, day.month, day.mday) ∧
      CycleDay count day := by
  have found (year : Nat) {days : Nat} (low : 1 ≤ days) (high : days ≤ cycleYear year)
      (is : count = cycleStart year + days) {table : List Nat}
      (same : table = cycleMonthDays year) :
      ∃ day, (year, monthOfDays table days old.2) = (day.year, day.month, day.mday) ∧
        CycleDay count day := by
    rcases CycleDay.of_ofYear year low high old.2 with ⟨day, months, years, cycle⟩
    rw [same, months, is, ← years]
    rw [← years] at cycle
    exact ⟨day, rfl, cycle⟩
  have starts (cycle : Nat) : cycleStart (cycle * 4) = cycle * 1461 ∧
      cycleStart (cycle * 4 + 1) = cycle * 1461 + 366 ∧
      cycleStart (cycle * 4 + 2) = cycle * 1461 + 731 ∧
      cycleStart (cycle * 4 + 3) = cycle * 1461 + 1096 := by
    have rest : (cycle * 4) % 4 = 0 ∧ (cycle * 4 + 1) % 4 = 1 ∧ (cycle * 4 + 2) % 4 = 2 ∧
        (cycle * 4 + 3) % 4 = 3 := by omega
    unfold cycleStart
    rw [rest.1, rest.2.1, rest.2.2.1, rest.2.2.2]
    simp only [cycleDays]
    omega
  have length (cycle : Nat) : cycleYear (cycle * 4) = 366 ∧ cycleYear (cycle * 4 + 1) = 365 ∧
      cycleYear (cycle * 4 + 2) = 365 ∧ cycleYear (cycle * 4 + 3) = 365 := by
    unfold cycleYear
    exact ⟨if_pos (by omega), if_neg (by omega), if_neg (by omega), if_neg (by omega)⟩
  have table (cycle : Nat) : cycleMonthDays (cycle * 4) = leapMonthDays ∧
      cycleMonthDays (cycle * 4 + 1) = notleapMonthDays ∧
      cycleMonthDays (cycle * 4 + 2) = notleapMonthDays ∧
      cycleMonthDays (cycle * 4 + 3) = notleapMonthDays := by
    unfold cycleMonthDays
    exact ⟨if_pos (by omega), if_neg (by omega), if_neg (by omega), if_neg (by omega)⟩
  have parts : count = count / 1461 * 1461 + count % 1461 := (Nat.div_add_mod' count 1461).symm
  have short : count % 1461 < 1461 := Nat.mod_lt _ (by decide)
  generalize count / 1461 = cycle at parts
  generalize count % 1461 = days at parts short
  rcases Nat.eq_zero_or_pos days with none_ | some_
  · -- the last day of the cycle before
    rw [none_, Nat.add_zero] at parts
    cases cycle with
    | zero => omega
    | succ cycle =>
      have whole : count = cycle * 1461 + 1461 := by omega
      have december := found (cycle * 4 + 3) (by decide : 1 ≤ 365)
        (Nat.le_of_eq (length cycle).2.2.2.symm) (by rw [(starts cycle).2.2.2]; omega)
        (table cycle).2.2.2.symm
      have last := rtcDaysToYeardays_last (by omega : cycle < 2 ^ 29) old
      rw [← whole] at last
      rw [last]
      exact december
  · rcases starts cycle with ⟨start, start1, start2, start3⟩
    rcases length cycle with ⟨length, length1, length2, length3⟩
    rcases table cycle with ⟨table, table1, table2, table3⟩
    have split := rtcDaysToYeardays_cycle cycle some_ short old
    rw [← parts] at split
    rw [split]
    by_cases first : days ≤ 366
    · rw [if_pos first]
      exact found _ some_ (by omega) (by omega) table.symm
    · rw [if_neg first]
      by_cases second : days ≤ 731
      · rw [if_pos second]
        exact found _ (by omega) (by omega) (by omega) table1.symm
      · rw [if_neg second]
        by_cases third : days ≤ 1096
        · rw [if_pos third]
          exact found _ (by omega) (by omega) (by omega) table2.symm
        · rw [if_neg third]
          exact found _ (by omega) (by omega) (by omega) table3.symm

/-- The leap day of a year that has none, behind its place. -/
def Day.lost (day : Day) : Nat := if Skips day.year ∧ 2 < day.month then 1 else 0

/-- A day of four-year cycles stands behind its number by the leap days that there are not. -/
theorem CycleDay.number_eq {count : Nat} {day : Day} (cycle : CycleDay count day) :
    day.number + skips day.year + day.lost = count := by
  have table : monthDays day.year day.month + day.lost =
      (cycleMonthDays day.year).getD (day.month - 1) 0 := by
    have low := cycle.month_pos
    have high := cycle.month_le
    rw [monthDays_eq day.year low (by omega), Day.lost, cycleMonthDays]
    by_cases leap : leapyear day.year = true
    · have none_ : ¬ Skips day.year := fun both => Bool.false_ne_true (both.2.symm.trans leap)
      rw [if_pos leap, if_pos (leapyear_four leap), if_neg fun both => none_ both.1]
      rfl
    · rw [if_neg leap]
      by_cases fourth : day.year % 4 = 0
      · have skipped : Skips day.year := ⟨fourth, eq_false_of_ne_true leap⟩
        have tables : ∀ m < 13, 1 ≤ m → notleapMonthDays.getD (m - 1) 0 + (if 2 < m then 1 else 0) =
            leapMonthDays.getD (m - 1) 0 := by decide
        rw [if_pos fourth, ← tables day.month (by omega) low]
        simp only [skipped, true_and]
      · rw [if_neg fourth, if_neg fun both => fourth both.1.1]
        rfl
  rw [cycle.count_eq, cycleStart_eq, ← table, Day.number, Day.ofYear]
  omega

theorem skips_succ (year : Nat) : skips (year + 1) = skips year + if Skips year then 1 else 0 := rfl

/-- The days of a cycle's year are found in it. -/
theorem CycleDay.year_le {count year : Nat} {day : Day} (cycle : CycleDay count day)
    (before : cycleStart year < count) : year ≤ day.year := by
  by_contra later
  have starts := cycleStart_le (Nat.succ_le_of_lt (Nat.lt_of_not_le later))
  have := cycle.upTo
  rw [Nat.succ_eq_add_one] at starts
  omega

theorem CycleDay.le_year {count year : Nat} {day : Day} (cycle : CycleDay count day)
    (inside : count ≤ cycleStart (year + 1)) : day.year ≤ year := by
  by_contra later
  have starts := cycleStart_le (Nat.succ_le_of_lt (Nat.lt_of_not_le later))
  have := cycle.behind
  rw [Nat.succ_eq_add_one] at starts
  omega

/-- The month of a number in a year of a cycle, against the end of February. -/
theorem CycleDay.march {count : Nat} {day : Day} (cycle : CycleDay count day)
    (fourth : day.year % 4 = 0) : 2 < day.month ↔ cycleStart day.year + 60 < count := by
  have months : ∀ m < 13, 1 ≤ m → (m ≤ 2 → leapMonthDays.getD m 0 ≤ 60) ∧
      (2 < m → 60 ≤ leapMonthDays.getD (m - 1) 0) := by decide
  have here := months day.month (by have := cycle.month_le; omega) cycle.month_pos
  have exact_ := cycle.count_eq
  have upTo := cycle.month_end
  have first := cycle.mday_pos
  rw [cycleMonthDays, if_pos fourth] at exact_ upTo
  constructor
  · intro behind
    have := here.2 behind
    omega
  · intro behind
    by_contra before
    have := here.1 (by omega)
    omega

/-- Some days behind a day of the calendar there is a day in cycles that the calendar has not. -/
def DayLost (day : Day) (days : Nat) : Prop := Skips day.year ∧ 60 < day.ofYear + days

instance (day : Day) (days : Nat) : Decidable (DayLost day days) :=
  inferInstanceAs (Decidable (_ ∧ _))

/-- A few days on, at most one day is lost. -/
theorem CycleDay.number_few {first day : Day} {days : Nat} (valid : first.Valid) (few : days ≤ 60)
    (cycle : CycleDay (first.count + days) day) :
    day.number + (if DayLost first days then 1 else 0) = first.number + days := by
  have number := cycle.number_eq
  have count := first.count_eq
  have start : first.count = cycleStart first.year + first.ofYear := rfl
  have pos := Day.ofYear_pos valid
  have last := Day.ofYear_le valid
  have length := cycleYear_eq first.year
  have next := cycleStart_succ first.year
  have next' := cycleStart_succ (first.year + 1)
  have long : 365 ≤ cycleYear (first.year + 1) := by
    unfold cycleYear
    split <;> omega
  have low : first.year ≤ day.year := cycle.year_le (by omega)
  have high : day.year ≤ first.year + 1 := cycle.le_year (by omega)
  unfold Day.lost at number
  rcases Nat.lt_or_ge first.year day.year with later | same
  · -- in the next year
    have year : day.year = first.year + 1 := by omega
    have behind := cycle.behind
    rw [year] at behind
    have early : ¬ (Skips day.year ∧ 2 < day.month) := by
      rintro ⟨skipped, march⟩
      have := (cycle.march skipped.1).mp march
      rw [year] at this
      omega
    rw [if_neg early, year, skips_succ] at number
    by_cases skipped : Skips first.year
    · have year366 : cycleYear first.year = 366 := if_pos skipped.1
      rw [if_pos skipped] at number
      rw [if_pos (show DayLost first days from ⟨skipped, by omega⟩)]
      omega
    · rw [if_neg skipped] at number
      rw [if_neg fun lost : DayLost first days => skipped lost.1]
      omega
  · have year : day.year = first.year := by omega
    rw [year] at number
    by_cases skipped : Skips first.year
    · have march := cycle.march (year.symm ▸ skipped.1)
      rw [year] at march
      have both : (Skips first.year ∧ 2 < day.month) ↔
          DayLost first days := by
        rw [march, start, DayLost]
        exact and_congr_right fun _ => by omega
      rw [if_congr both rfl rfl] at number
      omega
    · rw [if_neg fun both => skipped both.1] at number
      rw [if_neg fun lost : DayLost first days => skipped lost.1]
      omega

/-- Cycles never lead behind the calendar. -/
theorem CycleDay.number_le {first day : Day} {days : Nat} (valid : first.Valid)
    (cycle : CycleDay (first.count + days) day) : day.number ≤ first.number + days := by
  have number := cycle.number_eq
  have count := first.count_eq
  have start : first.count = cycleStart first.year + first.ofYear := rfl
  have pos := Day.ofYear_pos valid
  have low : first.year ≤ day.year := cycle.year_le (by omega)
  have later := skips_le low
  omega

/-! ## Sums -/

/-- The day that the clock shows. -/
def Reading.today (r : Reading) : Day := ⟨r.year, r.month, r.day⟩

theorem Reading.today_valid (r : Reading) : r.today.Valid :=
  ⟨r.valid.month_pos, r.valid.month_le, r.valid.day_pos, r.valid.day_le⟩

theorem Reading.fit (r : Reading) : FieldsFit r.year r.month r.day r.hour r.min r.sec r.ms := by
  have valid := r.valid
  have short := (rtcMonthdayNum_lt r.year valid.month_pos valid.month_le).2
  constructor
  · exact Nat.lt_trans valid.year_lt (by decide)
  · exact Nat.lt_of_le_of_lt valid.month_le (by decide)
  · exact Nat.lt_of_le_of_lt valid.day_le short
  · exact Nat.lt_trans valid.hour_lt (by decide)
  · exact Nat.lt_trans valid.min_lt (by decide)
  · exact Nat.lt_trans valid.sec_lt (by decide)
  · exact Nat.lt_trans valid.ms_lt (by decide)

theorem Reading.dayOf_date (r : Reading) : dayOf r.date = r.today := by
  rw [dayOf, Reading.date, r.fit.unpackYear, r.fit.unpackMonth, r.fit.unpackDay]
  rfl

theorem Reading.secondOfDay_date (r : Reading) :
    secondOfDay r.date = r.hour * 3600 + r.min * 60 + r.sec := by
  rw [secondOfDay, Reading.date, r.fit.unpackHour, r.fit.unpackMin, r.fit.unpackSec]

/-- The days of a date that is added. -/
def tagDays (tag : Nat) : Nat :=
  rtcYeardaysToDays (unpackYear tag) (unpackMonth tag) (unpackDay tag)

/-- The seconds of a date that is added. -/
def tagSeconds (tag : Nat) : Nat := 86400 * tagDays tag + secondOfDay tag

/-- The whole days to the sum of a time and some seconds. -/
def daysOn (r : Reading) (seconds : Nat) : Nat := (secondOfDay r.date + seconds) / 86400

theorem daysOn_tag (r : Reading) (tag : Nat) :
    daysOn r (tagSeconds tag) = tagDays tag + (secondOfDay r.date + secondOfDay tag) / 86400 := by
  unfold daysOn tagSeconds
  omega

/-- The carries of a sum, in seconds. -/
theorem sum_carries (hour min sec hour' min' sec' : Nat) :
    let s := sec + sec'
    let m := min + min' + s / 60
    let h := hour + hour' + m / 60
    let total := hour * 3600 + min * 60 + sec + (hour' * 3600 + min' * 60 + sec')
    h / 24 = total / 86400 ∧ h % 24 * 3600 + m % 60 * 60 + s % 60 = total % 86400 := by
  dsimp only
  omega

/-- The seconds of a sum from the midnight of the first day on. -/
def sumSeconds (r : Reading) (tag : Nat) : Nat :=
  secondOfDay r.date + secondOfDay tag + (r.ms + unpackMs tag) / 1000

/-- The number of the day of a sum, in cycles of four years. -/
def sumCount (r : Reading) (tag : Nat) : Nat :=
  r.today.count + (tagDays tag + sumSeconds r tag / 86400)

theorem Reading.count_lt (r : Reading) : r.today.count < 2 ^ 25 := by
  have last := Day.ofYear_le r.today_valid
  have length := cycleYear_eq r.today.year
  have starts := cycleStart_le (Nat.succ_le_of_lt (show r.today.year < 65536 from r.valid.year_lt))
  have next := cycleStart_succ r.today.year
  have start : r.today.count = cycleStart r.today.year + r.today.ofYear := rfl
  have limit : cycleStart 65536 = 23937024 := by decide
  rw [Nat.succ_eq_add_one] at starts
  omega

/-- The last day that a packed date holds. -/
theorem cycleStart_packed : cycleStart (2 ^ 23) = 3063939072 := by decide

/-- `rtc_date_add` in cycles of four years, field by field. -/
theorem rtcDateAdd_parts (r : Reading) {tag : Nat} (packed : sumCount r tag ≤ cycleStart (2 ^ 23)) :
    ∃ day hour min sec, CycleDay (sumCount r tag) day ∧
      FieldsFit day.year day.month day.mday hour min sec 0 ∧ min < 60 ∧ sec < 60 ∧
      rtcDateAdd r.date tag = rtcDatePackage day.year day.month day.mday hour min sec 0 ∧
      hour * 3600 + min * 60 + sec = sumSeconds r tag % 86400 := by
  have seconds : r.hour * 3600 + r.min * 60 + r.sec + (unpackHour tag * 3600 + unpackMin tag * 60 +
      (unpackSec tag + (r.ms + unpackMs tag) / 1000)) = sumSeconds r tag := by
    rw [sumSeconds, r.secondOfDay_date, secondOfDay]
    simp only [Nat.add_assoc]
  rw [cycleStart_packed] at packed
  have fit := r.fit
  rcases sum_carries r.hour r.min r.sec (unpackHour tag) (unpackMin tag)
    (unpackSec tag + (r.ms + unpackMs tag) / 1000) with ⟨days, rest⟩
  have pos : 1 ≤ sumCount r tag :=
    Nat.le_trans (Nat.le_trans (Day.ofYear_pos r.today_valid) (Nat.le_add_left _ _))
      (Nat.le_add_right _ _)
  have today := rtcYeardaysToDays_eq r.today_valid
    (Nat.lt_trans (show r.today.year < 65536 from r.valid.year_lt) (by decide))
  have total : sumCount r tag = r.today.count + (tagDays tag + sumSeconds r tag / 86400) := rfl
  rw [seconds] at days rest
  rw [rtcDateAdd, Reading.date]
  dsimp only
  rw [fit.unpackYear, fit.unpackMonth, fit.unpackDay, fit.unpackHour, fit.unpackMin, fit.unpackSec,
    fit.unpackMs, show rtcYeardaysToDays r.year r.month r.day = r.today.count from today,
    show rtcYeardaysToDays (unpackYear tag) (unpackMonth tag) (unpackDay tag) = tagDays tag
      from rfl, Nat.add_assoc r.sec]
  generalize r.sec + (unpackSec tag + (r.ms + unpackMs tag) / 1000) = sec at days rest ⊢
  generalize r.min + unpackMin tag + sec / 60 = min at days rest ⊢
  generalize r.hour + unpackHour tag + min / 60 = hour at days rest ⊢
  rw [days, Nat.mod_eq_of_lt (by omega : tagDays tag + r.today.count + sumSeconds r tag / 86400 <
    2 ^ 32), Nat.add_comm (tagDays tag) r.today.count, Nat.add_assoc, ← total]
  rcases rtcDaysToYeardays_spec pos (by omega) (unpackYear tag, unpackMonth tag, unpackDay tag)
    with ⟨day, found, cycle⟩
  rw [found]
  have year : day.year ≤ 2 ^ 23 - 1 := cycle.le_year (by
    have limit : cycleStart (2 ^ 23 - 1 + 1) = 3063939072 := by decide
    omega)
  refine ⟨day, hour % 24, min % 60, sec % 60, cycle, ?_, by omega, by omega, rfl, rest⟩
  have := cycle.month_le
  have := cycle.mday_le
  constructor <;> omega

/-- `rtc_date_add` in cycles of four years. -/
theorem rtcDateAdd_spec (r : Reading) {tag : Nat} (whole : unpackMs tag = 0)
    (small : tagDays tag < 2 ^ 31) :
    ∃ day, CycleDay (r.today.count + daysOn r (tagSeconds tag)) day ∧
      dayOf (rtcDateAdd r.date tag) = day ∧
      secondOfDay (rtcDateAdd r.date tag) =
        (secondOfDay r.date + secondOfDay tag) % 86400 ∧
      unpackMs (rtcDateAdd r.date tag) = 0 := by
  have seconds : sumSeconds r tag = secondOfDay r.date + secondOfDay tag := by
    rw [sumSeconds, whole, Nat.add_zero, Nat.div_eq_of_lt r.valid.ms_lt, Nat.add_zero]
  have count : sumCount r tag = r.today.count + daysOn r (tagSeconds tag) := by
    rw [sumCount, seconds, daysOn_tag]
  have packed : sumCount r tag ≤ cycleStart (2 ^ 23) := by
    have today := r.count_lt
    have now := r.secondOfDay_date
    have hours : unpackHour tag < 32 := by rw [unpackHour_eq]; omega
    have mins : unpackMin tag < 64 := by rw [unpackMin_eq]; omega
    have secs : unpackSec tag < 64 := by rw [unpackSec_eq]; omega
    have := r.valid.hour_lt
    have := r.valid.min_lt
    have := r.valid.sec_lt
    rw [sumCount, seconds, cycleStart_packed, show secondOfDay tag = unpackHour tag * 3600 +
      unpackMin tag * 60 + unpackSec tag from rfl]
    omega
  rcases rtcDateAdd_parts r packed with ⟨day, hour, min, sec, cycle, fit, -, -, same, rest⟩
  refine ⟨day, count ▸ cycle, ?_, ?_, ?_⟩
  · rw [same, dayOf, fit.unpackYear, fit.unpackMonth, fit.unpackDay]
  · rw [same, secondOfDay, fit.unpackHour, fit.unpackMin, fit.unpackSec, rest, seconds]
  · rw [same]
    exact fit.unpackMs

/-- A sum over a few days, in seconds: a day is lost where cycles have one that the calendar has
not. -/
theorem rtcDateAdd_seconds (r : Reading) {tag : Nat} (whole : unpackMs tag = 0)
    (few : daysOn r (tagSeconds tag) ≤ 60) :
    secondsOf (rtcDateAdd r.date tag) +
        (if DayLost r.today (daysOn r (tagSeconds tag)) then 86400 else 0) =
      secondsOf r.date + tagSeconds tag := by
  have on := daysOn_tag r tag
  rcases rtcDateAdd_spec r whole (by omega) with ⟨day, cycle, same, seconds, -⟩
  have number := cycle.number_few r.today_valid few
  have spread : tagSeconds tag = 86400 * tagDays tag + secondOfDay tag := rfl
  rw [secondsOf, secondsOf, same, seconds, r.dayOf_date]
  split
  case isTrue lost =>
    rw [if_pos lost] at number
    omega
  case isFalse kept =>
    rw [if_neg kept] at number
    omega

/-- A sum is never too late. -/
theorem rtcDateAdd_le (r : Reading) {tag : Nat} (whole : unpackMs tag = 0)
    (small : tagDays tag < 2 ^ 31) :
    secondsOf (rtcDateAdd r.date tag) ≤ secondsOf r.date + tagSeconds tag := by
  have on := daysOn_tag r tag
  rcases rtcDateAdd_spec r whole small with ⟨day, cycle, same, seconds, -⟩
  have number := cycle.number_le r.today_valid
  have spread : tagSeconds tag = 86400 * tagDays tag + secondOfDay tag := rfl
  rw [secondsOf, secondsOf, same, seconds, r.dayOf_date]
  omega

end Rtc

end Tr6260
