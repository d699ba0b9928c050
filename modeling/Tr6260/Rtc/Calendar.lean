import Tr6260.Rtc.Date

/-!
# The calendar of the RTC

The clock goes from day to day as `update_days` does, by the rules of `leapyear`. `rtc_date_add`
counts in cycles of four years instead, which is the same except behind February in a year that is
divisible by four and has no leap day.
-/

namespace Tr6260

namespace Rtc

/-! ## Days -/

/-- A day as `sys_global_time` shows it. -/
structure Day where
  year : Nat
  month : Nat
  mday : Nat
  deriving DecidableEq, Repr

/-- `update_days`. -/
def updateDays (day : Day) : Day :=
  let daysofmonth :=
    if ¬ (leapyear day.year ∧ day.month = 2) then monthdayNoryear.getD day.month 0 else 29
  if day.mday + 1 > daysofmonth then
    if day.month + 1 > 12 then ⟨day.year + 1, 1, 1⟩ else ⟨day.year, day.month + 1, 1⟩
  else
    { day with mday := day.mday + 1 }

/-- A day of the calendar. -/
structure Day.Valid (day : Day) : Prop where
  month_pos : 1 ≤ day.month
  month_le : day.month ≤ 12
  mday_pos : 1 ≤ day.mday
  mday_le : day.mday ≤ rtcMonthdayNum day.year day.month

/-- The number of a day in its year. -/
def Day.ofYear (day : Day) : Nat := monthDays day.year day.month + day.mday

/-- The days of the years in a cycle of four. -/
def cycleDays : Nat → Nat
  | 1 => 366
  | 2 => 731
  | 3 => 1096
  | _ => 0

/-- The number of a day in cycles of four years. -/
def Day.count (day : Day) : Nat := day.year / 4 * 1461 + cycleDays (day.year % 4) + day.ofYear

/-- A day on which four-year cycles agree with the calendar. -/
def Day.Plain (day : Day) : Prop :=
  (leapyear day.year = true ↔ day.year % 4 = 0) ∨ day.ofYear ≤ 59

theorem leapyear_four {year : Nat} (leap : leapyear year = true) : year % 4 = 0 := by
  unfold leapyear at leap
  dsimp only at leap
  split at leap
  · simp only [decide_eq_true_eq] at leap
    omega
  · simp only [decide_eq_true_eq] at leap
    omega

theorem rtcMonthdayNum_lt (year : Nat) {month : Nat} (low : 1 ≤ month) (high : month ≤ 12) :
    28 ≤ rtcMonthdayNum year month ∧ rtcMonthdayNum year month < 32 := by
  have tables : ∀ m < 13, 1 ≤ m →
      (28 ≤ monthdayLeapyear.getD m 0 ∧ monthdayLeapyear.getD m 0 < 32) ∧
      28 ≤ monthdayNoryear.getD m 0 ∧ monthdayNoryear.getD m 0 < 32 := by decide
  have both := tables month (by omega) low
  rw [rtcMonthdayNum]
  split
  · exact both.1
  · exact both.2

/-- The days before a month, by the tables of `rtc_days_to_yeardays`. -/
theorem monthDays_eq (year : Nat) {month : Nat} (low : 1 ≤ month) (high : month ≤ 13) :
    monthDays year month =
      if leapyear year then leapMonthDays.getD (month - 1) 0
      else notleapMonthDays.getD (month - 1) 0 := by
  unfold monthDays rtcMonthdayNum
  cases leapyear year with
  | true =>
    have table : ∀ m < 14, 1 ≤ m →
        ((List.range' 1 (m - 1)).map fun i => monthdayLeapyear.getD i 0).sum =
          leapMonthDays.getD (m - 1) 0 := by decide
    exact table month (by omega) low
  | false =>
    have table : ∀ m < 14, 1 ≤ m →
        ((List.range' 1 (m - 1)).map fun i => monthdayNoryear.getD i 0).sum =
          notleapMonthDays.getD (m - 1) 0 := by decide
    exact table month (by omega) low

/-- The days before the next month. -/
theorem monthDays_succ (year : Nat) {month : Nat} (low : 1 ≤ month) :
    monthDays year (month + 1) = monthDays year month + rtcMonthdayNum year month := by
  have split : month = month - 1 + 1 := by omega
  rw [monthDays, monthDays, Nat.add_sub_cancel]
  nth_rewrite 1 [split]
  rw [List.range'_1_concat, List.map_append, List.sum_append]
  have last : 1 + (month - 1) = month := by omega
  rw [last]
  simp

/-- The length of a year. -/
theorem monthDays_year (year : Nat) : monthDays year 13 = rtcYearToDay year := by
  rw [monthDays_eq year (by decide) (by decide), rtcYearToDay]
  rfl

/-! ## From day to day -/

theorem daysofmonth_eq (day : Day) (valid : day.Valid) :
    (if ¬ (leapyear day.year ∧ day.month = 2) then monthdayNoryear.getD day.month 0 else 29) =
      rtcMonthdayNum day.year day.month := by
  have table : ∀ m < 13,
      monthdayLeapyear.getD m 0 = if m = 2 then 29 else monthdayNoryear.getD m 0 := by
    decide
  rw [rtcMonthdayNum]
  cases leapyear day.year with
  | true =>
    rw [if_pos rfl, table day.month (by have := valid.month_le; omega)]
    by_cases feb : day.month = 2
    · rw [if_neg (not_not.mpr ⟨rfl, feb⟩), if_pos feb]
    · rw [if_pos fun both => feb both.2, if_neg feb]
  | false =>
    rw [if_pos fun both => Bool.false_ne_true both.1]
    rfl

/-- The three ways to the next day. -/
theorem updateDays_cases {day : Day} (valid : day.Valid) :
    day.mday < rtcMonthdayNum day.year day.month ∧
        updateDays day = { day with mday := day.mday + 1 } ∨
      day.mday = rtcMonthdayNum day.year day.month ∧ day.month < 12 ∧
        updateDays day = ⟨day.year, day.month + 1, 1⟩ ∨
      day.mday = rtcMonthdayNum day.year day.month ∧ day.month = 12 ∧
        updateDays day = ⟨day.year + 1, 1, 1⟩ := by
  have last := valid.mday_le
  have months := valid.month_le
  unfold updateDays
  rw [daysofmonth_eq day valid]
  dsimp only
  split
  · split
    · exact .inr (.inr ⟨by omega, by omega, rfl⟩)
    · exact .inr (.inl ⟨by omega, by omega, rfl⟩)
  · exact .inl ⟨by omega, rfl⟩

theorem Day.Valid.next {day : Day} (valid : day.Valid) : (updateDays day).Valid := by
  rcases updateDays_cases valid with ⟨inside, next⟩ | ⟨-, before, next⟩ | ⟨-, -, next⟩
  · rw [next]
    exact ⟨valid.month_pos, valid.month_le, Nat.le_add_left _ _, inside⟩
  · rw [next]
    have long := (rtcMonthdayNum_lt day.year (Nat.le_add_left 1 day.month) before).1
    exact ⟨Nat.le_add_left _ _, before, Nat.le_refl 1, Nat.le_trans (by decide : 1 ≤ 28) long⟩
  · rw [next]
    have long := (rtcMonthdayNum_lt (day.year + 1) (Nat.le_refl 1) (by decide)).1
    exact ⟨Nat.le_refl 1, (by decide : 1 ≤ 12), Nat.le_refl 1,
      Nat.le_trans (by decide : 1 ≤ 28) long⟩

theorem Day.ofYear_december {day : Day} (december : day.month = 12)
    (last : day.mday = rtcMonthdayNum day.year day.month) : day.ofYear = rtcYearToDay day.year := by
  rw [← monthDays_year, monthDays_succ day.year (by decide), Day.ofYear, last, december]

/-- The number in its year of the next day, unless a year ends. -/
theorem Day.ofYear_next {day : Day} (valid : day.Valid) :
    (updateDays day).year = day.year ∧ (updateDays day).ofYear = day.ofYear + 1 ∨
      day.ofYear = rtcYearToDay day.year ∧ updateDays day = ⟨day.year + 1, 1, 1⟩ := by
  rcases updateDays_cases valid with ⟨-, next⟩ | ⟨last, -, next⟩ | ⟨last, december, next⟩
  · rw [next]
    exact .inl ⟨rfl, rfl⟩
  · refine .inl ⟨by rw [next], ?_⟩
    rw [next]
    change monthDays day.year (day.month + 1) + 1 = monthDays day.year day.month + day.mday + 1
    rw [monthDays_succ _ valid.month_pos, last]
  · exact .inr ⟨Day.ofYear_december december last, next⟩

theorem rtcYearToDay_ge (year : Nat) : 365 ≤ rtcYearToDay year := by
  rw [rtcYearToDay]
  split
  · decide
  · exact Nat.le_refl _

/-- The days before a year in four-year cycles. -/
def cycleStart (year : Nat) : Nat := year / 4 * 1461 + cycleDays (year % 4)

/-- The length of a year in four-year cycles. -/
def cycleYear (year : Nat) : Nat := if year % 4 = 0 then 366 else 365

theorem cycleStart_succ (year : Nat) : cycleStart (year + 1) = cycleStart year + cycleYear year := by
  have fourths : year % 4 = 0 ∨ year % 4 = 1 ∨ year % 4 = 2 ∨ year % 4 = 3 := by omega
  unfold cycleStart cycleYear
  rcases fourths with r | r | r | r
  · have next : (year + 1) % 4 = 1 := by omega
    rw [r, next, if_pos rfl]
    simp only [cycleDays]
    omega
  · have next : (year + 1) % 4 = 2 := by omega
    rw [r, next, if_neg (by decide)]
    simp only [cycleDays]
    omega
  · have next : (year + 1) % 4 = 3 := by omega
    rw [r, next, if_neg (by decide)]
    simp only [cycleDays]
    omega
  · have next : (year + 1) % 4 = 0 := by omega
    rw [r, next, if_neg (by decide)]
    simp only [cycleDays]
    omega

/-- The first days of two years are as far apart as the first one is long. -/
theorem count_newYear {year : Nat} (leap : leapyear year = true ↔ year % 4 = 0) :
    cycleStart (year + 1) = cycleStart year + rtcYearToDay year := by
  have length : rtcYearToDay year = cycleYear year := if_congr leap rfl rfl
  rw [cycleStart_succ, length]

/-- A day that agrees with four-year cycles counts up by one. -/
theorem Day.count_next {day : Day} (valid : day.Valid) (plain : day.Plain) :
    (updateDays day).count = day.count + 1 := by
  rcases Day.ofYear_next valid with ⟨same, next⟩ | ⟨last, next⟩
  · rw [Day.count, Day.count, same, next]
    exact (Nat.add_assoc _ _ 1).symm
  · have long := rtcYearToDay_ge day.year
    have leap := plain.resolve_right (by omega)
    have first : Day.ofYear ⟨day.year + 1, 1, 1⟩ = 1 := rfl
    rw [next, Day.count, Day.count, first, last]
    exact congrArg (· + 1) (count_newYear leap)

/-! ## Four-year cycles -/

/-- The loop finds the only month that a day may be in. -/
theorem foldl_found {P : Nat → Prop} [DecidablePred P] {f : Nat → Nat × Nat} {months : List Nat}
    {month : Nat} (inside : month ∈ months) (holds : P month)
    (only_ : ∀ i ∈ months, P i → i = month) (old : Nat × Nat) :
    months.foldl (fun found i => if P i then f i else found) old = f month := by
  have stays : ∀ is : List Nat, (∀ i ∈ is, P i → i = month) →
      is.foldl (fun found i => if P i then f i else found) (f month) = f month := by
    intro is
    induction is with
    | nil => exact fun _ => rfl
    | cons i is ih =>
      intro each
      have rest := ih fun j there => each j (List.mem_cons_of_mem _ there)
      rw [List.foldl_cons]
      split
      case isTrue hit =>
        rw [each i List.mem_cons_self hit]
        exact rest
      case isFalse => exact rest
  induction months generalizing old with
  | nil => cases inside
  | cons i months ih =>
    rw [List.foldl_cons]
    have each := fun j there => only_ j (List.mem_cons_of_mem i there)
    split
    case isTrue hit =>
      rw [only_ i List.mem_cons_self hit]
      exact stays months each
    case isFalse miss =>
      rcases List.mem_cons.mp inside with rfl | later
      · exact absurd holds miss
      · exact ih later each old

/-- A table of the days before each month rises. -/
def Rising (table : List Nat) : Prop :=
  ∀ i < 12, ∀ j < 12, i < j → table.getD (i + 1) 0 ≤ table.getD j 0

/-- The month and the day of a number in a year. -/
theorem monthOfDays_eq {table : List Nat} (rising : Rising table) {month days : Nat}
    (low : 1 ≤ month) (high : month ≤ 12) (after : table.getD (month - 1) 0 < days)
    (upTo : days ≤ table.getD month 0) (old : Nat × Nat) :
    monthOfDays table days old = (month, days - table.getD (month - 1) 0) := by
  refine foldl_found (P := fun i => table.getD (i - 1) 0 < days ∧ days ≤ table.getD i 0)
    (List.mem_range'_1.mpr ⟨low, by omega⟩) ⟨after, upTo⟩ ?_ old
  intro i inside found
  have bounds := List.mem_range'_1.mp inside
  rcases Nat.lt_trichotomy i month with before | same | behind
  · have steps := rising (i - 1) (by omega) (month - 1) (by omega) (by omega)
    have index : i - 1 + 1 = i := by omega
    rw [index] at steps
    omega
  · exact same
  · have steps := rising (month - 1) (by omega) (i - 1) (by omega) (by omega)
    have index : month - 1 + 1 = month := by omega
    rw [index] at steps
    omega

theorem rising_tables : Rising leapMonthDays ∧ Rising notleapMonthDays := by
  unfold Rising
  constructor <;> decide

/-- The month and the day of a day's number in its year. -/
theorem monthOfDays_ofYear {day : Day} (valid : day.Valid) (old : Nat × Nat) :
    monthOfDays (if leapyear day.year then leapMonthDays else notleapMonthDays) day.ofYear old =
      (day.month, day.mday) := by
  have low := valid.month_pos
  have high := valid.month_le
  have start := valid.mday_pos
  have inside := valid.mday_le
  have before := monthDays_eq day.year low (by omega : day.month ≤ 13)
  have behind := monthDays_eq day.year (Nat.le_add_left 1 day.month) (by omega : day.month + 1 ≤ 13)
  rw [monthDays_succ day.year low, Nat.add_sub_cancel] at behind
  unfold Day.ofYear
  split at before
  case isTrue leap =>
    rw [if_pos leap] at behind ⊢
    rw [monthOfDays_eq rising_tables.1 low high (by omega) (by omega)]
    rw [before, Nat.add_sub_cancel_left]
  case isFalse noleap =>
    rw [if_neg noleap] at behind ⊢
    rw [monthOfDays_eq rising_tables.2 low high (by omega) (by omega)]
    rw [before, Nat.add_sub_cancel_left]

/-- Up to the end of February both tables agree. -/
theorem monthOfDays_early {day : Day} (valid : day.Valid) (early : day.ofYear ≤ 59)
    (old : Nat × Nat) : monthOfDays leapMonthDays day.ofYear old = (day.month, day.mday) := by
  have either := monthOfDays_ofYear valid old
  split at either
  · exact either
  case isFalse noleap =>
    have start := valid.mday_pos
    have before := monthDays_eq day.year valid.month_pos (by have := valid.month_le; omega)
    rw [if_neg noleap] at before
    have tables : ∀ m < 13, 1 ≤ m → notleapMonthDays.getD (m - 1) 0 < 59 → m ≤ 2 := by decide
    unfold Day.ofYear at early
    have months := tables day.month (Nat.lt_succ_of_le valid.month_le) valid.month_pos (by omega)
    have cases_ : day.month = 1 ∨ day.month = 2 := by
      have := valid.month_pos
      omega
    have inside := valid.mday_le
    unfold Day.ofYear
    rcases cases_ with january | february
    · have table : notleapMonthDays.getD (1 - 1) 0 = 0 := rfl
      rw [january, table] at before
      have short := (rtcMonthdayNum_lt day.year valid.month_pos valid.month_le).2
      have found := monthOfDays_eq rising_tables.1 (by decide : 1 ≤ 1) (by decide)
        (by change 0 < day.mday; omega) (by change day.mday ≤ 31; omega) old
      rw [january, before, Nat.zero_add, found]
      rfl
    · have table : notleapMonthDays.getD (2 - 1) 0 = 31 := rfl
      rw [february, table] at before
      rw [february, before] at early
      have found := monthOfDays_eq rising_tables.1 (by decide : 1 ≤ 2) (by decide)
        (by change 31 < 31 + day.mday; omega) (by change 31 + day.mday ≤ 60; omega) old
      rw [february, before, found]
      change (2, 31 + day.mday - 31) = (2, day.mday)
      rw [Nat.add_sub_cancel_left]

theorem Day.ofYear_pos {day : Day} (valid : day.Valid) : 1 ≤ day.ofYear :=
  Nat.le_trans valid.mday_pos (Nat.le_add_left _ _)

theorem Day.ofYear_le {day : Day} (valid : day.Valid) : day.ofYear ≤ rtcYearToDay day.year := by
  have low := valid.month_pos
  have high := valid.month_le
  have inside := valid.mday_le
  have behind := monthDays_eq day.year (Nat.le_add_left 1 day.month) (by omega : day.month + 1 ≤ 13)
  rw [monthDays_succ day.year low, Nat.add_sub_cancel] at behind
  have tables : ∀ m < 13, leapMonthDays.getD m 0 ≤ 366 ∧ notleapMonthDays.getD m 0 ≤ 365 := by
    decide
  have bounds := tables day.month (by omega)
  rw [Day.ofYear, rtcYearToDay]
  split at behind
  case isTrue leap =>
    rw [if_pos leap]
    omega
  case isFalse noleap =>
    rw [if_neg noleap]
    omega

/-- Inside a cycle the number of days gives the year and the number in it. -/
theorem rtcDaysToYeardays_cycle (cycle : Nat) {days : Nat} (pos : 1 ≤ days) (below : days < 1461)
    (old : Nat × Nat × Nat) : rtcDaysToYeardays (cycle * 1461 + days) old =
      if days ≤ 366 then (cycle * 4, monthOfDays leapMonthDays days old.2)
      else if days ≤ 731 then (cycle * 4 + 1, monthOfDays notleapMonthDays (days - 366) old.2)
      else if days ≤ 1096 then (cycle * 4 + 2, monthOfDays notleapMonthDays (days - 731) old.2)
      else (cycle * 4 + 3, monthOfDays notleapMonthDays (days - 1096) old.2) := by
  have quotient : (cycle * 1461 + days) / 1461 = cycle := by omega
  have remainder : (cycle * 1461 + days) % 1461 = days := by omega
  have some_ : cycle * 1461 + days ≠ 0 := by omega
  unfold rtcDaysToYeardays
  dsimp only
  rw [quotient, remainder, if_neg some_, if_neg (Nat.ne_of_gt pos)]

/-- The last day of a cycle. -/
theorem rtcDaysToYeardays_last {cycle : Nat} (small : cycle < 2 ^ 29) (old : Nat × Nat × Nat) :
    rtcDaysToYeardays (cycle * 1461 + 1461) old = (cycle * 4 + 3, 12, 31) := by
  have quotient : (cycle * 1461 + 1461) / 1461 = cycle + 1 := by omega
  have remainder : (cycle * 1461 + 1461) % 1461 = 0 := by omega
  have some_ : cycle * 1461 + 1461 ≠ 0 := by omega
  have year : toU32 (((cycle + 1) * 4 : Nat) - 1) = cycle * 4 + 3 := by
    unfold toU32
    omega
  unfold rtcDaysToYeardays
  dsimp only
  rw [quotient, remainder, if_neg some_, if_pos rfl, year]

/-- A day that agrees with four-year cycles is found by its number. -/
theorem rtcDaysToYeardays_count {day : Day} (valid : day.Valid) (plain : day.Plain)
    (small : day.year < 2 ^ 31) (old : Nat × Nat × Nat) :
    rtcDaysToYeardays day.count old = (day.year, day.month, day.mday) := by
  have first := Day.ofYear_pos valid
  have last := Day.ofYear_le valid
  have found := monthOfDays_ofYear valid old.2
  have fourths : day.year % 4 = 0 ∨ day.year % 4 = 1 ∨ day.year % 4 = 2 ∨ day.year % 4 = 3 := by
    omega
  have count : day.count = day.year / 4 * 1461 + (cycleDays (day.year % 4) + day.ofYear) :=
    Nat.add_assoc _ _ _
  rw [count]
  rw [rtcYearToDay] at last
  have noleap (other : day.year % 4 ≠ 0) : ¬ leapyear day.year = true := fun leap =>
    other (leapyear_four leap)
  rcases fourths with r | r | r | r
  · have year : day.year / 4 * 4 = day.year := by omega
    have short : day.ofYear ≤ 366 := by
      split at last
      · exact last
      · omega
    have month : monthOfDays leapMonthDays day.ofYear old.2 = (day.month, day.mday) := by
      rcases plain with leap | early
      · rw [if_pos (leap.mpr r)] at found
        exact found
      · exact monthOfDays_early valid early old.2
    rw [r]
    simp only [cycleDays, Nat.zero_add]
    rw [rtcDaysToYeardays_cycle _ first (by omega), if_pos short, month, year]
  · have year : day.year / 4 * 4 + 1 = day.year := by omega
    have none_ := noleap (by omega)
    rw [if_neg none_] at found last
    rw [r]
    simp only [cycleDays]
    rw [rtcDaysToYeardays_cycle _ (by omega) (by omega), if_neg (by omega), if_pos (by omega),
      Nat.add_sub_cancel_left, found, year]
  · have year : day.year / 4 * 4 + 2 = day.year := by omega
    have none_ := noleap (by omega)
    rw [if_neg none_] at found last
    rw [r]
    simp only [cycleDays]
    rw [rtcDaysToYeardays_cycle _ (by omega) (by omega), if_neg (by omega), if_neg (by omega),
      if_pos (by omega), Nat.add_sub_cancel_left, found, year]
  · have year : day.year / 4 * 4 + 3 = day.year := by omega
    have none_ := noleap (by omega)
    rw [if_neg none_] at found last
    rw [r]
    simp only [cycleDays]
    by_cases end_ : day.ofYear = 365
    · rw [end_] at found ⊢
      have december : monthOfDays notleapMonthDays 365 old.2 = (12, 31) :=
        monthOfDays_eq rising_tables.2 (by decide) (by decide) (by decide) (by decide) old.2
      rw [rtcDaysToYeardays_last (by omega), year, ← found, december]
    · rw [rtcDaysToYeardays_cycle _ (by omega) (by omega), if_neg (by omega), if_neg (by omega),
        if_neg (by omega), Nat.add_sub_cancel_left, found, year]

theorem Day.count_lt {day : Day} (valid : day.Valid) (small : day.year < 2 ^ 20) :
    day.count < 2 ^ 32 := by
  have last := Day.ofYear_le valid
  have long : rtcYearToDay day.year ≤ 366 := by
    rw [rtcYearToDay]
    split
    · exact Nat.le_refl _
    · decide
  have cycle : cycleDays (day.year % 4) ≤ 1096 := by
    unfold cycleDays
    split <;> decide
  unfold Day.count
  omega

/-- `rtc_yeardays_to_days` gives the number of a day. -/
theorem rtcYeardaysToDays_eq {day : Day} (valid : day.Valid) (small : day.year < 2 ^ 20) :
    rtcYeardaysToDays day.year day.month day.mday = day.count := by
  have few := Day.count_lt valid small
  have whole {cycle : Nat} (is : cycleDays (day.year % 4) = cycle) :
      (day.year / 4 * 1461 + cycle + monthDays day.year day.month + day.mday) % 2 ^ 32 =
        day.count := by
    rw [Day.count, is] at few ⊢
    rw [Nat.add_assoc (_ + _)]
    exact Nat.mod_eq_of_lt few
  have fourths : day.year % 4 = 0 ∨ day.year % 4 = 1 ∨ day.year % 4 = 2 ∨ day.year % 4 = 3 := by
    omega
  unfold rtcYeardaysToDays
  dsimp only
  rcases fourths with r | r | r | r
  · rw [r]
    have none_ := whole (by rw [r]; rfl : _ = 0)
    rwa [Nat.add_zero] at none_
  · rw [r]
    exact whole (by rw [r]; rfl)
  · rw [r]
    exact whole (by rw [r]; rfl)
  · rw [r]
    exact whole (by rw [r]; rfl)

/-! ## The days from a first one on -/

/-- The day `n` days behind `first`. -/
def dayAt (first : Day) : (n : Nat) → Day
  | 0 => first
  | n + 1 => updateDays (dayAt first n)

theorem dayAt_succ (first : Day) (n : Nat) : dayAt first (n + 1) = updateDays (dayAt first n) :=
  rfl

theorem dayAt_valid {first : Day} (valid : first.Valid) (n : Nat) : (dayAt first n).Valid := by
  induction n with
  | zero => exact valid
  | succ n ih =>
    rw [dayAt_succ]
    exact ih.next

/-- The number of a day goes up with the days, while they agree with four-year cycles. -/
theorem dayAt_count {first : Day} (valid : first.Valid) {n m : Nat}
    (plain : ∀ i, n ≤ i → i < n + m → (dayAt first i).Plain) :
    (dayAt first (n + m)).count = (dayAt first n).count + m := by
  induction m with
  | zero => rw [Nat.add_zero, Nat.add_zero]
  | succ m ih =>
    have before := ih fun i low high => plain i low (by omega)
    rw [← Nat.add_assoc, dayAt_succ,
      Day.count_next (dayAt_valid valid _) (plain (n + m) (by omega) (by omega)), before]
    exact Nat.add_assoc _ _ _

/-- A year begins at most with each day. -/
theorem dayAt_year {first : Day} (valid : first.Valid) (n m : Nat) :
    (dayAt first n).year ≤ (dayAt first (n + m)).year ∧
      (dayAt first (n + m)).year ≤ (dayAt first n).year + m := by
  induction m with
  | zero =>
    rw [Nat.add_zero, Nat.add_zero]
    exact ⟨Nat.le_refl _, Nat.le_refl _⟩
  | succ m ih =>
    rw [← Nat.add_assoc, dayAt_succ]
    rcases Day.ofYear_next (dayAt_valid valid (n + m)) with ⟨same, -⟩ | ⟨-, next⟩
    · rw [same]
      omega
    · rw [next]
      dsimp only
      omega

end Rtc

end Tr6260
