import Mathlib.Order.Basic

/-!
# The Gregorian calendar

Dates by their year, month and day, the number of each counted from the first day of the year 0, and
the day after each. Numbers and dates determine one another, and the day after a date is the next
number, so that a program that counts days and one that steps from date to date can be compared.
-/

namespace Gregorian

/-- A leap year. -/
def Leap (year : Nat) : Prop := year % 4 = 0 ∧ year % 100 ≠ 0 ∨ year % 400 = 0

instance (year : Nat) : Decidable (Leap year) := inferInstanceAs (Decidable (_ ∨ _))

def yearLength (year : Nat) : Nat := if Leap year then 366 else 365

def monthLength (year month : Nat) : Nat :=
  if month = 2 then
    if Leap year then 29 else 28
  else if month = 4 ∨ month = 6 ∨ month = 9 ∨ month = 11 then
    30
  else
    31

/-- The days of the years before a year. -/
def yearStart : Nat → Nat
  | 0 => 0
  | year + 1 => yearStart year + yearLength year

/-- The days of a year before a month. -/
def monthStart (year : Nat) : Nat → Nat
  | 0 => 0
  | 1 => 0
  | month + 2 => monthStart year (month + 1) + monthLength year (month + 1)

structure Date where
  year : Nat
  month : Nat
  day : Nat
  deriving DecidableEq

/-- A day that there is. -/
structure Date.Valid (date : Date) : Prop where
  month : 1 ≤ date.month ∧ date.month ≤ 12
  day : 1 ≤ date.day ∧ date.day ≤ monthLength date.year date.month

/-- The days before a date. -/
def Date.number (date : Date) : Nat :=
  yearStart date.year + monthStart date.year date.month + (date.day - 1)

/-- The day after. -/
def Date.next (date : Date) : Date :=
  if date.day < monthLength date.year date.month then
    { date with day := date.day + 1 }
  else if date.month < 12 then
    ⟨date.year, date.month + 1, 1⟩
  else
    ⟨date.year + 1, 1, 1⟩

/-- The day of the week with this number, Monday as 0. -/
def weekday (number : Nat) : Nat := (number + 5) % 7

/-! ## Years and months -/

theorem yearLength_bounds (year : Nat) : 365 ≤ yearLength year ∧ yearLength year ≤ 366 := by
  unfold yearLength
  split <;> decide

theorem monthLength_bounds (year month : Nat) :
    28 ≤ monthLength year month ∧ monthLength year month ≤ 31 := by
  unfold monthLength
  split
  · split <;> decide
  · split <;> decide

theorem yearStart_eq (year : Nat) :
    yearStart year = 365 * year + (year + 3) / 4 + (year + 399) / 400 - (year + 99) / 100 := by
  induction year with
  | zero => rfl
  | succ year ih =>
    rw [yearStart, ih]
    by_cases leap : Leap year
    · rw [yearLength, if_pos leap]
      unfold Leap at leap
      omega
    · rw [yearLength, if_neg leap]
      unfold Leap at leap
      omega

theorem yearStart_le {year year' : Nat} (later : year ≤ year') :
    yearStart year ≤ yearStart year' := by
  induction later with
  | refl => exact Nat.le_refl _
  | step _ ih => exact Nat.le_trans ih (Nat.le_add_right _ _)

theorem monthStart_succ (year : Nat) {month : Nat} (low : 1 ≤ month) :
    monthStart year (month + 1) = monthStart year month + monthLength year month := by
  cases month with
  | zero => cases low
  | succ month => rfl

theorem monthStart_le (year : Nat) {month month' : Nat} (later : month ≤ month') :
    monthStart year month ≤ monthStart year month' := by
  induction later with
  | refl => exact Nat.le_refl _
  | @step month' _ ih =>
    refine Nat.le_trans ih ?_
    cases month' with
    | zero => exact Nat.le_refl _
    | succ month' => exact Nat.le_add_right _ _

/-- The months make up the year. -/
theorem monthStart_end (year : Nat) : monthStart year 13 = yearLength year := by
  by_cases leap : Leap year
  · simp [monthStart, monthLength, yearLength, leap]
  · simp [monthStart, monthLength, yearLength, leap]

/-! ## Dates and numbers -/

namespace Date

variable {date date' : Date}

/-- The days of its month that have begun. -/
theorem Valid.number_month (valid : date.Valid) :
    yearStart date.year + monthStart date.year date.month ≤ date.number ∧
      date.number < yearStart date.year + monthStart date.year (date.month + 1) := by
  have day := valid.day
  rw [monthStart_succ _ valid.month.1]
  unfold number
  omega

theorem Valid.number_year (valid : date.Valid) :
    yearStart date.year ≤ date.number ∧ date.number < yearStart (date.year + 1) := by
  have inside := valid.number_month
  have last := monthStart_le date.year (Nat.succ_le_succ valid.month.2)
  rw [Nat.succ_eq_add_one, Nat.succ_eq_add_one, monthStart_end] at last
  rw [yearStart]
  omega

/-- Dates of earlier years are those with the earlier numbers. -/
theorem Valid.year_lt_iff (valid : date.Valid) (year : Nat) :
    date.year < year ↔ date.number < yearStart year := by
  have bounds := valid.number_year
  constructor
  · intro before
    exact Nat.lt_of_lt_of_le bounds.2 (yearStart_le before)
  · intro before
    by_contra late
    have := yearStart_le (Nat.le_of_not_lt late)
    omega

/-- A number is that of one date. -/
theorem Valid.number_inj (valid : date.Valid) (valid' : date'.Valid)
    (same : date.number = date'.number) : date = date' := by
  have year : date.year = date'.year := by
    have bounds := valid.number_year
    have bounds' := valid'.number_year
    rcases Nat.lt_trichotomy date.year date'.year with before | same | after
    · have := yearStart_le before
      rw [Nat.succ_eq_add_one] at this
      omega
    · exact same
    · have := yearStart_le after
      rw [Nat.succ_eq_add_one] at this
      omega
  have month : date.month = date'.month := by
    have bounds := valid.number_month
    have bounds' := valid'.number_month
    rw [← year] at bounds'
    rcases Nat.lt_trichotomy date.month date'.month with before | same | after
    · have := monthStart_le date.year before
      rw [Nat.succ_eq_add_one] at this
      omega
    · exact same
    · have := monthStart_le date.year after
      rw [Nat.succ_eq_add_one] at this
      omega
  have day : date.day = date'.day := by
    have low := valid.day.1
    have low' := valid'.day.1
    unfold number at same
    rw [year, month] at same
    omega
  cases date
  cases date'
  cases year
  cases month
  cases day
  rfl

theorem Valid.next (valid : date.Valid) : date.next.Valid := by
  have month := valid.month
  have day := valid.day
  unfold Date.next
  split
  case isTrue more => exact ⟨month, Nat.le_add_left _ _, more⟩
  split
  case isTrue more =>
    have := (monthLength_bounds date.year (date.month + 1)).1
    exact ⟨⟨Nat.le_add_left _ _, more⟩, Nat.le_refl _, by dsimp only; omega⟩
  · have := (monthLength_bounds (date.year + 1) 1).1
    exact ⟨⟨Nat.le_refl _, by dsimp only; omega⟩, Nat.le_refl _, by dsimp only; omega⟩

/-- The day after has the next number. -/
theorem Valid.number_next (valid : date.Valid) : date.next.number = date.number + 1 := by
  have month := valid.month
  have day := valid.day
  have start := monthStart_succ date.year month.1
  unfold Date.next
  split
  case isTrue more =>
    unfold number
    dsimp only
    omega
  split
  case isTrue more =>
    unfold number
    dsimp only
    omega
  · have last : date.month = 12 := by omega
    have whole : monthStart date.year (date.month + 1) = yearLength date.year := by
      rw [last]
      exact monthStart_end date.year
    unfold number
    change yearStart date.year + yearLength date.year + 0 + 0 = _
    omega

/-- The last day of a year. -/
def yearEnd (year : Nat) : Date := ⟨year, 12, 31⟩

theorem yearEnd_valid (year : Nat) : (yearEnd year).Valid :=
  ⟨⟨Nat.le_add_left 1 11, Nat.le_refl 12⟩, ⟨Nat.le_add_left 1 30, Nat.le_refl 31⟩⟩

theorem yearEnd_number (year : Nat) : (yearEnd year).number + 1 = yearStart (year + 1) := by
  have whole := monthStart_end year
  have last : monthStart year 13 = monthStart year 12 + monthLength year 12 := rfl
  have december : monthLength year 12 = 31 := rfl
  rw [yearStart, ← whole]
  unfold number yearEnd
  dsimp only
  omega

/-- Every number is that of a date. -/
theorem exists_number (n : Nat) : ∃ date : Date, date.Valid ∧ date.number = n := by
  induction n with
  | zero => exact ⟨⟨0, 1, 1⟩, ⟨by decide, by decide⟩, rfl⟩
  | succ n ih =>
    rcases ih with ⟨date, valid, number⟩
    exact ⟨date.next, valid.next, by rw [valid.number_next, number]⟩

end Date

end Gregorian
