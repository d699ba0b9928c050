import Tr6260.Rtc.Calendar

/-!
# The date at a time

Times are counted in milliseconds from the midnight of a first day on. The packed dates of the times
are in the order of the times, and `rtc_date_add` goes from one to another.
-/

namespace Tr6260

namespace Rtc

/-! ## The fields of a packed date -/

section Fields

variable {year month day hour min sec cnt : Nat}

/-- The fields of a packed date fit into their bits. -/
structure FieldsFit (year month day hour min sec cnt : Nat) : Prop where
  year : year < 2 ^ 23
  month : month < 16
  day : day < 32
  hour : hour < 32
  min : min < 64
  sec : sec < 64
  cnt : cnt < 32768

/-- A day in front of a time of day. -/
theorem FieldsFit.package_eq (fit : FieldsFit year month day hour min sec cnt) :
    rtcDatePackage year month day hour min sec cnt =
      ((year * 16 + month) * 32 + day) * 2 ^ 32 +
        (hour * 2 ^ 27 + min * 2 ^ 21 + sec * 2 ^ 15 + cnt) := by
  rw [rtcDatePackage_eq fit.year fit.month fit.day fit.hour fit.min fit.sec fit.cnt]
  omega

theorem FieldsFit.time_lt (fit : FieldsFit year month day hour min sec cnt) :
    hour * 2 ^ 27 + min * 2 ^ 21 + sec * 2 ^ 15 + cnt < 2 ^ 32 := by
  have := fit.hour
  have := fit.min
  have := fit.sec
  have := fit.cnt
  omega

theorem FieldsFit.package_lt (fit : FieldsFit year month day hour min sec cnt) :
    rtcDatePackage year month day hour min sec cnt < 2 ^ 64 := by
  have days : (year * 16 + month) * 32 + day < 2 ^ 32 := by
    have := fit.year
    have := fit.month
    have := fit.day
    omega
  rw [fit.package_eq]
  calc _ < ((year * 16 + month) * 32 + day) * 2 ^ 32 + 2 ^ 32 := Nat.add_lt_add_left fit.time_lt _
    _ = ((year * 16 + month) * 32 + day + 1) * 2 ^ 32 := (Nat.succ_mul _ _).symm
    _ ≤ 2 ^ 32 * 2 ^ 32 := Nat.mul_le_mul_right _ days
    _ = 2 ^ 64 := (Nat.pow_add 2 32 32).symm

theorem FieldsFit.unpackYear (fit : FieldsFit year month day hour min sec cnt) :
    unpackYear (rtcDatePackage year month day hour min sec cnt) = year := by
  have := fit.month
  have := fit.day
  have := fit.time_lt
  rw [fit.package_eq, Rtc.unpackYear, Nat.shiftRight_eq_div_pow]
  omega

theorem FieldsFit.unpackMonth (fit : FieldsFit year month day hour min sec cnt) :
    unpackMonth (rtcDatePackage year month day hour min sec cnt) = month := by
  have := fit.month
  have := fit.day
  have := fit.time_lt
  rw [fit.package_eq, unpackMonth_eq]
  omega

theorem FieldsFit.unpackDay (fit : FieldsFit year month day hour min sec cnt) :
    unpackDay (rtcDatePackage year month day hour min sec cnt) = day := by
  have := fit.day
  have := fit.time_lt
  rw [fit.package_eq, unpackDay_eq]
  omega

theorem FieldsFit.unpackHour (fit : FieldsFit year month day hour min sec cnt) :
    unpackHour (rtcDatePackage year month day hour min sec cnt) = hour := by
  have := fit.hour
  have := fit.min
  have := fit.sec
  have := fit.cnt
  rw [fit.package_eq, unpackHour_eq]
  omega

theorem FieldsFit.unpackMin (fit : FieldsFit year month day hour min sec cnt) :
    unpackMin (rtcDatePackage year month day hour min sec cnt) = min := by
  have := fit.min
  have := fit.sec
  have := fit.cnt
  rw [fit.package_eq, unpackMin_eq]
  omega

theorem FieldsFit.unpackSec (fit : FieldsFit year month day hour min sec cnt) :
    unpackSec (rtcDatePackage year month day hour min sec cnt) = sec := by
  have := fit.sec
  have := fit.cnt
  rw [fit.package_eq, unpackSec_eq]
  omega

theorem FieldsFit.unpackMs (fit : FieldsFit year month day hour min sec cnt) :
    unpackMs (rtcDatePackage year month day hour min sec cnt) = cnt := by
  rw [unpackMs_package]
  exact Nat.mod_eq_of_lt fit.cnt

end Fields

/-! ## Times -/

/-- The milliseconds of a day. -/
def dayMs : Nat := 86400000

/-- A time on a day, packed. -/
def Day.at (day : Day) (ms : Nat) : Nat :=
  rtcDatePackage day.year day.month day.mday (ms / 3600000) (ms / 60000 % 60) (ms / 1000 % 60)
    (ms % 1000)

/-- The packed date of a time from the midnight of `first` on. -/
def dateAt (first : Day) (time : Nat) : Nat := (dayAt first (time / dayMs)).at (time % dayMs)

theorem Day.fit {day : Day} (valid : day.Valid) (small : day.year < 2 ^ 23) {ms : Nat}
    (inside : ms < dayMs) : FieldsFit day.year day.month day.mday (ms / 3600000) (ms / 60000 % 60)
      (ms / 1000 % 60) (ms % 1000) := by
  have := valid.month_le
  have short := (rtcMonthdayNum_lt day.year valid.month_pos valid.month_le).2
  have := valid.mday_le
  unfold dayMs at inside
  constructor <;> omega

/-- The order of the days of a calendar. -/
def Day.code (day : Day) : Nat := (day.year * 16 + day.month) * 32 + day.mday

theorem Day.code_next {day : Day} (valid : day.Valid) : day.code < (updateDays day).code := by
  have := valid.month_le
  have short := (rtcMonthdayNum_lt day.year valid.month_pos valid.month_le).2
  have := valid.mday_le
  rcases updateDays_cases valid with ⟨-, next⟩ | ⟨-, -, next⟩ | ⟨-, -, next⟩
  · rw [next, Day.code, Day.code]
    exact Nat.lt_succ_self _
  · rw [next, Day.code, Day.code]
    dsimp only
    omega
  · rw [next, Day.code, Day.code]
    dsimp only
    omega

theorem dayAt_code_lt {first : Day} (valid : first.Valid) {n m : Nat} (later : n < m) :
    (dayAt first n).code < (dayAt first m).code := by
  induction m with
  | zero => cases later
  | succ m ih =>
    have step := Day.code_next (dayAt_valid valid m)
    rw [dayAt_succ]
    rcases Nat.lt_or_eq_of_le (Nat.le_of_lt_succ later) with before | same
    · exact Nat.lt_trans (ih before) step
    · rw [same]
      exact step

/-- The order of the times of a day. -/
theorem time_lt {ms ms' : Nat} (later : ms < ms') :
    ms / 3600000 * 2 ^ 27 + ms / 60000 % 60 * 2 ^ 21 + ms / 1000 % 60 * 2 ^ 15 + ms % 1000 <
      ms' / 3600000 * 2 ^ 27 + ms' / 60000 % 60 * 2 ^ 21 + ms' / 1000 % 60 * 2 ^ 15 +
        ms' % 1000 := by
  -- hours, minutes, seconds and milliseconds, from the whole parts
  have parts (x : Nat) : x / 60000 = 60 * (x / 3600000) + x / 60000 % 60 ∧
      x / 1000 = 60 * (x / 60000) + x / 1000 % 60 ∧ x = 1000 * (x / 1000) + x % 1000 := by omega
  rcases parts ms with ⟨h, m, s⟩
  rcases parts ms' with ⟨h', m', s'⟩
  omega

theorem code_lt {code code' time time' : Nat} (before : code < code') (short : time < 2 ^ 32) :
    code * 2 ^ 32 + time < code' * 2 ^ 32 + time' := by
  omega

/-- Packed dates are in the order of the times. -/
theorem dateAt_lt {first : Day} (valid : first.Valid) {time time' : Nat} (later : time < time')
    (small : (dayAt first (time' / dayMs)).year < 2 ^ 23) :
    dateAt first time < dateAt first time' := by
  have inside (t : Nat) : t % dayMs < dayMs := Nat.mod_lt _ (by decide)
  have days : time / dayMs ≤ time' / dayMs := Nat.div_le_div_right (Nat.le_of_lt later)
  have small' : (dayAt first (time / dayMs)).year < 2 ^ 23 := by
    rcases Nat.exists_eq_add_of_le days with ⟨m, more⟩
    have grows := (dayAt_year valid (time / dayMs) m).1
    rw [← more] at grows
    exact Nat.lt_of_le_of_lt grows small
  have fit := Day.fit (dayAt_valid valid (time / dayMs)) small' (inside time)
  have fit' := Day.fit (dayAt_valid valid (time' / dayMs)) small (inside time')
  have short := fit.time_lt
  rw [dateAt, dateAt, Day.at, Day.at, fit.package_eq, fit'.package_eq]
  rcases Nat.lt_or_eq_of_le days with before | same
  · have codes := dayAt_code_lt valid before
    exact code_lt codes short
  · have rest : time % dayMs < time' % dayMs := by
      have whole := Nat.div_add_mod time dayMs
      have whole' := Nat.div_add_mod time' dayMs
      rw [same] at whole
      omega
    rw [same]
    exact Nat.add_lt_add_left (time_lt rest) _

/-! ## Sums -/

/-- A duration as it is packed for a countdown. -/
structure Duration where
  days : Nat
  hours : Nat
  mins : Nat
  secs : Nat

/-- The fields of a duration fit into their bits. -/
structure Duration.Fits (d : Duration) : Prop where
  days : d.days < 32
  hours : d.hours < 32
  mins : d.mins < 64
  secs : d.secs < 64

/-- `set_date` of a countdown. -/
def Duration.date (d : Duration) : Nat := rtcDatePackage 0 0 d.days d.hours d.mins d.secs 0

/-- The seconds of a duration. -/
def Duration.seconds (d : Duration) : Nat := d.days * 86400 + d.hours * 3600 + d.mins * 60 + d.secs

theorem Duration.Fits.fields {d : Duration} (fits : d.Fits) :
    FieldsFit 0 0 d.days d.hours d.mins d.secs 0 :=
  ⟨by decide, by decide, fits.days, fits.hours, fits.mins, fits.secs, by decide⟩

/-- The whole seconds of a time. -/
def wholeSeconds (time : Nat) : Nat := time / 1000 * 1000

/-- Hours, minutes and seconds of a time of day. -/
theorem timeOfDay_parts {hour min sec : Nat} (h : hour < 24) (m : min < 60) (s : sec < 60) :
    let ms := 3600000 * hour + 60000 * min + 1000 * sec
    ms < dayMs ∧ ms / 3600000 = hour ∧ ms / 60000 % 60 = min ∧ ms / 1000 % 60 = sec ∧
      ms % 1000 = 0 := by
  unfold dayMs
  dsimp only
  omega

/-- The carries of `rtc_date_add`. -/
theorem date_carries (day hour min sec : Nat) (d : Duration) :
    let sec' := sec + d.secs
    let min' := min + d.mins + sec' / 60
    let hour' := hour + d.hours + min' / 60
    dayMs * day + (3600000 * hour + 60000 * min + 1000 * sec) + 1000 * d.seconds =
      dayMs * (day + (d.days + hour' / 24)) +
        (3600000 * (hour' % 24) + 60000 * (min' % 60) + 1000 * (sec' % 60)) := by
  unfold dayMs Duration.seconds
  dsimp only
  omega

/-- The parts of a time. -/
theorem time_parts (time : Nat) :
    let ms := time % dayMs
    ms / 3600000 < 24 ∧ wholeSeconds time = dayMs * (time / dayMs) +
      (3600000 * (ms / 3600000) + 60000 * (ms / 60000 % 60) + 1000 * (ms / 1000 % 60)) := by
  unfold dayMs wholeSeconds
  dsimp only
  omega

theorem rtcYeardaysToDays_days {days : Nat} (small : days < 32) :
    rtcYeardaysToDays 0 0 days = days := by
  have table : ∀ d < 32, rtcYeardaysToDays 0 0 d = d := by decide
  exact table days small

/-- Where the days up to the sum agree with four-year cycles, `rtc_date_add` adds a duration to the
whole seconds of a time. -/
theorem rtcDateAdd_dateAt {first : Day} (valid : first.Valid) {d : Duration} (fits : d.Fits)
    {time : Nat} (small : (dayAt first (time / dayMs)).year < 65536)
    (plain : ∀ i, time / dayMs ≤ i → i ≤ (wholeSeconds time + 1000 * d.seconds) / dayMs →
      (dayAt first i).Plain) :
    rtcDateAdd (dateAt first time) d.date =
      dateAt first (wholeSeconds time + 1000 * d.seconds) := by
  have fields := fits.fields
  have valid₀ := dayAt_valid valid (time / dayMs)
  have fit := Day.fit valid₀ (by omega) (Nat.mod_lt time (by decide : 0 < dayMs))
  rcases time_parts time with ⟨hourLt, whole⟩
  have carries := date_carries (time / dayMs) (time % dayMs / 3600000) (time % dayMs / 60000 % 60)
    (time % dayMs / 1000 % 60) d
  dsimp only at hourLt whole carries
  rw [← whole] at carries
  rw [rtcDateAdd, dateAt, Day.at, Duration.date]
  dsimp only
  rw [fields.unpackYear, fields.unpackMonth, fields.unpackDay, fields.unpackHour, fields.unpackMin,
    fields.unpackSec, fields.unpackMs, fit.unpackYear, fit.unpackMonth, fit.unpackDay,
    fit.unpackHour, fit.unpackMin, fit.unpackSec, fit.unpackMs, rtcYeardaysToDays_days fits.days,
    rtcYeardaysToDays_eq valid₀ (by omega), Nat.add_zero,
    Nat.div_eq_of_lt (Nat.mod_lt (time % dayMs) (by decide : 0 < 1000)), Nat.add_zero]
  have days := fits.days
  have few : d.days + (time % dayMs / 3600000 + d.hours +
      (time % dayMs / 60000 % 60 + d.mins +
        (time % dayMs / 1000 % 60 + d.secs) / 60) / 60) / 24 < 99 := by
    have := fits.hours
    have := fits.mins
    have := fits.secs
    omega
  generalize time % dayMs / 1000 % 60 + d.secs = sec at carries few ⊢
  generalize time % dayMs / 60000 % 60 + d.mins + sec / 60 = min at carries few ⊢
  generalize time % dayMs / 3600000 + d.hours + min / 60 = hour at carries few ⊢
  rcases timeOfDay_parts (Nat.mod_lt hour (by decide : 0 < 24))
    (Nat.mod_lt min (by decide : 0 < 60)) (Nat.mod_lt sec (by decide : 0 < 60))
    with ⟨inside, h, m, s, ms⟩
  rw [carries] at plain ⊢
  have quotient := Nat.mul_add_div (by decide : 0 < dayMs) (time / dayMs + (d.days + hour / 24))
    (3600000 * (hour % 24) + 60000 * (min % 60) + 1000 * (sec % 60))
  rw [Nat.div_eq_of_lt inside, Nat.add_zero] at quotient
  rw [quotient] at plain
  rw [dateAt, quotient, Nat.mul_add_mod, Nat.mod_eq_of_lt inside, Day.at, h, m, s, ms]
  -- the day of the sum
  have valid₁ := dayAt_valid valid (time / dayMs + (d.days + hour / 24))
  have small₁ := (dayAt_year valid (time / dayMs) (d.days + hour / 24)).2
  have counted := dayAt_count valid fun i low high => plain i low (Nat.le_of_lt high)
  have plain₁ := plain _ (Nat.le_add_right _ _) (Nat.le_refl _)
  have total : d.days + (dayAt first (time / dayMs)).count + hour / 24 =
      (dayAt first (time / dayMs + (d.days + hour / 24))).count := by
    rw [counted]
    omega
  rw [total, Nat.mod_eq_of_lt (Day.count_lt valid₁ (by omega)),
    rtcDaysToYeardays_count valid₁ plain₁ (by omega)]

end Rtc

end Tr6260
