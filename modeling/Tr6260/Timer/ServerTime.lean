import Tr6260.Timer.CloudTime

/-!
# The time of the server

What `device_handle_severtime_set` makes of the seven numbers of a message. A number is cut off to
the width of its field before it is compared with the bounds of the field, and the day of the month
is compared with 31 whatever the month.
-/

namespace Tr6260

open Gregorian CString

/-! ## Messages -/

/-- The numbers of a message. -/
inductive TimeField
  | year
  | month
  | day
  | hour
  | minute
  | second
  | week
  deriving DecidableEq

namespace TimeField

def name : TimeField → List UInt8
  | year => CString.ascii ['y', 'e', 'a', 'r']
  | month => CString.ascii ['m', 'o', 'n', 't', 'h']
  | day => CString.ascii ['d', 'a', 'y']
  | hour => CString.ascii ['h', 'o', 'u', 'r']
  | minute => CString.ascii ['m', 'i', 'n', 'u', 't', 'e']
  | second => CString.ascii ['s', 'e', 'c', 'o', 'n', 'd']
  | week => CString.ascii ['w', 'e', 'e', 'k']

def low : TimeField → Nat
  | year => 2020
  | month | day | week => 1
  | hour | minute | second => 0

def high : TimeField → Nat
  | year => 65535
  | month => 12
  | day => 31
  | hour => 23
  | minute | second => 59
  | week => 7

/-- A number as it is stored: `atoi` first, then the width of the field. -/
def cut : TimeField → Int → Nat
  | year, v => (toU16 (clampLong v)).toNat
  | _, v => (toU8 (clampLong v)).toNat

end TimeField

/-- The number on the clock. -/
def SysTime.value (t : SysTime) : TimeField → Nat
  | .year => t.year.toNat
  | .month => t.month.toNat
  | .day => t.day.toNat
  | .hour => t.hour.toNat
  | .minute => t.minute.toNat
  | .second => t.second.toNat
  | .week => t.week.toNat

/-- The numbers that a message has. -/
abbrev TimeValues := TimeField → Option Int

/-- The text writes the number. -/
def WritesInt (text : CString) (v : Int) : Prop :=
  ∃ digits, digits ≠ [] ∧ (∀ b ∈ digits, isDigit b = true) ∧
    (text.1 = digits ∧ v = decimal digits ∨ text.1 = 0x2B :: digits ∧ v = decimal digits ∨
      text.1 = 0x2D :: digits ∧ v = -decimal digits)

/-- The numbers stand in the object as texts. -/
def HasTexts (time : CJson) (values : TimeValues) : Prop :=
  ∀ field, match values field with
    | none => time.getObjectItem field.name = none
    | some v => ∃ text, time.getObjectItem field.name = some (.string text) ∧ WritesInt text v

/-- A message with these numbers. -/
def TimeMessage (root : CJson) (values : TimeValues) : Prop :=
  ∃ time, root.getObjectItem (CString.ascii ['t', 'i', 'm', 'e']) = some time ∧ HasTexts time values

/-- The result of `device_handle_severtime_set`, and `sys_time` behind it. -/
def severtimeSet (root : Option CJson) (sysTime : SysTime) : Option (Int × SysTime) :=
  match deviceHandleSevertimeSet root with
  | .fault => none
  | .err => some (-1, sysTime)
  | .ok t => some (0, t)

/-- The numbers are those of a date of the calendar and a time of day. -/
structure TimeExists (values : TimeValues) : Prop where
  inside : ∀ field, ∃ v, values field = some v ∧ field.low ≤ v ∧ v ≤ field.high
  date : ∀ year month day : Nat, values .year = some (year : Int) →
    values .month = some (month : Int) → values .day = some (day : Int) →
      Date.Valid ⟨year, month, day⟩

/-- What is stored of every number is inside its bounds. -/
def CutInside (values : TimeValues) : Prop :=
  ∀ field, ∃ v, values field = some v ∧ field.low ≤ field.cut v ∧ field.cut v ≤ field.high

/-- The clock is set to the time of the message if there is one, and otherwise not at all. -/
def SevertimeRight (root : CJson) (values : TimeValues) (sysTime : SysTime) : Prop :=
  ∃ ret t, severtimeSet (some root) sysTime = some (ret, t) ∧ (ret = 0 ↔ TimeExists values) ∧
    (TimeExists values → ∀ field, values field = some (t.value field : Int)) ∧
    (¬ TimeExists values → ret = -1 ∧ t = sysTime)

/-! ## What is stored -/

/-- The digits behind a sign. -/
theorem read_digits {digits : List UInt8} (some_ : digits ≠ [])
    (all : ∀ b ∈ digits, isDigit b = true) :
    (match digits.takeWhile isDigit with
      | [] => none
      | found => some (decimal found, digits.dropWhile isDigit)) =
        some (decimal digits, digits.dropWhile isDigit) := by
  rw [List.takeWhile_eq_self_iff.mpr all]
  cases digits with
  | nil => exact absurd rfl some_
  | cons d ds => rfl

theorem WritesInt.atoi_eq {text : CString} {v : Int} (writes : WritesInt text v) :
    text.atoi = clampLong v := by
  rcases writes with ⟨digits, some_, all, ⟨plain, rfl⟩ | ⟨plus, rfl⟩ | ⟨minus, rfl⟩⟩
  · have read : strtol (digits ++ []) = _ :=
      strtol_digits some_ all fun _ none_ => nomatch none_
    rw [List.append_nil] at read
    rw [atoi, plain, read]
    rfl
  · have start : (0x2B :: digits).dropWhile isSpace = 0x2B :: digits :=
      List.dropWhile_cons_of_neg (by decide)
    have read : strtol (0x2B :: digits) =
        some (clampLong (decimal digits), digits.dropWhile isDigit) := by
      rw [strtol, start]
      exact congrArg (Option.map fun found : Nat × List UInt8 => (clampLong found.1, found.2))
        (read_digits some_ all)
    rw [atoi, plus, read]
    rfl
  · have start : (0x2D :: digits).dropWhile isSpace = 0x2D :: digits :=
      List.dropWhile_cons_of_neg (by decide)
    have read : strtol (0x2D :: digits) =
        some (clampLong (-decimal digits), digits.dropWhile isDigit) := by
      rw [strtol, start]
      exact congrArg (Option.map fun found : Nat × List UInt8 => (clampLong (-found.1), found.2))
        (read_digits some_ all)
    rw [atoi, minus, read]
    rfl

section Message

variable {time : CJson} {values : TimeValues} {field : TimeField}

theorem HasTexts.cases (texts : HasTexts time values) (field : TimeField) :
    values field = none ∧ requireText time field.name = .err ∨
      ∃ v text, values field = some v ∧ requireText time field.name = .ok text ∧
        text.atoi = clampLong v := by
  have found := texts field
  unfold requireText requireItem
  cases there : values field with
  | none =>
    rw [there] at found
    exact .inl ⟨rfl, by rw [found]; rfl⟩
  | some v =>
    rw [there] at found
    rcases found with ⟨text, item, writes⟩
    exact .inr ⟨v, text, rfl, by rw [item]; rfl, writes.atoi_eq⟩

theorem HasTexts.requireText_ne_fault (texts : HasTexts time values) (field : TimeField) :
    requireText time field.name ≠ .fault := by
  rcases texts.cases field with ⟨-, err⟩ | ⟨v, text, -, ok, -⟩
  · rw [err]
    nofun
  · rw [ok]
    nofun

theorem HasTexts.timeField_ne_fault (texts : HasTexts time values) (field : TimeField)
    (low high : UInt8) : timeField time field.name low high ≠ .fault := by
  refine Parsed.bind_ne_fault (texts.requireText_ne_fault field) fun text _ => ?_
  split <;> nofun

theorem HasTexts.requireText_eq_ok (texts : HasTexts time values) {text : CString} :
    requireText time field.name = .ok text →
      ∃ v, values field = some v ∧ text.atoi = clampLong v := by
  intro read
  rcases texts.cases field with ⟨-, err⟩ | ⟨v, text', there, ok, number⟩
  · rw [err] at read
    cases read
  · rw [ok] at read
    cases read
    exact ⟨v, there, number⟩

/-- What is stored of a number, inside the bounds of its field. -/
def Stored (values : TimeValues) (field : TimeField) (n : Nat) : Prop :=
  ∃ v, values field = some v ∧ field.low ≤ field.cut v ∧ field.cut v ≤ field.high ∧
    n = field.cut v

/-- A field of eight bits. -/
theorem HasTexts.timeField_eq_ok (texts : HasTexts time values) (field : TimeField)
    (narrow : field ≠ .year) (low high : UInt8) (lowEq : low.toNat = field.low)
    (highEq : high.toNat = field.high) {b : UInt8} :
    timeField time field.name low high = .ok b ↔ Stored values field b.toNat := by
  have cut (v : Int) : field.cut v = (toU8 (clampLong v)).toNat := by
    cases field with
    | year => exact absurd rfl narrow
    | _ => rfl
  unfold timeField
  rw [Parsed.bind_eq_ok]
  constructor
  · rintro ⟨text, read, checked⟩
    rcases texts.requireText_eq_ok read with ⟨v, there, number⟩
    rw [number] at checked
    split at checked
    case isTrue => cases checked
    case isFalse inside =>
      cases checked
      rw [not_or] at inside
      refine ⟨v, there, ?_, ?_, (cut v).symm⟩
      · rw [cut, ← lowEq]
        exact UInt8.le_iff_toNat_le.mp (UInt8.not_lt.mp inside.2)
      · rw [cut, ← highEq]
        exact UInt8.le_iff_toNat_le.mp (UInt8.not_lt.mp inside.1)
  · rintro ⟨v, there, atLeast, atMost, same⟩
    rcases texts.cases field with ⟨missing, -⟩ | ⟨v', text, there', read, number⟩
    · rw [missing] at there
      cases there
    · rw [there] at there'
      cases there'
      rw [cut] at atLeast atMost same
      refine ⟨text, read, ?_⟩
      rw [number, if_neg ?_, UInt8.toNat_inj.mp same]
      rw [not_or, GT.gt, UInt8.not_lt, UInt8.not_lt, UInt8.le_iff_toNat_le, UInt8.le_iff_toNat_le,
        lowEq, highEq]
      exact ⟨atMost, atLeast⟩

end Message

/-! ## The clock after a message -/

section Set

variable {root : CJson} {values : TimeValues} {t : SysTime}

/-- The number of the year has sixteen bits, so that no bound of its own is needed. -/
theorem HasTexts.year_eq_ok {time : CJson} (texts : HasTexts time values) {year : UInt16} :
    (∃ text, requireText time TimeField.year.name = .ok text ∧
      ¬ toU16 text.atoi < 2020 ∧ toU16 text.atoi = year) ↔ Stored values .year year.toNat := by
  have recent (b : UInt16) : ¬ b < 2020 ↔ 2020 ≤ b.toNat := by
    rw [UInt16.not_lt, UInt16.le_iff_toNat_le]
    rfl
  constructor
  · rintro ⟨text, read, atLeast, rfl⟩
    rcases texts.requireText_eq_ok read with ⟨v, there, number⟩
    rw [number] at atLeast ⊢
    exact ⟨v, there, (recent _).mp atLeast, Nat.le_pred_of_lt (toU16 _).toNat_lt, rfl⟩
  · rintro ⟨v, there, atLeast, -, same⟩
    rcases texts.cases .year with ⟨missing, -⟩ | ⟨v', text, there', read, number⟩
    · rw [missing] at there
      cases there
    · rw [there] at there'
      cases there'
      refine ⟨text, read, ?_⟩
      rw [number]
      exact ⟨(recent _).mpr atLeast, UInt16.toNat_inj.mp same.symm⟩

/-- The time that is stored has every number as it is cut off, when all are inside then. -/
theorem deviceHandleSevertimeSet_eq_ok (message : TimeMessage root values) :
    deviceHandleSevertimeSet (some root) = .ok t ↔
      ∀ field, Stored values field (t.value field) := by
  rcases message with ⟨time, there, texts⟩
  have item : requireItem root (CString.ascii ['t', 'i', 'm', 'e']) = .ok time := by
    rw [requireItem, there]
  have month {b : UInt8} := @HasTexts.timeField_eq_ok _ _ texts .month nofun 1 12 rfl rfl b
  have day {b : UInt8} := @HasTexts.timeField_eq_ok _ _ texts .day nofun 1 31 rfl rfl b
  have hour {b : UInt8} := @HasTexts.timeField_eq_ok _ _ texts .hour nofun 0 23 rfl rfl b
  have minute {b : UInt8} := @HasTexts.timeField_eq_ok _ _ texts .minute nofun 0 59 rfl rfl b
  have second {b : UInt8} := @HasTexts.timeField_eq_ok _ _ texts .second nofun 0 59 rfl rfl b
  have week {b : UInt8} := @HasTexts.timeField_eq_ok _ _ texts .week nofun 1 7 rfl rfl b
  unfold deviceHandleSevertimeSet
  dsimp only
  constructor
  · intro set
    obtain ⟨time', same, set⟩ := Parsed.bind_eq_ok.mp set
    rw [item] at same
    cases same
    obtain ⟨text, read, set⟩ := Parsed.bind_eq_ok.mp set
    split at set
    case isTrue => cases set
    case isFalse recent =>
      obtain ⟨month', isMonth, set⟩ := Parsed.bind_eq_ok.mp set
      obtain ⟨day', isDay, set⟩ := Parsed.bind_eq_ok.mp set
      obtain ⟨hour', isHour, set⟩ := Parsed.bind_eq_ok.mp set
      obtain ⟨minute', isMinute, set⟩ := Parsed.bind_eq_ok.mp set
      obtain ⟨second', isSecond, set⟩ := Parsed.bind_eq_ok.mp set
      obtain ⟨week', isWeek, set⟩ := Parsed.bind_eq_ok.mp set
      cases set
      intro field
      cases field with
      | year => exact texts.year_eq_ok.mp ⟨text, read, recent, rfl⟩
      | month => exact month.mp isMonth
      | day => exact day.mp isDay
      | hour => exact hour.mp isHour
      | minute => exact minute.mp isMinute
      | second => exact second.mp isSecond
      | week => exact week.mp isWeek
  · intro stored
    rcases texts.year_eq_ok.mpr (stored .year) with ⟨text, read, recent, year⟩
    refine Parsed.bind_eq_ok.mpr ⟨time, item, ?_⟩
    refine Parsed.bind_eq_ok.mpr ⟨text, read, ?_⟩
    rw [if_neg recent, year]
    refine Parsed.bind_eq_ok.mpr ⟨_, month.mpr (stored .month), ?_⟩
    refine Parsed.bind_eq_ok.mpr ⟨_, day.mpr (stored .day), ?_⟩
    refine Parsed.bind_eq_ok.mpr ⟨_, hour.mpr (stored .hour), ?_⟩
    refine Parsed.bind_eq_ok.mpr ⟨_, minute.mpr (stored .minute), ?_⟩
    refine Parsed.bind_eq_ok.mpr ⟨_, second.mpr (stored .second), ?_⟩
    exact Parsed.bind_eq_ok.mpr ⟨_, week.mpr (stored .week), rfl⟩

theorem deviceHandleSevertimeSet_ne_fault (message : TimeMessage root values) :
    deviceHandleSevertimeSet (some root) ≠ .fault := by
  rcases message with ⟨time, there, texts⟩
  refine Parsed.bind_ne_fault (requireItem_ne_fault _ _) fun time' found => ?_
  rw [requireItem, there] at found
  cases found
  refine Parsed.bind_ne_fault (texts.requireText_ne_fault .year) fun text _ => ?_
  dsimp only
  split
  case isTrue => nofun
  case isFalse =>
    refine Parsed.bind_ne_fault (texts.timeField_ne_fault .month _ _) fun _ _ => ?_
    refine Parsed.bind_ne_fault (texts.timeField_ne_fault .day _ _) fun _ _ => ?_
    refine Parsed.bind_ne_fault (texts.timeField_ne_fault .hour _ _) fun _ _ => ?_
    refine Parsed.bind_ne_fault (texts.timeField_ne_fault .minute _ _) fun _ _ => ?_
    refine Parsed.bind_ne_fault (texts.timeField_ne_fault .second _ _) fun _ _ => ?_
    exact Parsed.bind_ne_fault (texts.timeField_ne_fault .week _ _) fun _ _ => nofun

/-- A clock that shows numbers of these widths. -/
def clockOf (n : TimeField → Nat) : SysTime where
  year := UInt16.ofNat (n .year)
  month := UInt8.ofNat (n .month)
  day := UInt8.ofNat (n .day)
  hour := UInt8.ofNat (n .hour)
  minute := UInt8.ofNat (n .minute)
  second := UInt8.ofNat (n .second)
  week := UInt8.ofNat (n .week)

theorem value_clockOf {n : TimeField → Nat} (inside : ∀ field, n field ≤ field.high)
    (field : TimeField) : (clockOf n).value field = n field := by
  have narrow : ∀ f : TimeField, f ≠ .year → n f < 256 := by
    intro f other
    have bound := inside f
    have few : f.high < 256 := by
      cases f with
      | year => exact absurd rfl other
      | _ => decide
    exact Nat.lt_of_le_of_lt bound few
  cases field with
  | year => exact UInt16.toNat_ofNat_of_lt (Nat.lt_succ_of_le (inside .year))
  | month => exact UInt8.toNat_ofNat_of_lt (narrow .month nofun)
  | day => exact UInt8.toNat_ofNat_of_lt (narrow .day nofun)
  | hour => exact UInt8.toNat_ofNat_of_lt (narrow .hour nofun)
  | minute => exact UInt8.toNat_ofNat_of_lt (narrow .minute nofun)
  | second => exact UInt8.toNat_ofNat_of_lt (narrow .second nofun)
  | week => exact UInt8.toNat_ofNat_of_lt (narrow .week nofun)

/-- A message is taken when all numbers are inside as they are cut off, and refused otherwise. -/
theorem severtimeSet_cases (message : TimeMessage root values) (sysTime : SysTime) :
    CutInside values ∧ (∃ t, severtimeSet (some root) sysTime = some (0, t) ∧
        ∀ field, Stored values field (t.value field)) ∨
      ¬ CutInside values ∧ severtimeSet (some root) sysTime = some (-1, sysTime) := by
  unfold severtimeSet
  cases set : deviceHandleSevertimeSet (some root) with
  | fault => exact absurd set (deviceHandleSevertimeSet_ne_fault message)
  | ok t =>
    have stored := (deviceHandleSevertimeSet_eq_ok message).mp set
    refine .inl ⟨fun field => ?_, t, rfl, stored⟩
    rcases stored field with ⟨v, there, atLeast, atMost, -⟩
    exact ⟨v, there, atLeast, atMost⟩
  | err =>
    refine .inr ⟨fun inside => ?_, rfl⟩
    choose v there atLeast atMost using inside
    have taken := (deviceHandleSevertimeSet_eq_ok message
      (t := clockOf fun field => field.cut (v field))).mpr fun field =>
        ⟨v field, there field, atLeast field, atMost field, value_clockOf atMost field⟩
    rw [set] at taken
    cases taken

/-- A number inside the bounds of its field is stored as it is. -/
theorem cut_eq {field : TimeField} {v : Int} (low : field.low ≤ v) (high : v ≤ field.high) :
    (field.cut v : Int) = v := by
  have pos : 0 ≤ v := Int.le_trans (Int.natCast_nonneg _) low
  have few : v < if field = .year then 65536 else 256 := by
    refine Int.lt_of_le_of_lt high ?_
    cases field <;> decide
  have clamped : clampLong v = v := by
    unfold clampLong
    split at few <;> omega
  by_cases wide : field = .year
  · subst wide
    rw [if_pos rfl] at few
    change ((toU16 (clampLong v)).toNat : Int) = v
    rw [clamped, toU16, UInt16.toNat_ofNat']
    omega
  · rw [if_neg wide] at few
    have eight : field.cut v = (toU8 (clampLong v)).toNat := by
      cases field with
      | year => exact absurd rfl wide
      | _ => rfl
    rw [eight, clamped, toU8, UInt8.toNat_ofNat']
    omega

theorem TimeExists.cutInside (there : TimeExists values) : CutInside values := by
  intro field
  rcases there.inside field with ⟨v, has, low, high⟩
  have same := cut_eq low high
  exact ⟨v, has, by omega, by omega⟩

/-- A message is handled right unless numbers that are none of a time become those of one when they
are cut off, or the day is behind the end of its month. -/
theorem severtime_right_iff (message : TimeMessage root values) (sysTime : SysTime) :
    SevertimeRight root values sysTime ↔ (CutInside values → TimeExists values) := by
  unfold SevertimeRight
  rcases severtimeSet_cases message sysTime with ⟨inside, t, set, stored⟩ | ⟨outside, set⟩
  · rw [set]
    constructor
    · rintro ⟨ret, t', same, taken, -⟩ -
      cases same
      exact taken.mp rfl
    · intro real
      have exists_ := real inside
      refine ⟨0, t, rfl, iff_of_true rfl exists_, fun _ field => ?_,
        fun none_ => absurd exists_ none_⟩
      rcases stored field with ⟨v, has, -, -, same⟩
      rcases exists_.inside field with ⟨v', has', low, high⟩
      rw [has] at has'
      cases has'
      rw [has, same, cut_eq low high]
  · rw [set]
    have none_ : ¬ TimeExists values := fun there => outside there.cutInside
    refine iff_of_true ⟨-1, sysTime, rfl, iff_of_false (by decide) none_, fun there => ?_,
      fun _ => ⟨rfl, rfl⟩⟩ fun inside => absurd inside outside
    exact absurd there none_

end Set

/-- A message with these texts. -/
def messageOf (texts : TimeField → List Char) : CJson :=
  .object [(lit ['t', 'i', 'm', 'e'], .object
    ([TimeField.year, .month, .day, .hour, .minute, .second, .week].map fun field =>
      (ofBytes field.name, .string (lit (texts field)))))]

theorem messageOf_message {texts : TimeField → List Char} {values : TimeField → Int}
    (writes : ∀ field, WritesInt (lit (texts field)) (values field)) :
    TimeMessage (messageOf texts) fun field => some (values field) := by
  refine ⟨_, rfl, fun field => ⟨lit (texts field), ?_, writes field⟩⟩
  cases field <;> rfl

theorem lit_writes (text : List Char) (n : Nat)
    (number : (lit text).1 ≠ [] ∧ ((lit text).1.all isDigit = true) ∧ n = decimal (lit text).1) :
    WritesInt (lit text) n :=
  ⟨_, number.1, List.all_eq_true.mp number.2.1, .inl ⟨rfl, congrArg Int.ofNat number.2.2⟩⟩

/-- A day of February 2023, at noon. -/
def februaryTexts (day : List Char) : TimeField → List Char
  | .year => ['2', '0', '2', '3']
  | .month => ['2']
  | .day => day
  | .hour => ['1', '2']
  | .minute | .second => ['0']
  | .week => ['5']

def februaryValues (day : Int) : TimeField → Int
  | .year => 2023
  | .month => 2
  | .day => day
  | .hour => 12
  | .minute | .second => 0
  | .week => 5

theorem february_writes {day : List Char} {value : Int} (writes : WritesInt (lit day) value)
    (field : TimeField) :
    WritesInt (lit (februaryTexts day field)) (februaryValues value field) := by
  cases field with
  | year => exact lit_writes ['2', '0', '2', '3'] 2023 (by decide)
  | month => exact lit_writes ['2'] 2 (by decide)
  | day => exact writes
  | hour => exact lit_writes ['1', '2'] 12 (by decide)
  | minute | second => exact lit_writes ['0'] 0 (by decide)
  | week => exact lit_writes ['5'] 5 (by decide)

/-- The last day of the month. -/
theorem severtime_right_february :
    SevertimeRight (messageOf (februaryTexts ['2', '8'])) (fun f => some (februaryValues 28 f))
      sysAbstimeInit := by
  have writes := february_writes (lit_writes ['2', '8'] 28 (by decide))
  refine (severtime_right_iff (messageOf_message writes) sysAbstimeInit).mpr fun _ => ⟨?_, ?_⟩
  · intro field
    refine ⟨_, rfl, ?_⟩
    cases field <;> decide
  · intro year month day isYear isMonth isDay
    have parts : year = 2023 ∧ month = 2 ∧ day = 28 := by
      refine ⟨?_, ?_, ?_⟩
      · exact Int.ofNat.inj (Option.some.inj isYear).symm
      · exact Int.ofNat.inj (Option.some.inj isMonth).symm
      · exact Int.ofNat.inj (Option.some.inj isDay).symm
    rcases parts with ⟨rfl, rfl, rfl⟩
    exact ⟨by decide, by decide⟩

/-- Three days later there is none. -/
theorem severtime_february_31 :
    TimeMessage (messageOf (februaryTexts ['3', '1'])) (fun f => some (februaryValues 31 f)) ∧
      ¬ SevertimeRight (messageOf (februaryTexts ['3', '1'])) (fun f => some (februaryValues 31 f))
        sysAbstimeInit := by
  have writes := february_writes (lit_writes ['3', '1'] 31 (by decide))
  refine ⟨messageOf_message writes, ?_⟩
  rintro ⟨ret, t, set, taken, -, -⟩
  have stored : severtimeSet (some (messageOf (februaryTexts ['3', '1']))) sysAbstimeInit =
      some (0, ⟨2023, 2, 31, 12, 0, 0, 5⟩) := by decide
  rw [stored] at set
  cases set
  have date := (taken.mp rfl).date 2023 2 31 rfl rfl rfl
  exact absurd date.day.2 (by decide)

end Tr6260
