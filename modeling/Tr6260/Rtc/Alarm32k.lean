import Mathlib.Tactic.Ring
import Tr6260.Rtc.Clock

/-!
# The alarm of the 32 kHz counter

The counter shows hours, minutes, seconds and a fraction of 15 bits. `rtc_set_alarm` carries an
interval through these fields and `rtc_get_interval_cnt` takes two readings apart again, so that the
interval comes back; `rtc_get_alarm` takes the alarm for the earlier of the two.
-/

namespace Tr6260

open CString

namespace HalRtc

/-- `RTC_ALARM_GET_32K` and the others. -/
def alarmGet32k (x : Nat) : Nat := x &&& 0x7fff
def alarmGetSec (x : Nat) : Nat := (x &&& 0x1f8000) >>> 15
def alarmGetMin (x : Nat) : Nat := (x &&& 0x7e00000) >>> 21
def alarmGetHour (x : Nat) : Nat := (x &&& 0xf8000000) >>> 27

/-- `RTC_ALARM_HOUR(hour) | RTC_ALARM_MIN(min) | RTC_ALARM_SEC(sec) | RTC_ALARM_32K(cnt)`. -/
def alarmCnt (hour min sec cnt : Nat) : Nat :=
  (hour <<< 27 ||| min <<< 21 ||| sec <<< 15 ||| cnt) % 2 ^ 32

/-- `RTC_ALARM_REG` and `RTC_CTRL_REG`. -/
structure AlarmRegs where
  alarm : Nat
  ctrl : Nat
  deriving DecidableEq

/-- `rtc_get_32K_cnt`, with what the register shows at each read. -/
def rtcGet32KCnt (reads : List Nat) : Option Nat := reads.find? fun x => x &&& 0x7fff ≠ 0

/-- `rtc_set_alarm`, with its result. -/
def rtcSetAlarm (reads : List Nat) (regs : AlarmRegs) (value : Nat) (setFlag : Bool) :
    Option (Nat × AlarmRegs) := do
  let rtc32kCnt ← rtcGet32KCnt reads
  let alarm32k := (value + alarmGet32k rtc32kCnt) % 2 ^ 32
  let alarmSec := alarm32k / 32768
  let alarm32k := alarm32k % 32768
  let alarmSec := alarmSec + alarmGetSec rtc32kCnt
  let alarmMin := alarmSec / 60
  let alarmSec := alarmSec % 60
  let alarmMin := alarmMin + alarmGetMin rtc32kCnt
  let alarmHour := alarmMin / 60
  let alarmMin := alarmMin % 60
  let alarmHour := (alarmGetHour rtc32kCnt + alarmHour) % 24
  let rtcCnt := alarmCnt alarmHour alarmMin alarmSec alarm32k
  let rtcCnt := if rtcCnt &&& 0x7fff = 0 then rtcCnt + 1 else rtcCnt
  if setFlag then
    some (rtcCnt, ⟨rtcCnt, regs.ctrl ||| 1 <<< 1⟩)
  else
    some (rtcCnt, regs)

/-- `rtc_get_interval_cnt`. Only the seconds' product leaves the 32 bits of an `int`, and it wraps
around. -/
def rtcGetIntervalCnt (preRtc nowRtc : Nat) : Int :=
  let hour : Int :=
    if alarmGetHour preRtc > alarmGetHour nowRtc then
      24 - alarmGetHour preRtc + alarmGetHour nowRtc
    else
      alarmGetHour nowRtc - alarmGetHour preRtc
  let min := hour * 60 + alarmGetMin nowRtc - alarmGetMin preRtc
  let sec := min * 60 + alarmGetSec nowRtc - alarmGetSec preRtc
  toI32 (toU32 (sec * 32768 + alarmGet32k nowRtc - alarmGet32k preRtc))

/-- `rtc_get_alarm`. -/
def rtcGetAlarm (reads : List Nat) (regs : AlarmRegs) : Option Int := do
  let currReg ← rtcGet32KCnt reads
  some (rtcGetIntervalCnt regs.alarm currReg)

/-! ## Readings and counts -/

/-- What the counter shows. -/
structure Counter where
  hour : Nat
  min : Nat
  sec : Nat
  cnt : Nat
  hour_lt : hour < 24
  min_lt : min < 60
  sec_lt : sec < 60
  cnt_lt : cnt < 32768

/-- The value of the register. -/
def Counter.reg (c : Counter) : Nat := alarmCnt c.hour c.min c.sec c.cnt

/-- The counts from midnight on. -/
def Counter.counts (c : Counter) : Nat := ((c.hour * 60 + c.min) * 60 + c.sec) * 32768 + c.cnt

/-- The counts of an hour and of a day. -/
def hourCounts : Nat := 60 * 60 * 32768
def dayCounts : Nat := 24 * hourCounts

section Fields

variable {c c' : Counter}

theorem Counter.fit (c : Counter) : Rtc.FieldsFit 0 0 0 c.hour c.min c.sec c.cnt := by
  have hour := c.hour_lt
  have min := c.min_lt
  have sec := c.sec_lt
  have cnt := c.cnt_lt
  exact ⟨by decide, by decide, by decide, by omega, by omega, by omega, cnt⟩

/-- The register holds the time of day of a packed date. -/
theorem Counter.reg_package (c : Counter) :
    c.reg = Rtc.rtcDatePackage 0 0 0 c.hour c.min c.sec c.cnt := by
  have same : Rtc.rtcDatePackage 0 0 0 c.hour c.min c.sec c.cnt =
      (c.hour <<< 27 ||| c.min <<< 21 ||| c.sec <<< 15 ||| c.cnt) % 2 ^ 64 := by
    simp only [Rtc.rtcDatePackage, Nat.zero_shiftLeft, Nat.zero_or]
  have small : Rtc.rtcDatePackage 0 0 0 c.hour c.min c.sec c.cnt < 2 ^ 32 := by
    rw [c.fit.package_eq, Nat.zero_mul, Nat.zero_add]
    exact c.fit.time_lt
  have cut : 2 ^ 32 ∣ 2 ^ 64 := ⟨2 ^ 32, rfl⟩
  rw [Counter.reg, alarmCnt, ← Nat.mod_mod_of_dvd _ cut, ← same, Nat.mod_eq_of_lt small]

theorem Counter.reg_eq (c : Counter) :
    c.reg = c.hour * 2 ^ 27 + c.min * 2 ^ 21 + c.sec * 2 ^ 15 + c.cnt := by
  rw [c.reg_package, c.fit.package_eq, Nat.zero_mul, Nat.zero_add]

theorem alarmGetHour_reg (c : Counter) : alarmGetHour c.reg = c.hour := by
  rw [alarmGetHour, Nat.shiftRight_and_distrib, c.reg_package]
  exact c.fit.unpackHour

theorem alarmGetMin_reg (c : Counter) : alarmGetMin c.reg = c.min := by
  rw [alarmGetMin, Nat.shiftRight_and_distrib, c.reg_package]
  exact c.fit.unpackMin

theorem alarmGetSec_reg (c : Counter) : alarmGetSec c.reg = c.sec := by
  rw [alarmGetSec, Nat.shiftRight_and_distrib, c.reg_package]
  exact c.fit.unpackSec

theorem alarmGet32k_reg (c : Counter) : alarmGet32k c.reg = c.cnt := by
  rw [alarmGet32k, c.reg_package]
  exact c.fit.unpackMs

theorem Counter.counts_lt (c : Counter) : c.counts < dayCounts := by
  have hour := c.hour_lt
  have min := c.min_lt
  have sec := c.sec_lt
  have cnt := c.cnt_lt
  unfold counts dayCounts hourCounts
  omega

theorem Counter.hour_eq (c : Counter) :
    c.hour * hourCounts ≤ c.counts ∧ c.counts < (c.hour + 1) * hourCounts := by
  have min := c.min_lt
  have sec := c.sec_lt
  have cnt := c.cnt_lt
  unfold counts hourCounts
  omega

/-- The difference of two readings, a day more where the hours say that midnight lies between. -/
theorem rtcGetIntervalCnt_reg (c c' : Counter) : rtcGetIntervalCnt c.reg c'.reg =
    toI32 (toU32 ((if c.hour > c'.hour then (dayCounts : Int) else 0) + c'.counts - c.counts)) := by
  rw [rtcGetIntervalCnt, alarmGetHour_reg, alarmGetHour_reg, alarmGetMin_reg, alarmGetMin_reg,
    alarmGetSec_reg, alarmGetSec_reg, alarmGet32k_reg, alarmGet32k_reg]
  congr 2
  unfold Counter.counts dayCounts hourCounts
  split <;> push_cast <;> ring

end Fields

/-! ## The alarm is set -/

/-- The counter some counts later. -/
def Counter.Later (c : Counter) (n : Nat) (c' : Counter) : Prop :=
  c'.counts = (c.counts + n) % dayCounts

instance (c : Counter) (n : Nat) (c' : Counter) : Decidable (c.Later n c') :=
  inferInstanceAs (Decidable (_ = _))

/-- The counts to an alarm: one more where the fraction would be 0. -/
def alarmSpan (c : Counter) (v : Nat) : Nat := if (c.cnt + v) % 32768 = 0 then v + 1 else v

/-- The carries of the fields. -/
theorem carries (hour min sec ticks : Nat) :
    let s := ticks / 32768 + sec
    let m := s / 60 + min
    let h := hour + m / 60
    ((h % 24 * 60 + m % 60) * 60 + s % 60) * 32768 + ticks % 32768 =
      (((hour * 60 + min) * 60 + sec) * 32768 + ticks) % dayCounts := by
  intro s m h
  have ticksParts := Nat.div_add_mod ticks 32768
  have secParts := Nat.div_add_mod s 60
  have minParts := Nat.div_add_mod m 60
  have hourParts := Nat.div_add_mod h 24
  have total : ((hour * 60 + min) * 60 + sec) * 32768 + ticks =
      ((h % 24 * 60 + m % 60) * 60 + s % 60) * 32768 + ticks % 32768 + dayCounts * (h / 24) := by
    unfold dayCounts hourCounts
    omega
  have inside : ((h % 24 * 60 + m % 60) * 60 + s % 60) * 32768 + ticks % 32768 < dayCounts := by
    unfold dayCounts hourCounts
    omega
  rw [total, Nat.add_mul_mod_self_left, Nat.mod_eq_of_lt inside]

/-- With a fraction of 1 in the place of 0. -/
def Counter.nonzero (c : Counter) : Counter :=
  ⟨c.hour, c.min, c.sec, if c.cnt = 0 then 1 else c.cnt, c.hour_lt, c.min_lt, c.sec_lt, by
    have small := c.cnt_lt
    split <;> omega⟩

theorem Counter.nonzero_reg (c : Counter) :
    c.nonzero.reg = if c.reg &&& 0x7fff = 0 then c.reg + 1 else c.reg := by
  have fraction : c.reg &&& 0x7fff = c.cnt := alarmGet32k_reg c
  rw [fraction, c.nonzero.reg_eq, c.reg_eq]
  unfold nonzero
  dsimp only
  split
  case isTrue zero => rw [zero]
  case isFalse => rfl

/-- The fields that `rtc_set_alarm` works out, before it looks at the fraction. -/
def Counter.carried (c : Counter) (v : Nat) : Counter where
  hour := (c.hour + (((v + c.cnt) / 32768 + c.sec) / 60 + c.min) / 60) % 24
  min := (((v + c.cnt) / 32768 + c.sec) / 60 + c.min) % 60
  sec := ((v + c.cnt) / 32768 + c.sec) % 60
  cnt := (v + c.cnt) % 32768
  hour_lt := Nat.mod_lt _ (by decide)
  min_lt := Nat.mod_lt _ (by decide)
  sec_lt := Nat.mod_lt _ (by decide)
  cnt_lt := Nat.mod_lt _ (by decide)

theorem Counter.carried_counts (c : Counter) (v : Nat) :
    (c.carried v).counts = (c.counts + v) % dayCounts := by
  have sum := carries c.hour c.min c.sec (v + c.cnt)
  have total : ((c.hour * 60 + c.min) * 60 + c.sec) * 32768 + (v + c.cnt) = c.counts + v := by
    rw [Counter.counts, Nat.add_comm v, Nat.add_assoc]
  rw [total] at sum
  exact sum

/-- The alarm is its span behind the reading. -/
theorem Counter.alarm_later (c : Counter) (v : Nat) :
    c.Later (alarmSpan c v) (c.carried v).nonzero := by
  have counts := c.carried_counts v
  have fraction : (c.carried v).cnt = (c.cnt + v) % 32768 := by
    rw [Nat.add_comm]
    rfl
  have parts : (c.carried v).nonzero.counts =
      if (c.carried v).cnt = 0 then (c.carried v).counts + 1 else (c.carried v).counts := by
    unfold nonzero Counter.counts
    dsimp only
    split
    case isTrue zero => rw [zero]
    case isFalse => rfl
  have inside := (c.carried v).nonzero.counts_lt
  rw [parts, fraction, counts] at inside
  rw [Later, parts, fraction, alarmSpan, counts]
  split at inside
  case isTrue zero =>
    rw [if_pos zero, if_pos zero, ← Nat.add_assoc, ← Nat.mod_add_mod (c.counts + v),
      Nat.mod_eq_of_lt inside]
  case isFalse some_ => rw [if_neg some_, if_neg some_]

/-- What `rtc_set_alarm` returns, and what it leaves in the registers. -/
theorem rtcSetAlarm_eq {reads : List Nat} {c : Counter} (read : rtcGet32KCnt reads = some c.reg)
    (regs : AlarmRegs) {v : Nat} (small : v < 2 ^ 31) (setFlag : Bool) :
    rtcSetAlarm reads regs v setFlag = some ((c.carried v).nonzero.reg,
      if setFlag then ⟨(c.carried v).nonzero.reg, regs.ctrl ||| 1 <<< 1⟩ else regs) := by
  have cnt := c.cnt_lt
  have fits : (v + c.cnt) % 2 ^ 32 = v + c.cnt := Nat.mod_eq_of_lt (by omega)
  rw [rtcSetAlarm, read]
  dsimp only [Option.bind_eq_bind, Option.bind_some]
  rw [alarmGetHour_reg, alarmGetMin_reg, alarmGetSec_reg, alarmGet32k_reg, fits,
    (c.carried v).nonzero_reg]
  cases setFlag with
  | false => rfl
  | true => rfl

/-! ## The interval comes back -/

section Intervals

variable {c c' : Counter} {n : Nat}

/-- Midnight lies between two readings when the hours are in the other order. -/
theorem Counter.Later.cases_ (later : c.Later n c') (small : n < 2 ^ 31) :
    c.hour ≤ c'.hour ∧ c'.counts = c.counts + n ∨
      c'.hour < c.hour ∧ c'.counts + dayCounts = c.counts + n := by
  have first := c.counts_lt
  have hour := c.hour_eq
  have hour' := c'.hour_eq
  have is : c'.counts = (c.counts + n) % dayCounts := later
  unfold dayCounts hourCounts at *
  rcases Nat.lt_or_ge (c.counts + n) 2831155200 with same | next
  · left
    rw [Nat.mod_eq_of_lt same] at is
    exact ⟨by omega, is⟩
  · right
    rw [Nat.mod_eq_sub_mod next, Nat.mod_eq_of_lt (by omega)] at is
    exact ⟨by omega, by omega⟩

/-- An `int` that fits. -/
theorem toI32_toU32 (small : n < 2 ^ 31) : toI32 (toU32 n) = n := by
  unfold toU32 toI32
  split <;> omega

theorem interval_later (later : c.Later n c') (small : n < 2 ^ 31) :
    rtcGetIntervalCnt c.reg c'.reg = n := by
  have difference : (if c.hour > c'.hour then (dayCounts : Int) else 0) + c'.counts - c.counts =
      n := by
    rcases later.cases_ small with ⟨hours, counts⟩ | ⟨hours, counts⟩
    · rw [if_neg (Nat.not_lt_of_le hours)]
      omega
    · rw [if_pos hours]
      omega
  rw [rtcGetIntervalCnt_reg, difference, toI32_toU32 small]

/-- From the later reading to the earlier one it is what is left of a day, or less than nothing. -/
theorem interval_back (later : c.Later n c') (small : n < 2 ^ 31) :
    rtcGetIntervalCnt c'.reg c.reg = toI32 (toU32 ((dayCounts : Int) - n)) ∨
      c'.hour = c.hour ∧ rtcGetIntervalCnt c'.reg c.reg = toI32 (toU32 (-(n : Int))) := by
  rw [rtcGetIntervalCnt_reg]
  rcases later.cases_ small with ⟨hours, counts⟩ | ⟨hours, counts⟩
  · rcases Nat.lt_or_eq_of_le hours with before | same
    · left
      rw [if_pos before]
      congr 2
      omega
    · right
      rw [if_neg (Nat.not_lt_of_le same.ge)]
      refine ⟨same.symm, ?_⟩
      congr 2
      omega
  · left
    rw [if_neg (Nat.not_lt_of_le (Nat.le_of_lt hours))]
    congr 2
    omega

/-- Half a day is as long as the other half, modulo 2^32 as well. -/
theorem toI32_day_iff (pos : 1 ≤ n) (small : n < 2 ^ 31) :
    toI32 (toU32 ((dayCounts : Int) - n)) = n ↔ n = 12 * hourCounts := by
  unfold toU32 toI32 dayCounts hourCounts
  split <;> omega

theorem toI32_neg (pos : 1 ≤ n) (small : n < 2 ^ 31) : toI32 (toU32 (-(n : Int))) ≠ n := by
  unfold toU32 toI32
  split <;> omega

theorem interval_back_iff (later : c.Later n c') (pos : 1 ≤ n) (small : n < 2 ^ 31) :
    rtcGetIntervalCnt c'.reg c.reg = n ↔ n = 12 * hourCounts := by
  rcases interval_back later small with back | ⟨same, back⟩
  · rw [back]
    exact toI32_day_iff pos small
  · -- within an hour it is no half day
    rw [back]
    constructor
    · intro is
      exact absurd is (toI32_neg pos small)
    · intro half
      exfalso
      have hour := c.hour_eq
      have hour' := c'.hour_eq
      rw [same] at hour'
      rcases later.cases_ small with ⟨-, counts⟩ | ⟨hours, -⟩
      · unfold hourCounts at *
        omega
      · omega

/-- An alarm that is set later than a first reading is later than a second one by the rest. -/
theorem Counter.Later.rest {r : Counter} {d : Nat} (alarm : c.Later n c') (reading : c.Later d r)
    (before : d ≤ n) : r.Later (n - d) c' := by
  unfold Later at *
  rw [reading, Nat.mod_add_mod, Nat.add_assoc, Nat.add_sub_cancel' before]
  exact alarm

end Intervals

theorem alarmSpan_bounds (c : Counter) (v : Nat) : v ≤ alarmSpan c v ∧ alarmSpan c v ≤ v + 1 := by
  unfold alarmSpan
  split
  · exact ⟨Nat.le_succ _, Nat.le_refl _⟩
  · exact ⟨Nat.le_refl _, Nat.le_succ _⟩

/-- The interval to the alarm is its span, and `rtc_get_alarm` returns what remains of it when this
is half a day. -/
theorem rtcAlarm_iff {reads : List Nat} {c : Counter} (read : rtcGet32KCnt reads = some c.reg)
    (regs : AlarmRegs) {v : Nat} (pos : 1 ≤ v) (small : v ≤ 2 ^ 31 - 2) :
    (∃ cnt, rtcSetAlarm reads regs v false = some (cnt, regs) ∧
        rtcGetIntervalCnt c.reg cnt = alarmSpan c v) ∧
      ∃ cnt regs', rtcSetAlarm reads regs v true = some (cnt, regs') ∧
        ∀ (reads' : List Nat) (c' : Counter) (d : Nat), rtcGet32KCnt reads' = some c'.reg →
          d < v → c.Later d c' →
          (rtcGetAlarm reads' regs' = some (alarmSpan c v - d : Int) ↔
            alarmSpan c v - d = 12 * hourCounts) := by
  have span := alarmSpan_bounds c v
  have alarm := c.alarm_later v
  have few : alarmSpan c v < 2 ^ 31 := by omega
  have set := rtcSetAlarm_eq read regs (show v < 2 ^ 31 by omega)
  refine ⟨⟨_, set false, interval_later alarm few⟩, _, _, set true, ?_⟩
  intro reads' c' d read' before later
  have rest := alarm.rest later (by omega)
  have left_ : ((alarmSpan c v - d : Nat) : Int) = alarmSpan c v - d := Int.ofNat_sub (by omega)
  rw [rtcGetAlarm, read', ← left_]
  dsimp only [Option.bind_eq_bind, Option.bind_some]
  rw [Option.some_inj]
  exact interval_back_iff rest (by omega) (by omega)

/-- Readings of ten o'clock and of a second later. -/
def tenOClock : Counter := ⟨10, 0, 0, 1, by decide, by decide, by decide, by decide⟩
def secondLater : Counter := ⟨10, 0, 1, 1, by decide, by decide, by decide, by decide⟩

/-- Half a day before the alarm the count is right. -/
theorem rtcAlarm_halfDay : rtcGet32KCnt [tenOClock.reg] = some tenOClock.reg ∧
    ∃ cnt regs, rtcSetAlarm [tenOClock.reg] ⟨0, 1⟩ 1415577600 true = some (cnt, regs) ∧
      rtcGetAlarm [tenOClock.reg] regs = some 1415577600 := by
  have read : rtcGet32KCnt [tenOClock.reg] = some tenOClock.reg := by decide
  obtain ⟨-, cnt, regs, set, left_⟩ := rtcAlarm_iff read ⟨0, 1⟩
    (show 1 ≤ 1415577600 by decide) (by decide)
  have span : alarmSpan tenOClock 1415577600 = 1415577600 := by decide
  have half := (left_ [tenOClock.reg] tenOClock 0 read (by decide) (by decide)).mpr (by decide)
  rw [span, Int.natCast_zero, Int.sub_zero] at half
  exact ⟨read, cnt, regs, set, half⟩

/-- A second after an alarm was set two seconds ahead, minus a second is left. -/
theorem rtcGetAlarm_second : rtcGet32KCnt [tenOClock.reg] = some tenOClock.reg ∧
    rtcGet32KCnt [secondLater.reg] = some secondLater.reg ∧
    tenOClock.Later 32768 secondLater ∧ alarmSpan tenOClock 65536 - 32768 = 32768 ∧
    ∃ cnt regs, rtcSetAlarm [tenOClock.reg] ⟨0, 1⟩ 65536 true = some (cnt, regs) ∧
      rtcGetAlarm [secondLater.reg] regs = some (-32768) :=
  ⟨by decide, by decide, by decide, by decide, _, _, rfl, by decide⟩

end HalRtc

end Tr6260
