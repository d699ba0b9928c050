import Tr6260.Timer.Clock

/-!
# Countdowns

`Ya_Timer` of `ya_hal_timer.c`. The ticks it is given have 32 bits, and so have the milliseconds
they are turned into; a countdown over the end of these is one millisecond behind, less than a tick.
-/

namespace Tr6260

/-- A `Ya_Timer` in milliseconds. -/
structure YaTimer where
  initTick : Nat
  timeOut : Nat
  deriving DecidableEq

/-- `ya_init_timer`. -/
def yaInitTimer : YaTimer := ⟨0, 0⟩

/-- `ya_countdown_ms`. -/
def yaCountdownMs (tick timeout : Nat) : YaTimer := ⟨tick % 2 ^ 32, timeout⟩

/-- `ya_has_timer_expired` at a tick. -/
def yaHasTimerExpired (timer : YaTimer) (tick : Nat) : Bool :=
  let cur := yaHalOsTicksToMsec tick
  let init := yaHalOsTicksToMsec timer.initTick
  let delta := if cur ≥ init then cur - init else 0xffffffff - init + cur
  delta > timer.timeOut

/-- A countdown of whole ticks is over once its time has passed. -/
theorem yaHasTimerExpired_countdown {since now timeout : Nat} (later : since ≤ now)
    (short : portTickPeriodMs * (now - since) < 2 ^ 32) (whole : timeout % portTickPeriodMs = 0) :
    yaHasTimerExpired (yaCountdownMs since timeout) now = true ↔
      timeout < portTickPeriodMs * (now - since) := by
  unfold portTickPeriodMs at short whole ⊢
  unfold yaHasTimerExpired yaCountdownMs yaHalOsTicksToMsec portTickPeriodMs
  dsimp only
  rw [decide_eq_true_iff]
  split <;> omega

/-- A countdown is not over before its time has passed, whatever wraps. -/
theorem elapsed_of_expired {since now timeout : Nat} (later : since ≤ now)
    (expired : yaHasTimerExpired (yaCountdownMs since timeout) now = true) :
    timeout < portTickPeriodMs * (now - since) := by
  unfold portTickPeriodMs
  unfold yaHasTimerExpired yaCountdownMs yaHalOsTicksToMsec portTickPeriodMs at expired
  dsimp only at expired
  rw [decide_eq_true_iff] at expired
  split at expired <;> omega

/-! ## The end of the counter -/

/-- `ya_timer_type`. -/
inductive YaTimerType
  | ms
  | s
  deriving DecidableEq

/-- `Ya_Timer`, in 32 bits. -/
structure HalTimer where
  timeOut : UInt32
  initTick : UInt32
  type : YaTimerType

/-- `delta_timer` and `delta_tick`: the time since a start. -/
def deltaTimer (start cur : UInt32) : UInt32 :=
  if cur ≥ start then cur - start else 0xffffffff - start + cur

/-- `ya_has_timer_expired`, with `rate` for `portTICK_RATE_MS`. -/
def yaHasTimerExpiredAt (rate : UInt32) (timer : HalTimer) (tick : UInt32) : Int :=
  let delta := deltaTimer (timer.initTick * rate) (tick * rate)
  match timer.type with
  | .ms => if delta > timer.timeOut then 0 else -1
  | .s => if delta / 1000 > timer.timeOut then 0 else -1

/-- `ya_left_ms`. -/
def yaLeftMs (rate : UInt32) (timer : HalTimer) (tick : UInt32) : UInt32 :=
  let delta := deltaTimer timer.initTick tick
  match timer.type with
  | .ms => timer.timeOut - delta * rate
  | .s => timer.timeOut * 1000 - delta * rate

theorem toNat_deltaTimer (start cur : UInt32) : (deltaTimer start cur).toNat =
    if start.toNat ≤ cur.toNat then cur.toNat - start.toNat
    else 0xffffffff - start.toNat + cur.toNat := by
  have low := start.toNat_lt
  have all : start ≤ 0xffffffff := UInt32.le_iff_toNat_le.mpr (Nat.le_pred_of_lt low)
  unfold deltaTimer
  split
  case isTrue later =>
    rw [if_pos (UInt32.le_iff_toNat_le.mp later), UInt32.toNat_sub_of_le _ _ later]
  case isFalse earlier =>
    have before : ¬ start.toNat ≤ cur.toNat := fun later =>
      earlier (UInt32.le_iff_toNat_le.mpr later)
    have rest : (0xffffffff - start).toNat = 0xffffffff - start.toNat :=
      UInt32.toNat_sub_of_le _ _ all
    rw [if_neg before, UInt32.toNat_add, rest]
    exact Nat.mod_eq_of_lt (by omega)

/-- On the board the two models of the function agree. -/
theorem yaHasTimerExpiredAt_board (timeOut initTick tick : UInt32) :
    yaHasTimerExpiredAt 5 ⟨timeOut, initTick, .ms⟩ tick = 0 ↔
      yaHasTimerExpired ⟨initTick.toNat, timeOut.toNat⟩ tick.toNat = true := by
  have period (ticks : UInt32) : (ticks * 5).toNat = yaHalOsTicksToMsec ticks.toNat := by
    rw [UInt32.toNat_mul, yaHalOsTicksToMsec, Nat.mod_eq_of_lt ticks.toNat_lt]
    rfl
  have delta := toNat_deltaTimer (initTick * 5) (tick * 5)
  rw [period, period] at delta
  unfold yaHasTimerExpiredAt yaHasTimerExpired
  dsimp only
  rw [decide_eq_true_iff]
  change _ ↔ timeOut.toNat < if _ then _ else _
  rw [← delta, ← UInt32.lt_iff_toNat_lt]
  split
  case isTrue later => exact iff_of_true rfl later
  case isFalse before => exact iff_of_false (by decide) before

/-- What the three functions are to say, where a tick is a millisecond. -/
structure CountdownRight (start cur timeout : UInt32) : Prop where
  expired : yaHasTimerExpiredAt 1 ⟨timeout, start, .ms⟩ cur = 0 ↔ cur - start > timeout
  compare : yaTimerCompare start.toNat cur.toNat timeout.toNat = 0 ↔ cur - start > timeout
  left : yaLeftMs 1 ⟨timeout, start, .ms⟩ cur =
    if cur - start ≥ timeout then 0 else timeout - (cur - start)

section Wrap

variable (start cur timeout : UInt32)

theorem toNat_elapsed : (cur - start).toNat =
    if start.toNat ≤ cur.toNat then cur.toNat - start.toNat
    else 2 ^ 32 - start.toNat + cur.toNat := by
  have low := start.toNat_lt
  have low' := cur.toNat_lt
  rw [UInt32.toNat_sub]
  split <;> omega

theorem yaTimerCompare_eq_zero : yaTimerCompare start.toNat cur.toNat timeout.toNat = 0 ↔
    timeout.toNat < (deltaTimer start cur).toNat := by
  have delta := toNat_deltaTimer start cur
  have same : (if cur.toNat < start.toNat then 0xffffffff - start.toNat + cur.toNat
      else cur.toNat - start.toNat) = (deltaTimer start cur).toNat := by
    rw [delta]
    split <;> split <;> omega
  unfold yaTimerCompare
  dsimp only
  rw [same]
  split
  case isTrue later => exact iff_of_true rfl later
  case isFalse before => exact iff_of_false (by decide) before

theorem yaHasTimerExpiredAt_eq_zero : yaHasTimerExpiredAt 1 ⟨timeout, start, .ms⟩ cur = 0 ↔
    timeout.toNat < (deltaTimer start cur).toNat := by
  unfold yaHasTimerExpiredAt
  dsimp only
  rw [UInt32.mul_one, UInt32.mul_one]
  split
  case isTrue later => exact iff_of_true rfl (UInt32.lt_iff_toNat_lt.mp later)
  case isFalse before =>
    exact iff_of_false (by decide) fun later => before (UInt32.lt_iff_toNat_lt.mpr later)

/-- Behind the end of the counter a timer is a millisecond late. -/
theorem elapsed_gt_iff : (timeout.toNat < (deltaTimer start cur).toNat ↔ cur - start > timeout) ↔
    ¬ (cur < start ∧ (cur - start).toNat = timeout.toNat + 1) := by
  have elapsed := toNat_elapsed start cur
  have delta := toNat_deltaTimer start cur
  rw [GT.gt, UInt32.lt_iff_toNat_lt, UInt32.lt_iff_toNat_lt]
  by_cases later : start.toNat ≤ cur.toNat
  · rw [if_pos later] at elapsed delta
    rw [elapsed, delta]
    exact iff_of_true Iff.rfl fun both => Nat.not_lt.mpr later both.1
  · have low := start.toNat_lt
    rw [if_neg later] at elapsed delta
    rw [elapsed, delta]
    omega

/-- The time left is right while the counter has not come to its end and the time is not over. -/
theorem yaLeftMs_right_iff : yaLeftMs 1 ⟨timeout, start, .ms⟩ cur =
      (if cur - start ≥ timeout then 0 else timeout - (cur - start)) ↔
    if cur < start then (cur - start).toNat = timeout.toNat + 1 else cur - start ≤ timeout := by
  have elapsed := toNat_elapsed start cur
  have delta := toNat_deltaTimer start cur
  have bound := timeout.toNat_lt
  have low := start.toNat_lt
  have low' := cur.toNat_lt
  have left : (yaLeftMs 1 ⟨timeout, start, .ms⟩ cur).toNat =
      (2 ^ 32 - (deltaTimer start cur).toNat + timeout.toNat) % 2 ^ 32 := by
    unfold yaLeftMs
    dsimp only
    rw [UInt32.mul_one, UInt32.toNat_sub]
  have right : (if cur - start ≥ timeout then 0 else timeout - (cur - start) : UInt32).toNat =
      timeout.toNat - (cur - start).toNat := by
    split
    case isTrue over_ =>
      have := UInt32.le_iff_toNat_le.mp over_
      exact (Nat.sub_eq_zero_of_le this).symm
    case isFalse inside =>
      exact UInt32.toNat_sub_of_le _ _ (UInt32.le_iff_toNat_le.mpr (Nat.le_of_lt
        (Nat.lt_of_not_le fun more => inside (UInt32.le_iff_toNat_le.mpr more))))
  rw [← UInt32.toNat_inj, left, right]
  split
  case isTrue before =>
    rw [if_neg (Nat.not_le.mpr (UInt32.lt_iff_toNat_lt.mp before))] at elapsed delta
    have := UInt32.lt_iff_toNat_lt.mp before
    rw [elapsed, delta]
    omega
  case isFalse later =>
    have later' := UInt32.le_iff_toNat_le.mp (UInt32.not_lt.mp later)
    rw [if_pos later'] at elapsed delta
    rw [UInt32.le_iff_toNat_le, elapsed, delta]
    omega

/-- All three are right exactly while the counter has not come to its end and the time is not
over. -/
theorem countdownRight_iff :
    CountdownRight start cur timeout ↔ start ≤ cur ∧ cur - start ≤ timeout := by
  have late := elapsed_gt_iff start cur timeout
  have left := yaLeftMs_right_iff start cur timeout
  constructor
  · intro right
    have onTime := right.expired
    rw [yaHasTimerExpiredAt_eq_zero, late] at onTime
    have inTime := left.mp right.left
    split at inTime
    case isTrue before => exact absurd ⟨before, inTime⟩ onTime
    case isFalse later => exact ⟨UInt32.not_lt.mp later, inTime⟩
  · rintro ⟨later, inTime⟩
    have notBefore : ¬ cur < start := UInt32.not_lt.mpr later
    have onTime := late.mpr fun both => notBefore both.1
    refine ⟨?_, ?_, left.mpr ?_⟩
    · rw [yaHasTimerExpiredAt_eq_zero]
      exact onTime
    · rw [yaTimerCompare_eq_zero]
      exact onTime
    · rw [if_neg notBefore]
      exact inTime

/-- One millisecond over the end of the counter. -/
theorem countdown_late : ¬ CountdownRight 0xffffffff 0 0 := by
  intro right
  have late := right.expired.mpr (by decide)
  exact absurd late (by decide)

end Wrap

end Tr6260
