import Mathlib.Logic.Function.Basic
import Tr6260.Rtc.Date

/-!
# The RTC timers

The timers of `hal_rtc.c` in a ring that starts at `TimerListHead`. The links of the timers are kept
apart from the rest of them, and a timer's name and the parameter of its callback are left out. A
callback leaves the list alone.

Every reading of the clock is the next one of `World.clock`, and a value that is not initialised
the next of `World.stack`. A walk over the ring that passes more timers than there are does not
end and has no result, and neither has a call of a callback that is `NULL`.
-/

namespace Tr6260

namespace Rtc

/-! ## Timers -/

/-- `enum rtc_timer_type`. -/
inductive TimerType
  | countDown
  | targetDay
  | targetMonth
  deriving DecidableEq

/-- `enum rtc_timer_flag`. -/
inductive TimerFlag
  | oneShot
  | periodic
  deriving DecidableEq

/-- `enum rtc_timer_status`. -/
inductive TimerStatus
  | inactive
  | ready
  | running
  | stop
  | suspend
  deriving DecidableEq

/-- `rtc_timer_t`, without its links. `timeout`: there is a callback. -/
structure RtcTimer where
  timeout : Bool
  type : TimerType
  flag : TimerFlag
  status : TimerStatus
  setDateRemain : Nat
  setDate : Nat
  aimDate : Nat

abbrev TimerPtr := Nat

/-- The timers, those that are allocated, `TimerListHead`, `RTC_ALARM_REG` and `RTC_CTRL_REG`, and
the number of readings of the clock so far. -/
structure RtcState where
  timers : TimerPtr → RtcTimer
  next : TimerPtr → TimerPtr
  prev : TimerPtr → TimerPtr
  live : List TimerPtr
  timerListHead : Option TimerPtr
  alarmReg : Nat
  ctrlReg : Nat
  reads : Nat

/-- What the timers take from outside. -/
structure World where
  clock : Nat → Reading
  stack : Nat → Nat × Nat × Nat

namespace RtcState

def modify (s : RtcState) (timer : TimerPtr) (f : RtcTimer → RtcTimer) : RtcState :=
  { s with timers := Function.update s.timers timer (f (s.timers timer)) }

def setStatus (s : RtcState) (timer : TimerPtr) (status : TimerStatus) : RtcState :=
  s.modify timer fun t => { t with status }

def setAim (s : RtcState) (timer : TimerPtr) (aimDate : Nat) : RtcState :=
  s.modify timer fun t => { t with aimDate }

/-- `set_date` and `aim_date` at once. -/
def setDates (s : RtcState) (timer : TimerPtr) (date : Nat) : RtcState :=
  s.modify timer fun t => { t with setDate := date, aimDate := date }

def status (s : RtcState) (timer : TimerPtr) : TimerStatus := (s.timers timer).status

def aim (s : RtcState) (timer : TimerPtr) : Nat := (s.timers timer).aimDate

/-- The next reading of the clock. -/
def read (w : World) (s : RtcState) : Reading × RtcState :=
  (w.clock s.reads, { s with reads := s.reads + 1 })

theorem modify_self (s : RtcState) (timer : TimerPtr) (f : RtcTimer → RtcTimer) :
    (s.modify timer f).timers timer = f (s.timers timer) := Function.update_self ..

theorem modify_of_ne (s : RtcState) {timer other : TimerPtr} (ne : other ≠ timer)
    (f : RtcTimer → RtcTimer) : (s.modify timer f).timers other = s.timers other :=
  Function.update_of_ne ne ..

theorem modify_modify (s : RtcState) (timer : TimerPtr) (f g : RtcTimer → RtcTimer) :
    (s.modify timer f).modify timer g = s.modify timer (g ∘ f) := by
  rw [modify, modify_self]
  change { s with timers := Function.update (Function.update s.timers timer _) timer _ } = _
  rw [Function.update_idem]
  rfl

@[simp] theorem status_setStatus_self (s : RtcState) (timer : TimerPtr) (status : TimerStatus) :
    (s.setStatus timer status).status timer = status := by
  rw [RtcState.status, setStatus, modify_self]

theorem status_setStatus_of_ne (s : RtcState) {timer other : TimerPtr} (ne : other ≠ timer)
    (status : TimerStatus) : (s.setStatus timer status).status other = s.status other := by
  rw [RtcState.status, setStatus, modify_of_ne s ne, RtcState.status]

@[simp] theorem aim_setStatus (s : RtcState) (timer other : TimerPtr) (status : TimerStatus) :
    (s.setStatus timer status).aim other = s.aim other := by
  by_cases same : other = timer
  · rw [same, aim, setStatus, modify_self, aim]
  · rw [aim, setStatus, modify_of_ne s same, aim]

end RtcState

/-! ## The ring -/

/-- `rt_list_init`. -/
def rtListInit (s : RtcState) (l : TimerPtr) : RtcState :=
  { s with next := Function.update s.next l l, prev := Function.update s.prev l l }

/-- `rt_list_insert_before`. -/
def rtListInsertBefore (s : RtcState) (l n : TimerPtr) : RtcState :=
  let s := { s with next := Function.update s.next (s.prev l) n }
  let s := { s with prev := Function.update s.prev n (s.prev l) }
  let s := { s with prev := Function.update s.prev l n }
  { s with next := Function.update s.next n l }

/-- `rt_list_remove`. -/
def rtListRemove (s : RtcState) (n : TimerPtr) : RtcState :=
  let s := { s with prev := Function.update s.prev (s.next n) (s.prev n) }
  let s := { s with next := Function.update s.next (s.prev n) (s.next n) }
  { s with next := Function.update s.next n n, prev := Function.update s.prev n n }

/-- `rt_list_len`, `count` timers behind its start. -/
def rtListLen (s : RtcState) (l : TimerPtr) : (fuel : Nat) → (p : TimerPtr) → Option Nat
  | 0, _ => none
  | fuel + 1, p => if s.next p = l then some 1 else (rtListLen s l fuel (s.next p)).map (· + 1)

/-! ## The alarm -/

/-- `rtc_stop_alarm`. -/
def rtcStopAlarm (s : RtcState) : RtcState :=
  { s with ctrlReg := s.ctrlReg &&& (2 ^ 32 - 1 - 2) }

/-- `RTC_INTEGER (ms * 32.768)`. -/
def alarm32k (ms : Nat) : Nat := (ms * 32768 + 500) / 1000

/-- The value for `RTC_ALARM_REG`. -/
def alarmValue (date : Nat) : Nat :=
  let rtcCnt := (unpackHour date <<< 27 ||| unpackMin date <<< 21 ||| unpackSec date <<< 15 |||
    alarm32k (unpackMs date)) % 2 ^ 32
  if rtcCnt &&& 0x7fff = 0 then rtcCnt + 1 else rtcCnt

/-- `RTC_ALARM_GET_HOUR` and the others. -/
def alarmHour (reg : Nat) : Nat := (reg &&& 0xf8000000) >>> 27
def alarmMin (reg : Nat) : Nat := (reg &&& 0x7e00000) >>> 21
def alarmSec (reg : Nat) : Nat := (reg &&& 0x1f8000) >>> 15

/-- `rtc_timer_set_alarm`. -/
def rtcTimerSetAlarm (s : RtcState) (timer : Option TimerPtr) : RtcState :=
  let s := if s.timerListHead = none then rtcStopAlarm s else s
  match timer with
  | none => s
  | some timer =>
    let s := s.setStatus timer .running
    { s with alarmReg := alarmValue (s.aim timer), ctrlReg := s.ctrlReg ||| 2 }

/-! ## The list -/

/-- A timer becomes the head. -/
def makeHead (s : RtcState) (head timer : TimerPtr) : RtcState :=
  { s.setStatus head .ready with timerListHead := some timer }.setStatus timer .running

/-- The loop of `rtc_timer_list_insert`. -/
def insertLoop (s : RtcState) (head timer : TimerPtr) :
    (fuel : Nat) → (cur : TimerPtr) → Option RtcState
  | 0, _ => none
  | fuel + 1, cur =>
    if cur = head then some s
    else if s.aim cur ≥ s.aim timer then some (rtListInsertBefore s cur timer)
    else insertLoop s head timer fuel (s.next cur)

/-- `rtc_timer_list_insert`. -/
def rtcTimerListInsert (s : RtcState) (timer : TimerPtr) : Option RtcState :=
  let s := s.setStatus timer .ready
  match s.timerListHead with
  | none => some { s.setStatus timer .running with timerListHead := some timer }
  | some head =>
    if head = s.next head then
      let s := rtListInsertBefore s head timer
      if s.aim head ≥ s.aim timer then some (makeHead s head timer) else some s
    else if s.aim head ≥ s.aim timer then
      some (makeHead (rtListInsertBefore s head timer) head timer)
    else if s.aim (s.prev head) ≤ s.aim timer then
      some (rtListInsertBefore s head timer)
    else
      insertLoop s head timer (s.live.length + 1) (s.next head)

/-- `rtc_timer_listhead_remove`. -/
def rtcTimerListheadRemove (s : RtcState) : RtcState :=
  match s.timerListHead with
  | none => s
  | some head =>
    let tmp := s.next head
    if s.next head = head then
      { s with timerListHead := none }
    else
      { rtListRemove s head with timerListHead := some tmp }

/-! ## The next date of a timer -/

/-- `rtc_timer_aimdate_forecast`. -/
def rtcTimerAimdateForecast (w : World) (s : RtcState) (timer : TimerPtr) : RtcState :=
  let t := s.timers timer
  let package (year month day : Nat) : Nat :=
    rtcDatePackage year month day (unpackHour t.aimDate) (unpackMin t.aimDate)
      (unpackSec t.aimDate) (unpackMs t.aimDate)
  match t.type with
  | .countDown =>
    let (now, s) := s.read w
    s.setAim timer (rtcDateAdd now.date t.setDate)
  | .targetDay =>
    let (now, s) := s.read w
    if now.date ≥ t.aimDate then
      let (yearnow, s) := s.read w
      let (monthnow, s) := s.read w
      let (daynow, s) := s.read w
      let todayAim := package yearnow.year monthnow.month daynow.day
      let (now, s) := s.read w
      if now.date ≥ todayAim then
        let (year, month, day) := rtcNextTimeDayPeriod yearnow.year monthnow.month daynow.day
        s.setDates timer (package year month day)
      else
        s.setDates timer todayAim
    else
      s
  | .targetMonth =>
    let (now, s) := s.read w
    if now.date ≥ t.aimDate then
      let (yearnow, s) := s.read w
      let (monthnow, s) := s.read w
      -- hour and day stand in each other's place
      let currentMonthAim := rtcDatePackage yearnow.year monthnow.month (unpackHour t.aimDate)
        (unpackDay t.aimDate) (unpackMin t.aimDate) (unpackSec t.aimDate) (unpackMs t.aimDate)
      let (now, s) := s.read w
      if now.date ≥ currentMonthAim then
        let (year, month, day) := rtcNextTimeMonthPeriod (w.stack s.reads) yearnow.year
          monthnow.month (unpackDay t.aimDate)
        s.setDates timer (package year month day)
      else
        s.setDates timer currentMonthAim
    else
      s

/-- `rtc_timer_aimdate_init`. -/
def rtcTimerAimdateInit (w : World) (s : RtcState) (timer : TimerPtr) : Bool × RtcState :=
  let t := s.timers timer
  match t.type, t.flag with
  | .countDown, _ =>
    let (now, s) := s.read w
    (true, s.setAim timer (rtcDateAdd now.date t.setDate))
  | _, .oneShot =>
    let (now, s) := s.read w
    (decide (now.date < t.aimDate), s)
  | _, .periodic => (true, rtcTimerAimdateForecast w s timer)

/-! ## The calls -/

/-- `rtc_timer_create`, with the block that `pvPortMalloc` returns. -/
def rtcTimerCreate (s : RtcState) (timer : TimerPtr) (timeout : Bool) (date : Nat)
    (type : TimerType) (flag : TimerFlag) : RtcState :=
  rtListInit { s with
    timers := Function.update s.timers timer ⟨timeout, type, flag, .inactive, 0, date, date⟩
    live := timer :: s.live } timer

/-- `rtc_timer_start`. -/
def rtcTimerStart (w : World) (s : RtcState) (timer : TimerPtr) : Option (Bool × RtcState) :=
  let insert (s : RtcState) : Option (Bool × RtcState) := do
    let s ← rtcTimerListInsert s timer
    some (true, rtcTimerSetAlarm s s.timerListHead)
  if s.status timer = .ready ∨ s.status timer = .running then
    some (false, s)
  else if s.status timer = .inactive then
    let (ok, s) := rtcTimerAimdateInit w s timer
    if ok then insert (s.setStatus timer .ready) else some (false, s)
  else
    insert ((rtcTimerAimdateForecast w s timer).setStatus timer .ready)

/-- A timer is taken out of the ring, as in `rtc_timer_stop`, `rtc_timer_suspend` and
`rtc_timer_delete`. -/
def removeTimer (s : RtcState) (timer : TimerPtr) : RtcState :=
  if s.timerListHead = some timer then
    let s := rtcTimerListheadRemove s
    rtcTimerSetAlarm s s.timerListHead
  else
    rtListRemove s timer

/-- `rtc_timer_stop`. -/
def rtcTimerStop (s : RtcState) (timer : TimerPtr) : RtcState :=
  if s.timerListHead = none then s else (removeTimer s timer).setStatus timer .stop

/-- The seconds left, as `set_date_remain` keeps them. -/
def remainDate (seconds : Nat) : Nat := rtcDatePackage 0 0 0 0 0 seconds 0

/-- `rtc_timer_suspend`. -/
def rtcTimerSuspend (w : World) (s : RtcState) (timer : TimerPtr) : RtcState :=
  if s.timerListHead = none then s
  else
    let s := (removeTimer s timer).setStatus timer .suspend
    if (s.timers timer).type = .countDown ∧ s.status timer = .running then
      let (now, s) := s.read w
      s.modify timer fun t =>
        { t with setDateRemain := remainDate (rtcSecondsInterval now.date t.aimDate) }
    else
      s

/-- `rtc_timer_resume`. -/
def rtcTimerResume (w : World) (s : RtcState) (timer : TimerPtr) : Option RtcState :=
  if s.timerListHead = none ∨ s.status timer ≠ .suspend then some s
  else
    let t := s.timers timer
    let s :=
      if t.type = .countDown ∧ t.setDateRemain ≠ 0 then
        let (now, s) := s.read w
        (s.setAim timer (rtcDateAdd now.date t.setDateRemain)).modify timer
          fun t => { t with setDateRemain := 0 }
      else if t.type = .countDown then
        let (now, s) := s.read w
        s.setAim timer (rtcDateAdd now.date t.setDate)
      else
        rtcTimerAimdateForecast w s timer
    do
      let s ← rtcTimerListInsert (s.setStatus timer .ready) timer
      some (rtcTimerSetAlarm s s.timerListHead)

/-- `vPortFree`. -/
def vPortFree (s : RtcState) (timer : TimerPtr) : RtcState :=
  { s with live := s.live.erase timer }

/-- `rtc_timer_delete`. -/
def rtcTimerDelete (s : RtcState) (timer : TimerPtr) : RtcState :=
  if s.timerListHead = none then s else vPortFree (removeTimer s timer) timer

/-- `rtc_timer_timeout`, of the head. -/
def rtcTimerTimeout (w : World) (s : RtcState) (timer : TimerPtr) : Option RtcState := do
  let s := rtcTimerListheadRemove s
  let s ← match (s.timers timer).flag with
    | .periodic => rtcTimerListInsert (rtcTimerAimdateForecast w s timer) timer
    | .oneShot => some (vPortFree s timer)
  some (rtcTimerSetAlarm s s.timerListHead)

/-- The loop of `rtc_timer_isr`. -/
def isrLoop (w : World) (nowdate : Nat) : (fuel : Nat) → RtcState → Option RtcState
  | 0, _ => none
  | fuel + 1, s =>
    match s.timerListHead with
    | none => some s
    | some head =>
      if nowdate ≥ s.aim head then
        if (s.timers head).timeout then do
          let s ← rtcTimerTimeout w s head
          isrLoop w nowdate fuel s
        else
          none
      else
        some s

/-- `rtc_timer_isr`. What is done before its loop is what the loop does. -/
def rtcTimerIsr (w : World) (fuel : Nat) (s : RtcState) : Option RtcState :=
  match s.timerListHead with
  | none => some s
  | some _ =>
    let (nowdate, s) := s.read w
    isrLoop w nowdate.date fuel s

/-- The state behind `hal_rtc_init`. -/
def halRtcInit (s : RtcState) : RtcState :=
  { s with live := [], timerListHead := none, ctrlReg := 9 }

end Rtc

end Tr6260
