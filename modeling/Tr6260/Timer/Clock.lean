import Tr6260.Timer.Messages

/-!
# The clock and the check of the timers

`ya_hardware_app` keeps its own time of day: `sys_run_abstime_1s` reads a millisecond counter and
moves `sys_time` one second on when more than a second has passed since the last one it counted,
and `device_check_cloud_timer` then looks at every timer once and queues the actions that are due.

The queue is the one the same loop receives from; other threads send to it at any time. A send
waits ten milliseconds at most, and nothing leaves the queue while the loop waits.
-/

namespace Tr6260

/-! ## The time of day -/

/-- `sys_time_t`. -/
structure SysTime where
  year : UInt16
  month : UInt8
  day : UInt8
  hour : UInt8
  minute : UInt8
  second : UInt8
  week : UInt8
  deriving DecidableEq

/-- `is_leap_year`. -/
def isLeapYear (year : Nat) : Bool := (year % 4 = 0 ∧ year % 100 ≠ 0) ∨ year % 400 = 0

/-- `days_in_month`. -/
def daysInMonth (month : UInt8) (year : UInt16) : UInt8 :=
  if month = 1 ∨ month = 3 ∨ month = 5 ∨ month = 7 ∨ month = 8 ∨ month = 10 ∨ month = 12 then 31
  else if month = 4 ∨ month = 6 ∨ month = 9 ∨ month = 10 then 30
  else if month = 2 then if isLeapYear year.toNat then 29 else 28
  else 31

/-- The part of `sys_update_cloud_time` that `sys_time.hour > 23` leads to. -/
def nextDay (t : SysTime) : SysTime :=
  let t := { t with hour := 0, day := t.day + 1, week := t.week + 1 }
  let t := if t.week > 7 then { t with week := 1 } else t
  if t.day > daysInMonth t.month t.year then
    let t := { t with day := 1, month := t.month + 1 }
    if t.month > 12 then { t with month := 1, year := t.year + 1 } else t
  else
    t

/-- `sys_update_cloud_time`, without the flag it sets. -/
def sysUpdateCloudTime (secondAdd : UInt8) (t : SysTime) : SysTime :=
  if secondAdd ≥ 60 then
    t
  else
    let t := { t with second := t.second + secondAdd }
    if t.second > 59 then
      let t := { t with second := t.second - 60, minute := t.minute + 1 }
      if t.minute > 59 then
        let t := { t with minute := 0, hour := t.hour + 1 }
        if t.hour > 23 then nextDay t else t
      else
        t
    else
      t

/-- `sys_abstime_init`. -/
def sysAbstimeInit : SysTime :=
  { year := 2000, month := 1, day := 1, hour := 0, minute := 0, second := 0, week := 6 }

/-- A field of the server time. -/
def timeField (time : CJson) (name : List UInt8) (low high : UInt8) : Parsed UInt8 := do
  let text ← requireText time name
  if toU8 text.atoi > high ∨ toU8 text.atoi < low then
    .err
  else
    .ok (toU8 text.atoi)

/-- `device_handle_severtime_set` on the tree `cJSON_Parse` returned: the time it stores. -/
def deviceHandleSevertimeSet (root : Option CJson) : Parsed SysTime :=
  match root with
  | none => .err
  | some root => do
    let time ← requireItem root (CString.ascii ['t', 'i', 'm', 'e'])
    let text ← requireText time (CString.ascii ['y', 'e', 'a', 'r'])
    let year := toU16 text.atoi
    if year < 2020 then
      .err
    else
      let month ← timeField time (CString.ascii ['m', 'o', 'n', 't', 'h']) 1 12
      let day ← timeField time (CString.ascii ['d', 'a', 'y']) 1 31
      let hour ← timeField time (CString.ascii ['h', 'o', 'u', 'r']) 0 23
      let minute ← timeField time (CString.ascii ['m', 'i', 'n', 'u', 't', 'e']) 0 59
      let second ← timeField time (CString.ascii ['s', 'e', 'c', 'o', 'n', 'd']) 0 59
      let week ← timeField time (CString.ascii ['w', 'e', 'e', 'k']) 1 7
      .ok { year, month, day, hour, minute, second, week }

/-! ## The millisecond counter -/

/-- `portTICK_PERIOD_MS`: 200 ticks in a second. -/
def portTickPeriodMs : Nat := 5

/-- `ya_hal_os_ticks_to_msec` after so many ticks: the tick count and its product have 32 bits. -/
def yaHalOsTicksToMsec (ticks : Nat) : Nat := ticks % 2 ^ 32 * portTickPeriodMs % 2 ^ 32

/-- `ya_timer_compare`. -/
def yaTimerCompare (timeStartMs timeEndMs timeoutMs : Nat) : Int :=
  let delta :=
    if timeEndMs < timeStartMs then 0xffffffff - timeStartMs + timeEndMs
    else timeEndMs - timeStartMs
  if delta > timeoutMs then 0 else -1

/-! ## The queue of the loop -/

/-- What a message asks the loop for. -/
inductive HardwareMsgType
  | handleCloudData
  | handleTimerAction
  | handleUartData
  | clearTimerFlash
  deriving DecidableEq

/-- A message, with the block it owns. -/
structure HardwareMsg where
  type : HardwareMsgType
  data : List UInt8
  deriving DecidableEq

/-- `MSG_QUEUE_LENGTH`. -/
def msgQueueLength : Nat := 16

/-- The queue after other threads have sent messages; those that find no room are not taken. -/
def delivered (queue arrivals : List HardwareMsg) : List HardwareMsg :=
  queue ++ arrivals.take (msgQueueLength - queue.length)

/-- What surrounds one send of the loop: the messages of other threads before it, and its
allocation. -/
structure SendEnv where
  arrivals : List HardwareMsg
  board : Board

/-- The message for an action. -/
def actionMsg (t : DeviceCommonTimer) : HardwareMsg where
  type := .handleTimerAction
  data := t.action.take t.actionLen.toNat ++ [0]

/-- `ya_put_timer_action_into_queue`: the message, when it was queued, and the queue. -/
def yaPutTimerActionIntoQueue (env : SendEnv) (queue : List HardwareMsg) (t : DeviceCommonTimer) :
    Option HardwareMsg × List HardwareMsg :=
  match env.board.memoryAlloc (t.actionLen.toNat + 1) with
  | none => (none, delivered queue env.arrivals)
  | some _ =>
    if (delivered queue env.arrivals).length < msgQueueLength then
      (some (actionMsg t), delivered queue env.arrivals ++ [actionMsg t])
    else
      (none, delivered queue env.arrivals)

/-! ## The check -/

/-- `flag`: whether the timer is for this day. -/
def dayFlag (now : SysTime) (t : DeviceCommonTimer) : Bool :=
  if t.enable ≠ 0 then
    if t.week ≠ 0 then
      t.week.toNat >>> (now.week.toNat - 1) % 2 = 1
    else if t.year ≠ 0 then
      t.year = now.year ∧ t.month = now.month ∧ t.day = now.day
    else
      false
  else
    false

/-- The counter of an enabled timer that has fired, one check later. -/
def countTriggered (t : DeviceCommonTimer) : UInt8 :=
  if t.enable ≠ 0 ∧ t.triggered ≠ 0 then
    if t.triggered + 1 > 60 then 0 else t.triggered + 1
  else
    t.triggered

/-- Whether the action of a timer is sent. -/
def fires (now : SysTime) (t : DeviceCommonTimer) : Bool :=
  dayFlag now t ∧ t.minute = now.minute ∧ t.hour = now.hour ∧ t.second = now.second ∧
    countTriggered t = 0

/-- A timer after the check. -/
def checkedTimer (now : SysTime) (t : DeviceCommonTimer) : DeviceCommonTimer :=
  { t with triggered := if fires now t then 1 else countTriggered t }

/-- The sends of `device_check_cloud_timer`, one for each timer that fires: the messages queued,
and the queue. The environment of a send is numbered by the place of the timer in the list. -/
def sendActions (sends : Nat → SendEnv) (now : SysTime) :
    List DeviceCommonTimer → List HardwareMsg → List (Option HardwareMsg) × List HardwareMsg
  | [], queue => ([], queue)
  | t :: rest, queue =>
    let (sent, queue) :=
      if fires now t then yaPutTimerActionIntoQueue (sends 0) queue t else (none, queue)
    let (others, queue) := sendActions (fun n => sends (n + 1)) now rest queue
    (sent :: others, queue)

/-- The state of the loop, with the tick count it reads. -/
structure HardwareLoop where
  time : SysTime
  checkEnable : Bool
  startTimer : Nat
  ticks : Nat
  list : List DeviceCommonTimer
  queue : List HardwareMsg

/-- `sys_run_abstime_1s`; `ya_start_timer` has 64 bits and is compared by its lower 32. -/
def sysRunAbstime1s (s : HardwareLoop) : HardwareLoop :=
  if yaTimerCompare (s.startTimer % 2 ^ 32) (yaHalOsTicksToMsec s.ticks) 1000 = 0 then
    { s with
      time := sysUpdateCloudTime 1 s.time
      checkEnable := true
      startTimer := (s.startTimer + 1000) % 2 ^ 64 }
  else
    s

/-- What one check was about, and what it queued for each timer. -/
structure CheckRecord where
  now : SysTime
  queue : List HardwareMsg
  sends : Nat → SendEnv
  sent : List (Option HardwareMsg)

/-- `device_check_cloud_timer`. -/
def deviceCheckCloudTimer (sends : Nat → SendEnv) (s : HardwareLoop) :
    Option CheckRecord × HardwareLoop :=
  if s.checkEnable = false ∨ s.time.year < 2020 then
    (none, s)
  else
    let (sent, queue) := sendActions sends s.time s.list s.queue
    (some ⟨s.time, s.queue, sends, sent⟩,
      { s with checkEnable := false, list := s.list.map (checkedTimer s.time), queue })

/-- What surrounds one pass of the loop: the ticks since the last reading of the counter, and the
messages of other threads before the check, during it, and before the receive. -/
structure LoopInput where
  delay : Nat
  arrivals : List HardwareMsg
  sends : Nat → SendEnv
  late : List HardwareMsg

/-- One pass of the loop, over the receive. The message received is handled without an effect on
the clock or on the timers. -/
def loopStep (s : HardwareLoop) (input : LoopInput) : Option CheckRecord × HardwareLoop :=
  let s := { s with
    ticks := s.ticks + input.delay
    queue := delivered s.queue input.arrivals }
  let (record, s) := deviceCheckCloudTimer input.sends (sysRunAbstime1s s)
  (record, { s with queue := (delivered s.queue input.late).tail })

/-- The passes in order: their checks, and the state after them. -/
def loopRun (s : HardwareLoop) : List LoopInput → List CheckRecord × HardwareLoop
  | [] => ([], s)
  | input :: inputs =>
    let (record, s) := loopStep s input
    let (records, s) := loopRun s inputs
    (record.toList ++ records, s)

end Tr6260
