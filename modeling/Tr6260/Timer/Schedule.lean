import Mathlib.Logic.Function.Iterate
import Tr6260.Timer.Clock

/-!
# Every action at its second

The loop moves the clock one second on for each thousand milliseconds it takes off the counter,
however late it is, and checks the timers in the same pass; so the seconds checked are the seconds
of the clock, in order, each once. A timer that has fired is passed over for sixty checks, and its
time of day comes back only after a day, so `triggered` never holds an action back.

What can hold it back is the queue. The list may hold twenty timers for one second, the queue has
sixteen places, and the loop that fills it is the only one that empties it: an action that finds
no room is dropped, with its timer marked as triggered. `SendsFit` says that there is room.
-/

namespace Tr6260

/-! ## The clock -/

/-- What `device_handle_severtime_set` and `sys_abstime_init` store. -/
structure SysTime.Valid (t : SysTime) : Prop where
  month : 1 ≤ t.month ∧ t.month ≤ 12
  day : 1 ≤ t.day ∧ t.day ≤ 31
  hour : t.hour ≤ 23
  minute : t.minute ≤ 59
  second : t.second ≤ 59
  week : 1 ≤ t.week ∧ t.week ≤ 7

/-- The place in the day. -/
def SysTime.secondOfDay (t : SysTime) : Nat :=
  t.hour.toNat * 3600 + t.minute.toNat * 60 + t.second.toNat

/-- The place in the week. -/
def SysTime.secondOfWeek (t : SysTime) : Nat := (t.week.toNat - 1) * 86400 + t.secondOfDay

/-- One second on. -/
abbrev clockTick : SysTime → SysTime := sysUpdateCloudTime 1

theorem daysInMonth_le (month : UInt8) (year : UInt16) : daysInMonth month year ≤ 31 := by
  unfold daysInMonth
  repeat' split
  all_goals decide

/-- `++` within bounds. -/
theorem UInt8.succ_le {n high : UInt8} (le : n ≤ high) (small : high.toNat < 255) :
    (n + 1).toNat = n.toNat + 1 := by
  rw [UInt8.toNat_add, UInt8.toNat_one]
  have := UInt8.le_iff_toNat_le.mp le
  omega

/-- The change of the week keeps the date. -/
theorem nextDay_eq (t : SysTime) : nextDay t =
    let t' : SysTime :=
      { t with hour := 0, day := t.day + 1, week := if t.week + 1 > 7 then 1 else t.week + 1 }
    if t.day + 1 > daysInMonth t.month t.year then
      if t.month + 1 > 12 then { t' with day := 1, month := 1, year := t.year + 1 }
      else { t' with day := 1, month := t.month + 1 }
    else t' := by
  unfold nextDay
  dsimp only
  split <;> rfl

/-- The week and the time of day do not depend on where the month ends. -/
theorem nextDay_time (t : SysTime) :
    (nextDay t).week = (if t.week + 1 > 7 then 1 else t.week + 1) ∧ (nextDay t).hour = 0 ∧
      (nextDay t).minute = t.minute ∧ (nextDay t).second = t.second := by
  rw [nextDay_eq]
  dsimp only
  split
  · split
    · exact ⟨rfl, rfl, rfl, rfl⟩
    · exact ⟨rfl, rfl, rfl, rfl⟩
  · exact ⟨rfl, rfl, rfl, rfl⟩

/-- The date: the next day of the month, or the first of a month. -/
theorem nextDay_date (t : SysTime) :
    ((nextDay t).month = t.month ∧ (nextDay t).day = t.day + 1 ∧
        t.day + 1 ≤ daysInMonth t.month t.year) ∨
      ((nextDay t).day = 1 ∧
        ((nextDay t).month = 1 ∨ (nextDay t).month = t.month + 1 ∧ t.month + 1 ≤ 12)) := by
  rw [nextDay_eq]
  dsimp only
  split
  · split
    · exact .inr ⟨rfl, .inl rfl⟩
    next inYear => exact .inr ⟨rfl, .inr ⟨rfl, UInt8.not_lt.mp inYear⟩⟩
  next inMonth => exact .inl ⟨rfl, rfl, UInt8.not_lt.mp inMonth⟩

theorem UInt8.one_le_succ {n high : UInt8} (le : n ≤ high) (small : high.toNat < 255) :
    1 ≤ n + 1 := by
  rw [UInt8.le_iff_toNat_le, UInt8.succ_le le small, UInt8.toNat_one]
  omega

theorem nextDay_valid {t : SysTime} (month : 1 ≤ t.month ∧ t.month ≤ 12)
    (day : 1 ≤ t.day ∧ t.day ≤ 31) (week : 1 ≤ t.week ∧ t.week ≤ 7) (minute : t.minute ≤ 59)
    (second : t.second ≤ 59) : (nextDay t).Valid := by
  obtain ⟨nextWeek, nextHour, nextMinute, nextSecond⟩ := nextDay_time t
  constructor
  · rcases nextDay_date t with ⟨same, -, -⟩ | ⟨-, first | ⟨next, inYear⟩⟩
    · rw [same]
      exact month
    · rw [first]
      decide
    · rw [next]
      exact ⟨UInt8.one_le_succ month.2 (by decide), inYear⟩
  · rcases nextDay_date t with ⟨-, next, inMonth⟩ | ⟨first, -⟩
    · rw [next]
      exact ⟨UInt8.one_le_succ day.2 (by decide), UInt8.le_trans inMonth (daysInMonth_le _ _)⟩
    · rw [first]
      decide
  · rw [nextHour]
    decide
  · rw [nextMinute]
    exact minute
  · rw [nextSecond]
    exact second
  · rw [nextWeek]
    split
    · decide
    next inWeek => exact ⟨UInt8.one_le_succ week.2 (by decide), UInt8.not_lt.mp inWeek⟩

theorem nextDay_secondOfWeek {t : SysTime} (week : 1 ≤ t.week ∧ t.week ≤ 7) :
    (nextDay t).secondOfWeek =
      t.week.toNat % 7 * 86400 + t.minute.toNat * 60 + t.second.toNat := by
  obtain ⟨nextWeek, nextHour, nextMinute, nextSecond⟩ := nextDay_time t
  have succ := UInt8.succ_le week.2 (by decide)
  have last : t.week + 1 > 7 ↔ 7 < t.week.toNat + 1 := by
    rw [GT.gt, UInt8.lt_iff_toNat_lt, succ]
    rfl
  simp only [UInt8.le_iff_toNat_le, UInt8.toNat_one, UInt8.reduceToNat] at week
  rw [SysTime.secondOfWeek, SysTime.secondOfDay, nextWeek, nextHour, nextMinute, nextSecond,
    UInt8.toNat_zero]
  split
  next beyond =>
    rw [UInt8.toNat_one]
    have := last.mp beyond
    omega
  next inside =>
    rw [succ]
    have : ¬ 7 < t.week.toNat + 1 := fun beyond => inside (last.mpr beyond)
    omega

/-- What one second does. -/
theorem clockTick_cases {t : SysTime} (valid : t.Valid) :
    (t.second.toNat < 59 ∧ clockTick t = { t with second := t.second + 1 }) ∨
      (t.second = 59 ∧ t.minute.toNat < 59 ∧
        clockTick t = { t with second := 0, minute := t.minute + 1 }) ∨
      (t.second = 59 ∧ t.minute = 59 ∧ t.hour.toNat < 23 ∧
        clockTick t = { t with second := 0, minute := 0, hour := t.hour + 1 }) ∨
      (t.second = 59 ∧ t.minute = 59 ∧ t.hour = 23 ∧
        clockTick t = nextDay { t with second := 0, minute := 0, hour := 24 }) := by
  have second := UInt8.succ_le valid.second (by decide)
  have minute := UInt8.succ_le valid.minute (by decide)
  have hour := UInt8.succ_le valid.hour (by decide)
  have second' := UInt8.le_iff_toNat_le.mp valid.second
  have minute' := UInt8.le_iff_toNat_le.mp valid.minute
  have hour' := UInt8.le_iff_toNat_le.mp valid.hour
  simp only [UInt8.reduceToNat] at second' minute' hour'
  unfold clockTick sysUpdateCloudTime
  rw [if_neg (by decide)]
  dsimp only
  split
  next wraps =>
    have last : t.second = 59 := by
      rw [GT.gt, UInt8.lt_iff_toNat_lt, second] at wraps
      exact UInt8.toNat_inj.mp (by simp only [UInt8.reduceToNat] at wraps ⊢; omega)
    have zero : t.second + 1 - 60 = 0 := by rw [last]; decide
    rw [zero]
    split
    next wraps' =>
      have last' : t.minute = 59 := by
        rw [GT.gt, UInt8.lt_iff_toNat_lt, minute] at wraps'
        exact UInt8.toNat_inj.mp (by simp only [UInt8.reduceToNat] at wraps' ⊢; omega)
      split
      next wraps'' =>
        have last'' : t.hour = 23 := by
          rw [GT.gt, UInt8.lt_iff_toNat_lt, hour] at wraps''
          exact UInt8.toNat_inj.mp (by simp only [UInt8.reduceToNat] at wraps'' ⊢; omega)
        refine .inr (.inr (.inr ⟨last, last', last'', ?_⟩))
        rw [last'']
        rfl
      next more =>
        refine .inr (.inr (.inl ⟨last, last', ?_, rfl⟩))
        rw [GT.gt, UInt8.lt_iff_toNat_lt, hour] at more
        simp only [UInt8.reduceToNat] at more
        omega
    next more =>
      refine .inr (.inl ⟨last, ?_, rfl⟩)
      rw [GT.gt, UInt8.lt_iff_toNat_lt, minute] at more
      simp only [UInt8.reduceToNat] at more
      omega
  next more =>
    refine .inl ⟨?_, rfl⟩
    rw [GT.gt, UInt8.lt_iff_toNat_lt, second] at more
    simp only [UInt8.reduceToNat] at more
    omega

theorem clockTick_valid {t : SysTime} (valid : t.Valid) : (clockTick t).Valid := by
  have second := UInt8.succ_le valid.second (by decide)
  have minute := UInt8.succ_le valid.minute (by decide)
  have hour := UInt8.succ_le valid.hour (by decide)
  rcases clockTick_cases valid with ⟨more, ticked⟩ | ⟨-, more, ticked⟩ | ⟨-, -, more, ticked⟩ |
    ⟨-, -, -, ticked⟩ <;> rw [ticked]
  · exact { valid with second := UInt8.le_iff_toNat_le.mpr (by rw [second]; exact more) }
  · exact { valid with
      minute := UInt8.le_iff_toNat_le.mpr (by rw [minute]; exact more)
      second := UInt8.zero_le }
  · exact { valid with
      hour := UInt8.le_iff_toNat_le.mpr (by rw [hour]; exact more)
      minute := UInt8.zero_le
      second := UInt8.zero_le }
  · exact nextDay_valid valid.month valid.day valid.week UInt8.zero_le UInt8.zero_le

/-- A second on the clock is a second of the week. -/
theorem clockTick_secondOfWeek {t : SysTime} (valid : t.Valid) :
    (clockTick t).secondOfWeek = (t.secondOfWeek + 1) % 604800 := by
  have second := UInt8.succ_le valid.second (by decide)
  have minute := UInt8.succ_le valid.minute (by decide)
  have hour := UInt8.succ_le valid.hour (by decide)
  have minute' := UInt8.le_iff_toNat_le.mp valid.minute
  have hour' := UInt8.le_iff_toNat_le.mp valid.hour
  have week := UInt8.le_iff_toNat_le.mp valid.week.1
  have week' := UInt8.le_iff_toNat_le.mp valid.week.2
  simp only [UInt8.reduceToNat] at minute' hour' week week'
  rcases clockTick_cases valid with ⟨more, ticked⟩ | ⟨last, more, ticked⟩ |
    ⟨last, last', more, ticked⟩ | ⟨last, last', last'', ticked⟩ <;> rw [ticked]
  · simp only [SysTime.secondOfWeek, SysTime.secondOfDay, second]
    omega
  · simp only [SysTime.secondOfWeek, SysTime.secondOfDay, minute, last, UInt8.reduceToNat]
    omega
  · simp only [SysTime.secondOfWeek, SysTime.secondOfDay, hour, last, last', UInt8.reduceToNat]
    omega
  · rw [nextDay_secondOfWeek (by exact valid.week)]
    simp only [SysTime.secondOfWeek, SysTime.secondOfDay, last, last', last'', UInt8.reduceToNat]
    omega

theorem SysTime.Valid.secondOfDay_lt {t : SysTime} (valid : t.Valid) : t.secondOfDay < 86400 := by
  have second := UInt8.le_iff_toNat_le.mp valid.second
  have minute := UInt8.le_iff_toNat_le.mp valid.minute
  have hour := UInt8.le_iff_toNat_le.mp valid.hour
  simp only [UInt8.reduceToNat] at second minute hour
  unfold secondOfDay
  omega

theorem clockTick_secondOfDay {t : SysTime} (valid : t.Valid) :
    (clockTick t).secondOfDay = (t.secondOfDay + 1) % 86400 := by
  have week := clockTick_secondOfWeek valid
  have before := valid.secondOfDay_lt
  have after := (clockTick_valid valid).secondOfDay_lt
  unfold SysTime.secondOfWeek at week
  omega

theorem clockTicks_valid {t : SysTime} (valid : t.Valid) (n : Nat) : (clockTick^[n] t).Valid := by
  induction n with
  | zero => exact valid
  | succ n ih =>
    rw [Function.iterate_succ_apply']
    exact clockTick_valid ih

theorem clockTicks_secondOfWeek {t : SysTime} (valid : t.Valid) (n : Nat) :
    (clockTick^[n] t).secondOfWeek % 604800 = (t.secondOfWeek + n) % 604800 := by
  induction n with
  | zero => rw [Function.iterate_zero_apply, Nat.add_zero]
  | succ n ih =>
    rw [Function.iterate_succ_apply', clockTick_secondOfWeek (clockTicks_valid valid n)]
    omega

/-! ## One check -/

/-- The second a timer is for: an enabled timer, its hour, minute and second, and a day of its
week mask or, without one, its date. -/
def Due (now : SysTime) (t : DeviceCommonTimer) : Prop :=
  t.enable ≠ 0 ∧ t.hour = now.hour ∧ t.minute = now.minute ∧ t.second = now.second ∧
    ((t.week ≠ 0 ∧ t.week.toNat.testBit (now.week.toNat - 1)) ∨
      (t.week = 0 ∧ t.year ≠ 0 ∧ t.year = now.year ∧ t.month = now.month ∧ t.day = now.day))

instance (now : SysTime) (t : DeviceCommonTimer) : Decidable (Due now t) :=
  inferInstanceAs (Decidable (_ ∧ _))

/-- The second of the day a timer is for. -/
def DeviceCommonTimer.secondOfDay (t : DeviceCommonTimer) : Nat :=
  t.hour.toNat * 3600 + t.minute.toNat * 60 + t.second.toNat

theorem dayFlag_iff (now : SysTime) (t : DeviceCommonTimer) :
    dayFlag now t ↔ t.enable ≠ 0 ∧
      ((t.week ≠ 0 ∧ t.week.toNat.testBit (now.week.toNat - 1)) ∨
        (t.week = 0 ∧ t.year ≠ 0 ∧ t.year = now.year ∧ t.month = now.month ∧ t.day = now.day)) := by
  have bit : t.week.toNat.testBit (now.week.toNat - 1) ↔
      t.week.toNat >>> (now.week.toNat - 1) % 2 = 1 := by
    rw [Nat.testBit_eq_decide_div_mod_eq, Nat.shiftRight_eq_div_pow, decide_eq_true_iff]
  rw [bit]
  unfold dayFlag
  by_cases enabled : t.enable = 0
  · simp [enabled]
  · by_cases weekly : t.week = 0
    · by_cases dated : t.year = 0 <;> simp [enabled, weekly, dated]
    · simpa [enabled, weekly] using bit

theorem fires_iff (now : SysTime) (t : DeviceCommonTimer) :
    fires now t ↔ Due now t ∧ countTriggered t = 0 := by
  have flag := dayFlag_iff now t
  simp only [fires, decide_eq_true_iff, flag, Due]
  constructor
  · rintro ⟨⟨enabled, day⟩, minute, hour, second, rested⟩
    exact ⟨⟨enabled, hour, minute, second, day⟩, rested⟩
  · rintro ⟨⟨enabled, hour, minute, second, day⟩, rested⟩
    exact ⟨⟨enabled, day⟩, minute, hour, second, rested⟩

/-- Between two checks a counter that runs says how long ago its timer fired. -/
def Aligned (now : SysTime) (t : DeviceCommonTimer) : Prop :=
  t.triggered = 0 ∨
    (t.enable ≠ 0 ∧ t.triggered.toNat ≤ 60 ∧ t.secondOfDay < 86400 ∧
      now.secondOfDay = (t.secondOfDay + (t.triggered.toNat - 1)) % 86400)

theorem Due.secondOfDay_eq {now : SysTime} {t : DeviceCommonTimer} (due : Due now t) :
    t.secondOfDay = now.secondOfDay := by
  obtain ⟨-, hour, minute, second, -⟩ := due
  rw [DeviceCommonTimer.secondOfDay, SysTime.secondOfDay, hour, minute, second]

/-- A timer that has not fired lately fires when it is due. -/
theorem check_rested {now : SysTime} {t : DeviceCommonTimer} (valid : now.Valid)
    (rested : t.triggered = 0) :
    (fires now t ↔ Due now t) ∧ Aligned now (checkedTimer now t) := by
  have count : countTriggered t = 0 := by simp [countTriggered, rested]
  have due : fires now t ↔ Due now t := by rw [fires_iff, count, and_iff_left rfl]
  refine ⟨due, ?_⟩
  unfold checkedTimer Aligned
  by_cases fired : fires now t = true
  · have here := due.mp fired
    have same := here.secondOfDay_eq
    have bound := valid.secondOfDay_lt
    refine .inr ⟨here.1, ?_, ?_, ?_⟩
    · rw [if_pos fired]
      change (1 : UInt8).toNat ≤ 60
      decide
    · change t.secondOfDay < 86400
      omega
    · rw [if_pos fired]
      change now.secondOfDay = (t.secondOfDay + 0) % 86400
      rw [Nat.add_zero, same, Nat.mod_eq_of_lt bound]
  · left
    rw [if_neg fired]
    exact count

/-- One second later the same: a timer whose counter runs is not due. -/
theorem check_aligned {now : SysTime} {t : DeviceCommonTimer} (valid : now.Valid)
    (aligned : Aligned now t) :
    (fires (clockTick now) t ↔ Due (clockTick now) t) ∧
      Aligned (clockTick now) (checkedTimer (clockTick now) t) := by
  by_cases rested : t.triggered = 0
  · exact check_rested (clockTick_valid valid) rested
  obtain ⟨enabled, few, day, since⟩ := aligned.resolve_left rested
  have running : t.triggered.toNat ≠ 0 := fun zero => rested (UInt8.toNat_inj.mp zero)
  have next : (t.triggered + 1).toNat = t.triggered.toNat + 1 := by
    rw [UInt8.toNat_add, UInt8.toNat_one]
    omega
  have later : (clockTick now).secondOfDay =
      (t.secondOfDay + (t.triggered + 1).toNat - 1) % 86400 := by
    rw [clockTick_secondOfDay valid, since, next]
    omega
  have early : ¬ Due (clockTick now) t := by
    intro due
    have same := due.secondOfDay_eq
    omega
  have quiet : ¬ fires (clockTick now) t = true := fun fired => early ((fires_iff _ _).mp fired).1
  refine ⟨iff_of_false quiet early, ?_⟩
  unfold checkedTimer Aligned
  rw [if_neg quiet, countTriggered, if_pos ⟨enabled, rested⟩]
  by_cases ended : t.triggered + 1 > 60
  · rw [if_pos ended]
    exact .inl rfl
  · rw [if_neg ended]
    have bound : (t.triggered + 1).toNat ≤ 60 := UInt8.le_iff_toNat_le.mp (UInt8.not_lt.mp ended)
    refine .inr ⟨enabled, bound, day, ?_⟩
    change (clockTick now).secondOfDay = (t.secondOfDay + ((t.triggered + 1).toNat - 1)) % 86400
    rw [later]
    omega

/-! ## The sends of one check -/

/-- Every action due at `now` finds memory and a free place when it is sent. -/
def SendsFit (sends : Nat → SendEnv) (now : SysTime) :
    List DeviceCommonTimer → List HardwareMsg → Prop
  | [], _ => True
  | t :: rest, queue =>
    if Due now t then
      ((sends 0).board.memoryAlloc (t.actionLen.toNat + 1)).isSome ∧
        (delivered queue (sends 0).arrivals).length < msgQueueLength ∧
        SendsFit (fun n => sends (n + 1)) now rest
          (delivered queue (sends 0).arrivals ++ [actionMsg t])
    else
      SendsFit (fun n => sends (n + 1)) now rest queue

/-- The messages of the actions due at `now`, timer by timer. -/
def dueMsgs (now : SysTime) (list : List DeviceCommonTimer) : List (Option HardwareMsg) :=
  list.map fun t => if Due now t then some (actionMsg t) else none

theorem yaPutTimerActionIntoQueue_sent {env : SendEnv} {queue : List HardwareMsg}
    {t : DeviceCommonTimer} :
    (yaPutTimerActionIntoQueue env queue t).1 = some (actionMsg t) ↔
      (env.board.memoryAlloc (t.actionLen.toNat + 1)).isSome ∧
        (delivered queue env.arrivals).length < msgQueueLength := by
  unfold yaPutTimerActionIntoQueue
  cases env.board.memoryAlloc (t.actionLen.toNat + 1) with
  | none => simp
  | some block =>
    by_cases room : (delivered queue env.arrivals).length < msgQueueLength <;> simp [room]

theorem yaPutTimerActionIntoQueue_queue {env : SendEnv} {queue : List HardwareMsg}
    {t : DeviceCommonTimer} (sent : (yaPutTimerActionIntoQueue env queue t).1 = some (actionMsg t)) :
    (yaPutTimerActionIntoQueue env queue t).2 =
      delivered queue env.arrivals ++ [actionMsg t] := by
  obtain ⟨block, room⟩ := yaPutTimerActionIntoQueue_sent.mp sent
  obtain ⟨block, found⟩ := Option.isSome_iff_exists.mp block
  rw [yaPutTimerActionIntoQueue, found, if_pos room]

/-- The check queues exactly the actions that are due when, and only when, there is room for
them. -/
theorem sendActions_iff {now : SysTime} {list : List DeviceCommonTimer}
    (due : ∀ t ∈ list, (fires now t ↔ Due now t)) (sends : Nat → SendEnv)
    (queue : List HardwareMsg) :
    (sendActions sends now list queue).1 = dueMsgs now list ↔ SendsFit sends now list queue := by
  induction list generalizing sends queue with
  | nil => simp [sendActions, dueMsgs, SendsFit]
  | cons t rest ih =>
    have ih := fun sends queue => ih (fun u mem => due u (List.mem_cons_of_mem _ mem)) sends queue
    have here := due t List.mem_cons_self
    unfold dueMsgs at ih ⊢
    rw [sendActions, SendsFit, List.map_cons]
    by_cases now' : Due now t
    · rw [if_pos (here.mpr now'), if_pos now', if_pos now', List.cons.injEq, ← and_assoc,
        ← yaPutTimerActionIntoQueue_sent]
      refine and_congr_right fun sent => ?_
      rw [yaPutTimerActionIntoQueue_queue sent]
      exact ih _ _
    · rw [if_neg (fun fired => now' (here.mp fired)), if_neg now', if_neg now', List.cons.injEq,
        and_iff_right rfl]
      exact ih _ _

/-! ## Runs of the loop -/

/-- Whether the clock moves in a pass. -/
def clockMoves (s : HardwareLoop) (input : LoopInput) : Bool :=
  yaTimerCompare (s.startTimer % 2 ^ 32) (yaHalOsTicksToMsec (s.ticks + input.delay)) 1000 = 0

/-- The number of seconds the clock moves in a run. -/
def loopTicks (s : HardwareLoop) : List LoopInput → Nat
  | [] => 0
  | input :: inputs =>
    (if clockMoves s input then 1 else 0) + loopTicks (loopStep s input).2 inputs

/-- A timer before it has fired. -/
def DeviceCommonTimer.rested (t : DeviceCommonTimer) : DeviceCommonTimer := { t with triggered := 0 }

theorem map_rested {list : List DeviceCommonTimer} (fresh : ∀ t ∈ list, t.triggered = 0) :
    list.map DeviceCommonTimer.rested = list := by
  refine (List.map_congr_left fun t mem => ?_).trans (List.map_id list)
  have zero := fresh t mem
  cases t
  cases zero
  rfl

/-- The counter plays no part in what is due. -/
theorem dueMsgs_rested (now : SysTime) (list : List DeviceCommonTimer) :
    dueMsgs now (list.map DeviceCommonTimer.rested) = dueMsgs now list := by
  rw [dueMsgs, List.map_map]
  rfl

theorem sendsFit_rested (now : SysTime) (list : List DeviceCommonTimer) (sends : Nat → SendEnv)
    (queue : List HardwareMsg) :
    SendsFit sends now (list.map DeviceCommonTimer.rested) queue ↔ SendsFit sends now list queue := by
  induction list generalizing sends queue with
  | nil => rfl
  | cons t rest ih =>
    rw [List.map_cons, SendsFit, SendsFit, ih, ih]
    rfl

/-- What a check of the timers `list` has to have queued. -/
def CheckRecord.Complete (list : List DeviceCommonTimer) (r : CheckRecord) : Prop :=
  r.sent = dueMsgs r.now list

/-- That there was room for it. -/
def CheckRecord.Fits (list : List DeviceCommonTimer) (r : CheckRecord) : Prop :=
  SendsFit r.sends r.now list r.queue

/-- The state between two passes, for the timers `list`. -/
structure LoopReady (list : List DeviceCommonTimer) (s : HardwareLoop) : Prop where
  valid : s.time.Valid
  timers : s.list.map DeviceCommonTimer.rested = list
  aligned : ∀ t ∈ s.list, Aligned s.time t

/-- A check at the time of the state: the timers fire when they are due, and the state is ready
for the next second. -/
theorem deviceCheckCloudTimer_spec {list : List DeviceCommonTimer} {s : HardwareLoop}
    (sends : Nat → SendEnv) (valid : s.time.Valid)
    (timers : s.list.map DeviceCommonTimer.rested = list) (enabled : s.checkEnable = true)
    (recent : 2020 ≤ s.time.year)
    (step : ∀ t ∈ s.list, (fires s.time t ↔ Due s.time t) ∧ Aligned s.time (checkedTimer s.time t)) :
    ∃ r s', deviceCheckCloudTimer sends s = (some r, s') ∧ r.now = s.time ∧
      (r.Complete list ↔ r.Fits list) ∧ LoopReady list s' ∧ s'.checkEnable = false ∧
      s'.time = s.time ∧ s'.startTimer = s.startTimer := by
  have checks : ¬ (s.checkEnable = false ∨ s.time.year < 2020) := by
    rintro (off | old)
    · rw [enabled] at off
      cases off
    · exact UInt16.not_lt.mpr recent old
  rw [deviceCheckCloudTimer, if_neg checks]
  refine ⟨_, _, rfl, rfl, ?_, ⟨valid, ?_, ?_⟩, rfl, rfl, rfl⟩
  · rw [CheckRecord.Complete, CheckRecord.Fits, ← timers, dueMsgs_rested, sendsFit_rested]
    exact sendActions_iff (fun t mem => (step t mem).1) sends s.queue
  · dsimp only
    rw [List.map_map, ← timers]
    rfl
  · intro u mem
    obtain ⟨t, old, rfl⟩ := List.mem_map.mp mem
    exact (step t old).2

/-- A pass that moves the clock checks the new second. -/
theorem loopStep_moves {list : List DeviceCommonTimer} {s : HardwareLoop} {input : LoopInput}
    (ready : LoopReady list s) (moves : clockMoves s input) (recent : 2020 ≤ (clockTick s.time).year) :
    ∃ r s', loopStep s input = (some r, s') ∧ r.now = clockTick s.time ∧
      (r.Complete list ↔ r.Fits list) ∧ LoopReady list s' ∧ s'.checkEnable = false ∧
      s'.time = clockTick s.time ∧ s'.startTimer = (s.startTimer + 1000) % 2 ^ 64 := by
  have compare := of_decide_eq_true moves
  obtain ⟨r, s', checked, now, complete, ready', off, time, start⟩ :=
    deviceCheckCloudTimer_spec
      (s := { s with
        time := clockTick s.time
        checkEnable := true
        startTimer := (s.startTimer + 1000) % 2 ^ 64
        ticks := s.ticks + input.delay
        queue := delivered s.queue input.arrivals })
      input.sends (clockTick_valid ready.valid) ready.timers rfl recent
      fun t mem => check_aligned ready.valid (ready.aligned t mem)
  refine ⟨r, { s' with queue := (delivered s'.queue input.late).tail }, ?_, now, complete,
    ⟨ready'.valid, ready'.timers, ready'.aligned⟩, off, time, start⟩
  unfold loopStep sysRunAbstime1s
  dsimp only
  rw [if_pos compare, checked]

/-- A pass that does not move the clock checks nothing, once the last second is checked. -/
theorem loopStep_waits {list : List DeviceCommonTimer} {s : HardwareLoop} {input : LoopInput}
    (ready : LoopReady list s) (waits : ¬ clockMoves s input) (off : s.checkEnable = false) :
    ∃ s', loopStep s input = (none, s') ∧ LoopReady list s' ∧ s'.checkEnable = false ∧
      s'.time = s.time ∧ s'.startTimer = s.startTimer := by
  have compare := of_decide_eq_false (Bool.not_eq_true _ ▸ waits)
  refine ⟨{ s with
    ticks := s.ticks + input.delay
    queue := (delivered (delivered s.queue input.arrivals) input.late).tail }, ?_,
    ⟨ready.valid, ready.timers, ready.aligned⟩, off, rfl, rfl⟩
  unfold loopStep sysRunAbstime1s
  dsimp only
  rw [if_neg compare, deviceCheckCloudTimer, if_pos (.inl off)]

/-- The second the run starts at, left unchecked before it, is checked in the first pass unless
the clock moves there. -/
theorem loopStep_first {s : HardwareLoop} {input : LoopInput} (valid : s.time.Valid)
    (fresh : ∀ t ∈ s.list, t.triggered = 0) (waits : ¬ clockMoves s input)
    (enabled : s.checkEnable = true) (recent : 2020 ≤ s.time.year) :
    ∃ r s', loopStep s input = (some r, s') ∧ r.now = s.time ∧
      (r.Complete s.list ↔ r.Fits s.list) ∧ LoopReady s.list s' ∧ s'.checkEnable = false ∧
      s'.time = s.time ∧ s'.startTimer = s.startTimer := by
  have compare := of_decide_eq_false (Bool.not_eq_true _ ▸ waits)
  obtain ⟨r, s', checked, now, complete, ready, off, time, start⟩ :=
    deviceCheckCloudTimer_spec
      (s := { s with
        ticks := s.ticks + input.delay
        queue := delivered s.queue input.arrivals })
      input.sends valid (map_rested fresh) enabled recent
      fun t mem => check_rested valid (fresh t mem)
  refine ⟨r, { s' with queue := (delivered s'.queue input.late).tail }, ?_, now, complete,
    ⟨ready.valid, ready.timers, ready.aligned⟩, off, time, start⟩
  unfold loopStep sysRunAbstime1s
  dsimp only
  rw [if_neg compare, checked]

/-- The second of a run that is checked before the clock moves. -/
def firstCheck (s : HardwareLoop) : List LoopInput → List SysTime
  | [] => []
  | input :: _ => if s.checkEnable ∧ ¬ clockMoves s input then [s.time] else []

/-- The seconds of the clock in a run: one for each thousand milliseconds taken off the counter,
each checked once and in order. -/
structure LoopClock (s : HardwareLoop) (inputs : List LoopInput) : Prop where
  time : (loopRun s inputs).2.time = clockTick^[loopTicks s inputs] s.time
  consumed : (loopRun s inputs).2.startTimer % 2 ^ 64 =
    (s.startTimer + 1000 * loopTicks s inputs) % 2 ^ 64
  checked : (loopRun s inputs).1.map CheckRecord.now = firstCheck s inputs ++
    (List.range (loopTicks s inputs)).map fun k => clockTick^[k + 1] s.time

theorem range_succ_clockTick (t : SysTime) (n : Nat) :
    (List.range (1 + n)).map (fun k => clockTick^[k + 1] t) =
      clockTick t :: (List.range n).map fun k => clockTick^[k + 1] (clockTick t) := by
  rw [Nat.add_comm, List.range_succ_eq_map, List.map_cons, List.map_map]
  rfl

/-- A pass in front of a run. -/
theorem loopRun_cons {s s' : HardwareLoop} {input : LoopInput} {record : Option CheckRecord}
    (stepped : loopStep s input = (record, s')) (inputs : List LoopInput) :
    loopRun s (input :: inputs) = (record.toList ++ (loopRun s' inputs).1, (loopRun s' inputs).2) := by
  rw [loopRun, stepped]

/-- A pass that moves the clock, in front of a run. -/
theorem LoopClock.moves {s s' : HardwareLoop} {input : LoopInput} {r : CheckRecord}
    {inputs : List LoopInput} (stepped : loopStep s input = (some r, s')) (moves : clockMoves s input)
    (now : r.now = clockTick s.time) (off : s'.checkEnable = false)
    (time : s'.time = clockTick s.time) (start : s'.startTimer = (s.startTimer + 1000) % 2 ^ 64)
    (rest : LoopClock s' inputs) : LoopClock s (input :: inputs) := by
  have count : loopTicks s (input :: inputs) = 1 + loopTicks s' inputs := by
    rw [loopTicks, if_pos moves, stepped]
  have first : firstCheck s (input :: inputs) = [] := by simp [firstCheck, moves]
  have later : firstCheck s' inputs = [] := by cases inputs <;> simp [firstCheck, off]
  constructor
  · rw [loopRun_cons stepped, count, Nat.add_comm, Function.iterate_succ_apply, ← time]
    exact rest.time
  · have consumed := rest.consumed
    rw [loopRun_cons stepped, count]
    dsimp only
    omega
  · have checked := rest.checked
    rw [later, List.nil_append, time] at checked
    rw [loopRun_cons stepped, count, first, List.nil_append, range_succ_clockTick, ← checked, ← now]
    rfl

/-- A pass that does not, in front of a run. -/
theorem LoopClock.waits {s s' : HardwareLoop} {input : LoopInput} {record : Option CheckRecord}
    {inputs : List LoopInput} (stepped : loopStep s input = (record, s'))
    (waits : ¬ clockMoves s input) (now : record.toList.map CheckRecord.now = firstCheck s [input])
    (off : s'.checkEnable = false) (time : s'.time = s.time)
    (start : s'.startTimer = s.startTimer) (rest : LoopClock s' inputs) :
    LoopClock s (input :: inputs) := by
  have count : loopTicks s (input :: inputs) = loopTicks s' inputs := by
    rw [loopTicks, if_neg waits, stepped, Nat.zero_add]
  have later : firstCheck s' inputs = [] := by cases inputs <;> simp [firstCheck, off]
  constructor
  · rw [loopRun_cons stepped, count, ← time]
    exact rest.time
  · rw [loopRun_cons stepped, count, ← start]
    exact rest.consumed
  · have checked := rest.checked
    rw [later, List.nil_append, time] at checked
    rw [loopRun_cons stepped, count, ← checked, List.map_append, now]
    rfl

theorem LoopClock.nil (s : HardwareLoop) : LoopClock s [] := ⟨rfl, rfl, rfl⟩

/-- What every check of a run has to be like. -/
def ChecksComplete (list : List DeviceCommonTimer) (s : HardwareLoop) (inputs : List LoopInput) :
    Prop :=
  ∀ r ∈ (loopRun s inputs).1, (r.Complete list ↔ r.Fits list)

theorem ChecksComplete.cons {list : List DeviceCommonTimer} {s s' : HardwareLoop}
    {input : LoopInput} {record : Option CheckRecord} {inputs : List LoopInput}
    (stepped : loopStep s input = (record, s'))
    (here : ∀ r ∈ record, (r.Complete list ↔ r.Fits list)) (rest : ChecksComplete list s' inputs) :
    ChecksComplete list s (input :: inputs) := by
  intro r mem
  rw [loopRun_cons stepped] at mem
  rcases List.mem_append.mp mem with first | later
  · exact here r (Option.mem_toList.mp first)
  · exact rest r later

/-- The clock stays in the years that are checked. -/
def Recent (t : SysTime) (n : Nat) : Prop := ∀ k ≤ n, 2020 ≤ (clockTick^[k] t).year

theorem Recent.tick {t : SysTime} {n : Nat} (recent : Recent t (n + 1)) : Recent (clockTick t) n := by
  intro k le
  have := recent (k + 1) (Nat.succ_le_succ le)
  rwa [Function.iterate_succ_apply] at this

theorem Recent.mono {t : SysTime} {n m : Nat} (recent : Recent t n) (le : m ≤ n) : Recent t m :=
  fun k le' => recent k (Nat.le_trans le' le)

/-- From a second that is checked. -/
theorem loopRun_ready {list : List DeviceCommonTimer} {s : HardwareLoop} {inputs : List LoopInput}
    (ready : LoopReady list s) (off : s.checkEnable = false) (recent : Recent s.time inputs.length) :
    LoopClock s inputs ∧ ChecksComplete list s inputs := by
  induction inputs generalizing s with
  | nil => exact ⟨.nil s, by simp [ChecksComplete, loopRun]⟩
  | cons input inputs ih =>
    by_cases moves : clockMoves s input
    · obtain ⟨r, s', stepped, now, complete, ready', off', time, start⟩ :=
        loopStep_moves ready moves (recent 1 (Nat.le_add_left _ _))
      obtain ⟨clock, checks⟩ := ih ready' off' (time ▸ recent.tick)
      exact ⟨.moves stepped moves now off' time start clock,
        .cons stepped (by simpa using complete) checks⟩
    · obtain ⟨s', stepped, ready', off', time, start⟩ := loopStep_waits ready moves off
      obtain ⟨clock, checks⟩ := ih ready' off' (time ▸ recent.mono (Nat.le_succ _))
      refine ⟨.waits stepped moves ?_ off' time start clock, .cons stepped (by simp) checks⟩
      simp [firstCheck, off]

/-- Over every run the clock moves one second for each thousand milliseconds taken off the counter,
every second of it is checked once and in order, and a check queues the actions due at its second,
each once and no other, exactly when each of them finds memory and a place in the queue. -/
theorem loopRun_fires {s : HardwareLoop} {inputs : List LoopInput} (valid : s.time.Valid)
    (fresh : ∀ t ∈ s.list, t.triggered = 0) (recent : Recent s.time inputs.length) :
    LoopClock s inputs ∧
      (loopRun s inputs).2.time.secondOfWeek % 604800 =
        (s.time.secondOfWeek + loopTicks s inputs) % 604800 ∧
      ∀ r ∈ (loopRun s inputs).1, (r.Complete s.list ↔ r.Fits s.list) := by
  have ready : LoopReady s.list s := ⟨valid, map_rested fresh, fun t mem => .inl (fresh t mem)⟩
  have both : LoopClock s inputs ∧ ChecksComplete s.list s inputs := by
    cases inputs with
    | nil => exact ⟨.nil s, by simp [ChecksComplete, loopRun]⟩
    | cons input inputs =>
      by_cases pending : s.checkEnable = true ∧ ¬ clockMoves s input
      · obtain ⟨enabled, waits⟩ := pending
        obtain ⟨r, s', stepped, now, complete, ready', off', time, start⟩ :=
          loopStep_first valid fresh waits enabled (recent 0 (Nat.zero_le _))
        obtain ⟨clock, checks⟩ :=
          loopRun_ready ready' off' (time ▸ recent.mono (Nat.le_succ _))
        refine ⟨.waits stepped waits ?_ off' time start clock,
          .cons stepped (by simpa using complete) checks⟩
        simp [firstCheck, enabled, waits, now]
      · by_cases moves : clockMoves s input
        · obtain ⟨r, s', stepped, now, complete, ready', off', time, start⟩ :=
            loopStep_moves ready moves (recent 1 (Nat.le_add_left _ _))
          obtain ⟨clock, checks⟩ := loopRun_ready ready' off' (time ▸ recent.tick)
          exact ⟨.moves stepped moves now off' time start clock,
            .cons stepped (by simpa using complete) checks⟩
        · have off : s.checkEnable = false := by
            simpa [moves] using pending
          exact loopRun_ready ready off recent
  refine ⟨both.1, ?_, both.2⟩
  rw [both.1.time]
  exact clockTicks_secondOfWeek valid _

/-! ## The counter -/

/-! ## Too many at once -/

/-- A timer for eight o'clock, every day. -/
def eightOClock (n : UInt8) : DeviceCommonTimer where
  year := 0
  month := 0
  day := 0
  hour := 8
  minute := 0
  second := 0
  week := 127
  enable := 1
  timerId := ⟨n :: List.replicate 15 0, rfl⟩
  triggered := 0
  actionLen := 2
  action := [0x31, 0]
  holds := actionOne_holds
  terminated := actionOne_terminated

/-- A Monday, one second before eight. -/
def mondayMorning : SysTime := ⟨2021, 3, 1, 7, 59, 59, 1⟩

/-- The loop then, with `n` such timers. -/
def beforeEight (n : Nat) : HardwareLoop where
  time := mondayMorning
  checkEnable := false
  startTimer := 0
  ticks := 0
  list := (List.range n).map fun i => eightOClock (UInt8.ofNat (0x41 + i))
  queue := []

/-- The pass in which the second is over, with memory and without other messages. -/
def lateSecond : LoopInput where
  delay := 201
  arrivals := []
  sends := fun _ => ⟨[], Board.zeroed⟩
  late := []

theorem mondayMorning_valid : mondayMorning.Valid := by
  constructor <;> decide

theorem mondayMorning_recent : Recent mondayMorning 1 := by
  intro k le
  rcases Nat.le_one_iff_eq_zero_or_eq_one.mp le with rfl | rfl <;> decide

theorem loopRun_fires_three : ∃ r, (loopRun (beforeEight 3) [lateSecond]).1 = [r] ∧
    r.sent = [some (actionMsg (eightOClock 0x41)), some (actionMsg (eightOClock 0x42)),
      some (actionMsg (eightOClock 0x43))] := by
  obtain ⟨-, -, checks⟩ := @loopRun_fires (beforeEight 3) [lateSecond] mondayMorning_valid
    (by decide) mondayMorning_recent
  refine ⟨_, rfl, ((checks _ (List.mem_singleton.mpr rfl)).mpr ?_).trans (by decide)⟩
  exact ⟨rfl, by decide, rfl, by decide, rfl, by decide, trivial⟩

/-- Seventeen timers for one second: the last one finds the queue full. -/
theorem loopRun_seventeen_not_sent : (beforeEight 17).time.Valid ∧
    (∀ t ∈ (beforeEight 17).list, t.triggered = 0) ∧
    Recent (beforeEight 17).time [lateSecond].length ∧
    ∃ r ∈ (loopRun (beforeEight 17) [lateSecond]).1, ¬ r.Complete (beforeEight 17).list := by
  refine ⟨mondayMorning_valid, by decide, mondayMorning_recent, _, List.mem_singleton.mpr rfl, ?_⟩
  intro complete
  have last := congrArg (fun sent => sent[16]?) complete
  revert last
  decide +kernel

end Tr6260
