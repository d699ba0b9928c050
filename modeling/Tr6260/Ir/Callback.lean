import Tr6260.Machine
import Tr6260.ShiftRegister

/-!
# The infrared receiver

`hal_ir_callback` of `hal_ir_HBS838.c` is called at each falling edge and goes by the time since the
one before: a leader, a bit of one or the other kind, or the gap behind the last bit. The leader
clears the bits but not their number, so that what an interrupted frame has left of it is missing at
the end of the next one.

Calls of `xSemaphoreGive` are told, with `infor_value` at that moment. `Receiver` is the callback
without its clock.
-/

namespace Tr6260

namespace Ir

open ShiftRegister

/-! ## The callback -/

/-- `IR_LEADER_HIGH_LEVEL_MAX` and the other bounds. -/
def irLeaderHighLevelMax : BitVec 32 := 13990
def irLeaderHighLevelMin : BitVec 32 := 13090
def irInforHighLevelMax : BitVec 32 := 2500
def irInforHighLevelMin : BitVec 32 := 2000
def irInforLowLevelMax : BitVec 32 := 1300
def irInforLowLevelMin : BitVec 32 := 1000
def irStopHighLevelMax : BitVec 32 := 44000
def irStopHighLevelMin : BitVec 32 := 40000

/-- `COSTOM_DATA_BITS_NUM`. -/
def costomDataBitsNum : UInt8 := 32

/-- `enum status`, and the value at the start, which has no name there. -/
inductive Status
  | zero
  | inforCode
  | endCode
  deriving DecidableEq

/-- `infor_value`, `test_time0`, `receive_num` and `receive_status`. -/
structure State where
  inforValue : BitVec 32
  testTime0 : BitVec 32
  receiveNum : UInt8
  receiveStatus : Status
  deriving DecidableEq

/-- The variables at the start. -/
def State.init : State := ⟨0, 0, 0, .zero⟩

/-- The leader code, in `hal_ir_callback`. -/
def leaderCode (s : State) (time : BitVec 32) : State :=
  if irLeaderHighLevelMin < time ∧ time < irLeaderHighLevelMax then
    { s with receiveStatus := .inforCode, inforValue := 0 }
  else
    s

/-- A bit of the custom code and the data, in `hal_ir_callback`. -/
def customDataBit (s : State) (time : BitVec 32) : State :=
  if irInforLowLevelMin < time ∧ time < irInforLowLevelMax then
    { s with inforValue := s.inforValue >>> 1, receiveNum := s.receiveNum + 1 }
  else if irInforHighLevelMin < time ∧ time < irInforHighLevelMax then
    { s with inforValue := s.inforValue >>> 1 ||| 0x80000000, receiveNum := s.receiveNum + 1 }
  else
    s

/-- The custom code and the data, in `hal_ir_callback`. -/
def customDataCode (s : State) (time : BitVec 32) : State :=
  if s.receiveStatus = .inforCode then
    let s := customDataBit s time
    if s.receiveNum = costomDataBitsNum then
      { s with receiveNum := 0, receiveStatus := .endCode }
    else
      s
  else
    s

/-- The end code, in `hal_ir_callback`: whether the semaphore is given. -/
def endCode (s : State) (time : BitVec 32) : Bool :=
  s.receiveStatus = .endCode ∧ irStopHighLevelMin < time ∧ time < irStopHighLevelMax

/-- `hal_ir_callback` at a timestamp, and whether it gives the semaphore. -/
def halIrCallback (s : State) (timestamp : BitVec 32) : State × Bool :=
  let time := timestamp - s.testTime0
  let s := customDataCode (leaderCode { s with testTime0 := timestamp } time) time
  (s, endCode s time)

/-- An edge, and `infor_value` if the semaphore is given. -/
def State.edge (s : State) (timestamp : BitVec 32) : State × Option (BitVec 32) :=
  let (s, given) := halIrCallback s timestamp
  (s, if given then some s.inforValue else none)

/-! ## The task -/

/-- `COSTOM_CODE_HBS838`. -/
def costomCodeHbs838 : BitVec 32 := 0xef00

/-- `IR_KEY_1` and the other keys, and what is printed for them. -/
def irKeys : List (BitVec 32 × String) :=
  [(0xff00, "the key is 1-1\n"), (0xfe01, "the key is 1-2\n"), (0xfd02, "the key is 1-3\n"),
    (0xfc03, "the key is 1-4\n"), (0xfb04, "the key is 2-1\n"), (0xfa05, "the key is 2-2\n"),
    (0xf906, "the key is 2-3\n"), (0xf807, "the key is 2-4\n"), (0xf708, "the key is 3-1\n"),
    (0xf609, "the key is 3-2\n"), (0xf50a, "the key is 3-3\n"), (0xf40b, "the key is 3-4\n"),
    (0xf30c, "the key is 4-1\n"), (0xf20d, "the key is 4-2\n"), (0xf10e, "the key is 4-3\n"),
    (0xf00f, "the key is 4-4\n"), (0xef10, "the key is 5-1\n"), (0xee11, "the key is 5-2\n"),
    (0xed12, "the key is 5-3\n"), (0xec13, "the key is 5-4\n"), (0xeb14, "the key is 6-1\n"),
    (0xea15, "the key is 6-2\n"), (0xe916, "the key is 6-3\n"), (0xe817, "the key is 6-4\n")]

/-- What `hal_ir_data_process` prints when it has taken the semaphore. -/
def halIrDataProcess (inforValue : BitVec 32) : Option String :=
  if inforValue &&& 0xffff = costomCodeHbs838 then
    some ((irKeys.lookup (inforValue >>> 16)).getD "the key value is\terror\n")
  else
    none

/-! ## Intervals -/

/-- The intervals between edges, of which `last` is the one before. -/
def intervals (last : BitVec 32) : List (BitVec 32) → List (BitVec 32)
  | [] => []
  | timestamp :: more => (timestamp - last) :: intervals timestamp more

/-- Edges at these intervals. -/
def edges (last : BitVec 32) : List (BitVec 32) → List (BitVec 32)
  | [] => []
  | time :: more => (last + time) :: edges (last + time) more

theorem intervals_edges (last : BitVec 32) (times : List (BitVec 32)) :
    intervals last (edges last times) = times := by
  induction times generalizing last with
  | nil => rfl
  | cons time more ih => rw [edges, intervals, ih, BitVec.add_comm, BitVec.add_sub_cancel]

/-- What an interval is taken for. -/
inductive Pulse
  | leader
  | bit (b : Bool)
  | stop
  | other
  deriving DecidableEq

def pulse (time : BitVec 32) : Pulse :=
  if irLeaderHighLevelMin < time ∧ time < irLeaderHighLevelMax then .leader
  else if irInforLowLevelMin < time ∧ time < irInforLowLevelMax then .bit false
  else if irInforHighLevelMin < time ∧ time < irInforHighLevelMax then .bit true
  else if irStopHighLevelMin < time ∧ time < irStopHighLevelMax then .stop
  else .other

/-- What the edges are taken for. -/
def pulses (last : BitVec 32) (times : List (BitVec 32)) : List Pulse :=
  (intervals last times).map pulse

theorem length_pulses (last : BitVec 32) (times : List (BitVec 32)) :
    (pulses last times).length = times.length := by
  unfold pulses
  rw [List.length_map]
  induction times generalizing last with
  | nil => rfl
  | cons timestamp more ih => rw [intervals, List.length_cons, ih, List.length_cons]

theorem pulses_append (last : BitVec 32) (earlier times : List (BitVec 32)) :
    pulses last (earlier ++ times) =
      pulses last earlier ++ pulses (earlier.getLastD last) times := by
  induction earlier generalizing last with
  | nil => rfl
  | cons timestamp more ih =>
    have rest := ih timestamp
    cases more with
    | nil => rfl
    | cons next more => exact congrArg (pulse (timestamp - last) :: ·) rest

/-! ## The receiver -/

/-- The callback without its clock: fewer than 32 bits are counted while it reads. -/
inductive Receiver
  | idle
  | reading (num : Fin 32) (value : BitVec 32)
  | complete (value : BitVec 32)

namespace Receiver

/-- `receive_num`. -/
def num : Receiver → Nat
  | reading num _ => num
  | _ => 0

theorem num_lt (r : Receiver) : r.num < 32 := by
  cases r with
  | reading num value => exact num.isLt
  | idle => exact Nat.succ_pos 31
  | complete value => exact Nat.succ_pos 31

/-- A bit, of which the 32nd ends the reading. -/
def takeBit (b : Bool) : Receiver → Receiver
  | reading num value =>
    if more : num.val + 1 < 32 then reading ⟨num.val + 1, more⟩ (shiftIn value b)
    else complete (shiftIn value b)
  | r => r

/-- A leader, which keeps the number of bits. -/
def takeLeader : Receiver → Receiver
  | reading num _ => reading num 0
  | _ => reading 0 0

def step (r : Receiver) : Pulse → Receiver × Option (BitVec 32)
  | .leader => (r.takeLeader, none)
  | .bit b => (r.takeBit b, none)
  | .stop => (r, match r with
    | complete value => some value
    | _ => none)
  | .other => (r, none)

/-- The variables that stand for the receiver. -/
def state (testTime0 : BitVec 32) : Receiver → State
  | idle => ⟨0, testTime0, 0, .zero⟩
  | reading num value => ⟨value, testTime0, UInt8.ofNat num, .inforCode⟩
  | complete value => ⟨value, testTime0, 0, .endCode⟩

end Receiver

/-! ## The windows are apart -/

section Windows

variable (s : State) (time : BitVec 32)

theorem pulse_leader_iff : pulse time = .leader ↔
    irLeaderHighLevelMin < time ∧ time < irLeaderHighLevelMax := by
  unfold pulse
  split_ifs with leader <;> simp [leader]

theorem pulse_zero_iff : pulse time = .bit false ↔
    irInforLowLevelMin < time ∧ time < irInforLowLevelMax := by
  unfold pulse
  split_ifs with leader zero <;> simp [*]
  unfold irLeaderHighLevelMin irLeaderHighLevelMax irInforLowLevelMin irInforLowLevelMax at *
  bv_omega

theorem pulse_one_iff : pulse time = .bit true ↔
    irInforHighLevelMin < time ∧ time < irInforHighLevelMax := by
  unfold pulse
  unfold irLeaderHighLevelMin irLeaderHighLevelMax irInforLowLevelMin irInforLowLevelMax
    irInforHighLevelMin irInforHighLevelMax
  split_ifs with leader zero one <;> simp [*]
  all_goals bv_omega

theorem pulse_stop_iff : pulse time = .stop ↔
    irStopHighLevelMin < time ∧ time < irStopHighLevelMax := by
  unfold pulse
  unfold irLeaderHighLevelMin irLeaderHighLevelMax irInforLowLevelMin irInforLowLevelMax
    irInforHighLevelMin irInforHighLevelMax irStopHighLevelMin irStopHighLevelMax
  split_ifs with leader zero one stop <;> simp [*]
  all_goals bv_omega

theorem leaderCode_eq : leaderCode s time =
    if pulse time = .leader then { s with receiveStatus := .inforCode, inforValue := 0 }
    else s := by
  unfold leaderCode
  simp only [pulse_leader_iff]

theorem customDataBit_eq : customDataBit s time = match pulse time with
    | .bit b => { s with inforValue := shiftIn s.inforValue b, receiveNum := s.receiveNum + 1 }
    | _ => s := by
  have top : BitVec.intMin 32 = 0x80000000 := rfl
  unfold customDataBit
  simp only [← pulse_zero_iff, ← pulse_one_iff]
  cases pulse time with
  | bit b =>
    cases b with
    | false => simp [shiftIn_false]
    | true => simp [shiftIn_true, top]
  | leader => simp
  | stop => simp
  | other => simp

theorem endCode_eq : endCode s time = decide (s.receiveStatus = .endCode ∧ pulse time = .stop) := by
  unfold endCode
  simp only [pulse_stop_iff]

end Windows

/-! ## The callback is the receiver -/

namespace Receiver

variable {last : BitVec 32}

theorem ofNat_succ_eq_iff (num : Fin 32) :
    UInt8.ofNat num + 1 = costomDataBitsNum ↔ num.val + 1 = 32 := by
  have small := num.isLt
  rw [← UInt8.toNat_inj, UInt8.toNat_add, UInt8.toNat_ofNat']
  change (num.val % 2 ^ 8 + 1) % 2 ^ 8 = 32 ↔ _
  omega

theorem ofNat_ne (num : Fin 32) : UInt8.ofNat num ≠ costomDataBitsNum := by
  intro same
  have small := num.isLt
  have full := congrArg UInt8.toNat same
  rw [UInt8.toNat_ofNat'] at full
  change num.val % 2 ^ 8 = 32 at full
  omega

/-- An edge is a pulse for the receiver. -/
theorem edge_state (r : Receiver) (timestamp : BitVec 32) :
    (r.state last).edge timestamp = ((r.step (pulse (timestamp - last))).1.state timestamp,
      (r.step (pulse (timestamp - last))).2) := by
  have time : timestamp - (r.state last).testTime0 = timestamp - last := by
    cases r <;> rfl
  unfold State.edge halIrCallback customDataCode
  simp only [time, leaderCode_eq, customDataBit_eq, endCode_eq]
  generalize pulse (timestamp - last) = p
  cases r with
  | idle => cases p <;> simp [state, step, takeBit, takeLeader, costomDataBitsNum]
  | complete value => cases p <;> simp [state, step, takeBit, takeLeader, costomDataBitsNum]
  | reading num value =>
    have counted := ofNat_ne num
    cases p with
    | leader => simp [state, step, takeLeader, counted]
    | stop => simp [state, step, counted]
    | other => simp [state, step, counted]
    | bit b =>
      by_cases last_ : num.val + 1 = 32
      · have full := (ofNat_succ_eq_iff num).mpr last_
        simp [state, step, takeBit, full, last_]
      · have some_ := mt (ofNat_succ_eq_iff num).mp last_
        have more : num.val + 1 < 32 := by omega
        simp [state, step, takeBit, some_, more]

theorem outputs_edge (r : Receiver) (times : List (BitVec 32)) :
    machineOutputs State.edge (r.state last) times =
      machineOutputs step r (pulses last times) := by
  induction times generalizing r last with
  | nil => rfl
  | cons timestamp more ih =>
    unfold pulses intervals
    rw [List.map_cons, machineOutputs, machineOutputs, edge_state]
    dsimp only
    rw [ih]
    rfl

theorem after_edge (r : Receiver) (times : List (BitVec 32)) :
    machineAfter State.edge (r.state last) times =
      (machineAfter step r (pulses last times)).state (times.getLastD last) := by
  induction times generalizing r last with
  | nil => rfl
  | cons timestamp more ih =>
    unfold pulses intervals
    rw [List.map_cons]
    change machineAfter State.edge ((r.state last).edge timestamp).1 more = _
    rw [edge_state, ih]
    cases more <;> rfl

end Receiver

end Ir

end Tr6260
