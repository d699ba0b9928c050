import Tr6260.Ir.Callback

/-!
# Frames behind interrupted ones

`Decoder` is what the receiver is for: it forgets what was before a leader. The receiver is one
along every run in which no leader interrupts a frame. Otherwise the bits of the interrupted frame
still count: the next frame is complete before its end, and its code comes out shifted up by as many
places.
-/

namespace Tr6260

namespace Ir

open ShiftRegister

/-! ## The decoder -/

/-- The bits since the last leader. -/
inductive Decoder
  | waiting
  | reading (bits : List Bool) (short : bits.length ≤ 32)

namespace Decoder

/-- The decoder after a leader. -/
def start : Decoder := reading [] (Nat.zero_le 32)

def takeBit (b : Bool) : Decoder → Decoder
  | waiting => waiting
  | reading bits short =>
    if more : bits.length < 32 then reading (bits ++ [b]) (by rwa [List.length_append])
    else reading bits short

/-- The code, when it is complete. -/
def code : Decoder → Option (BitVec 32)
  | waiting => none
  | reading bits _ =>
    if bits.length = 32 then some ((BitVec.ofBoolListLE bits).setWidth 32) else none

def step (d : Decoder) : Pulse → Decoder × Option (BitVec 32)
  | .leader => (start, none)
  | .bit b => (d.takeBit b, none)
  | .stop => (d, d.code)
  | .other => (d, none)

/-- No frame has been begun and is not complete. -/
def Free : Decoder → Prop
  | waiting => True
  | reading bits _ => bits.length = 0 ∨ bits.length = 32

/-- No leader interrupts a frame. -/
def Uncut (d : Decoder) (ps : List Pulse) : Prop :=
  machineAlong step (fun d p => p = .leader → d.Free) d ps

end Decoder

/-- A frame with a code, the first bit the lowest. -/
def frame (code : BitVec 32) : List Pulse :=
  .leader :: (lowBits code 32).map .bit ++ [.stop]

/-! ## Bits that are left of an interrupted frame -/

/-- The receiver counts `k` bits more than the decoder has. -/
inductive Carried (k : Nat) : Receiver → Decoder → Prop
  | idle : Carried k .idle .waiting
  | reading {num : Fin 32} {value : BitVec 32} {bits : List Bool} {short : bits.length ≤ 32}
    (count : bits.length + k = num) (held : value = bits.foldl shiftIn 0) :
    Carried k (.reading num value) (.reading bits short)
  | complete {value : BitVec 32} {bits : List Bool} {short : bits.length ≤ 32}
    (full : 32 ≤ bits.length + k) (held : value = (bits.take (32 - k)).foldl shiftIn 0) :
    Carried k (.complete value) (.reading bits short)

namespace Carried

variable {k : Nat} {r : Receiver} {d : Decoder}

/-- A leader keeps what was counted. -/
theorem leader (r : Receiver) (d : Decoder) :
    Carried r.num (r.step .leader).1 (d.step .leader).1 := by
  cases r with
  | idle => exact .reading rfl rfl
  | complete value => exact .reading rfl rfl
  | reading num value => exact .reading (Nat.zero_add num.val) rfl

theorem bit (carried : Carried k r d) (b : Bool) : Carried k (r.takeBit b) (d.takeBit b) := by
  cases carried with
  | idle => exact .idle
  | @reading num value bits short count held =>
    have small := num.isLt
    have more : bits.length < 32 := by omega
    have longer : (bits ++ [b]).length = bits.length + 1 := List.length_append
    have taken : shiftIn value b = (bits ++ [b]).foldl shiftIn 0 := by
      rw [List.foldl_append, ← held]
      rfl
    rw [Receiver.takeBit, Decoder.takeBit, dif_pos more]
    by_cases more' : num.val + 1 < 32
    · rw [dif_pos more']
      exact .reading (by rw [longer]; dsimp only; omega) taken
    · rw [dif_neg more']
      have all : (bits ++ [b]).take (32 - k) = bits ++ [b] := List.take_of_length_le (by omega)
      exact .complete (by omega) (by rw [all, taken])
  | @complete value bits short full held =>
    change Carried k (.complete value) (Decoder.takeBit b (.reading bits short))
    rw [Decoder.takeBit]
    split
    case isTrue more =>
      have same : (bits ++ [b]).take (32 - k) = bits.take (32 - k) :=
        List.take_append_of_le_length (by omega)
      exact .complete (by rw [List.length_append]; omega) (by rw [same, held])
    case isFalse => exact .complete full held

theorem step {p : Pulse} (carried : Carried k r d) (other : p ≠ .leader) :
    Carried k (r.step p).1 (d.step p).1 := by
  cases p with
  | leader => exact absurd rfl other
  | bit b => exact carried.bit b
  | stop => exact carried
  | other => exact carried

/-- With nothing left of an interrupted frame, the same is given. -/
theorem same (carried : Carried 0 r d) (p : Pulse) : (r.step p).2 = (d.step p).2 := by
  cases p with
  | leader => rfl
  | bit b => rfl
  | other => rfl
  | stop =>
    cases carried with
    | idle => rfl
    | @reading num value bits short count held =>
      have small := num.isLt
      have some_ : bits.length ≠ 32 := by omega
      exact (if_neg some_).symm
    | @complete value bits short full held =>
      have all : bits.length = 32 := by omega
      have value_ : value = (BitVec.ofBoolListLE bits).setWidth 32 := by
        rw [held, List.take_of_length_le (by omega), foldl_shiftIn_full all]
      rw [value_]
      exact (if_pos all).symm

end Carried

/-! ## A frame -/

theorem machineAlong_bits {P : Decoder → Pulse → Prop} (free : ∀ d b, P d (.bit b)) (d : Decoder)
    (bits : List Bool) : machineAlong Decoder.step P d (bits.map .bit) := by
  induction bits generalizing d with
  | nil => trivial
  | cons b bits ih => exact ⟨free d b, ih _⟩

namespace Decoder

theorem after_bits {bits more all : List Bool} {short : bits.length ≤ 32}
    (whole : bits ++ more = all) (short' : all.length ≤ 32) :
    machineAfter step (reading bits short) (more.map .bit) = reading all short' := by
  induction more generalizing bits with
  | nil =>
    rw [List.append_nil] at whole
    subst whole
    rfl
  | cons b more ih =>
    have next : bits ++ [b] ++ more = all := (List.append_assoc bits [b] more).trans whole
    have room : bits.length < 32 := by
      rw [← whole, List.length_append, List.length_cons] at short'
      omega
    change machineAfter step ((reading bits short).takeBit b) (more.map .bit) = _
    rw [takeBit, dif_pos room]
    exact ih next

/-- The decoder behind the bits of a frame. -/
def full (code : BitVec 32) : Decoder :=
  reading (lowBits code 32) (Nat.le_of_eq (length_lowBits code 32))

theorem after_frame (d : Decoder) (code : BitVec 32) :
    machineAfter step (d.step .leader).1 ((lowBits code 32).map .bit) = full code :=
  after_bits rfl _

theorem code_full (code : BitVec 32) : (full code).code = some code := by
  have bits := length_lowBits code 32
  rw [full, Decoder.code, if_pos bits, ← foldl_shiftIn_full bits, foldl_lowBits_all]

end Decoder

/-- The outputs of a machine that is silent up to the stop. -/
theorem outputs_frame {σ : Type} {step : σ → Pulse → σ × Option (BitVec 32)}
    (leader : ∀ s, (step s .leader).2 = none) (bit : ∀ s b, (step s (.bit b)).2 = none) (s : σ)
    (code : BitVec 32) : machineOutputs step s (frame code) =
      List.replicate 33 none ++ [(step (machineAfter step (step s .leader).1
        ((lowBits code 32).map .bit)) .stop).2] := by
  have bits : ∀ s, ∀ p ∈ (lowBits code 32).map .bit, (step s p).2 = none := by
    intro s p mem
    obtain ⟨b, -, rfl⟩ := List.mem_map.mp mem
    exact bit s b
  have silent := machineOutputs_eq_replicate bits (step s .leader).1
  rw [List.length_map, length_lowBits] at silent
  unfold frame
  rw [List.cons_append, machineOutputs, leader, machineOutputs_append, silent]
  rfl

/-- Whatever was before, a decoder gives the code of a frame at its end. -/
theorem Decoder.outputs_frame (d : Decoder) (code : BitVec 32) :
    machineOutputs step d (frame code) = List.replicate 33 none ++ [some code] := by
  have given : machineOutputs step d (frame code) = _ :=
    Ir.outputs_frame (fun _ => rfl) (fun _ _ => rfl) d code
  rw [after_frame] at given
  exact given.trans (by rw [step, code_full])

theorem Carried.full {k : Nat} {r : Receiver} {code : BitVec 32} (small : k ≤ 32)
    (carried : Carried k r (.full code)) : r = .complete (code <<< k) := by
  have bits := length_lowBits code 32
  cases carried with
  | @reading num value _ _ count held =>
    have := num.isLt
    omega
  | complete done held =>
    rw [held, take_lowBits code (Nat.sub_le 32 k), foldl_lowBits code (Nat.sub_le 32 k),
      Nat.sub_sub_self small]

/-- What the receiver has counted before a frame shifts its code up. -/
theorem Receiver.outputs_frame (r : Receiver) (code : BitVec 32) :
    machineOutputs step r (frame code) = List.replicate 33 none ++ [some (code <<< r.num)] := by
  have noLeader : machineAlong Decoder.step (fun _ p => p ≠ .leader) Decoder.start
      ((lowBits code 32).map .bit) := machineAlong_bits (fun _ _ => nofun) _ _
  have carried : Carried r.num (machineAfter step _ _) _ :=
    machineAfter_related (fun _ _ _ carried => Carried.step carried) (Carried.leader r .waiting)
      noLeader
  rw [Decoder.after_frame .waiting code] at carried
  have given : machineOutputs step r (frame code) = _ :=
    Ir.outputs_frame (fun _ => rfl) (fun _ _ => rfl) r code
  rw [carried.full (Nat.le_of_lt r.num_lt)] at given
  exact given

/-! ## Runs without an interrupted frame -/

theorem Carried.of_free {r : Receiver} {d : Decoder} (carried : Carried 0 r d) (free : d.Free) :
    r.num = 0 := by
  cases carried with
  | idle => rfl
  | complete => rfl
  | @reading num value bits short count held =>
    have small := num.isLt
    rcases free with none_ | all
    · exact count.symm.trans none_
    · omega

/-- As long as no leader interrupts a frame, the callback does what the decoder does. -/
theorem halIrCallback_decodes {times : List (BitVec 32)}
    (uncut : Decoder.Uncut .waiting (pulses 0 times)) :
    machineOutputs State.edge .init times =
      machineOutputs Decoder.step .waiting (pulses 0 times) := by
  have start : State.init = Receiver.idle.state 0 := rfl
  have next : ∀ (r : Receiver) (d : Decoder) (p : Pulse), Carried 0 r d → (p = .leader → d.Free) →
      Carried 0 (r.step p).1 (d.step p).1 := by
    intro r d p carried free
    by_cases leader : p = .leader
    · subst leader
      have carried' := Carried.leader r d
      rw [carried.of_free (free rfl)] at carried'
      exact carried'
    · exact carried.step leader
  rw [start, Receiver.outputs_edge]
  exact machineOutputs_related next (fun _ _ p carried _ => carried.same p) .idle uncut

/-! ## Whole frames -/

/-- A bit of a frame. -/
def Pulse.isBit : Pulse → Bool
  | .bit _ => true
  | _ => false

/-- The number of bits. -/
def bitCount (ps : List Pulse) : Nat := ps.countP Pulse.isBit

theorem bitCount_append (ps ps' : List Pulse) :
    bitCount (ps ++ ps') = bitCount ps + bitCount ps' :=
  List.countP_append

/-- Outside of a frame only a leader counts, and behind one the next 32 bits, whatever else is
among them. The last frame may be without any bit. -/
inductive Whole : List Pulse → Prop
  | outside {ps : List Pulse} : .leader ∉ ps → Whole ps
  | begun {before after : List Pulse} : .leader ∉ before → bitCount after = 0 →
    Whole (before ++ .leader :: after)
  | frame {before body rest : List Pulse} {b : Bool} : .leader ∉ before →
    bitCount body = 31 → Whole rest → Whole (before ++ .leader :: (body ++ .bit b :: rest))

namespace Receiver

/-- The receiver is not within a frame. -/
def Outside : Receiver → Prop
  | reading _ _ => False
  | _ => True

variable {r : Receiver} {ps : List Pulse}

theorem after_cons (r : Receiver) (p : Pulse) (ps : List Pulse) :
    machineAfter step r (p :: ps) = machineAfter step (r.step p).1 ps := rfl

theorem Outside.num_eq (outside : r.Outside) : r.num = 0 := by
  cases r with
  | reading num value => exact outside.elim
  | idle => rfl
  | complete value => rfl

theorem Outside.step_eq (outside : r.Outside) {p : Pulse} (other : p ≠ .leader) :
    (r.step p).1 = r := by
  cases r with
  | reading num value => exact outside.elim
  | idle => cases p with
    | leader => exact absurd rfl other
    | bit b => rfl
    | stop => rfl
    | other => rfl
  | complete value => cases p with
    | leader => exact absurd rfl other
    | bit b => rfl
    | stop => rfl
    | other => rfl

theorem Outside.leader_eq (outside : r.Outside) : (r.step .leader).1 = reading 0 0 := by
  cases r with
  | reading num value => exact outside.elim
  | idle => rfl
  | complete value => rfl

theorem Outside.after_eq (outside : r.Outside) (noLeader : .leader ∉ ps) :
    machineAfter step r ps = r := by
  induction ps with
  | nil => rfl
  | cons p ps ih =>
    rw [List.mem_cons, not_or] at noLeader
    rw [after_cons, outside.step_eq (Ne.symm noLeader.1), ih noLeader.2]

/-- A pulse within a frame that is not its end. -/
theorem reading_step (num : Fin 32) (value : BitVec 32) (p : Pulse)
    (short : num.val + bitCount [p] < 32) :
    ∃ value', ((reading num value).step p).1 =
      reading ⟨num.val + bitCount [p], short⟩ value' := by
  cases p with
  | leader => exact ⟨0, rfl⟩
  | stop => exact ⟨value, rfl⟩
  | other => exact ⟨value, rfl⟩
  | bit b => exact ⟨shiftIn value b, dif_pos short⟩

theorem reading_after (num : Fin 32) (value : BitVec 32) (ps : List Pulse)
    (short : num.val + bitCount ps < 32) :
    ∃ value', machineAfter step (reading num value) ps =
      reading ⟨num.val + bitCount ps, short⟩ value' := by
  induction ps generalizing num value with
  | nil => exact ⟨value, rfl⟩
  | cons p ps ih =>
    have split : bitCount (p :: ps) = bitCount [p] + bitCount ps :=
      bitCount_append [p] ps
    obtain ⟨value₁, first⟩ := reading_step num value p (by omega)
    obtain ⟨value₂, rest⟩ := ih ⟨num.val + bitCount [p], by omega⟩ value₁
      (by dsimp only; omega)
    refine ⟨value₂, ?_⟩
    rw [after_cons, first, rest]
    congr 2
    dsimp only
    omega

/-- The last bit of a frame. -/
theorem reading_ends {num : Fin 32} {body : List Pulse} (value : BitVec 32) (b : Bool)
    (all : num.val + bitCount body = 31) :
    (machineAfter step (reading num value) (body ++ [.bit b])).Outside := by
  obtain ⟨value', read⟩ := reading_after num value body (by omega)
  have full : ¬ num.val + bitCount body + 1 < 32 := by omega
  rw [machineAfter_append, read, after_cons]
  change (takeBit b (reading ⟨num.val + bitCount body, _⟩ value')).Outside
  rw [takeBit, dif_neg full]
  trivial

end Receiver

theorem Whole.num {ps : List Pulse} (whole : Whole ps) {r : Receiver} (outside : r.Outside) :
    (machineAfter Receiver.step r ps).num = 0 := by
  induction whole generalizing r with
  | outside noLeader =>
    rw [outside.after_eq noLeader]
    exact outside.num_eq
  | @begun before after noLeader none_ =>
    have short : (0 : Fin 32).val + bitCount after < 32 := by rw [none_]; decide
    obtain ⟨value, read⟩ := Receiver.reading_after 0 0 after short
    rw [machineAfter_append, outside.after_eq noLeader, Receiver.after_cons, outside.leader_eq,
      read]
    exact (Nat.zero_add _).trans none_
  | @frame before body rest b noLeader all _ ih =>
    have ends : (machineAfter Receiver.step (.reading 0 0) (body ++ [.bit b])).Outside :=
      Receiver.reading_ends 0 b ((Nat.zero_add _).trans all)
    have split : body ++ .bit b :: rest = body ++ [.bit b] ++ rest :=
      List.append_cons body (.bit b) rest
    rw [machineAfter_append, outside.after_eq noLeader, Receiver.after_cons, outside.leader_eq,
      split, machineAfter_append]
    exact ih ends

/-- The pulses up to a bit. -/
theorem exists_bit {n : Nat} {ps : List Pulse} (more : n < bitCount ps) :
    ∃ body b rest, ps = body ++ .bit b :: rest ∧ bitCount body = n := by
  induction ps generalizing n with
  | nil => exact absurd more (Nat.not_lt_zero n)
  | cons p ps ih =>
    have split : bitCount (p :: ps) = bitCount [p] + bitCount ps := bitCount_append [p] ps
    by_cases here : n = 0 ∧ p.isBit = true
    · cases p with
      | bit b => exact ⟨[], b, ps, rfl, here.1.symm⟩
      | leader => exact absurd here.2 Bool.false_ne_true
      | stop => exact absurd here.2 Bool.false_ne_true
      | other => exact absurd here.2 Bool.false_ne_true
    · have one : bitCount [p] = if p.isBit then 1 else 0 := by simp [bitCount, List.countP_cons]
      have first : bitCount [p] ≤ n := by
        rw [one]
        split
        case isTrue bit => exact Nat.one_le_iff_ne_zero.mpr fun zero => here ⟨zero, bit⟩
        case isFalse => exact Nat.zero_le n
      obtain ⟨body, b, rest, rfl, count⟩ := ih (n := n - bitCount [p]) (by omega)
      refine ⟨p :: body, b, rest, rfl, ?_⟩
      have split' : bitCount (p :: body) = bitCount [p] + bitCount body := bitCount_append [p] body
      omega

theorem Whole.of_num {ps : List Pulse} {r : Receiver} (outside : r.Outside)
    (none_ : (machineAfter Receiver.step r ps).num = 0) : Whole ps := by
  induction len : ps.length using Nat.strong_induction_on generalizing ps r with
  | h n ih =>
    by_cases leader : .leader ∈ ps
    · obtain ⟨before, after, rfl, noLeader⟩ := List.eq_append_cons_of_mem leader
      rw [machineAfter_append, outside.after_eq noLeader, Receiver.after_cons,
        outside.leader_eq] at none_
      by_cases many : 31 < bitCount after
      · obtain ⟨body, b, rest, rfl, count⟩ := exists_bit many
        refine .frame noLeader count ?_
        have split : body ++ .bit b :: rest = body ++ [.bit b] ++ rest :=
          List.append_cons body (.bit b) rest
        rw [split, machineAfter_append] at none_
        have shorter : rest.length < n := by
          rw [← len, split, List.length_append, List.length_cons, List.length_append]
          omega
        exact ih rest.length shorter (Receiver.reading_ends 0 b (by omega)) none_ rfl
      · obtain ⟨value, read⟩ := Receiver.reading_after 0 0 after (by omega)
        rw [read] at none_
        exact .begun noLeader ((Nat.zero_add _).symm.trans none_)
    · exact .outside leader

/-- After whole frames, and only then, nothing is left of the last one. -/
theorem whole_iff {ps : List Pulse} {r : Receiver} (outside : r.Outside) :
    Whole ps ↔ (machineAfter Receiver.step r ps).num = 0 :=
  ⟨fun whole => whole.num outside, Whole.of_num outside⟩

/-! ## A frame after any edges -/

section Sent

variable {earlier times : List (BitVec 32)} {code : BitVec 32}

/-- What is given along the edges `times` after the edges `earlier`. -/
def given (earlier times : List (BitVec 32)) : List (Option (BitVec 32)) :=
  machineOutputs State.edge (machineAfter State.edge .init earlier) times

/-- Nothing is given from the leader to the last bit, and at the stop the code is, once. -/
def Received (earlier times : List (BitVec 32)) (code : BitVec 32) : Prop :=
  given earlier times = List.replicate 33 none ++ [some code]

/-- What is left of the edges before a frame shifts its code up. -/
theorem given_sent (sent : pulses (earlier.getLastD 0) times = frame code) :
    given earlier times = List.replicate 33 none ++
      [some (code <<< (machineAfter Receiver.step .idle (pulses 0 earlier)).num)] := by
  have start : State.init = Receiver.idle.state 0 := rfl
  rw [given, start, Receiver.after_edge, Receiver.outputs_edge, sent, Receiver.outputs_frame]

/-- A frame is received exactly when the edges before it make whole frames, or all its bits are
zero. -/
theorem halIrCallback_received_iff (sent : pulses (earlier.getLastD 0) times = frame code) :
    Received earlier times code ↔ Whole (pulses 0 earlier) ∨ code = 0 := by
  have outside : Receiver.idle.Outside := trivial
  rw [Received, given_sent sent, whole_iff outside, ← shiftLeft_eq_self_iff]
  constructor
  · intro same
    exact Option.some.inj (List.singleton_inj.mp (List.append_cancel_left same))
  · intro same
    rw [same]

/-- In a run where no leader interrupts a frame, every frame is received as the decoder does it. -/
theorem received_of_uncut (sent : pulses (earlier.getLastD 0) times = frame code)
    (uncut : Decoder.Uncut .waiting (pulses 0 (earlier ++ times))) :
    Received earlier times code := by
  have run := halIrCallback_decodes uncut
  have same : (machineOutputs State.edge .init earlier).length =
      (machineOutputs Decoder.step .waiting (pulses 0 earlier)).length := by
    rw [length_machineOutputs, length_machineOutputs, length_pulses]
  rw [pulses_append, machineOutputs_append, machineOutputs_append, sent] at run
  exact (List.append_inj run same).2.trans (Decoder.outputs_frame _ code)

/-- The intervals of a frame as the transmitter makes them. -/
def sentIntervals (code : BitVec 32) : List (BitVec 32) :=
  13590 :: (lowBits code 32).map (fun b => if b then 2250 else 1125) ++ [42000]

theorem pulses_sent (last code : BitVec 32) :
    pulses last (edges last (sentIntervals code)) = frame code := by
  have bit : ∀ b, pulse (if b then 2250 else 1125) = .bit b := by decide
  have leader : pulse 13590 = .leader := by decide
  have stop : pulse 42000 = .stop := by decide
  have bits : ((lowBits code 32).map fun b => if b then 2250 else 1125).map pulse =
      (lowBits code 32).map .bit := by
    rw [List.map_map]
    exact List.map_congr_left fun b _ => bit b
  unfold pulses frame sentIntervals
  rw [intervals_edges, List.map_append, List.map_cons, List.map_singleton, leader, bits, stop]

/-- A frame after noise. -/
theorem halIrCallback_received_noise :
    Received [100000] (edges 100000 (sentIntervals 0xff00ef00)) 0xff00ef00 :=
  (halIrCallback_received_iff (pulses_sent _ _)).mpr (.inl (.outside (by decide)))

/-- A frame of the code 1 after a leader and one bit of another frame gives 2. -/
theorem halIrCallback_received_cut :
    pulses 114715 (edges 114715 (sentIntervals 1)) = frame 1 ∧
      given [100000, 113590, 114715] (edges 114715 (sentIntervals 1)) =
        List.replicate 33 none ++ [some 2] ∧
      ¬ Received [100000, 113590, 114715] (edges 114715 (sentIntervals 1)) 1 := by
  have shifted : given [100000, 113590, 114715] (edges 114715 (sentIntervals 1)) =
      List.replicate 33 none ++ [some 2] := by
    decide +kernel
  refine ⟨pulses_sent _ _, shifted, fun received => ?_⟩
  rw [Received, shifted] at received
  exact absurd received (by decide)

/-! ## The keys of the remote control -/

/-- What is printed along the edges, when the task takes the semaphore at once. -/
def printed (earlier times : List (BitVec 32)) : List String :=
  (given earlier times).filterMap fun value => value.bind halIrDataProcess

theorem printed_sent (sent : pulses (earlier.getLastD 0) times = frame code) :
    printed earlier times = (halIrDataProcess
      (code <<< (machineAfter Receiver.step .idle (pulses 0 earlier)).num)).toList := by
  have silent : (List.replicate 33 (none : Option (BitVec 32))).filterMap
      (fun value => value.bind halIrDataProcess) = [] := rfl
  rw [printed, given_sent sent, List.filterMap_append, silent, List.nil_append]
  generalize code <<< (machineAfter Receiver.step .idle (pulses 0 earlier)).num = value
  cases text : halIrDataProcess value with
  | none => simp [text]
  | some line => simp [text]

theorem getLsbD_of_low {x y : BitVec 32} (masked : x &&& 0xffff = y) {i : Nat} (small : i < 16) :
    x.getLsbD i = y.getLsbD i := by
  have mask : ∀ i < 16, (0xffff : BitVec 32).getLsbD i = true := by decide
  rw [← masked, BitVec.getLsbD_and, mask i small, Bool.and_true]

/-- A code of the remote control that is shifted up is none of its codes. -/
theorem halIrDataProcess_shifted (remote : code &&& 0xffff = costomCodeHbs838) {k : Nat}
    (pos : 0 < k) : halIrDataProcess (code <<< k) = none := by
  refine if_neg fun remote' => ?_
  have same : ∀ i < 16, (code <<< k).getLsbD i = code.getLsbD i :=
    fun i small => (getLsbD_of_low remote' small).trans (getLsbD_of_low remote small).symm
  -- the eighth bit is one
  have clear := getLsbD_of_shiftLeft_same pos same (show 8 < 16 by decide)
  have set := getLsbD_of_low remote (show 8 < 16 by decide)
  rw [clear] at set
  exact absurd set (by decide)

/-- Every key pressed after whole frames is told, and none after an interrupted one. -/
theorem printed_remote (sent : pulses (earlier.getLastD 0) times = frame code)
    (remote : code &&& 0xffff = costomCodeHbs838) :
    (Whole (pulses 0 earlier) → printed earlier times = (halIrDataProcess code).toList) ∧
      (¬ Whole (pulses 0 earlier) → printed earlier times = []) := by
  have outside : Receiver.idle.Outside := trivial
  rw [printed_sent sent, whole_iff outside]
  constructor
  · intro none_
    rw [none_, BitVec.shiftLeft_zero]
  · intro some_
    rw [halIrDataProcess_shifted remote (Nat.pos_of_ne_zero some_)]
    rfl

end Sent

end Ir

end Tr6260
