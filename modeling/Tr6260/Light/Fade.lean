import Mathlib.Logic.Function.Basic

/-!
# Fading the light

`ya_light_io.c` moves the five channels of a light to new values one step at a time. The first
three are the colours, the other two the whites, and only one of these groups is on at a time: when
the mode changes the old group goes to 0 before the new one goes up.

The conversions of the parameters to the values of a group are whatever they are; the one of white
is in floating point.
-/

namespace Tr6260

/-- `ya_control_pwm_t`. -/
structure ControlPwm where
  curValue : UInt8
  endValue : UInt8
  flag : UInt8
  deriving DecidableEq

/-- The variables of `ya_light_io.c`, and the calls of `ya_pwm_led_write_index` so far. -/
structure LightIo where
  controlPwm : Nat → ControlPwm
  modeCur : UInt8
  ledWrites : List (Nat × UInt8)

/-- `ya_light_data_t`. -/
structure LightData where
  wL : UInt16
  wColor : UInt16
  cH : UInt16
  cS : UInt16
  cB : UInt16
  deriving DecidableEq

/-- `HSVtoRGB` and `ya_white_color_convert`. -/
structure LedConversions where
  hsvToRgb : UInt16 → UInt16 → UInt16 → UInt8 × UInt8 × UInt8
  whiteColorConvert : UInt8 → UInt8 → UInt8 × UInt8

/-- `HSVtoRGB` of `hls_rgb.c`. -/
def hsvToRgb (h s v : UInt16) : UInt8 × UInt8 × UInt8 :=
  let max := v.toUInt32 * 255 / 100
  let min := max * (100 - s.toUInt32) / 100
  let difs := (h % 60).toUInt32
  let adj := (max - min) * difs / 60
  match (h / 60).toNat with
  | 0 => (max.toUInt8, (min + adj).toUInt8, min.toUInt8)
  | 1 => ((max - adj).toUInt8, max.toUInt8, min.toUInt8)
  | 2 => (min.toUInt8, max.toUInt8, (min + adj).toUInt8)
  | 3 => (min.toUInt8, (max - adj).toUInt8, max.toUInt8)
  | 4 => ((min + adj).toUInt8, min.toUInt8, max.toUInt8)
  | _ => (max.toUInt8, min.toUInt8, (max - adj).toUInt8)

/-! ## The PWM -/

/-- `PWM_R`, `PWM_G`, `PWM_B`, `PWM_COOL` and `PWM_WARM`, for the channels 0 to 4. -/
def pwmName : Nat → Option Nat
  | 0 => some 4
  | 1 => some 1
  | 2 => some 2
  | 3 => some 5
  | 4 => some 0
  | _ => none

/-- `n` of `ya_pwm_led_write_index`. -/
def ledDuty (value : UInt8) : Nat := value.toNat * 999 / 255

/-- The call of `ya_hal_pwm_write` made by `ya_pwm_led_write_index`. -/
def halPwmWrite (w : Nat × UInt8) : Option (Nat × Nat) :=
  (pwmName w.1).map fun name => (name, ledDuty w.2)

/-- The value written last for a PWM. -/
def LightIo.lastWritten (s : LightIo) (name : Nat) : Option Nat :=
  (((s.ledWrites.filterMap halPwmWrite).filter fun w => decide (w.1 = name)).getLast?).map Prod.snd

/-! ## The functions -/

/-- The new entry of a channel. -/
def LightIo.setChannel (s : LightIo) (i : Nat) (c : ControlPwm) : LightIo :=
  { s with controlPwm := Function.update s.controlPwm i c }

/-- The direction of a channel. -/
def ControlPwm.direct (c : ControlPwm) : ControlPwm :=
  { c with flag :=
      if c.curValue = c.endValue then 0 else if c.curValue < c.endValue then 1 else 2 }

/-- One step of a channel that is not at its end. -/
def ControlPwm.step (c : ControlPwm) : ControlPwm :=
  if c.flag = 1 then { c with curValue := c.curValue + 1 }
  else if c.flag = 2 then { c with curValue := c.curValue - 1 }
  else c

/-- The body of the last loop of `ya_pwm_control_with_step`. -/
def LightIo.stepChannel (s : LightIo) (i : Nat) : LightIo :=
  let c := s.controlPwm i
  if c.curValue = c.endValue then s
  else
    { s.setChannel i c.step with ledWrites := s.ledWrites ++ [(i, c.step.curValue)] }

/-- The `while` loop of `ya_pwm_control_with_step`; `fuel` bounds its turns. -/
def yaPwmControlLoop (indices : List Nat) : Nat → LightIo → Option LightIo
  | 0, _ => none
  | fuel + 1, s =>
    let totalFlag :=
      indices.countP fun i => decide ((s.controlPwm i).curValue = (s.controlPwm i).endValue)
    if totalFlag = indices.length then some s
    else yaPwmControlLoop indices fuel (indices.foldl LightIo.stepChannel s)

/-- `ya_pwm_control_with_step`. -/
def yaPwmControlWithStep (fuel startIndex indexNum : Nat) (s : LightIo) : Option LightIo :=
  let indices := List.range' startIndex indexNum
  yaPwmControlLoop indices fuel
    (indices.foldl (fun s i => s.setChannel i (s.controlPwm i).direct) s)

/-- A new end for a channel. -/
def LightIo.setEnd (s : LightIo) (i : Nat) (value : UInt8) : LightIo :=
  s.setChannel i { s.controlPwm i with endValue := value }

/-- The mode the parameters ask for, and the ends of the channels. -/
def lightTargets (conv : LedConversions) (para : LightData) (s : LightIo) : UInt8 × LightIo :=
  let cH := if para.cH ≥ 360 then 0 else para.cH
  if para.cB ≠ 0 ∨ cH ≠ 0 ∨ para.cS ≠ 0 then
    let s := (s.setEnd 3 0).setEnd 4 0
    let (r, g, b) := conv.hsvToRgb cH para.cS para.cB
    (1, ((s.setEnd 0 r).setEnd 1 g).setEnd 2 b)
  else
    let s := ((s.setEnd 0 0).setEnd 1 0).setEnd 2 0
    let (cool, warm) := conv.whiteColorConvert para.wL.toUInt8 para.wColor.toUInt8
    (0, (s.setEnd 3 cool).setEnd 4 warm)

/-- `ya_write_light_para`. -/
def yaWriteLightPara (conv : LedConversions) (fuel : Nat) (para : LightData) (s : LightIo) :
    Option LightIo :=
  let (mode, s) := lightTargets conv para s
  if s.modeCur ≠ mode then do
    let s := { s with modeCur := mode }
    if mode = 1 then do
      let s ← yaPwmControlWithStep fuel 3 2 s
      yaPwmControlWithStep fuel 0 3 s
    else do
      let s ← yaPwmControlWithStep fuel 0 3 s
      yaPwmControlWithStep fuel 3 2 s
  else if s.modeCur = 0 then
    yaPwmControlWithStep fuel 3 2 s
  else
    yaPwmControlWithStep fuel 0 3 s

/-! ## Between two calls -/

/-- `x` is on the way from `a` to `b`. -/
def Between (a b x : UInt8) : Prop := a ≤ x ∧ x ≤ b ∨ b ≤ x ∧ x ≤ a

/-- What was written last for a channel is its current value; it is 0 before the first write. -/
def LightIo.Shown (s : LightIo) (i : Nat) : Prop :=
  ∀ name, pwmName i = some name →
    s.lastWritten name = some (ledDuty (s.controlPwm i).curValue) ∨
      s.lastWritten name = none ∧ (s.controlPwm i).curValue = 0

/-- A call that sets the ends to those of `target` and asks for `mode`. -/
structure LightSet (mode : UInt8) (target s s' : LightIo) : Prop where
  modeCur : s'.modeCur = mode
  steady : ∀ i < 5, (s'.controlPwm i).curValue = (s'.controlPwm i).endValue
  ends : ∀ i < 5, (s'.controlPwm i).endValue = (target.controlPwm i).endValue
  off : ∀ i < 5, (mode = 1 ↔ 3 ≤ i) → (s'.controlPwm i).curValue = 0
  shown : ∀ i, s'.Shown i
  onTheWay : ∃ new, s'.ledWrites = s.ledWrites ++ new ∧
    ∀ w ∈ new, Between (s.controlPwm w.1).curValue (s'.controlPwm w.1).endValue w.2

/-- The light after `ya_light_control_pwm_para_init`. -/
def lightStart : LightIo := ⟨fun _ => ⟨0, 0, 0⟩, 0, []⟩

/-- What can be reached by calls, whatever the conversions give. -/
inductive LightReach : LightIo → Prop
  | start : LightReach lightStart
  | call {s s' : LightIo} (reach : LightReach s) (conv : LedConversions) (para : LightData)
    {fuel : Nat} (enough : 255 < fuel) (returns : yaWriteLightPara conv fuel para s = some s') :
    LightReach s'

/-! ## One channel -/

section Channel

variable {c₀ c : ControlPwm}

/-- A channel on its way from `c₀`, in the direction `c₀` calls for. -/
structure Toward (c₀ c : ControlPwm) : Prop where
  endValue : c.endValue = c₀.endValue
  flag : c.flag = c₀.direct.flag
  between : Between c₀.curValue c₀.endValue c.curValue

/-- How far a channel is from its end. -/
def ControlPwm.distance (c : ControlPwm) : Nat :=
  (c.curValue.toNat - c.endValue.toNat) + (c.endValue.toNat - c.curValue.toNat)

theorem toward_direct (c : ControlPwm) : Toward c c.direct := by
  refine ⟨rfl, rfl, ?_⟩
  rcases UInt8.le_total c.curValue c.endValue with up | down
  · exact .inl ⟨UInt8.le_refl _, up⟩
  · exact .inr ⟨down, UInt8.le_refl _⟩

/-- A step goes on toward the end. -/
theorem Toward.step (toward : Toward c₀ c) (away : c.curValue ≠ c.endValue) :
    Toward c₀ c.step ∧ c.step.distance + 1 = c.distance := by
  obtain ⟨ends, flag, between⟩ := toward
  have away' : c.curValue.toNat ≠ c.endValue.toNat := fun same => away (UInt8.toNat_inj.mp same)
  have top := c.endValue.toNat_lt
  rcases between with ⟨low, high⟩ | ⟨low, high⟩
  · rw [← ends, UInt8.le_iff_toNat_le] at high
    rw [UInt8.le_iff_toNat_le] at low
    have up : c₀.direct.flag = 1 := by
      have below : c₀.curValue < c₀.endValue := by
        rw [UInt8.lt_iff_toNat_lt, ← ends]
        omega
      rw [ControlPwm.direct, if_neg (UInt8.ne_of_lt below), if_pos below]
    have next : (c.curValue + 1).toNat = c.curValue.toNat + 1 := by
      rw [UInt8.toNat_add]
      exact Nat.mod_eq_of_lt (by simp; omega)
    rw [ControlPwm.step, flag, if_pos up]
    refine ⟨⟨ends, rfl, .inl ⟨?_, ?_⟩⟩, ?_⟩
    · rw [UInt8.le_iff_toNat_le, next]
      omega
    · rw [UInt8.le_iff_toNat_le, next, ← ends]
      omega
    · simp only [ControlPwm.distance, next]
      omega
  · rw [← ends, UInt8.le_iff_toNat_le] at low
    rw [UInt8.le_iff_toNat_le] at high
    have down : c₀.direct.flag = 2 := by
      have above : c₀.endValue < c₀.curValue := by
        rw [UInt8.lt_iff_toNat_lt, ← ends]
        omega
      rw [ControlPwm.direct, if_neg (UInt8.ne_of_lt above).symm,
        if_neg (UInt8.not_lt.mpr (UInt8.le_of_lt above))]
    have next : (c.curValue - 1).toNat = c.curValue.toNat - 1 := by
      rw [UInt8.toNat_sub_of_le _ _ (by rw [UInt8.le_iff_toNat_le]; simp; omega)]
      rfl
    rw [ControlPwm.step, flag, down, if_neg (by decide), if_pos rfl]
    refine ⟨⟨ends, down.symm, .inr ⟨?_, ?_⟩⟩, ?_⟩
    · rw [UInt8.le_iff_toNat_le, next, ← ends]
      omega
    · rw [UInt8.le_iff_toNat_le, next]
      omega
    · simp only [ControlPwm.distance, next]
      omega

theorem ControlPwm.distance_eq_zero : c.distance = 0 ↔ c.curValue = c.endValue := by
  rw [← UInt8.toNat_inj, ControlPwm.distance]
  omega

theorem ControlPwm.distance_le (c : ControlPwm) : c.distance ≤ 255 := by
  have first := c.curValue.toNat_lt
  have last := c.endValue.toNat_lt
  rw [ControlPwm.distance]
  omega

end Channel

/-! ## What is written -/

section Written

variable {s : LightIo} {i j name : Nat}

theorem pwmName_eq (named : pwmName i = some name) :
    i = 0 ∧ name = 4 ∨ i = 1 ∧ name = 1 ∨ i = 2 ∧ name = 2 ∨ i = 3 ∧ name = 5 ∨
      i = 4 ∧ name = 0 := by
  unfold pwmName at named
  split at named <;> simp_all

/-- No two channels share a PWM. -/
theorem pwmName_inj (first : pwmName i = some name) (second : pwmName j = some name) : i = j := by
  have first' := pwmName_eq first
  have second' := pwmName_eq second
  omega

/-- A write to a channel shows there. -/
theorem lastWritten_same (s : LightIo) (v : UInt8) (named : pwmName i = some name) :
    ({ s with ledWrites := s.ledWrites ++ [(i, v)] } : LightIo).lastWritten name =
      some (ledDuty v) := by
  simp [LightIo.lastWritten, halPwmWrite, named]

/-- The other channels show what they did. -/
theorem lastWritten_other (s : LightIo) (v : UInt8) (named : pwmName j = some name)
    (other : i ≠ j) :
    ({ s with ledWrites := s.ledWrites ++ [(i, v)] } : LightIo).lastWritten name =
      s.lastWritten name := by
  have apart : pwmName i ≠ some name := fun same => other (pwmName_inj same named)
  cases shape : pwmName i with
  | none => simp [LightIo.lastWritten, halPwmWrite, shape]
  | some name' =>
    have differs : name' ≠ name := fun same => apart (shape.trans (congrArg some same))
    simp [LightIo.lastWritten, halPwmWrite, shape, differs]

end Written

/-! ## One group -/

section Group

variable {s₀ s : LightIo} {indices : List Nat} {i : Nat}

/-- A group on its way from `s₀`. -/
structure Fading (s₀ : LightIo) (indices : List Nat) (s : LightIo) : Prop where
  modeCur : s.modeCur = s₀.modeCur
  others : ∀ j ∉ indices, s.controlPwm j = s₀.controlPwm j
  toward : ∀ j ∈ indices, Toward (s₀.controlPwm j) (s.controlPwm j)
  shown : ∀ j, s.Shown j
  onTheWay : ∃ new, s.ledWrites = s₀.ledWrites ++ new ∧ ∀ w ∈ new, w.1 ∈ indices ∧
    Between (s₀.controlPwm w.1).curValue (s₀.controlPwm w.1).endValue w.2

/-- What a step does to the channels. -/
theorem stepChannel_controlPwm (s : LightIo) (i j : Nat) :
    (s.stepChannel i).controlPwm j =
      if j = i ∧ (s.controlPwm i).curValue ≠ (s.controlPwm i).endValue then (s.controlPwm i).step
      else s.controlPwm j := by
  rw [LightIo.stepChannel]
  by_cases done : (s.controlPwm i).curValue = (s.controlPwm i).endValue
  · rw [if_pos done, if_neg (fun away => away.2 done)]
  · rw [if_neg done]
    simp only [LightIo.setChannel, Function.update_apply, done, ne_eq, not_false_eq_true, and_true]

/-- A step shows the channel's new value. -/
theorem stepChannel_shown (shown : ∀ j, s.Shown j) (i j : Nat) : (s.stepChannel i).Shown j := by
  intro name named
  rw [stepChannel_controlPwm]
  have before := shown j name named
  rw [LightIo.stepChannel]
  by_cases done : (s.controlPwm i).curValue = (s.controlPwm i).endValue
  · rw [if_pos done, if_neg (fun away => away.2 done)]
    exact before
  · rw [if_neg done]
    by_cases here : j = i
    · subst here
      rw [if_pos ⟨rfl, done⟩]
      exact .inl (lastWritten_same (s.setChannel j (s.controlPwm j).step) _ named)
    · have kept := lastWritten_other (s.setChannel i (s.controlPwm i).step)
        (s.controlPwm i).step.curValue named (Ne.symm here)
      rw [if_neg (fun away => here away.1)]
      rw [show s.lastWritten name = _ from kept.symm] at before
      exact before

theorem Fading.stepChannel (fading : Fading s₀ indices s) (mem : i ∈ indices) :
    Fading s₀ indices (s.stepChannel i) := by
  obtain ⟨modeCur, others, toward, shown, new, writes, onTheWay⟩ := fading
  refine ⟨?_, ?_, ?_, fun j => stepChannel_shown shown i j, ?_⟩
  · rw [LightIo.stepChannel]
    split <;> exact modeCur
  · intro j outside
    have other : j ≠ i := fun same => outside (same ▸ mem)
    rw [stepChannel_controlPwm, if_neg (fun away => other away.1)]
    exact others j outside
  · intro j inside
    rw [stepChannel_controlPwm]
    split
    next away =>
      rw [away.1]
      exact ((toward i mem).step away.2).1
    next => exact toward j inside
  · by_cases done : (s.controlPwm i).curValue = (s.controlPwm i).endValue
    · rw [LightIo.stepChannel, if_pos done]
      exact ⟨new, writes, onTheWay⟩
    · have next := ((toward i mem).step done).1
      rw [LightIo.stepChannel, if_neg done]
      refine ⟨new ++ [(i, (s.controlPwm i).step.curValue)], ?_, ?_⟩
      · rw [← List.append_assoc, ← writes]
      · intro w mem'
        rcases List.mem_append.mp mem' with earlier | now
        · exact onTheWay w earlier
        · rw [List.mem_singleton.mp now]
          exact ⟨mem, next.between⟩

/-- A pass over some channels of the group. -/
theorem Fading.pass (fading : Fading s₀ indices s) {some_ : List Nat}
    (sub : ∀ i ∈ some_, i ∈ indices) :
    Fading s₀ indices (some_.foldl LightIo.stepChannel s) := by
  induction some_ generalizing s with
  | nil => exact fading
  | cons i some_ ih =>
    exact ih (fading.stepChannel (sub i List.mem_cons_self))
      fun j mem => sub j (List.mem_cons_of_mem _ mem)

/-- A pass brings every channel one step nearer to its end. -/
theorem Fading.pass_distance (fading : Fading s₀ indices s) {some_ : List Nat}
    (sub : ∀ i ∈ some_, i ∈ indices) (distinct : some_.Nodup) (j : Nat) :
    ((some_.foldl LightIo.stepChannel s).controlPwm j).distance =
      if j ∈ some_ then (s.controlPwm j).distance - 1 else (s.controlPwm j).distance := by
  induction some_ generalizing s with
  | nil => simp
  | cons i some_ ih =>
    have inside := sub i List.mem_cons_self
    have first : ((s.stepChannel i).controlPwm j).distance =
        if j = i then (s.controlPwm j).distance - 1 else (s.controlPwm j).distance := by
      rw [stepChannel_controlPwm]
      by_cases here : j = i
      · subst here
        rw [if_pos rfl]
        by_cases done : (s.controlPwm j).curValue = (s.controlPwm j).endValue
        · rw [if_neg (fun away => away.2 done), ControlPwm.distance_eq_zero.mpr done]
        · rw [if_pos ⟨rfl, done⟩]
          have nearer := ((fading.toward j inside).step done).2
          omega
      · rw [if_neg (fun away => here away.1), if_neg here]
    obtain ⟨other, distinct'⟩ := List.nodup_cons.mp distinct
    rw [List.foldl_cons, ih (fading.stepChannel inside)
      (fun k mem => sub k (List.mem_cons_of_mem _ mem)) distinct', first]
    by_cases here : j = i
    · rw [if_neg (here ▸ other), if_pos here, if_pos (by rw [here]; exact List.mem_cons_self)]
    · rw [if_neg here]
      simp only [List.mem_cons, here, false_or]

/-- The loop ends when no channel is further than `n` from its end and there are more turns, with
every channel of the group at its end. -/
theorem Fading.loop (fading : Fading s₀ indices s) (distinct : indices.Nodup) {n : Nat}
    (near : ∀ j ∈ indices, (s.controlPwm j).distance ≤ n) :
    ∃ s', (∀ fuel, n < fuel → yaPwmControlLoop indices fuel s = some s') ∧ Fading s₀ indices s' ∧
      ∀ j ∈ indices, (s'.controlPwm j).curValue = (s'.controlPwm j).endValue := by
  induction n generalizing s with
  | zero =>
    have done : ∀ j ∈ indices, (s.controlPwm j).curValue = (s.controlPwm j).endValue :=
      fun j mem => ControlPwm.distance_eq_zero.mp (Nat.le_zero.mp (near j mem))
    refine ⟨s, ?_, fading, done⟩
    intro fuel some_
    obtain ⟨fuel, rfl⟩ : ∃ k, fuel = k + 1 := ⟨fuel - 1, by omega⟩
    rw [yaPwmControlLoop, if_pos]
    exact List.countP_eq_length.mpr fun j mem => decide_eq_true (done j mem)
  | succ n ih =>
    by_cases all : ∀ j ∈ indices, (s.controlPwm j).curValue = (s.controlPwm j).endValue
    · refine ⟨s, ?_, fading, all⟩
      intro fuel some_
      obtain ⟨fuel, rfl⟩ : ∃ k, fuel = k + 1 := ⟨fuel - 1, by omega⟩
      rw [yaPwmControlLoop, if_pos]
      exact List.countP_eq_length.mpr fun j mem => decide_eq_true (all j mem)
    · have near' : ∀ j ∈ indices,
          ((indices.foldl LightIo.stepChannel s).controlPwm j).distance ≤ n := by
        intro j mem
        rw [fading.pass_distance (fun _ => id) distinct, if_pos mem]
        have before := near j mem
        omega
      obtain ⟨s', runs, fading', done⟩ := ih (fading.pass fun _ => id) near'
      refine ⟨s', ?_, fading', done⟩
      intro fuel some_
      obtain ⟨fuel, rfl⟩ : ∃ k, fuel = k + 1 := ⟨fuel - 1, by omega⟩
      rw [yaPwmControlLoop, if_neg]
      · exact runs fuel (by omega)
      · intro count
        exact all fun j mem => of_decide_eq_true (List.countP_eq_length.mp count j mem)

theorem ControlPwm.direct_direct (c : ControlPwm) : c.direct.direct = c.direct := rfl

/-- The first loop gives every channel of the group its direction. -/
theorem direct_pass (s : LightIo) (some_ : List Nat) :
    (some_.foldl (fun s i => s.setChannel i (s.controlPwm i).direct) s).ledWrites = s.ledWrites ∧
      (some_.foldl (fun s i => s.setChannel i (s.controlPwm i).direct) s).modeCur = s.modeCur ∧
      ∀ j, (some_.foldl (fun s i => s.setChannel i (s.controlPwm i).direct) s).controlPwm j =
        if j ∈ some_ then (s.controlPwm j).direct else s.controlPwm j := by
  induction some_ generalizing s with
  | nil => simp
  | cons i some_ ih =>
    obtain ⟨writes, modeCur, channels⟩ := ih (s.setChannel i (s.controlPwm i).direct)
    refine ⟨writes, modeCur, ?_⟩
    intro j
    rw [List.foldl_cons, channels]
    simp only [LightIo.setChannel, Function.update_apply, List.mem_cons]
    by_cases here : j = i
    · subst here
      simp only [true_or, if_true, ControlPwm.direct_direct, ite_self]
    · simp only [here, false_or, if_false]

/-- `ya_pwm_control_with_step` brings its group to its ends in 255 turns at most. -/
theorem yaPwmControlWithStep_faded (shown : ∀ j, s.Shown j) (startIndex indexNum : Nat) :
    ∃ s', (∀ fuel, 255 < fuel → yaPwmControlWithStep fuel startIndex indexNum s = some s') ∧
      Fading s (List.range' startIndex indexNum) s' ∧
      ∀ j ∈ List.range' startIndex indexNum,
        (s'.controlPwm j).curValue = (s'.controlPwm j).endValue := by
  obtain ⟨writes, modeCur, channels⟩ := direct_pass s (List.range' startIndex indexNum)
  have fading : Fading s (List.range' startIndex indexNum) ((List.range' startIndex indexNum).foldl
      (fun s i => s.setChannel i (s.controlPwm i).direct) s) := by
    refine ⟨modeCur, ?_, ?_, ?_, [], by rw [writes, List.append_nil], nofun⟩
    · intro j outside
      rw [channels, if_neg outside]
    · intro j inside
      rw [channels, if_pos inside]
      exact toward_direct _
    · intro j name named
      have same : ((if j ∈ List.range' startIndex indexNum then (s.controlPwm j).direct
          else s.controlPwm j)).curValue = (s.controlPwm j).curValue := by
        split <;> rfl
      rw [channels, same, LightIo.lastWritten, writes]
      exact shown j name named
  exact fading.loop List.nodup_range' fun j _ => ControlPwm.distance_le _

end Group

/-! ## One call -/

section Call

variable {s t s₁ s₂ : LightIo} {g h : List Nat}

/-- All channels are at the ends they had in `t`. -/
structure Settled (t s' : LightIo) : Prop where
  steady : ∀ i < 5, (s'.controlPwm i).curValue = (s'.controlPwm i).endValue
  ends : ∀ i < 5, (s'.controlPwm i).endValue = (t.controlPwm i).endValue
  shown : ∀ i, s'.Shown i
  onTheWay : ∃ new, s'.ledWrites = t.ledWrites ++ new ∧
    ∀ w ∈ new, Between (t.controlPwm w.1).curValue (s'.controlPwm w.1).endValue w.2

theorem Fading.endValue (fading : Fading t g s) (i : Nat) :
    (s.controlPwm i).endValue = (t.controlPwm i).endValue := by
  by_cases inside : i ∈ g
  · exact (fading.toward i inside).endValue
  · rw [fading.others i inside]

/-- One group is moved, and the other one was at its ends. -/
theorem settled_of_one (fading : Fading t g s)
    (done : ∀ j ∈ g, (s.controlPwm j).curValue = (s.controlPwm j).endValue)
    (rest : ∀ j < 5, j ∉ g → (t.controlPwm j).curValue = (t.controlPwm j).endValue) :
    Settled t s := by
  obtain ⟨new, writes, onTheWay⟩ := fading.onTheWay
  refine ⟨?_, fun i _ => fading.endValue i, fading.shown, new, writes, ?_⟩
  · intro i low
    by_cases inside : i ∈ g
    · exact done i inside
    · rw [fading.others i inside]
      exact rest i low inside
  · intro w mem
    rw [fading.endValue]
    exact (onTheWay w mem).2

/-- One group is moved after the other. -/
theorem settled_of_two (first : Fading t g s₁) (second : Fading s₁ h s₂)
    (done₁ : ∀ j ∈ g, (s₁.controlPwm j).curValue = (s₁.controlPwm j).endValue)
    (done₂ : ∀ j ∈ h, (s₂.controlPwm j).curValue = (s₂.controlPwm j).endValue)
    (cover : ∀ j < 5, j ∈ g ∨ j ∈ h) (apart : ∀ j ∈ h, j ∉ g) : Settled t s₂ := by
  obtain ⟨new₁, writes₁, onTheWay₁⟩ := first.onTheWay
  obtain ⟨new₂, writes₂, onTheWay₂⟩ := second.onTheWay
  have ends : ∀ i, (s₂.controlPwm i).endValue = (t.controlPwm i).endValue :=
    fun i => (second.endValue i).trans (first.endValue i)
  refine ⟨?_, fun i _ => ends i, second.shown, new₁ ++ new₂, ?_, ?_⟩
  · intro i low
    by_cases inside : i ∈ h
    · exact done₂ i inside
    · rw [second.others i inside]
      exact done₁ i ((cover i low).resolve_right inside)
  · rw [writes₂, writes₁, List.append_assoc]
  · intro w mem
    rw [ends]
    rcases List.mem_append.mp mem with earlier | later
    · exact (onTheWay₁ w earlier).2
    · obtain ⟨inside, between⟩ := onTheWay₂ w later
      rwa [first.others _ (apart _ inside)] at between

/-- So does the function for one group. -/
theorem oneGroup_settled (shown : ∀ j, t.Shown j) {startIndex indexNum : Nat}
    (rest : ∀ j < 5, j ∉ List.range' startIndex indexNum →
      (t.controlPwm j).curValue = (t.controlPwm j).endValue) :
    ∃ s', (∀ fuel, 255 < fuel → yaPwmControlWithStep fuel startIndex indexNum t = some s') ∧
      Settled t s' ∧ s'.modeCur = t.modeCur := by
  obtain ⟨s', runs, fading, done⟩ := yaPwmControlWithStep_faded shown startIndex indexNum
  exact ⟨s', runs, settled_of_one fading done rest, fading.modeCur⟩

/-- And the function for one group and then for the other. -/
theorem twoGroups_settled (shown : ∀ j, t.Shown j) {start num start' num' : Nat}
    (cover : ∀ j < 5, j ∈ List.range' start num ∨ j ∈ List.range' start' num')
    (apart : ∀ j ∈ List.range' start' num', j ∉ List.range' start num) :
    ∃ s', (∀ fuel, 255 < fuel → (yaPwmControlWithStep fuel start num t).bind
        (yaPwmControlWithStep fuel start' num') = some s') ∧
      Settled t s' ∧ s'.modeCur = t.modeCur := by
  obtain ⟨s₁, runs₁, fading₁, done₁⟩ := yaPwmControlWithStep_faded shown start num
  obtain ⟨s₂, runs₂, fading₂, done₂⟩ := yaPwmControlWithStep_faded fading₁.shown start' num'
  refine ⟨s₂, ?_, settled_of_two fading₁ fading₂ done₁ done₂ cover apart, ?_⟩
  · intro fuel enough
    rw [runs₁ fuel enough, Option.bind_some]
    exact runs₂ fuel enough
  · rw [fading₂.modeCur, fading₁.modeCur]

/-- New ends leave everything else as it is. -/
structure Retargeted (s t : LightIo) : Prop where
  modeCur : t.modeCur = s.modeCur
  ledWrites : t.ledWrites = s.ledWrites
  curValue : ∀ i, (t.controlPwm i).curValue = (s.controlPwm i).curValue

theorem Retargeted.setEnd (retargeted : Retargeted s t) (i : Nat) (value : UInt8) :
    Retargeted s (t.setEnd i value) := by
  obtain ⟨modeCur, writes, curValue⟩ := retargeted
  refine ⟨modeCur, writes, ?_⟩
  intro j
  simp only [LightIo.setEnd, LightIo.setChannel, Function.update_apply]
  split
  next here => rw [here]; exact curValue i
  next => exact curValue j

theorem setEnd_endValue (t : LightIo) (i j : Nat) (value : UInt8) :
    ((t.setEnd i value).controlPwm j).endValue =
      if j = i then value else (t.controlPwm j).endValue := by
  simp only [LightIo.setEnd, LightIo.setChannel, Function.update_apply]
  split <;> rfl

/-- The mode is one of two, and the ends of the other group are 0. -/
theorem lightTargets_spec (conv : LedConversions) (para : LightData) (s : LightIo) :
    Retargeted s (lightTargets conv para s).2 ∧
      ((lightTargets conv para s).1 = 0 ∨ (lightTargets conv para s).1 = 1) ∧
      ∀ i < 5, ((lightTargets conv para s).1 = 1 ↔ 3 ≤ i) →
        ((lightTargets conv para s).2.controlPwm i).endValue = 0 := by
  have same : Retargeted s s := ⟨rfl, rfl, fun _ => rfl⟩
  unfold lightTargets
  dsimp only
  generalize (if para.cH ≥ 360 then 0 else para.cH) = cH
  split
  next =>
    refine ⟨((((same.setEnd _ _).setEnd _ _).setEnd _ _).setEnd _ _).setEnd _ _, .inr rfl, ?_⟩
    intro i low group
    have white : i = 3 ∨ i = 4 := by
      have high := group.mp rfl
      omega
    simp only [setEnd_endValue]
    rcases white with rfl | rfl <;> rfl
  next =>
    refine ⟨((((same.setEnd _ _).setEnd _ _).setEnd _ _).setEnd _ _).setEnd _ _, .inl rfl, ?_⟩
    intro i low group
    have colour : i = 0 ∨ i = 1 ∨ i = 2 := by
      have high : ¬ 3 ≤ i := fun high => absurd (group.mpr high) (by decide : ¬ (0 : UInt8) = 1)
      omega
    simp only [setEnd_endValue]
    rcases colour with rfl | rfl | rfl <;> rfl

/-- The invariant between two calls. -/
structure LightSteady (s : LightIo) : Prop where
  modeCur : s.modeCur = 0 ∨ s.modeCur = 1
  steady : ∀ i < 5, (s.controlPwm i).curValue = (s.controlPwm i).endValue
  off : ∀ i < 5, (s.modeCur = 1 ↔ 3 ≤ i) → (s.controlPwm i).curValue = 0
  shown : ∀ i, s.Shown i

theorem lightSteady_start : LightSteady lightStart where
  modeCur := .inl rfl
  steady _ _ := rfl
  off _ _ _ := rfl
  shown _ _ _ := .inr ⟨rfl, rfl⟩

theorem Retargeted.shown (retargeted : Retargeted s t) (shown : ∀ i, s.Shown i) (mode : UInt8) :
    ∀ i, ({ t with modeCur := mode } : LightIo).Shown i := by
  intro i name named
  simp only [LightIo.lastWritten, retargeted.ledWrites, retargeted.curValue]
  exact shown i name named

/-- What is left to show of every way through the function. -/
theorem Settled.lightSet {mode : UInt8} {s' : LightIo} (retargeted : Retargeted s t)
    (zeros : ∀ i < 5, (mode = 1 ↔ 3 ≤ i) → (t.controlPwm i).endValue = 0)
    (settled : Settled { t with modeCur := mode } s') (modeCur : s'.modeCur = mode) :
    LightSet mode t s s' := by
  obtain ⟨new, writes, onTheWay⟩ := settled.onTheWay
  refine ⟨modeCur, settled.steady, settled.ends, ?_, settled.shown, new, ?_, ?_⟩
  · intro i low group
    rw [settled.steady i low, settled.ends i low]
    exact zeros i low group
  · rw [writes, retargeted.ledWrites]
  · intro w mem
    rw [← retargeted.curValue]
    exact onTheWay w mem

/-- A call returns, and sets the light. -/
theorem LightSteady.call (light : LightSteady s) (conv : LedConversions) (para : LightData) :
    ∃ s', (∀ fuel, 255 < fuel → yaWriteLightPara conv fuel para s = some s') ∧
      LightSet (lightTargets conv para s).1 (lightTargets conv para s).2 s s' := by
  obtain ⟨retargeted, kind, zeros⟩ := lightTargets_spec conv para s
  generalize targets : lightTargets conv para s = pair at retargeted kind zeros ⊢
  obtain ⟨mode, t⟩ := pair
  dsimp only at retargeted kind zeros ⊢
  have shown := retargeted.shown light.shown mode
  by_cases switched : s.modeCur = mode
  · -- the other group is at 0, where it should be
    have rest : ∀ j < 5, (mode = 1 ↔ 3 ≤ j) →
        (t.controlPwm j).curValue = (t.controlPwm j).endValue := by
      intro j low group
      rw [retargeted.curValue, zeros j low group]
      exact light.off j low (switched ▸ group)
    have kept : ({ t with modeCur := mode } : LightIo) = t := by
      rw [← switched, ← retargeted.modeCur]
    rcases kind with zero | one
    · obtain ⟨s', runs, settled, modeCur⟩ := @oneGroup_settled _ shown 3 2 fun j low outside => by
        refine rest j low (iff_of_false (by rw [zero]; decide) fun high => outside ?_)
        exact List.mem_range'_1.mpr (by omega)
      refine ⟨s', ?_, settled.lightSet retargeted zeros modeCur⟩
      intro fuel enough
      rw [yaWriteLightPara, targets, ← runs fuel enough, kept]
      simp only [retargeted.modeCur, switched, zero, ne_eq, not_true, if_false, if_true]
    · obtain ⟨s', runs, settled, modeCur⟩ := @oneGroup_settled _ shown 0 3 fun j low outside => by
        have high : ¬ (0 ≤ j ∧ j < 0 + 3) := fun inside => outside (List.mem_range'_1.mpr inside)
        exact rest j low (iff_of_true one (by omega))
      refine ⟨s', ?_, settled.lightSet retargeted zeros modeCur⟩
      intro fuel enough
      rw [yaWriteLightPara, targets, ← runs fuel enough, kept]
      simp only [retargeted.modeCur, switched, one, ne_eq, not_true, if_false]
      rfl
  · have switched' : ¬ t.modeCur = mode := retargeted.modeCur ▸ switched
    have cover : ∀ j < 5, j ∈ List.range' 3 2 ∨ j ∈ List.range' 0 3 := by decide
    have apart : ∀ j ∈ List.range' 0 3, j ∉ List.range' 3 2 := by decide
    rcases kind with zero | one
    · obtain ⟨s', runs, settled, modeCur⟩ := twoGroups_settled shown
        (fun j low => (cover j low).symm) fun j inside colour => apart j colour inside
      refine ⟨s', ?_, settled.lightSet retargeted zeros modeCur⟩
      intro fuel enough
      have other : ¬ mode = 1 := by
        rw [zero]
        decide
      rw [yaWriteLightPara, targets, ← runs fuel enough]
      simp only [ne_eq, switched', not_false_eq_true, if_true, other, if_false,
        Option.bind_eq_bind]
    · obtain ⟨s', runs, settled, modeCur⟩ := twoGroups_settled shown cover apart
      refine ⟨s', ?_, settled.lightSet retargeted zeros modeCur⟩
      intro fuel enough
      rw [yaWriteLightPara, targets, ← runs fuel enough]
      simp only [ne_eq, switched', not_false_eq_true, if_true, if_pos one, Option.bind_eq_bind]

theorem LightSet.steady' {mode : UInt8} {s' : LightIo} (set_ : LightSet mode t s s')
    (kind : mode = 0 ∨ mode = 1) : LightSteady s' where
  modeCur := set_.modeCur.symm ▸ kind
  steady := set_.steady
  off i low group := set_.off i low (set_.modeCur ▸ group)
  shown := set_.shown

theorem LightReach.steady (reach : LightReach s) : LightSteady s := by
  induction reach with
  | start => exact lightSteady_start
  | @call s s' _ conv para fuel enough returns light =>
    obtain ⟨s'', runs, set_⟩ := light.call conv para
    have same : s' = s'' := Option.some.inj (returns.symm.trans (runs fuel enough))
    rw [same]
    exact set_.steady' (lightTargets_spec conv para s).2.1

end Call

/-- After any calls a further one returns: then every channel is at its new end, the group that was
not asked for is off, the PWMs show the values, and on the way no channel went past its end. -/
theorem yaWriteLightPara_sets {s : LightIo} (reach : LightReach s) (conv : LedConversions)
    (para : LightData) : ∃ s', (∀ fuel, 255 < fuel → yaWriteLightPara conv fuel para s = some s') ∧
      LightSet (lightTargets conv para s).1 (lightTargets conv para s).2 s s' :=
  reach.steady.call conv para

/-- Half of full red, from the start. White is not asked for. -/
theorem yaWriteLightPara_sets_red : ∃ s', (∀ fuel, 255 < fuel →
    yaWriteLightPara ⟨hsvToRgb, fun _ _ => (0, 0)⟩ fuel ⟨0, 0, 0, 100, 50⟩ lightStart = some s') ∧
      s'.modeCur = 1 ∧ (s'.controlPwm 0).curValue = 127 ∧ (s'.controlPwm 3).curValue = 0 := by
  obtain ⟨s', runs, set_⟩ := yaWriteLightPara_sets .start ⟨hsvToRgb, fun _ _ => (0, 0)⟩
    ⟨0, 0, 0, 100, 50⟩
  refine ⟨s', runs, set_.modeCur, ?_, set_.off 3 (by decide) (by decide)⟩
  rw [set_.steady 0 (by decide), set_.ends 0 (by decide)]
  rfl

end Tr6260
