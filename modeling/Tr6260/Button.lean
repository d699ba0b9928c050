import Mathlib.Data.List.ReduceOption
import Mathlib.Data.UInt
import Tr6260.Machine

/-!
# The button task

`ya_button_listen` of `ya_hal_button.c` samples the pin of a button every 10 ms and counts the
pushed samples. The handler is called when the button is released, and when the overtime is
reached; then the count starts again, although the button is still pushed.

There is one button (`BUTTON_NUM`), so a round of the loop is one sample.
-/

namespace Tr6260

/-! ## The task -/

/-- `DEBOUNCE_NUM`. -/
def debounceNum : Nat := 3

/-- `ya_button_para_t`: of the handler, whether it has been set. -/
structure ButtonPara where
  pushValue : Int
  overtime : UInt32
  yaButtonPushTimeHandler : Bool

/-- `ya_button_handle_para_t`. -/
structure ButtonHandlePara where
  curValue : UInt8
  triggerNum : UInt32

/-- `ya_button_interupt_para` at the start. -/
def ButtonHandlePara.zeroed : ButtonHandlePara := ⟨0, 0⟩

/-- The call of the handler, with the time it is told. -/
def ButtonPara.handlerCall (b : ButtonPara) (triggerNum : UInt32) : Option UInt32 :=
  if b.yaButtonPushTimeHandler then some (triggerNum * 10) else none

/-- A sample of the pin in `ya_button_listen`. -/
def ButtonPara.yaButtonListen (b : ButtonPara) (para : ButtonHandlePara) (pinValue : UInt32) :
    ButtonHandlePara × Option UInt32 :=
  let curValue := pinValue.toUInt8
  if (curValue.toNat : Int) ≠ b.pushValue then
    (⟨curValue, 0⟩,
      if para.triggerNum > UInt32.ofNat debounceNum then b.handlerCall para.triggerNum else none)
  else
    let triggerNum := para.triggerNum + 1
    if triggerNum * 10 ≥ b.overtime ∧ b.overtime ≠ 0 then
      (⟨curValue, 0⟩, b.handlerCall triggerNum)
    else
      (⟨curValue, triggerNum⟩, none)

/-- What each sample makes the task call. -/
def ButtonPara.calls (b : ButtonPara) (samples : List UInt32) : List (Option UInt32) :=
  machineOutputs b.yaButtonListen .zeroed samples

/-! ## Presses -/

/-- A sample of the button when it is pushed. -/
def ButtonPara.Pushed (b : ButtonPara) (pinValue : UInt32) : Prop :=
  (pinValue.toUInt8.toNat : Int) = b.pushValue

instance (b : ButtonPara) (pinValue : UInt32) : Decidable (b.Pushed pinValue) :=
  inferInstanceAs (Decidable (_ = _))

/-- A maximal run of pushed samples. -/
structure Press (b : ButtonPara) (samples before run after : List UInt32) : Prop where
  samples : samples = before ++ (run ++ after)
  some_ : run ≠ []
  pushed : ∀ x ∈ run, b.Pushed x
  before : ∀ x ∈ before.getLast?, ¬b.Pushed x
  after : ∀ x ∈ after.head?, ¬b.Pushed x

/-- The overtime is set and `n` samples take as long. -/
def ButtonPara.Overtime (b : ButtonPara) (n : Nat) : Prop :=
  b.overtime ≠ 0 ∧ b.overtime.toNat ≤ 10 * n

/-- What a press of `n` samples should make the task call, of which `out` are the calls from its
first sample to the sample that ends it, if there is one. -/
structure OneEvent (b : ButtonPara) (n : Nat) (ended : Prop) (out : List (Option UInt32)) :
    Prop where
  once : out.reduceOption.length ≤ 1
  called : debounceNum < n → ended ∨ b.Overtime n → out.reduceOption ≠ []
  time : ∀ k t, out[k]? = some (some t) → t.toNat = 10 * min (k + 1) n

/-- The calls from the first sample of a press to the one that ends it. -/
def ButtonPara.callsOf (b : ButtonPara) (samples before run : List UInt32) : List (Option UInt32) :=
  ((b.calls samples).drop before.length).take (run.length + 1)

/-- The samples it takes to reach the overtime. -/
def ButtonPara.overtimeNum (b : ButtonPara) : Nat := (b.overtime.toNat + 9) / 10

/-- Without an overtime: the press is short, or its time fits 32 bits, or it has not ended. With
one: it is not reached, or the time at which it is fits 32 bits, it is not reached again, and
the samples from then on are too few for another call. -/
def ButtonPara.InTime (b : ButtonPara) (n : Nat) (ended : Prop) : Prop :=
  if b.overtime = 0 then
    ended → n ≤ debounceNum ∨ 10 * n < 2 ^ 32
  else
    n < b.overtimeNum ∨ 10 * b.overtimeNum < 2 ^ 32 ∧ n < 2 * b.overtimeNum ∧
      (ended → n ≤ b.overtimeNum + debounceNum)

/-! ## One sample -/

/-- The test for the overtime after `k` samples. -/
def ButtonPara.Over (b : ButtonPara) (k : Nat) : Prop :=
  UInt32.ofNat k * 10 ≥ b.overtime ∧ b.overtime ≠ 0

variable {b : ButtonPara}

theorem toNat_time {k : Nat} (small : 10 * k < 2 ^ 32) :
    (UInt32.ofNat k * 10).toNat = 10 * k := by
  have count : (UInt32.ofNat k).toNat = k :=
    UInt32.toNat_ofNat_of_lt' (show k < 2 ^ 32 by omega)
  rw [UInt32.toNat_mul, count]
  change k * 10 % 2 ^ 32 = 10 * k
  omega

theorem toNat_time_le (k : Nat) : (UInt32.ofNat k * 10).toNat ≤ 10 * k := by
  have count : (UInt32.ofNat k).toNat ≤ k := UInt32.toNat_ofNat' ▸ Nat.mod_le ..
  rw [UInt32.toNat_mul]
  change (UInt32.ofNat k).toNat * 10 % 2 ^ 32 ≤ 10 * k
  have := Nat.mod_le ((UInt32.ofNat k).toNat * 10) (2 ^ 32)
  omega

theorem not_over_zero (none_ : b.overtime = 0) (k : Nat) : ¬b.Over k :=
  fun late => late.2 none_

theorem not_over_of_lt {k : Nat} (early : k < b.overtimeNum) : ¬b.Over k := by
  intro late
  have reached : b.overtime.toNat ≤ (UInt32.ofNat k * 10).toNat := UInt32.le_iff_toNat_le.mp late.1
  have time := toNat_time_le k
  rw [ButtonPara.overtimeNum] at early
  omega

theorem over_overtimeNum (set : b.overtime ≠ 0) (small : 10 * b.overtimeNum < 2 ^ 32) :
    b.Over b.overtimeNum := by
  refine ⟨?_, set⟩
  rw [ge_iff_le, UInt32.le_iff_toNat_le, toNat_time small, ButtonPara.overtimeNum]
  omega

theorem overtimeNum_pos (set : b.overtime ≠ 0) : 0 < b.overtimeNum := by
  have pos : b.overtime.toNat ≠ 0 := fun zero => set (UInt32.toNat_inj.mp zero)
  rw [ButtonPara.overtimeNum]
  omega

theorem listen_pushed {x : UInt32} (pushed : b.Pushed x) {s : ButtonHandlePara} {k : Nat}
    (count : s.triggerNum = UInt32.ofNat k) (not_over : ¬b.Over (k + 1)) :
    b.yaButtonListen s x = (⟨x.toUInt8, UInt32.ofNat (k + 1)⟩, none) := by
  have next : s.triggerNum + 1 = UInt32.ofNat (k + 1) := by
    rw [count, UInt32.ofNat_add]
    rfl
  rw [ButtonPara.yaButtonListen, if_neg (not_not.mpr (show _ = b.pushValue from pushed))]
  dsimp only
  rw [next]
  exact if_neg not_over

theorem listen_over {x : UInt32} (pushed : b.Pushed x) {s : ButtonHandlePara} {k : Nat}
    (count : s.triggerNum = UInt32.ofNat k) (late : b.Over (k + 1)) :
    b.yaButtonListen s x = (⟨x.toUInt8, 0⟩, b.handlerCall (UInt32.ofNat (k + 1))) := by
  have next : s.triggerNum + 1 = UInt32.ofNat (k + 1) := by
    rw [count, UInt32.ofNat_add]
    rfl
  rw [ButtonPara.yaButtonListen, if_neg (not_not.mpr (show _ = b.pushValue from pushed))]
  dsimp only
  rw [next]
  exact if_pos late

theorem listen_released {x : UInt32} (released : ¬b.Pushed x) (s : ButtonHandlePara) :
    b.yaButtonListen s x = (⟨x.toUInt8, 0⟩,
      if s.triggerNum > UInt32.ofNat debounceNum then b.handlerCall s.triggerNum else none) := by
  rw [ButtonPara.yaButtonListen, if_pos (show _ ≠ b.pushValue from released)]

/-! ## Many samples -/

/-- Nothing is called while the overtime is not reached. -/
theorem outputs_quiet {xs : List UInt32} (pushed : ∀ x ∈ xs, b.Pushed x) {s : ButtonHandlePara}
    {k : Nat} (count : s.triggerNum = UInt32.ofNat k)
    (quiet : ∀ j, k < j → j ≤ k + xs.length → ¬b.Over j) :
    machineOutputs b.yaButtonListen s xs = List.replicate xs.length none ∧
      (machineAfter b.yaButtonListen s xs).triggerNum = UInt32.ofNat (k + xs.length) := by
  induction xs generalizing s k with
  | nil => exact ⟨rfl, count⟩
  | cons x xs ih =>
    obtain ⟨first, pushed⟩ := List.forall_mem_cons.mp pushed
    rw [List.length_cons] at quiet
    have step := listen_pushed first count (quiet (k + 1) (by omega) (by omega))
    have rest : ∀ j, k + 1 < j → j ≤ k + 1 + xs.length → ¬b.Over j := by
      intro j above below
      exact quiet j (by omega) (by omega)
    obtain ⟨outputs, after⟩ := ih pushed (s := ⟨x.toUInt8, UInt32.ofNat (k + 1)⟩) rfl rest
    rw [machineOutputs, step, outputs]
    refine ⟨rfl, ?_⟩
    change (machineAfter _ (b.yaButtonListen s x).1 xs).triggerNum = _
    rw [step, after, List.length_cons]
    congr 1
    omega

/-- The handler is called when the overtime is reached, and the count starts again. -/
theorem outputs_over {xs : List UInt32} (pushed : ∀ x ∈ xs, b.Pushed x) {s : ButtonHandlePara}
    (count : s.triggerNum = 0) (set : b.overtime ≠ 0) (small : 10 * b.overtimeNum < 2 ^ 32)
    (length : xs.length = b.overtimeNum) :
    machineOutputs b.yaButtonListen s xs =
        List.replicate (b.overtimeNum - 1) none ++ [b.handlerCall (UInt32.ofNat b.overtimeNum)] ∧
      (machineAfter b.yaButtonListen s xs).triggerNum = 0 := by
  have pos := overtimeNum_pos set
  obtain ⟨front, last, rfl⟩ : ∃ front last, xs = front ++ [last] := by
    rcases List.eq_nil_or_concat xs with rfl | ⟨front, last, rfl⟩
    · rw [List.length_nil] at length
      omega
    · exact ⟨front, last, List.concat_eq_append⟩
  rw [List.length_append, List.length_singleton] at length
  obtain ⟨outputs, after⟩ := outputs_quiet (b := b) (k := 0)
    (fun x mem => pushed x (List.mem_append_left _ mem)) count
    (fun j _ below => not_over_of_lt (by omega))
  have late : b.Over (0 + front.length + 1) := by
    rw [Nat.zero_add, length]
    exact over_overtimeNum set small
  have step := listen_over (pushed last (List.mem_append_right _ (List.mem_singleton_self _)))
    after late
  rw [machineOutputs_append, machineAfter_append, outputs]
  constructor
  · rw [machineOutputs, machineOutputs, step, Nat.zero_add, length]
    rw [← length, Nat.add_sub_cancel]
  · change (b.yaButtonListen _ last).1.triggerNum = 0
    rw [step]

/-! ## One press -/

/-- The sample that ends a press, if there is one. -/
def Ending (b : ButtonPara) (ending : List UInt32) : Prop :=
  ending = [] ∨ ∃ y, ending = [y] ∧ ¬b.Pushed y

theorem outputs_released {y : UInt32} (released : ¬b.Pushed y) (set : b.yaButtonPushTimeHandler)
    {s : ButtonHandlePara} {k : Nat} (count : s.triggerNum = UInt32.ofNat k) (small : k < 2 ^ 32) :
    machineOutputs b.yaButtonListen s [y] =
      [if debounceNum < k then some (UInt32.ofNat k * 10) else none] := by
  have more : UInt32.ofNat k > UInt32.ofNat debounceNum ↔ debounceNum < k := by
    rw [gt_iff_lt, UInt32.lt_iff_toNat_lt, UInt32.toNat_ofNat_of_lt' small]
    rfl
  rw [machineOutputs, listen_released released, machineOutputs, count, ButtonPara.handlerCall,
    if_pos set]
  simp only [more]

/-- A press without a call that needs none. -/
theorem oneEvent_none {n : Nat} {ended : Prop} {m : Nat}
    (unneeded : debounceNum < n → ¬(ended ∨ b.Overtime n)) :
    OneEvent b n ended (List.replicate m none) := by
  refine ⟨?_, ?_, ?_⟩
  · rw [List.reduceOption_replicate_none]
    exact Nat.zero_le 1
  · intro long due
    exact absurd due (unneeded long)
  · intro k t there
    rw [List.getElem?_replicate] at there
    split at there <;> cases there

/-- A press with one call, at the right time. -/
theorem oneEvent_call {n m m' : Nat} {ended : Prop} {t : UInt32}
    (time : t.toNat = 10 * min (m + 1) n) :
    OneEvent b n ended (List.replicate m none ++ some t :: List.replicate m' none) := by
  have calls : (List.replicate m none ++ some t :: List.replicate m' none).reduceOption = [t] := by
    rw [List.reduceOption_append, List.reduceOption_replicate_none, List.nil_append,
      List.reduceOption_cons_of_some, List.reduceOption_replicate_none]
  refine ⟨?_, ?_, ?_⟩
  · rw [calls]
    exact Nat.le_refl 1
  · intro _ _
    rw [calls]
    exact List.cons_ne_nil _ _
  · intro k t' there
    rcases Nat.lt_trichotomy k m with below | same | above
    · rw [List.getElem?_append_left (by rwa [List.length_replicate]),
        List.getElem?_replicate] at there
      split at there <;> cases there
    · rw [same, List.getElem?_append_right (by rw [List.length_replicate]), List.length_replicate,
        Nat.sub_self, List.getElem?_cons_zero] at there
      cases there
      rw [same, time]
    · rw [List.getElem?_append_right (by rw [List.length_replicate]; omega), List.length_replicate,
        List.getElem?_cons] at there
      split at there
      · omega
      · rw [List.getElem?_replicate] at there
        split at there <;> cases there

/-- A press that is over before the overtime. -/
theorem oneEvent_released {n : Nat} {ended : Prop} (small : 10 * n < 2 ^ 32) :
    OneEvent b n ended
      (List.replicate n none ++
        [if debounceNum < n then some (UInt32.ofNat n * 10) else none]) := by
  split
  · change OneEvent b n ended (_ ++ some _ :: List.replicate 0 none)
    apply oneEvent_call
    rw [toNat_time small]
    omega
  · next short =>
    have quiet : List.replicate n (none : Option UInt32) ++ [none] = List.replicate (n + 1) none :=
      List.replicate_succ'.symm
    rw [quiet]
    exact oneEvent_none fun long => absurd long short

/-- A second call. -/
theorem not_oneEvent_two {n : Nat} {ended : Prop} {o₁ o₂ o₃ : List (Option UInt32)}
    {t t' : UInt32} :
    ¬OneEvent b n ended (o₁ ++ some t :: (o₂ ++ some t' :: o₃)) := by
  intro right
  have once := right.once
  simp only [List.reduceOption_append, List.reduceOption_cons_of_some, List.length_append,
    List.length_cons] at once
  omega

/-- A call is needed and its time does not fit 32 bits. -/
theorem not_oneEvent_late {n m : Nat} {ended : Prop} {out : List (Option UInt32)}
    (long : debounceNum < n) (due : ended ∨ b.Overtime n) (late : 2 ^ 32 ≤ 10 * min (m + 1) n) :
    ¬OneEvent b n ended (List.replicate m none ++ out) := by
  intro right
  obtain ⟨t, mem⟩ := List.exists_mem_of_ne_nil _ (right.called long due)
  rw [List.reduceOption_mem_iff] at mem
  obtain ⟨k, inside, there⟩ := List.getElem_of_mem mem
  have there : (List.replicate m none ++ out)[k]? = some (some t) := by
    rw [List.getElem?_eq_getElem inside, there]
  have behind : m ≤ k := by
    by_contra before
    rw [List.getElem?_append_left (by rw [List.length_replicate]; omega),
      List.getElem?_replicate] at there
    split at there <;> cases there
  have time := right.time k t there
  have fits := t.toNat_lt
  omega

/-- Without an overtime. -/
theorem oneEvent_zero_iff (set : b.yaButtonPushTimeHandler) {s : ButtonHandlePara}
    (start : s.triggerNum = 0) {run ending : List UInt32} (pushed : ∀ x ∈ run, b.Pushed x)
    (ends : Ending b ending) (none_ : b.overtime = 0) :
    OneEvent b run.length (ending ≠ []) (machineOutputs b.yaButtonListen s (run ++ ending)) ↔
      (ending ≠ [] → run.length ≤ debounceNum ∨ 10 * run.length < 2 ^ 32) := by
  obtain ⟨outputs, after⟩ := outputs_quiet (k := 0) pushed start
    fun j _ _ => not_over_zero none_ j
  rw [Nat.zero_add] at after
  have not_over : ¬b.Overtime run.length := fun late => late.1 none_
  rw [machineOutputs_append, outputs]
  rcases ends with rfl | ⟨y, rfl, released⟩
  · rw [machineOutputs, List.append_nil]
    apply iff_of_true
    · exact oneEvent_none fun _ => not_or.mpr ⟨fun h => h rfl, not_over⟩
    · exact fun h => absurd rfl h
  · have some_ : [y] ≠ [] := List.cons_ne_nil y []
    by_cases small : 10 * run.length < 2 ^ 32
    · apply iff_of_true _ fun _ => .inr small
      rw [outputs_released released set after (by omega)]
      exact oneEvent_released small
    · by_cases long : debounceNum < run.length
      · apply iff_of_false
        · exact not_oneEvent_late long (.inl some_) (by omega)
        · intro right
          rcases right some_ with short | small'
          · exact absurd long (Nat.not_lt.mpr short)
          · exact small small'
      · rw [debounceNum] at long
        omega

/-- The overtime is not reached. -/
theorem oneEvent_early (set : b.yaButtonPushTimeHandler) {s : ButtonHandlePara}
    (start : s.triggerNum = 0) {run ending : List UInt32} (pushed : ∀ x ∈ run, b.Pushed x)
    (ends : Ending b ending) (early : run.length < b.overtimeNum) :
    OneEvent b run.length (ending ≠ []) (machineOutputs b.yaButtonListen s (run ++ ending)) := by
  obtain ⟨outputs, after⟩ := outputs_quiet (k := 0) pushed start
    fun j _ below => not_over_of_lt (by omega)
  rw [Nat.zero_add] at after
  have below : 10 * run.length < b.overtime.toNat := by
    rw [ButtonPara.overtimeNum] at early
    omega
  have fits := b.overtime.toNat_lt
  rw [machineOutputs_append, outputs]
  rcases ends with rfl | ⟨y, rfl, released⟩
  · rw [machineOutputs, List.append_nil]
    exact oneEvent_none fun _ => not_or.mpr ⟨fun h => h rfl, fun late => by
      have := late.2
      omega⟩
  · rw [outputs_released released set after (by omega)]
    exact oneEvent_released (by omega)

/-- The time of the overtime does not fit 32 bits. -/
theorem not_oneEvent_wrapped {s : ButtonHandlePara} (start : s.triggerNum = 0)
    {run ending : List UInt32} (pushed : ∀ x ∈ run, b.Pushed x) (set : b.overtime ≠ 0)
    (reached : b.overtimeNum ≤ run.length) (large : 2 ^ 32 ≤ 10 * b.overtimeNum) :
    ¬OneEvent b run.length (ending ≠ [])
      (machineOutputs b.yaButtonListen s (run ++ ending)) := by
  have front : ((run ++ ending).take (b.overtimeNum - 1)).length = b.overtimeNum - 1 := by
    rw [List.length_take, List.length_append]
    omega
  have front_pushed : ∀ x ∈ (run ++ ending).take (b.overtimeNum - 1), b.Pushed x := by
    intro x mem
    rw [List.take_append_of_le_length (by omega)] at mem
    exact pushed x (List.mem_of_mem_take mem)
  obtain ⟨outputs, -⟩ := outputs_quiet (k := 0) front_pushed start
    fun j _ below => not_over_of_lt (by omega)
  rw [← List.take_append_drop (b.overtimeNum - 1) (run ++ ending), machineOutputs_append, outputs,
    front]
  apply not_oneEvent_late
  · rw [debounceNum]
    omega
  · refine .inr ⟨set, ?_⟩
    have : b.overtime.toNat ≤ 10 * b.overtimeNum := by
      rw [ButtonPara.overtimeNum]
      omega
    omega
  · omega

/-- The samples up to the overtime. -/
theorem exists_front {run : List UInt32} {n : Nat} (reached : n ≤ run.length) :
    ∃ first rest, run = first ++ rest ∧ first.length = n :=
  ⟨run.take n, run.drop n, (List.take_append_drop ..).symm, List.length_take_of_le reached⟩

/-- The overtime is reached. -/
theorem oneEvent_over_iff (handler : b.yaButtonPushTimeHandler) {s : ButtonHandlePara}
    (start : s.triggerNum = 0) {run ending : List UInt32} (pushed : ∀ x ∈ run, b.Pushed x)
    (ends : Ending b ending) (set : b.overtime ≠ 0) (small : 10 * b.overtimeNum < 2 ^ 32)
    (reached : b.overtimeNum ≤ run.length) :
    OneEvent b run.length (ending ≠ []) (machineOutputs b.yaButtonListen s (run ++ ending)) ↔
      run.length < 2 * b.overtimeNum ∧
        (ending ≠ [] → run.length ≤ b.overtimeNum + debounceNum) := by
  have pos := overtimeNum_pos set
  obtain ⟨first, rest, rfl, length⟩ := exists_front reached
  obtain ⟨outputs, again⟩ := outputs_over (fun x mem => pushed x (List.mem_append_left _ mem)) start
    set small length
  have pushed_rest : ∀ x ∈ rest, b.Pushed x := fun x mem => pushed x (List.mem_append_right _ mem)
  have call {k : Nat} : b.handlerCall (UInt32.ofNat k) = some (UInt32.ofNat k * 10) :=
    if_pos handler
  rw [List.append_assoc, machineOutputs_append, outputs, List.append_assoc, List.singleton_append,
    call, List.length_append, length]
  by_cases twice : b.overtimeNum ≤ rest.length
  · -- The button is held until the overtime is reached again.
    apply iff_of_false _ fun right => by omega
    obtain ⟨second, rest, rfl, length'⟩ := exists_front twice
    obtain ⟨outputs', -⟩ := outputs_over
      (fun x mem => pushed_rest x (List.mem_append_left _ mem)) again set small length'
    rw [List.append_assoc, machineOutputs_append, outputs', List.append_assoc,
      List.singleton_append, call]
    exact not_oneEvent_two
  · obtain ⟨outputs', after⟩ := outputs_quiet (k := 0) pushed_rest again
      fun j _ below => not_over_of_lt (by omega)
    rw [Nat.zero_add] at after
    have time : (UInt32.ofNat b.overtimeNum * 10).toNat =
        10 * min (b.overtimeNum - 1 + 1) (b.overtimeNum + rest.length) := by
      rw [toNat_time small]
      omega
    rw [machineOutputs_append, outputs']
    rcases ends with rfl | ⟨y, rfl, released⟩
    · rw [machineOutputs, List.append_nil]
      apply iff_of_true (oneEvent_call time)
      exact ⟨by omega, fun h => absurd rfl h⟩
    · rw [outputs_released released handler after (by omega)]
      by_cases more : debounceNum < rest.length
      · rw [if_pos more]
        apply iff_of_false not_oneEvent_two
        intro right
        have := right.2 (List.cons_ne_nil y [])
        omega
      · rw [if_neg more]
        have one_more : List.replicate rest.length (none : Option UInt32) ++ [none] =
            List.replicate (rest.length + 1) none := List.replicate_succ'.symm
        rw [one_more]
        exact iff_of_true (oneEvent_call time) ⟨by omega, fun _ => by omega⟩

/-- The calls from the start of a press to its end. -/
theorem oneEvent_iff (set : b.yaButtonPushTimeHandler) {s : ButtonHandlePara}
    (start : s.triggerNum = 0) {run ending : List UInt32} (pushed : ∀ x ∈ run, b.Pushed x)
    (ends : Ending b ending) :
    OneEvent b run.length (ending ≠ []) (machineOutputs b.yaButtonListen s (run ++ ending)) ↔
      b.InTime run.length (ending ≠ []) := by
  rw [ButtonPara.InTime]
  by_cases none_ : b.overtime = 0
  · rw [if_pos none_]
    exact oneEvent_zero_iff set start pushed ends none_
  · rw [if_neg none_]
    by_cases early : run.length < b.overtimeNum
    · exact iff_of_true (oneEvent_early set start pushed ends early) (.inl early)
    · by_cases small : 10 * b.overtimeNum < 2 ^ 32
      · rw [oneEvent_over_iff set start pushed ends none_ small (Nat.le_of_not_lt early)]
        constructor
        · intro right
          exact .inr ⟨small, right⟩
        · rintro (h | ⟨-, right⟩)
          · exact absurd h early
          · exact right
      · apply iff_of_false
        · exact not_oneEvent_wrapped start pushed none_ (Nat.le_of_not_lt early)
            (Nat.le_of_not_lt small)
        · rintro (h | ⟨h, -⟩)
          · exact early h
          · exact small h

/-! ## Any samples -/

/-- Nothing is counted before a press. -/
theorem after_released {before : List UInt32} (last : ∀ x ∈ before.getLast?, ¬b.Pushed x) :
    (machineAfter b.yaButtonListen .zeroed before).triggerNum = 0 := by
  rcases List.eq_nil_or_concat before with rfl | ⟨front, x, same⟩
  · rfl
  · rw [same, List.concat_eq_append] at last ⊢
    rw [List.getLast?_concat] at last
    rw [machineAfter_append]
    change (b.yaButtonListen _ x).1.triggerNum = 0
    rw [listen_released (last x rfl)]

/-- The calls of a press are those of its samples and of the one behind them. -/
theorem callsOf_eq {samples before run after : List UInt32}
    (press : Press b samples before run after) :
    b.callsOf samples before run = machineOutputs b.yaButtonListen
      (machineAfter b.yaButtonListen .zeroed before) (run ++ after.take 1) := by
  have split : (b.calls samples).drop before.length = machineOutputs b.yaButtonListen
      (machineAfter b.yaButtonListen .zeroed before) (run ++ after) := by
    rw [ButtonPara.calls, press.samples, machineOutputs_append]
    exact List.drop_left' (length_machineOutputs ..)
  rw [ButtonPara.callsOf, split, take_machineOutputs, List.take_length_add_append]

theorem ending_take {after : List UInt32} (first : ∀ x ∈ after.head?, ¬b.Pushed x) :
    Ending b (after.take 1) := by
  cases after with
  | nil => exact .inl rfl
  | cons y after => exact .inr ⟨y, rfl, first y rfl⟩

/-- One press. -/
theorem press_oneEvent_iff (set : b.yaButtonPushTimeHandler)
    {samples before run after : List UInt32} (press : Press b samples before run after) :
    OneEvent b run.length (after ≠ []) (b.callsOf samples before run) ↔
      b.InTime run.length (after ≠ []) := by
  have ended : after ≠ [] ↔ after.take 1 ≠ [] := by
    cases after with
    | nil => exact Iff.rfl
    | cons y after => exact iff_of_true (List.cons_ne_nil y after) (List.cons_ne_nil y [])
  rw [callsOf_eq press, propext ended]
  exact oneEvent_iff set (after_released press.before) press.pushed (ending_take press.after)

/-- Every press of a button is one event if and only if every one is held for such a time. -/
theorem yaButtonListen_oneEvent_iff (set : b.yaButtonPushTimeHandler) (samples : List UInt32) :
    (∀ before run after, Press b samples before run after →
      OneEvent b run.length (after ≠ []) (b.callsOf samples before run)) ↔
    ∀ before run after, Press b samples before run after →
      b.InTime run.length (after ≠ []) := by
  constructor
  · intro right before run after press
    exact (press_oneEvent_iff set press).mp (right before run after press)
  · intro inTime before run after press
    exact (press_oneEvent_iff set press).mpr (inTime before run after press)

/-- A button that is pushed when its pin is 0, with an overtime of 50 ms. -/
def quickButton : ButtonPara := ⟨0, 50, true⟩

/-- It is pushed between samples that are 1. -/
theorem quickButton_press (n : Nat) (before after : List UInt32)
    (front : ∀ x ∈ before.getLast?, x = 1) (behind : ∀ x ∈ after.head?, x = 1) :
    Press quickButton (before ++ (List.replicate (n + 1) 0 ++ after)) before
      (List.replicate (n + 1) 0) after := by
  refine ⟨rfl, List.cons_ne_nil _ _, ?_, ?_, ?_⟩
  · intro x mem
    rw [List.eq_of_mem_replicate mem]
    rfl
  · intro x mem
    rw [front x mem]
    decide
  · intro x mem
    rw [behind x mem]
    decide

theorem yaButtonListen_oneEvent_short :
    OneEvent quickButton 4 ([(1 : UInt32)] ≠ [])
      (quickButton.callsOf [1, 0, 0, 0, 0, 1] [1] [0, 0, 0, 0]) := by
  have button : quickButton.yaButtonPushTimeHandler := rfl
  refine (yaButtonListen_oneEvent_iff button [1, 0, 0, 0, 0, 1]).mpr ?_ [1] [0, 0, 0, 0] [1] ?_
  · intro before run after press
    have whole : 6 = before.length + (run.length + after.length) := by
      rw [← List.length_append, ← List.length_append, ← press.samples]
      rfl
    have num : quickButton.overtimeNum = 5 := rfl
    rw [ButtonPara.InTime, if_neg (by decide), num, debounceNum]
    omega
  · exact quickButton_press 3 [1] [1] (by simp) (by simp)

/-- A button that is held on for 40 ms after the overtime makes a second call. -/
theorem yaButtonListen_held :
    quickButton.calls [0, 0, 0, 0, 0, 0, 0, 0, 0, 1] =
        [none, none, none, none, some 50, none, none, none, none, some 40] ∧
      ¬∀ before run after, Press quickButton [0, 0, 0, 0, 0, 0, 0, 0, 0, 1] before run after →
        OneEvent quickButton run.length (after ≠ [])
          (quickButton.callsOf [0, 0, 0, 0, 0, 0, 0, 0, 0, 1] before run) := by
  constructor
  · decide
  · intro right
    have press : Press quickButton [0, 0, 0, 0, 0, 0, 0, 0, 0, 1] [] [0, 0, 0, 0, 0, 0, 0, 0, 0]
        [1] := quickButton_press 8 [] [1] (by simp) (by simp)
    have twice := (right [] [0, 0, 0, 0, 0, 0, 0, 0, 0] [1] press).once
    exact absurd twice (by decide)

end Tr6260
