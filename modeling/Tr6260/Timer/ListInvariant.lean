import Tr6260.Timer.Messages

/-!
# The timer list over whole runs

A run is any sequence of messages, removals of all timers and reads of the flash record, from the
empty list. `TimerListOk` is what the list is meant to keep: distinct names, at most
`MAX_TIMER_NUM` entries, and actions that the save accepts.

The names stay distinct in every run. The two limits are checked one too late: the test
`index_timer > MAX_TIMER_NUM` lets an entry in behind twenty others, and `action_len` is compared
with `MAX_ACTION_LEN` before the terminator is counted in. `AddCall.Fits` is the check that would
have been needed, and the limits hold in every run in which each added entry meets it.
-/

namespace Tr6260

open FlashProg

/-! ## Runs -/

/-- `device_delete_all_timer`. -/
def deviceDeleteAllTimer : List DeviceCommonTimer → List DeviceCommonTimer
  | [] => []
  | _ :: rest => deviceDeleteAllTimer rest

theorem deviceDeleteAllTimer_eq (list : List DeviceCommonTimer) :
    deviceDeleteAllTimer list = [] := by
  induction list with
  | nil => rfl
  | cons t rest ih => exact ih

/-- A call that can change the list, with the outcomes of its allocations. -/
inductive TimerCall
  | handleCloudTimer (heap : Heap) (root : Option CJson)
  | deleteAllTimer
  | readTimerIntoFlash (heap : Heap)

/-- The list and the flash under it. -/
structure TimerState where
  list : List DeviceCommonTimer
  flash : ByteMem

/-- The list and the flash a program leaves. -/
def TimerState.after (flash : ByteMem)
    (prog : FlashProg (Option (Int × List DeviceCommonTimer))) : Option TimerState :=
  (prog.run flash).1.map fun result => ⟨result.2, (prog.run flash).2⟩

/-- One call; `none` where it runs into text that is not there, or over the end of a block. -/
def timerStep (print : Printer) (s : TimerState) : TimerCall → Option TimerState
  | .handleCloudTimer heap root =>
    TimerState.after s.flash (deviceHandleCloudTimer print heap root s.list)
  | .deleteAllTimer => some { s with list := deviceDeleteAllTimer s.list }
  | .readTimerIntoFlash heap => TimerState.after s.flash (deviceReadTimerIntoFlash heap s.list)

/-- The calls in order. -/
def timerRun (print : Printer) : TimerState → List TimerCall → Option TimerState
  | s, [] => some s
  | s, call :: calls => (timerStep print s call).bind fun s => timerRun print s calls

/-! ## The entries added -/

/-- A call of `device_add_list_timer`: the list it finds, and its node. -/
structure AddCall where
  list : List DeviceCommonTimer
  node : TimerNode

/-- There is room for one more entry, and its text with the terminator is short enough. A node
whose name is in the list changes nothing. -/
def AddCall.Fits (call : AddCall) : Prop :=
  call.node.timerId ∉ timerIds call.list →
    call.list.length < maxTimerNum ∧ call.node.actionLen.toNat + 1 < maxActionLen

/-- The one of an item of `add` or `update`, when the item is read to its end. -/
def putItemAdds (print : Printer) (item : CJson) (list : List DeviceCommonTimer) : List AddCall :=
  match itemTimerId item with
  | .ok id =>
    match itemNode print item id with
    | .ok node => [⟨(deviceDeleteListTimer list id).2, node⟩]
    | _ => []
  | _ => []

/-- Those of the items in order, as far as `device_handle_cloud_timer` gets. -/
def putItemsAdds (print : Printer) (heap : Heap) :
    List CJson → List DeviceCommonTimer → List AddCall
  | [], _ => []
  | item :: items, list =>
    putItemAdds print item list ++
      match handlePutItem print heap item list with
      | some (true, list) => putItemsAdds print (heap.skip 2) items list
      | _ => []

/-- Those of the loop of `device_read_timer_into_flash`. -/
def readLoopAdds (heap : Heap) (buf : List UInt8) (readLen pos : Nat)
    (list : List DeviceCommonTimer) : List AddCall :=
  let node := nodeAt buf pos (timerIdAt buf pos)
  if pos + 34 + node.actionLen.toNat ≤ readLen ∧ node.actionLen.toNat < maxActionLen then
    ⟨list, node⟩ ::
      match deviceAddListTimer heap list node with
      | none => []
      | some (_, list) =>
        readLoopAdds (heap.skip 2) buf readLen (pos + 34 + node.actionLen.toNat) list
  else
    []
termination_by readLen - pos

/-- Those of a whole read. -/
def readAdds (heap : Heap) (s : TimerState) : List AddCall :=
  match (heap 0).memoryAlloc maxTimerDeviceData with
  | none => []
  | some _ =>
    match ((yaReadFlashWithVarLen (heap 1) yaDeviceTimerAddr maxTimerDeviceData 2).run
      s.flash).1 with
    | none => []
    | some data =>
      readLoopAdds (heap.skip 2) (data ++ List.replicate (maxTimerDeviceData - data.length) 0)
        data.length 0 s.list

/-- The calls of `device_add_list_timer` in one call. -/
def TimerCall.adds (print : Printer) (s : TimerState) : TimerCall → List AddCall
  | .handleCloudTimer _ none => []
  | .handleCloudTimer heap (some root) => putItemsAdds print heap (putItems root) s.list
  | .deleteAllTimer => []
  | .readTimerIntoFlash heap => readAdds heap s

/-- The calls of `device_add_list_timer` in a run. -/
def runAdds (print : Printer) : TimerState → List TimerCall → List AddCall
  | _, [] => []
  | s, call :: calls =>
    call.adds print s ++
      match timerStep print s call with
      | none => []
      | some s => runAdds print s calls

/-! ## What a run keeps -/

/-- A property of lists that removals keep, and additions that meet `fits`. -/
structure ListClosed (P : List DeviceCommonTimer → Prop) (fits : AddCall → Prop) : Prop where
  empty : P []
  sublist : ∀ {list list'}, list'.Sublist list → P list → P list'
  add : ∀ {list node t}, fits ⟨list, node⟩ → node.timerId ∉ timerIds list →
    t.timerId = node.timerId → t.actionLen = node.actionLen + 1 → P list → P (list ++ [t])

/-- What `device_add_list_timer` can do. -/
theorem deviceAddListTimer_cases {heap : Heap} {list list' : List DeviceCommonTimer}
    {node : TimerNode} {ret : Int} (added : deviceAddListTimer heap list node = some (ret, list')) :
    list' = list ∨ (node.timerId ∉ timerIds list ∧
      ∃ t, list' = list ++ [t] ∧ t.timerId = node.timerId ∧ t.actionLen = node.actionLen + 1) := by
  unfold deviceAddListTimer at added
  split at added
  next => cases added; exact .inl rfl
  next absent =>
  have fresh : node.timerId ∉ timerIds list := by simpa [timerIds] using absent
  split at added
  next => cases added; exact .inl rfl
  next =>
  split at added
  next => cases added; exact .inl rfl
  next =>
  split at added
  next => cases added; exact .inl rfl
  next =>
  split at added
  next => cases added
  next =>
    cases added
    exact .inr ⟨fresh, _, rfl, rfl, rfl⟩

theorem deviceDeleteListTimer_sublist (list : List DeviceCommonTimer) (id : TimerId) :
    (deviceDeleteListTimer list id).2.Sublist list := by
  unfold deviceDeleteListTimer
  split
  · exact List.eraseP_sublist
  · exact List.Sublist.refl _

section Closed

variable {P : List DeviceCommonTimer → Prop} {fits : AddCall → Prop} {print : Printer}
  {list list' : List DeviceCommonTimer}

theorem ListClosed.deviceAddListTimer (closed : ListClosed P fits) {heap : Heap}
    {node : TimerNode} {ret : Int} (fit : fits ⟨list, node⟩) (start : P list)
    (added : deviceAddListTimer heap list node = some (ret, list')) : P list' := by
  rcases deviceAddListTimer_cases added with rfl | ⟨fresh, t, rfl, name, len⟩
  · exact start
  · exact closed.add fit fresh name len start

theorem ListClosed.handlePutItem (closed : ListClosed P fits) {heap : Heap} {item : CJson}
    {passed : Bool} (fit : ∀ call ∈ putItemAdds print item list, fits call) (start : P list)
    (handled : handlePutItem print heap item list = some (passed, list')) : P list' := by
  unfold Tr6260.handlePutItem at handled
  unfold putItemAdds at fit
  split at handled
  next => cases handled
  next => cases handled; exact start
  next id named =>
  have less : P (deviceDeleteListTimer list id).2 :=
    closed.sublist (deviceDeleteListTimer_sublist list id) start
  rw [named] at fit
  dsimp only at handled fit
  split at handled
  next => cases handled
  next => cases handled; exact less
  next node read =>
  rw [read] at fit
  split at handled
  next => cases handled
  next ret list'' added =>
    cases handled
    exact closed.deviceAddListTimer (fit _ (List.mem_singleton.mpr rfl)) less added

theorem ListClosed.handlePutItems (closed : ListClosed P fits) {items : List CJson} {heap : Heap}
    {passed : Bool} (fit : ∀ call ∈ putItemsAdds print heap items list, fits call) (start : P list)
    (handled : handlePutItems print heap items list = some (passed, list')) : P list' := by
  induction items generalizing heap list with
  | nil => cases handled; exact start
  | cons item items ih =>
    rw [Tr6260.handlePutItems] at handled
    rw [putItemsAdds] at fit
    have here := fun call mem => fit call (List.mem_append_left _ mem)
    cases outcome : Tr6260.handlePutItem print heap item list with
    | none => rw [outcome] at handled; cases handled
    | some result =>
      obtain ⟨went, grown⟩ := result
      have next := closed.handlePutItem here start outcome
      rw [outcome] at handled fit
      cases went with
      | false => cases handled; exact next
      | true => exact ih (fun call mem => fit call (List.mem_append_right _ mem)) next handled

theorem ListClosed.handleDeleteItems (closed : ListClosed P fits) {items : List CJson}
    {passed : Bool} (start : P list)
    (handled : handleDeleteItems items list = some (passed, list')) : P list' := by
  induction items generalizing list with
  | nil => cases handled; exact start
  | cons item items ih =>
    rw [Tr6260.handleDeleteItems] at handled
    split at handled
    next => cases handled
    next => cases handled; exact start
    next id _ => exact ih (closed.sublist (deviceDeleteListTimer_sublist list id) start) handled

theorem ListClosed.handleItems (closed : ListClosed P fits) {root : CJson} {heap : Heap}
    {passed : Bool} (fit : ∀ call ∈ putItemsAdds print heap (putItems root) list, fits call)
    (start : P list) (handled : handleItems print heap root list = some (passed, list')) :
    P list' := by
  unfold Tr6260.handleItems at handled
  split at handled
  next grown putAll =>
    have mid := closed.handlePutItems fit start putAll
    split at handled
    next less deletedAll =>
      have after := closed.handleDeleteItems mid deletedAll
      cases handled
      split
      · exact closed.empty
      · exact after
    next => exact closed.handleDeleteItems mid handled
  next => exact closed.handlePutItems fit start handled

theorem ListClosed.readTimerLoop (closed : ListClosed P fits) {heap : Heap} {buf : List UInt8}
    {readLen pos : Nat} {ret : Int}
    (fit : ∀ call ∈ readLoopAdds heap buf readLen pos list, fits call) (start : P list)
    (done : readTimerLoop heap buf readLen pos list = some (ret, list')) : P list' := by
  fun_induction Tr6260.readTimerLoop heap buf readLen pos list with
  | case1 | case2 | case5 | case6 => cases done; exact start
  | case3 => cases done
  | case4 heap pos list _ _ node room short ret' grown added ih =>
    rw [readLoopAdds] at fit
    rw [if_pos ⟨Nat.le_of_not_gt room, short⟩, added] at fit
    have here := closed.deviceAddListTimer (fit _ List.mem_cons_self) start added
    exact ih (fun call mem => fit call (List.mem_cons_of_mem _ mem)) here done

theorem ListClosed.step (closed : ListClosed P fits) {s s' : TimerState} {call : TimerCall}
    (fit : ∀ add ∈ call.adds print s, fits add) (start : P s.list)
    (stepped : timerStep print s call = some s') : P s'.list := by
  cases call with
  | handleCloudTimer heap root =>
    obtain ⟨⟨ret, list'⟩, handled, rfl⟩ := Option.map_eq_some_iff.mp stepped
    cases root with
    | none => cases handled; exact start
    | some root =>
      rw [deviceHandleCloudTimer_result] at handled
      obtain ⟨⟨passed, list'⟩, items, same⟩ := Option.map_eq_some_iff.mp handled
      cases same
      exact closed.handleItems fit start items
  | deleteAllTimer =>
    cases stepped
    rw [deviceDeleteAllTimer_eq]
    exact closed.empty
  | readTimerIntoFlash heap =>
    obtain ⟨⟨ret, list'⟩, read, rfl⟩ := Option.map_eq_some_iff.mp stepped
    unfold deviceReadTimerIntoFlash at read
    split at read
    next => cases read; exact start
    next buf found =>
    rw [TimerCall.adds, readAdds, found] at fit
    dsimp only at fit
    rw [run_bind] at read
    cases record : ((yaReadFlashWithVarLen (heap 1) yaDeviceTimerAddr maxTimerDeviceData 2).run
        s.flash).1 with
    | none => rw [record] at read; cases read; exact start
    | some data =>
      rw [record] at read fit
      dsimp only at read fit
      split at read
      next => cases read; exact start
      next => exact closed.readTimerLoop fit start read

/-- What one call keeps, a run keeps. -/
theorem ListClosed.run (closed : ListClosed P fits) {calls : List TimerCall} {s s' : TimerState}
    (fit : ∀ add ∈ runAdds print s calls, fits add) (start : P s.list)
    (ran : timerRun print s calls = some s') : P s'.list := by
  induction calls generalizing s with
  | nil => cases ran; exact start
  | cons call calls ih =>
    obtain ⟨mid, stepped, rest⟩ := Option.bind_eq_some_iff.mp ran
    rw [runAdds, stepped] at fit
    have next := closed.step (fun add mem => fit add (List.mem_append_left _ mem)) start stepped
    exact ih (fun add mem => fit add (List.mem_append_right _ mem)) next rest

end Closed

/-! ## The limits -/

/-- What the list is meant to keep. -/
structure TimerListOk (list : List DeviceCommonTimer) : Prop where
  distinct : (timerIds list).Nodup
  few : list.length ≤ maxTimerNum
  short : ∀ t ∈ list, t.actionLen.toNat < maxActionLen

/-- Given its buffer, the save of `list` does not take the error exit. -/
def SaveAccepts (list : List DeviceCommonTimer) : Prop :=
  ∀ (heap : Heap) (m : ByteMem), ((heap 0).memoryAlloc maxTimerDeviceData).isSome →
    ((deviceSaveTimerIntoFlash heap list).run m).1 = 0

theorem distinct_closed : ListClosed (fun list => (timerIds list).Nodup) fun _ => True where
  empty := List.nodup_nil
  sublist part distinct := distinct.sublist (part.map _)
  add := by
    intro list node t _ fresh name _ distinct
    have last : timerIds (list ++ [t]) = timerIds list ++ [node.timerId] := by
      simp [timerIds, name]
    rw [last]
    refine List.nodup_append.mpr ⟨distinct, by simp, ?_⟩
    rintro id old _ new rfl
    exact fresh (List.mem_singleton.mp new ▸ old)

theorem TimerListOk.closed : ListClosed TimerListOk AddCall.Fits where
  empty := ⟨List.nodup_nil, Nat.zero_le _, by simp⟩
  sublist part ok := ⟨distinct_closed.sublist part ok.distinct,
    Nat.le_trans part.length_le ok.few, fun t mem => ok.short t (part.subset mem)⟩
  add := by
    intro list node t fit fresh name len ok
    obtain ⟨room, small⟩ := fit fresh
    dsimp only at room small
    refine ⟨distinct_closed.add trivial fresh name len ok.distinct, ?_, ?_⟩
    · rw [List.length_append, List.length_singleton]
      exact room
    · intro u mem
      rcases List.mem_append.mp mem with old | new
      · exact ok.short u old
      · rw [List.mem_singleton.mp new, len, UInt16.toNat_add, UInt16.toNat_one]
        exact Nat.lt_of_le_of_lt (Nat.mod_le _ _) small

theorem TimerListOk.length_encodeTimers_le {list : List DeviceCommonTimer}
    (short : ∀ t ∈ list, t.actionLen.toNat < maxActionLen) :
    (encodeTimers list).length ≤ list.length * (34 + maxActionLen) := by
  induction list with
  | nil => exact Nat.zero_le _
  | cons t rest ih =>
    have here := short t List.mem_cons_self
    have later := ih fun u mem => short u (List.mem_cons_of_mem _ mem)
    rw [encodeTimers_cons, List.length_append, length_encodeTimer, List.length_cons, Nat.add_mul]
    omega

/-- Within the limits the list can be saved. -/
theorem TimerListOk.saveable {list : List DeviceCommonTimer} (ok : TimerListOk list) :
    Saveable list := by
  refine ⟨ok.short, Nat.le_trans (length_encodeTimers_le ok.short) ?_⟩
  calc list.length * (34 + maxActionLen) ≤ maxTimerNum * (34 + maxActionLen) :=
        Nat.mul_le_mul_right _ ok.few
    _ ≤ maxTimerDeviceData := by decide

/-- The save takes its error exit for no saveable list. -/
theorem SaveAccepts.of_saveable {list : List DeviceCommonTimer} (saveable : Saveable list) :
    SaveAccepts list := by
  intro heap m alloc
  obtain ⟨block, found⟩ := Option.isSome_iff_exists.mp alloc
  have loop : saveTimerLoop list [] = some (encodeTimers list) :=
    saveTimerLoop_of_saveable saveable.1 saveable.2
  unfold deviceSaveTimerIntoFlash
  rw [found, loop]
  dsimp only
  split
  · rw [run_bind]
    rfl
  · rw [run_bind]
    rfl

/-- In every run from the empty list the names stay distinct, and as long as every entry is added
to fewer than `MAX_TIMER_NUM` others, with a text that is short enough with its terminator, the
list stays within its limits and the save accepts it. -/
theorem timerRun_listOk {print : Printer} {flash : ByteMem} {calls : List TimerCall}
    {s : TimerState} (ran : timerRun print ⟨[], flash⟩ calls = some s) :
    (timerIds s.list).Nodup ∧
      ((∀ call ∈ runAdds print ⟨[], flash⟩ calls, call.Fits) →
        s.list.length ≤ maxTimerNum ∧ (∀ t ∈ s.list, t.actionLen.toNat < maxActionLen) ∧
          SaveAccepts s.list) := by
  refine ⟨distinct_closed.run (fun _ _ => trivial) distinct_closed.empty ran, fun fit => ?_⟩
  have ok := TimerListOk.closed.run fit TimerListOk.closed.empty ran
  exact ⟨ok.few, ok.short, .of_saveable ok.saveable⟩

/-- A message on its own. -/
theorem timerRun_message {print : Printer} {heap : Heap} {root : CJson} {passed : Bool}
    {list : List DeviceCommonTimer} (flash : ByteMem)
    (handled : handleItems print heap root [] = some (passed, list)) :
    ∃ flash', timerRun print ⟨[], flash⟩ [.handleCloudTimer heap (some root)] =
      some ⟨list, flash'⟩ ∧
      runAdds print ⟨[], flash⟩ [.handleCloudTimer heap (some root)] =
        putItemsAdds print heap (putItems root) [] := by
  have stepped : timerStep print ⟨[], flash⟩ (.handleCloudTimer heap (some root)) =
      some ⟨list, ((deviceHandleCloudTimer print heap (some root) []).run flash).2⟩ := by
    rw [timerStep, TimerState.after, deviceHandleCloudTimer_result, handled]
    rfl
  refine ⟨((deviceHandleCloudTimer print heap (some root) []).run flash).2, ?_, ?_⟩
  · rw [timerRun, stepped]
    rfl
  · rw [runAdds, stepped]
    exact List.append_nil _

/-- A message with one timer, named `1`. -/
theorem timerRun_listOk_addOne : ∃ s, timerRun (fun _ => .lit ['1']) ⟨[], fun _ => 0xFF⟩
      [.handleCloudTimer (fun _ => Board.zeroed) (some addOneMessage)] = some s ∧
    s.list.length = 1 ∧ SaveAccepts s.list := by
  obtain ⟨t, handled⟩ : ∃ t, handleItems (fun _ => .lit ['1']) (fun _ => Board.zeroed)
      addOneMessage [] = some (true, [t]) := ⟨_, rfl⟩
  obtain ⟨flash, ran, adds⟩ := timerRun_message (fun _ => 0xFF) handled
  refine ⟨_, ran, rfl, ((timerRun_listOk ran).2 ?_).2.2⟩
  intro call mem
  rw [adds] at mem
  obtain rfl := List.mem_singleton.mp mem
  intro _
  decide

/-- `{"add":[{"id":"1","enable":"1","timer":{"week":"1","hour":"8","minute":"30",
"date":""},"cmd":"xx…x"}]}`, with 253 bytes in the command. -/
def longActionMessage : CJson :=
  .object [(.lit ['a', 'd', 'd'], .array [.object [
    (.lit ['i', 'd'], .string (.lit ['1'])),
    (.lit ['e', 'n', 'a', 'b', 'l', 'e'], .string (.lit ['1'])),
    (.lit ['t', 'i', 'm', 'e', 'r'], .object [
      (.lit ['w', 'e', 'e', 'k'], .string (.lit ['1'])),
      (.lit ['h', 'o', 'u', 'r'], .string (.lit ['8'])),
      (.lit ['m', 'i', 'n', 'u', 't', 'e'], .string (.lit ['3', '0'])),
      (.lit ['d', 'a', 't', 'e'], .string (.lit []))]),
    (.lit ['c', 'm', 'd'], .string (.lit (List.replicate 253 'x')))]])]

/-- `cJSON_PrintUnformatted` of a string without characters to escape. -/
def printString : Printer
  | .string s => .ofBytes (0x22 :: s.1 ++ [0x22])
  | _ => .lit []

/-- The printed command has 255 bytes, `action_len` is 256, and the list is never saved. -/
theorem timerRun_longAction_not_saved :
    ∃ s, timerRun printString ⟨[], fun _ => 0xFF⟩
        [.handleCloudTimer (fun _ => Board.zeroed) (some longActionMessage)] = some s ∧
      ¬ (∀ t ∈ s.list, t.actionLen.toNat < maxActionLen) ∧ ¬ SaveAccepts s.list := by
  have outcome : (handleItems printString (fun _ => Board.zeroed) longActionMessage []).map
      (fun result => result.2.map (·.actionLen)) = some [256] := by decide +kernel
  obtain ⟨⟨passed, list⟩, handled, lens⟩ := Option.map_eq_some_iff.mp outcome
  obtain ⟨t, rfl, len⟩ := List.map_eq_singleton_iff.mp lens
  obtain ⟨flash, ran, -⟩ := timerRun_message (fun _ => 0xFF) handled
  have long : ¬ t.actionLen.toNat < maxActionLen := by rw [len]; decide
  refine ⟨_, ran, fun short => long (short t (List.mem_singleton.mpr rfl)), fun accepts => ?_⟩
  have saved := accepts (fun _ => Board.zeroed) (fun _ => 0xFF) rfl
  have loop : saveTimerLoop [t] [] = none := by
    rw [saveTimerLoop, if_neg (by rw [len]; decide), if_neg long]
  unfold deviceSaveTimerIntoFlash at saved
  rw [loop] at saved
  cases saved

end Tr6260
