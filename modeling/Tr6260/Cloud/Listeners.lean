import Tr6260.OrderedMap
import Tr6260.Timer.Model

/-!
# The listeners of the two clouds

`ya_aws_cloud.c` and `ya_aliyun_cloud.c` each keep a list of listeners, with the
same three functions up to the allocator. The list should be a map from task and
event to handler, in the order of registration. Adding and triggering are; removing
is not: `if(list_node) return C_ERROR` stands where the node was found, so that no
listener is ever removed, and what comes behind it is only reached with the list
empty, where it follows the head pointer.
-/

namespace Tr6260

/-- `cloud_event_type_t`. -/
inductive CloudEventType
  | onoff
  | set
  | upgrade
  deriving DecidableEq

/-- Its values. -/
def CloudEventType.code : CloudEventType → UInt8
  | .onoff => 0
  | .set => 1
  | .upgrade => 2

section Model

variable {H : Type}

/-- A node of a listener list. -/
structure Listener (H : Type) where
  taskName : CString
  eventType : CloudEventType
  handler : H

/-- The pair a node is looked up by. -/
def Listener.key (node : Listener H) : CString × CloudEventType := (node.taskName, node.eventType)

/-- A node as an entry of a map. -/
def Listener.entry (node : Listener H) : (CString × CloudEventType) × H := (node.key, node.handler)

/-- The size of a node. -/
def sizeofListener : Nat := 16

/-- What a call comes to: its result, the handlers it calls with the data, and the list. -/
structure ListenerResult (H : Type) where
  ret : Int
  calls : List (H × List UInt8)
  list : List (Listener H)

/-- The search of the add functions. -/
def hasListener (taskName : CString) (eventType : CloudEventType) : List (Listener H) → Bool
  | [] => false
  | node :: rest =>
    if node.taskName = taskName ∧ node.eventType = eventType then
      true
    else
      hasListener taskName eventType rest

/-- The two add functions. The new node goes behind the last one, or becomes the first. -/
def addListener (heap : Heap) (taskName : Option CString) (eventType : CloudEventType) (handler : H)
    (list : List (Listener H)) : ListenerResult H :=
  match taskName with
  | none => ⟨-1, [], list⟩
  | some taskName =>
    if hasListener taskName eventType list then
      ⟨0, [], list⟩
    else
      match (heap 0).memoryAlloc sizeofListener, (heap 1).memoryAlloc (taskName.strlen + 1) with
      | some _, some _ => ⟨0, [], list ++ [⟨taskName, eventType, handler⟩]⟩
      | _, _ => ⟨-1, [], list⟩

/-- Where the loop of the remove functions stops. -/
inductive RemoveLoop
  /-- At a `NULL` pointer: the list is empty. -/
  | null
  /-- At the end of a list without the pair: `return C_ERROR`. -/
  | absent
  /-- At the node of the pair: `break`. -/
  | found
  deriving DecidableEq

/-- The loop of the remove functions. -/
def removeLoop (taskName : CString) (eventType : CloudEventType) :
    List (Listener H) → RemoveLoop
  | [] => .null
  | [node] =>
    if node.taskName = taskName ∧ node.eventType = eventType then
      .found
    else
      .absent
  | node :: next :: rest =>
    if node.taskName = taskName ∧ node.eventType = eventType then
      .found
    else
      removeLoop taskName eventType (next :: rest)

/-- The two remove functions; `none` where they follow the head pointer of an empty list. -/
def removeListener (taskName : Option CString) (eventType : CloudEventType)
    (list : List (Listener H)) : Option (ListenerResult H) :=
  match taskName with
  | none => some ⟨-1, [], list⟩
  | some taskName =>
    match removeLoop taskName eventType list with
    | .absent => some ⟨-1, [], list⟩
    -- `if(list_node) return C_ERROR`
    | .found => some ⟨-1, [], list⟩
    | .null => none

/-- The loop of the trigger functions. -/
def triggerLoop (eventType : UInt8) (data : List UInt8) :
    List (Listener H) → List (H × List UInt8)
  | [] => []
  | node :: rest =>
    if node.eventType.code = eventType then
      (node.handler, data) :: triggerLoop eventType data rest
    else
      triggerLoop eventType data rest

/-- The two trigger functions. -/
def triggerListeners (eventType : UInt8) (data : List UInt8) (list : List (Listener H)) :
    ListenerResult H :=
  ⟨0, triggerLoop eventType data list, list⟩

/-- `ya_add_aws_cloud_event_listener`. -/
def yaAddAwsCloudEventListener := @addListener

/-- `ya_remove_aws_cloud_event_listener`. -/
def yaRemoveAwsCloudEventListener := @removeListener

/-- `ya_trigger_aws_cloud_event_listener`. -/
def yaTriggerAwsCloudEventListener := @triggerListeners

/-- `ya_add_aly_cloud_event_listener`. -/
def yaAddAlyCloudEventListener := @addListener

/-- `ya_remove_aly_cloud_event_listener`. -/
def yaRemoveAlyCloudEventListener := @removeListener

/-- `ya_trigger_aly_cloud_event_listener`. -/
def yaTriggerAlyCloudEventListener := @triggerListeners

/-- The two clouds. -/
inductive CloudKind
  | aws
  | aly
  deriving DecidableEq

/-- A call to a registry. -/
inductive ListenerCall (H : Type)
  | add (heap : Heap) (taskName : Option CString) (eventType : CloudEventType) (handler : H)
  | remove (taskName : Option CString) (eventType : CloudEventType)
  | trigger (eventType : UInt8) (data : List UInt8)

/-- One call. -/
def CloudKind.step (list : List (Listener H)) :
    CloudKind → ListenerCall H → Option (ListenerResult H)
  | .aws, .add heap task event handler =>
    some (yaAddAwsCloudEventListener heap task event handler list)
  | .aws, .remove task event => yaRemoveAwsCloudEventListener task event list
  | .aws, .trigger event data => some (yaTriggerAwsCloudEventListener event data list)
  | .aly, .add heap task event handler =>
    some (yaAddAlyCloudEventListener heap task event handler list)
  | .aly, .remove task event => yaRemoveAlyCloudEventListener task event list
  | .aly, .trigger event data => some (yaTriggerAlyCloudEventListener event data list)

/-! ## Histories -/

/-- A change of the registrations. -/
abbrev ListenerOp (H : Type) := OrderedMap.Op (CString × CloudEventType) H

/-- What a call with a result asks for: a pair is added when the result says so. -/
def ListenerCall.ops (ret : Int) : ListenerCall H → List (ListenerOp H)
  | .add _ none _ _ => []
  | .add _ (some task) event handler => if ret = 0 then [.insert (task, event) handler] else []
  | .remove none _ => []
  | .remove (some task) event => [.erase (task, event)]
  | .trigger _ _ => []

/-- Histories in which every call meets a condition: the list, and the changes asked for. -/
inductive ListenerRun (kind : CloudKind) (meets : List (Listener H) → ListenerCall H → Prop) :
    List (Listener H) → List (ListenerOp H) → Prop
  | start : ListenerRun kind meets [] []
  | step {list : List (Listener H)} {ops : List (ListenerOp H)} {call : ListenerCall H}
      {result : ListenerResult H} (run : ListenerRun kind meets list ops) (met : meets list call)
      (called : kind.step list call = some result) :
      ListenerRun kind meets result.list (ops ++ call.ops result.ret)

/-- The registry does what the map of the changes says. -/
structure Registers (kind : CloudKind) (meets : List (Listener H) → ListenerCall H → Prop)
    (list : List (Listener H)) (ops : List (ListenerOp H)) : Prop where
  triggers : ∀ event data, kind.step list (.trigger event data) = some ⟨0,
    ((OrderedMap.replay ops).select fun key => key.2.code = event).map (·, data), list⟩
  addsOnce : ∀ heap task event handler, (task, event) ∈ (OrderedMap.replay ops).keys →
    kind.step list (.add heap (some task) event handler) = some ⟨0, [], list⟩
  adds : ∀ (heap : Heap) task event handler, heap.AllocOk →
    ∃ list', kind.step list (.add heap (some task) event handler) = some ⟨0, [], list'⟩
  removes : ∀ task event, meets list (.remove (some task) event) →
    (task, event) ∈ (OrderedMap.replay ops).keys →
    ∃ list', kind.step list (.remove (some task) event) = some ⟨0, [], list'⟩ ∧
      list'.map Listener.entry = ((OrderedMap.replay ops).erase (task, event)).entries
  removesNone : ∀ task event, meets list (.remove (some task) event) →
    (task, event) ∉ (OrderedMap.replay ops).keys →
    kind.step list (.remove (some task) event) = some ⟨-1, [], list⟩
  alike : ∀ call : ListenerCall H, CloudKind.aws.step list call = CloudKind.aly.step list call

/-- Only a pair that is not there is removed, and not from an empty list. -/
def RemovesAbsent (list : List (Listener H)) : ListenerCall H → Prop
  | .remove (some task) event => list ≠ [] ∧ (task, event) ∉ list.map Listener.key
  | _ => True

/-! ## The list as a map -/

variable {list : List (Listener H)} {ops : List (ListenerOp H)} {kind : CloudKind}

theorem Listener.key_eq {node : Listener H} {task : CString} {event : CloudEventType} :
    (task, event) = node.key ↔ node.taskName = task ∧ node.eventType = event := by
  rw [eq_comm, Listener.key, Prod.mk.injEq]

theorem hasListener_iff {task : CString} {event : CloudEventType} :
    hasListener task event list ↔ (task, event) ∈ list.map Listener.key := by
  induction list with
  | nil => exact ⟨nofun, nofun⟩
  | cons node rest ih =>
    rw [hasListener, List.map_cons, List.mem_cons, Listener.key_eq]
    split
    next here => exact ⟨fun _ => .inl here, fun _ => rfl⟩
    next apart =>
      rw [ih]
      exact ⟨.inr, fun there => there.resolve_left apart⟩

/-- Without the pair, a list that is not empty is searched to its end. -/
theorem removeLoop_absent {task : CString} {event : CloudEventType} (more : list ≠ [])
    (absent : (task, event) ∉ list.map Listener.key) : removeLoop task event list = .absent := by
  induction list with
  | nil => exact absurd rfl more
  | cons node rest ih =>
    rw [List.map_cons, List.mem_cons, not_or, Listener.key_eq] at absent
    cases rest with
    | nil => rw [removeLoop, if_neg absent.1]
    | cons next rest =>
      rw [removeLoop, if_neg absent.1]
      exact ih nofun absent.2

theorem triggerLoop_eq (event : UInt8) (data : List UInt8) (list : List (Listener H)) :
    triggerLoop event data list =
      (((list.map Listener.entry).filter fun entry => entry.1.2.code = event).map Prod.snd).map
        (·, data) := by
  induction list with
  | nil => rfl
  | cons node rest ih =>
    rw [triggerLoop, List.map_cons, List.filter_cons, ih]
    have same : node.entry.1.2.code = node.eventType.code := rfl
    rw [same]
    by_cases hit : node.eventType.code = event
    · rw [if_pos hit, if_pos (decide_eq_true hit)]
      rfl
    · rw [if_neg hit, if_neg (by rwa [decide_eq_true_eq])]

/-- The two copies. -/
theorem CloudKind.step_alike (kind : CloudKind) (list : List (Listener H)) (call : ListenerCall H) :
    kind.step list call = CloudKind.aws.step list call := by
  cases kind <;> cases call <;> rfl

theorem keys_of_entries (same : list.map Listener.entry = (OrderedMap.replay ops).entries) :
    (OrderedMap.replay ops).keys = list.map Listener.key := by
  rw [OrderedMap.keys, ← same, List.map_map]
  rfl

theorem addListener_of_mem {task : CString} {event : CloudEventType} (heap : Heap) (handler : H)
    (there : (task, event) ∈ list.map Listener.key) :
    addListener heap (some task) event handler list = ⟨0, [], list⟩ := by
  rw [addListener, if_pos (hasListener_iff.mpr there)]

/-- A pair that is not there is put last, when there is memory. -/
theorem addListener_of_notMem {task : CString} {event : CloudEventType} (heap : Heap) (handler : H)
    (fresh : (task, event) ∉ list.map Listener.key) :
    addListener heap (some task) event handler list = ⟨0, [], list ++ [⟨task, event, handler⟩]⟩ ∨
      ¬ heap.AllocOk ∧ addListener heap (some task) event handler list = ⟨-1, [], list⟩ := by
  rw [addListener, if_neg (fun has => fresh (hasListener_iff.mp has))]
  cases node : (heap 0).memoryAlloc sizeofListener with
  | none =>
    refine .inr ⟨fun alloc => ?_, rfl⟩
    have found := alloc 0 sizeofListener
    rw [node] at found
    cases found
  | some _ =>
    cases name : (heap 1).memoryAlloc (task.strlen + 1) with
    | none =>
      refine .inr ⟨fun alloc => ?_, rfl⟩
      have found := alloc 1 (task.strlen + 1)
      rw [name] at found
      cases found
    | some _ => exact .inl rfl

/-- Where only absent pairs are removed, nothing is. -/
theorem removeListener_absent {task : Option CString} {event : CloudEventType}
    (met : RemovesAbsent list (.remove task event)) :
    removeListener task event list = some ⟨-1, [], list⟩ := by
  cases task with
  | none => rfl
  | some task => rw [removeListener, removeLoop_absent met.1 met.2]

/-- One call keeps the list and the map of the changes together. -/
theorem ListenerCall.keeps {call : ListenerCall H} {result : ListenerResult H}
    (same : list.map Listener.entry = (OrderedMap.replay ops).entries)
    (met : RemovesAbsent list call) (called : kind.step list call = some result) :
    result.list.map Listener.entry =
      (OrderedMap.replay (ops ++ call.ops result.ret)).entries := by
  rw [kind.step_alike] at called
  have keys := keys_of_entries same
  cases call with
  | add heap task event handler =>
    replace called := Option.some.inj called
    rw [yaAddAwsCloudEventListener] at called
    cases task with
    | none =>
      subst called
      rw [ListenerCall.ops, List.append_nil]
      exact same
    | some task =>
      by_cases there : (task, event) ∈ list.map Listener.key
      · rw [addListener_of_mem heap handler there] at called
        subst called
        rw [ListenerCall.ops, if_pos rfl, OrderedMap.replay_append, OrderedMap.apply,
          OrderedMap.insertNew_of_mem (keys.symm ▸ there)]
        exact same
      · rcases addListener_of_notMem heap handler there with added | ⟨-, failed⟩
        · rw [added] at called
          subst called
          rw [ListenerCall.ops, if_pos rfl, OrderedMap.replay_append, OrderedMap.apply,
            OrderedMap.entries_insertNew (keys.symm ▸ there), ← same, List.map_append]
          rfl
        · rw [failed] at called
          subst called
          rw [ListenerCall.ops, if_neg (show (-1 : Int) ≠ 0 by decide), List.append_nil]
          exact same
  | remove task event =>
    have removed : removeListener task event list = some result := called
    rw [removeListener_absent met] at removed
    rcases Option.some.inj removed with rfl
    cases task with
    | none =>
      rw [ListenerCall.ops, List.append_nil]
      exact same
    | some task =>
      rw [ListenerCall.ops, OrderedMap.replay_append, OrderedMap.apply,
        OrderedMap.entries_erase_of_notMem (keys.symm ▸ met.2)]
      exact same
  | trigger event data =>
    rcases Option.some.inj called with rfl
    rw [ListenerCall.ops, List.append_nil]
    exact same

theorem ListenerRun.entries (run : ListenerRun kind RemovesAbsent list ops) :
    list.map Listener.entry = (OrderedMap.replay ops).entries := by
  induction run with
  | start => rfl
  | step run met called same => exact ListenerCall.keeps same met called

/-- A pair is in the list exactly when it was added and not removed since. -/
theorem ListenerRun.mem_iff (run : ListenerRun kind RemovesAbsent list ops)
    {key : CString × CloudEventType} :
    key ∈ list.map Listener.key ↔ OrderedMap.Standing ops key := by
  rw [← keys_of_entries run.entries, OrderedMap.mem_replay]

/-- While only absent pairs are removed, both registries are the map of the changes. -/
theorem listeners_registered (run : ListenerRun kind RemovesAbsent list ops) :
    Registers kind RemovesAbsent list ops := by
  have same := run.entries
  have keys := keys_of_entries same
  refine ⟨fun event data => ?_, fun heap task event handler there => ?_,
    fun heap task event handler alloc => ?_, fun task event met there => ?_,
    fun task event met _ => ?_, fun call => ?_⟩
  · rw [kind.step_alike, OrderedMap.select, ← same]
    exact congrArg some (congrArg (ListenerResult.mk 0 · list) (triggerLoop_eq event data list))
  · rw [kind.step_alike]
    exact congrArg some (addListener_of_mem heap handler (keys ▸ there))
  · rw [kind.step_alike]
    by_cases there : (task, event) ∈ list.map Listener.key
    · exact ⟨list, congrArg some (addListener_of_mem heap handler there)⟩
    · rcases addListener_of_notMem heap handler there with added | ⟨short, -⟩
      · exact ⟨_, congrArg some added⟩
      · exact absurd alloc short
  · exact absurd (keys ▸ there) met.2
  · rw [kind.step_alike]
    exact removeListener_absent met
  · exact (CloudKind.aly.step_alike list call).symm

end Model

/-- The first listener of a task with the name `o`. -/
theorem firstListener_step {H : Type} (handler : H) :
    CloudKind.aws.step [] (.add (fun _ => .zeroed) (some (.lit ['o'])) .set handler) =
      some ⟨0, [], [⟨.lit ['o'], .set, handler⟩]⟩ :=
  rfl

/-- Two tasks, the first of which asks twice, and an event. -/
theorem listeners_registered_two :
    let both : List (Listener Nat) := [⟨.lit ['o'], .set, 1⟩, ⟨.lit ['p'], .set, 2⟩]
    ∃ ops, ListenerRun .aws RemovesAbsent both ops ∧ Registers .aws RemovesAbsent both ops := by
  intro both
  have second : CloudKind.aws.step [⟨.lit ['o'], .set, 1⟩]
      (.add (fun _ => .zeroed) (some (.lit ['p'])) .set 2) = some ⟨0, [], both⟩ := rfl
  have again : CloudKind.aws.step both
      (.add (fun _ => .zeroed) (some (.lit ['o'])) .set 3) = some ⟨0, [], both⟩ := rfl
  have event : CloudKind.aws.step both (.trigger 1 [7]) =
      some ⟨0, [(1, [7]), (2, [7])], both⟩ := rfl
  have run : ListenerRun .aws RemovesAbsent both _ :=
    .step (.step (.step (.step .start (by trivial) (firstListener_step 1)) (by trivial) second)
      (by trivial) again) (by trivial) event
  exact ⟨_, run, listeners_registered run⟩

/-- A listener that was added cannot be removed. -/
theorem listeners_not_removed : ¬ ∀ (kind : CloudKind) (list : List (Listener Unit))
    (ops : List (ListenerOp Unit)), ListenerRun kind (fun _ _ => True) list ops →
      Registers kind (fun _ _ => True) list ops := by
  intro registers
  have run : ListenerRun .aws (fun _ _ => True) _ _ := .step .start trivial (firstListener_step ())
  rcases (registers _ _ _ run).removes (.lit ['o']) .set trivial (by decide) with
    ⟨list', removed, -⟩
  have result : some (-1 : Int) = some 0 := congrArg (Option.map ListenerResult.ret) removed
  cases result

end Tr6260
