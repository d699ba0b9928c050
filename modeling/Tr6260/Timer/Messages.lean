import Tr6260.Timer.Persist

/-!
# Timer messages

A message is a batch: the items of `add` and `update` each replace the entry of
their name by a new one at the end of the list, the items of `delete` remove
entries, `deleteAll` removes the rest, and the list is saved at the end. The
batch stops at the first item it refuses, and nothing undoes the items before
it, nor the removal that begins every `add` and `update` item.

`asked` reads a message as such a batch, without a list to work on; `settled` is
the list a batch describes. `handleItems_eq` says that the code computes exactly
that. Atomicity and durability are then questions about the batch.
-/

namespace Tr6260

open FlashProg ByteMem

/-! ## Lists of timers -/

/-- The names in a list. -/
def timerIds (list : List DeviceCommonTimer) : List TimerId := list.map (·.timerId)

/-- A timer list: no name occurs twice. -/
abbrev TimerList := { list : List DeviceCommonTimer // (timerIds list).Nodup }

/-- The entries whose name is not among `ids`. -/
def without (list : List DeviceCommonTimer) (ids : List TimerId) : List DeviceCommonTimer :=
  list.filter fun t => t.timerId ∉ ids

/-- The last entry of each name, in order. -/
def lastOf : List DeviceCommonTimer → List DeviceCommonTimer
  | [] => []
  | t :: rest => if t.timerId ∈ timerIds rest then lastOf rest else t :: lastOf rest

/-- The list after the entries `put` went in, each replacing the one of its name, and
the names `removed` went out. -/
def settled (list put : List DeviceCommonTimer) (removed : List TimerId) :
    List DeviceCommonTimer :=
  without (without list (timerIds put) ++ lastOf put) removed

theorem mem_without {list : List DeviceCommonTimer} {ids : List TimerId} {t : DeviceCommonTimer} :
    t ∈ without list ids ↔ t ∈ list ∧ t.timerId ∉ ids := by
  simp [without]

theorem without_nil (list : List DeviceCommonTimer) : without list [] = list := by
  simp [without]

theorem without_append (list more : List DeviceCommonTimer) (ids : List TimerId) :
    without (list ++ more) ids = without list ids ++ without more ids :=
  List.filter_append _ _

theorem without_without (list : List DeviceCommonTimer) (ids ids' : List TimerId) :
    without (without list ids) ids' = without list (ids ++ ids') := by
  simp only [without, List.filter_filter, List.mem_append, not_or]
  congr 1
  funext t
  simp [Bool.and_comm]

theorem without_eq_self {list : List DeviceCommonTimer} {ids : List TimerId}
    (clear : ∀ t ∈ list, t.timerId ∉ ids) : without list ids = list :=
  List.filter_eq_self.mpr fun t mem => decide_eq_true (clear t mem)

theorem without_eq_nil {list : List DeviceCommonTimer} {ids : List TimerId}
    (all : ∀ t ∈ list, t.timerId ∈ ids) : without list ids = [] :=
  List.filter_eq_nil_iff.mpr fun t mem => by simpa using all t mem

theorem timerIds_without_nodup {list : List DeviceCommonTimer} (distinct : (timerIds list).Nodup)
    (ids : List TimerId) : (timerIds (without list ids)).Nodup :=
  distinct.sublist (List.filter_sublist.map _)

theorem mem_timerIds_lastOf {put : List DeviceCommonTimer} {id : TimerId} :
    id ∈ timerIds (lastOf put) ↔ id ∈ timerIds put := by
  induction put with
  | nil => rfl
  | cons t rest ih =>
    rw [lastOf]
    split
    next again =>
      rw [ih]
      refine ⟨List.mem_cons_of_mem _, fun mem => ?_⟩
      rcases List.mem_cons.mp mem with rfl | later
      · exact again
      · exact later
    next => simp only [timerIds, List.map_cons, List.mem_cons] at ih ⊢; rw [ih]

theorem timerIds_lastOf_nodup (put : List DeviceCommonTimer) :
    (timerIds (lastOf put)).Nodup := by
  induction put with
  | nil => exact List.nodup_nil
  | cons t rest ih =>
    rw [lastOf]
    split
    next => exact ih
    next fresh =>
      exact List.nodup_cons.mpr ⟨fun mem => fresh (mem_timerIds_lastOf.mp mem), ih⟩

/-- One more entry at the end. -/
theorem lastOf_append (put : List DeviceCommonTimer) (t : DeviceCommonTimer) :
    lastOf (put ++ [t]) = without (lastOf put) [t.timerId] ++ [t] := by
  induction put with
  | nil => rfl
  | cons u rest ih =>
    have ids : timerIds (rest ++ [t]) = timerIds rest ++ [t.timerId] := List.map_append
    rw [List.cons_append, lastOf, lastOf, ih, ids]
    by_cases again : u.timerId ∈ timerIds rest
    · rw [if_pos again, if_pos (List.mem_append_left _ again)]
    · by_cases same : u.timerId = t.timerId
      · rw [if_neg again, if_pos (by simp [same])]
        simp [without, same]
      · rw [if_neg again, if_neg (by simp [again, same])]
        simp [without, same]

theorem settled_nil (list : List DeviceCommonTimer) : settled list [] [] = list := by
  rw [settled, without_nil, lastOf, List.append_nil]
  exact without_nil list

theorem settled_remove (list put : List DeviceCommonTimer) (removed : List TimerId)
    (id : TimerId) : without (settled list put removed) [id] = settled list put (removed ++ [id]) :=
  without_without _ _ _

theorem settled_put (list put : List DeviceCommonTimer) (t : DeviceCommonTimer) :
    settled list put [t.timerId] ++ [t] = settled list (put ++ [t]) [] := by
  have ids : timerIds (put ++ [t]) = timerIds put ++ [t.timerId] := List.map_append
  rw [settled, settled, without_nil, lastOf_append, ids, ← without_without, without_append,
    List.append_assoc]

theorem settled_nodup {list : List DeviceCommonTimer} (distinct : (timerIds list).Nodup)
    (put : List DeviceCommonTimer) (removed : List TimerId) :
    (timerIds (settled list put removed)).Nodup := by
  refine timerIds_without_nodup ?_ removed
  have ids : timerIds (without list (timerIds put) ++ lastOf put) =
      timerIds (without list (timerIds put)) ++ timerIds (lastOf put) := List.map_append
  rw [ids]
  refine List.nodup_append.mpr ⟨timerIds_without_nodup distinct _, timerIds_lastOf_nodup put, ?_⟩
  rintro id left _ right rfl
  obtain ⟨t, mem, rfl⟩ := List.mem_map.mp left
  exact (mem_without.mp mem).2 (mem_timerIds_lastOf.mp right)

/-- A batch leaves a list alone exactly when it removes no name of it and the entries it
puts (and does not remove again) already stand at its end in that order. -/
theorem settled_eq_self_iff {list : List DeviceCommonTimer} (distinct : (timerIds list).Nodup)
    (put : List DeviceCommonTimer) (removed : List TimerId) :
    settled list put removed = list ↔
      (∀ id ∈ removed, id ∉ timerIds list) ∧ without (lastOf put) removed <:+ list := by
  constructor
  · intro same
    refine ⟨fun id mem here => ?_, ?_⟩
    · rw [← same] at here
      obtain ⟨t, kept, rfl⟩ := List.mem_map.mp here
      exact (mem_without.mp kept).2 mem
    · refine ⟨without (without list (timerIds put)) removed, ?_⟩
      rw [← without_append]
      exact same
  · rintro ⟨clear, front, split⟩
    have ids : timerIds list = timerIds front ++ timerIds (without (lastOf put) removed) := by
      rw [← split]
      exact List.map_append
    have absent : ∀ t ∈ list, t.timerId ∉ removed := fun t mem gone =>
      clear _ gone (List.mem_map_of_mem mem)
    have apart : ∀ t ∈ front, t.timerId ∉ timerIds put := by
      intro t mem again
      have inList : t ∈ list := split ▸ List.mem_append_left _ mem
      obtain ⟨u, last, same⟩ := List.mem_map.mp (mem_timerIds_lastOf.mpr again)
      have kept : u ∈ without (lastOf put) removed :=
        mem_without.mpr ⟨last, same ▸ absent t inList⟩
      rw [ids] at distinct
      exact (List.nodup_append.mp distinct).2.2 _ (List.mem_map_of_mem mem) _
        (List.mem_map_of_mem kept) same.symm
    have tail : without (without (lastOf put) removed) (timerIds put) = [] :=
      without_eq_nil fun t mem => mem_timerIds_lastOf.mp
        (List.mem_map_of_mem (mem_without.mp mem).1)
    have frontList : without list (timerIds put) = front := by
      rw [← split, without_append, tail, without_eq_self apart, List.append_nil]
    rw [settled, frontList, without_append, without_eq_self, split]
    exact fun t mem => absent t (split ▸ List.mem_append_left _ mem)

/-! ## Messages as batches -/

/-- The fields of these names, where present, are strings. -/
def TextFields (object : CJson) (names : List (List UInt8)) : Prop :=
  ∀ name ∈ names, ∀ value ∈ object.getObjectItem name, value.valuestring.isSome

instance (object : CJson) (names : List (List UInt8)) : Decidable (TextFields object names) :=
  inferInstanceAs (Decidable (∀ name ∈ names, ∀ value ∈ object.getObjectItem name, _))

/-- An item of `add` or `update` with strings where the code takes text. -/
def PutItemText (item : CJson) : Prop :=
  TextFields item [CString.ascii ['i', 'd'], CString.ascii ['e', 'n', 'a', 'b', 'l', 'e']] ∧
    ∀ timer ∈ item.getObjectItem (CString.ascii ['t', 'i', 'm', 'e', 'r']),
      TextFields timer [CString.ascii ['w', 'e', 'e', 'k'], CString.ascii ['h', 'o', 'u', 'r'],
        CString.ascii ['m', 'i', 'n', 'u', 't', 'e'], CString.ascii ['s', 'e', 'c', 'o', 'n', 'd'],
        CString.ascii ['d', 'a', 't', 'e']]

instance (item : CJson) : Decidable (PutItemText item) :=
  inferInstanceAs (Decidable (_ ∧ ∀ timer ∈ item.getObjectItem _, _))

/-- A message with strings where the code takes text. -/
def MessageText (root : CJson) : Prop :=
  (∀ item ∈ putItems root, PutItemText item) ∧
    ∀ item ∈ deleteItems root, TextFields item [CString.ascii ['i', 'd']]

instance (root : CJson) : Decidable (MessageText root) :=
  inferInstanceAs (Decidable ((∀ item ∈ putItems root, _) ∧ ∀ item ∈ deleteItems root, _))

/-- The entry a message item asks for: the block is exactly the text and its end. -/
def TimerNode.fresh (node : TimerNode) : DeviceCommonTimer where
  toTimerSetting := node.toTimerSetting
  triggered := 0
  actionLen := UInt16.ofNat (node.action.strlen + 1)
  action := node.action.1 ++ [0]
  holds := by
    rw [UInt16.toNat_ofNat', List.length_append]
    exact Nat.mod_le _ _
  terminated := by simp

/-- An item of `add` or `update` by itself. -/
inductive PutVerdict
  | noId
  | refused (id : TimerId)
  | entry (node : TimerNode)

def putVerdict (print : Printer) (item : CJson) : PutVerdict :=
  match itemTimerId item with
  | .ok id =>
    match itemNode print item id with
    | .ok node => .entry node
    | _ => .refused id
  | _ => .noId

/-- A batch, up to the item it was refused at. -/
structure Asked where
  put : List DeviceCommonTimer
  removed : List TimerId
  refused : Bool

/-- There is room in the list and memory for one more entry. -/
def Admits (heap : Heap) (list : List DeviceCommonTimer) (node : TimerNode) : Prop :=
  list.length % 256 ≤ maxTimerNum ∧ ((heap 0).memoryAlloc sizeofTimer).isSome ∧
    ((heap 1).memoryAlloc (node.actionLen.toNat + 1)).isSome

instance (heap : Heap) (list : List DeviceCommonTimer) (node : TimerNode) :
    Decidable (Admits heap list node) := inferInstanceAs (Decidable (_ ∧ _ ∧ _))

/-- The `add` and `update` part of a batch, after the entries `put`. -/
def askedPuts (print : Printer) (list : List DeviceCommonTimer) :
    Heap → List DeviceCommonTimer → List CJson → Asked
  | _, put, [] => ⟨put, [], false⟩
  | heap, put, item :: items =>
    match putVerdict print item with
    | .noId => ⟨put, [], true⟩
    | .refused id => ⟨put, [id], true⟩
    | .entry node =>
      if Admits heap (settled list put [node.timerId]) node then
        askedPuts print list (heap.skip 2) (put ++ [node.fresh]) items
      else
        ⟨put, [node.timerId], true⟩

/-- The `delete` part of a batch. -/
def askedDeletes (put : List DeviceCommonTimer) : List TimerId → List CJson → Asked
  | removed, [] => ⟨put, removed, false⟩
  | removed, item :: items =>
    match itemTimerId item with
    | .ok id => askedDeletes put (removed ++ [id]) items
    | _ => ⟨put, removed, true⟩

/-- What a message asks of a list, up to the first item that is refused. -/
def asked (print : Printer) (heap : Heap) (root : CJson) (list : List DeviceCommonTimer) : Asked :=
  let puts := askedPuts print list heap [] (putItems root)
  if puts.refused then puts else askedDeletes puts.put [] (deleteItems root)

/-! ## The code handles a message as its batch -/

namespace Parsed

variable {α β : Type}

theorem bind_eq_ok {x : Parsed α} {f : α → Parsed β} {b : β} :
    (x >>= f) = .ok b ↔ ∃ a, x = .ok a ∧ f a = .ok b := by
  cases x with
  | fault => exact ⟨nofun, nofun⟩
  | err => exact ⟨nofun, nofun⟩
  | ok a => exact ⟨fun done => ⟨a, rfl, done⟩, fun ⟨_, same, done⟩ => by cases same; exact done⟩

theorem bind_ne_fault {x : Parsed α} {f : α → Parsed β} (first : x ≠ .fault)
    (second : ∀ a, x = .ok a → f a ≠ .fault) : (x >>= f) ≠ .fault := by
  cases x with
  | fault => exact absurd rfl first
  | err => nofun
  | ok a => exact second a rfl

end Parsed

theorem requireItem_ne_fault (object : CJson) (name : List UInt8) :
    requireItem object name ≠ .fault := by
  unfold requireItem
  split <;> nofun

theorem requireItem_eq_ok {object value : CJson} {name : List UInt8}
    (found : requireItem object name = .ok value) : object.getObjectItem name = some value := by
  unfold requireItem at found
  split at found
  · cases found
  · cases found
    assumption

theorem textOf_ne_fault {value : CJson} (text : value.valuestring.isSome) :
    textOf value ≠ .fault := by
  unfold textOf
  split
  next missing => rw [missing] at text; cases text
  next => nofun

theorem requireText_ne_fault {object : CJson} {names : List (List UInt8)} {name : List UInt8}
    (texts : TextFields object names) (mem : name ∈ names) : requireText object name ≠ .fault := by
  refine Parsed.bind_ne_fault (requireItem_ne_fault _ _) fun value found => ?_
  exact textOf_ne_fault (texts name mem value (requireItem_eq_ok found))

theorem itemTimerId_ne_fault {item : CJson} {names : List (List UInt8)}
    (texts : TextFields item names) (mem : CString.ascii ['i', 'd'] ∈ names) :
    itemTimerId item ≠ .fault := by
  refine Parsed.bind_ne_fault (requireText_ne_fault texts mem) fun s _ => ?_
  split <;> nofun

theorem requireNonempty_ne_fault {object : CJson} {names : List (List UInt8)} {name : List UInt8}
    (texts : TextFields object names) (mem : name ∈ names) :
    requireNonempty object name ≠ .fault := by
  refine Parsed.bind_ne_fault (requireText_ne_fault texts mem) fun s _ => ?_
  split <;> nofun

theorem itemSecond_ne_fault {timer : CJson} {names : List (List UInt8)}
    (texts : TextFields timer names)
    (mem : CString.ascii ['s', 'e', 'c', 'o', 'n', 'd'] ∈ names) :
    itemSecond timer ≠ .fault := by
  unfold itemSecond
  split
  next => nofun
  next value found =>
    exact Parsed.bind_ne_fault (textOf_ne_fault (texts _ mem value found)) fun s _ => nofun

theorem itemDate_ne_fault {timer : CJson} {names : List (List UInt8)}
    (texts : TextFields timer names) (mem : CString.ascii ['d', 'a', 't', 'e'] ∈ names) :
    itemDate timer ≠ .fault := by
  refine Parsed.bind_ne_fault (requireText_ne_fault texts mem) fun date _ => ?_
  split
  · split <;> nofun
  · nofun

theorem itemNode_ne_fault (print : Printer) {item : CJson} (texts : PutItemText item)
    (id : TimerId) : itemNode print item id ≠ .fault := by
  obtain ⟨outer, inner⟩ := texts
  unfold itemNode
  refine Parsed.bind_ne_fault (requireText_ne_fault outer (by simp)) fun enable _ => ?_
  refine Parsed.bind_ne_fault (requireItem_ne_fault _ _) fun timer found => ?_
  have inner := inner timer (requireItem_eq_ok found)
  refine Parsed.bind_ne_fault (requireText_ne_fault inner (by simp)) fun week _ => ?_
  refine Parsed.bind_ne_fault (requireNonempty_ne_fault inner (by simp)) fun hour _ => ?_
  refine Parsed.bind_ne_fault (requireNonempty_ne_fault inner (by simp)) fun minute _ => ?_
  refine Parsed.bind_ne_fault (itemSecond_ne_fault inner (by simp)) fun second _ => ?_
  refine Parsed.bind_ne_fault (itemDate_ne_fault inner (by simp)) fun date _ => ?_
  refine Parsed.bind_ne_fault (requireItem_ne_fault _ _) fun cmd _ => ?_
  split <;> nofun

/-- The node read from an item has the item's name and the length of its text. -/
theorem itemNode_eq_ok {print : Printer} {item : CJson} {id : TimerId} {node : TimerNode}
    (done : itemNode print item id = .ok node) :
    node.timerId = id ∧ node.action.strlen < maxActionLen ∧
      node.actionLen = UInt16.ofNat node.action.strlen := by
  unfold itemNode at done
  obtain ⟨enable, -, done⟩ := Parsed.bind_eq_ok.mp done
  obtain ⟨timer, -, done⟩ := Parsed.bind_eq_ok.mp done
  obtain ⟨week, -, done⟩ := Parsed.bind_eq_ok.mp done
  obtain ⟨hour, -, done⟩ := Parsed.bind_eq_ok.mp done
  obtain ⟨minute, -, done⟩ := Parsed.bind_eq_ok.mp done
  obtain ⟨second, -, done⟩ := Parsed.bind_eq_ok.mp done
  obtain ⟨date, -, done⟩ := Parsed.bind_eq_ok.mp done
  obtain ⟨cmd, -, done⟩ := Parsed.bind_eq_ok.mp done
  split at done
  next => cases done
  next short =>
    cases done
    exact ⟨rfl, Nat.lt_of_not_le short, rfl⟩

theorem eraseP_eq_without {list : List DeviceCommonTimer} (distinct : (timerIds list).Nodup)
    (id : TimerId) : (list.eraseP fun cur => cur.timerId = id) = without list [id] := by
  induction list with
  | nil => rfl
  | cons t rest ih =>
    obtain ⟨fresh, distinct⟩ := List.nodup_cons.mp distinct
    by_cases same : t.timerId = id
    · have others : without rest [id] = rest := without_eq_self fun u mem gone => by
        rw [List.mem_singleton, ← same] at gone
        exact fresh (List.mem_map.mpr ⟨u, mem, gone⟩)
      rw [List.eraseP_cons_of_pos (by simpa using same)]
      nth_rewrite 1 [← others]
      simp [without, same]
    · rw [List.eraseP_cons_of_neg (by simpa using same), ih distinct]
      simp [without, same]

/-- Deleting a name from a list without repeated names. -/
theorem deviceDeleteListTimer_eq {list : List DeviceCommonTimer}
    (distinct : (timerIds list).Nodup) (id : TimerId) :
    (deviceDeleteListTimer list id).2 = without list [id] := by
  unfold deviceDeleteListTimer
  split
  next => exact eraseP_eq_without distinct id
  next absent =>
    refine (without_eq_self fun t mem gone => ?_).symm
    rw [List.mem_singleton] at gone
    exact absent (List.any_eq_true.mpr ⟨t, mem, decide_eq_true gone⟩)

/-- Adding a node of a message whose name is not in the list. -/
theorem deviceAddListTimer_eq {heap : Heap} {list : List DeviceCommonTimer} {node : TimerNode}
    (absent : ∀ t ∈ list, t.timerId ≠ node.timerId)
    (short : node.action.strlen < maxActionLen)
    (len : node.actionLen = UInt16.ofNat node.action.strlen) :
    deviceAddListTimer heap list node =
      if Admits heap list node then some (0, list ++ [node.fresh]) else some (-1, list) := by
  have lenNat : node.actionLen.toNat = node.action.strlen := by
    unfold maxActionLen at short
    rw [len, UInt16.toNat_ofNat']
    omega
  unfold deviceAddListTimer
  rw [if_neg (by simpa using absent)]
  by_cases full : list.length % 256 > maxTimerNum
  · rw [if_pos full, if_neg (fun both => absurd both.1 (by omega))]
  rw [if_neg full]
  split
  next missing => rw [if_neg (by simp [Admits, missing])]
  next node' found =>
  split
  next missing => rw [if_neg (by simp [Admits, missing])]
  next block found' =>
  have size := (heap 1).memoryAlloc_length _ _ found'
  have copied : CString.strcpy (memsetAction block) node.action =
      some (node.action.1 ++ [0]) := by
    rw [CString.strcpy, if_pos (by rw [length_memsetAction]; omega), List.drop_eq_nil_of_le
      (by rw [length_memsetAction]; omega)]
  rw [if_pos ⟨by omega, by simp [found], by simp [found']⟩]
  split
  next missing => rw [copied] at missing; cases missing
  next action done =>
    rw [copied] at done
    cases done
    have length : node.actionLen + 1 = UInt16.ofNat (node.action.strlen + 1) := by
      rw [len, UInt16.ofNat_add]
      rfl
    simp only [TimerNode.stored, TimerNode.fresh, length]

/-! ### Items -/

/-- One `add` or `update` item. -/
theorem handlePutItem_eq {print : Printer} {heap : Heap} {item : CJson}
    {list put : List DeviceCommonTimer} (distinct : (timerIds list).Nodup)
    (texts : PutItemText item) :
    handlePutItem print heap item (settled list put []) =
      match putVerdict print item with
      | .noId => some (false, settled list put [])
      | .refused id => some (false, settled list put [id])
      | .entry node =>
        if Admits heap (settled list put [node.timerId]) node then
          some (true, settled list (put ++ [node.fresh]) [])
        else some (false, settled list put [node.timerId]) := by
  have noFault := itemTimerId_ne_fault texts.1 (by simp)
  unfold handlePutItem putVerdict
  cases hid : itemTimerId item with
  | fault => exact absurd hid noFault
  | err => rfl
  | ok id =>
    have noFault' := itemNode_ne_fault print texts id
    have deleted : (deviceDeleteListTimer (settled list put []) id).2 = settled list put [id] := by
      rw [deviceDeleteListTimer_eq (settled_nodup distinct put []), settled_remove, List.nil_append]
    dsimp only
    rw [deleted]
    cases hnode : itemNode print item id with
    | fault => exact absurd hnode noFault'
    | err => rfl
    | ok node =>
      obtain ⟨rfl, short, len⟩ := itemNode_eq_ok hnode
      have absent : ∀ t ∈ settled list put [node.timerId], t.timerId ≠ node.timerId :=
        fun t mem same => (mem_without.mp mem).2 (by simp [same])
      dsimp only
      rw [deviceAddListTimer_eq absent short len]
      by_cases admits : Admits heap (settled list put [node.timerId]) node
      · rw [if_pos admits, if_pos admits]
        simp only [decide_true]
        rw [← settled_put]
        rfl
      · rw [if_neg admits, if_neg admits]
        rfl

/-- The `add` and `update` items. -/
theorem handlePutItems_eq (print : Printer) {list : List DeviceCommonTimer}
    (distinct : (timerIds list).Nodup) (items : List CJson)
    (texts : ∀ item ∈ items, PutItemText item) (heap : Heap) (put : List DeviceCommonTimer) :
    handlePutItems print heap items (settled list put []) =
      some (!(askedPuts print list heap put items).refused,
        settled list (askedPuts print list heap put items).put
          (askedPuts print list heap put items).removed) := by
  induction items generalizing heap put with
  | nil => rfl
  | cons item items ih =>
    rw [handlePutItems, handlePutItem_eq distinct (texts item List.mem_cons_self), askedPuts]
    cases putVerdict print item with
    | noId => rfl
    | refused id => rfl
    | entry node =>
      dsimp only
      by_cases admits : Admits heap (settled list put [node.timerId]) node
      · rw [if_pos admits, if_pos admits]
        exact ih (fun item mem => texts item (List.mem_cons_of_mem _ mem)) _ _
      · rw [if_neg admits, if_neg admits]
        rfl

/-- The `delete` items. -/
theorem handleDeleteItems_eq {list : List DeviceCommonTimer} (put : List DeviceCommonTimer)
    (distinct : (timerIds list).Nodup) (items : List CJson)
    (texts : ∀ item ∈ items, TextFields item [CString.ascii ['i', 'd']])
    (removed : List TimerId) :
    handleDeleteItems items (settled list put removed) =
      some (!(askedDeletes put removed items).refused,
        settled list (askedDeletes put removed items).put
          (askedDeletes put removed items).removed) := by
  induction items generalizing removed with
  | nil => rfl
  | cons item items ih =>
    have noFault := itemTimerId_ne_fault (texts item List.mem_cons_self) (by simp)
    rw [handleDeleteItems, askedDeletes]
    cases hid : itemTimerId item with
    | fault => exact absurd hid noFault
    | err => rfl
    | ok id =>
      dsimp only
      rw [deviceDeleteListTimer_eq (settled_nodup distinct put removed), settled_remove]
      exact ih (fun item mem => texts item (List.mem_cons_of_mem _ mem)) _

theorem askedPuts_removed {print : Printer} {list : List DeviceCommonTimer} {items : List CJson}
    {heap : Heap} {put : List DeviceCommonTimer}
    (passed : (askedPuts print list heap put items).refused = false) :
    (askedPuts print list heap put items).removed = [] := by
  induction items generalizing heap put with
  | nil => rfl
  | cons item items ih =>
    rw [askedPuts] at passed ⊢
    cases hv : putVerdict print item with
    | noId => rfl
    | refused id => rw [hv] at passed; cases passed
    | entry node =>
      rw [hv] at passed
      dsimp only at passed ⊢
      split at passed
      next admits => rw [if_pos admits]; exact ih passed
      next => cases passed

/-- The list a message leaves. -/
def leaves (print : Printer) (heap : Heap) (root : CJson) (list : List DeviceCommonTimer) :
    List DeviceCommonTimer :=
  let batch := asked print heap root list
  if batch.refused = false ∧ deletesAll root then [] else settled list batch.put batch.removed

/-- The code handles a message as the batch it asks for. -/
theorem handleItems_eq (print : Printer) (heap : Heap) {root : CJson}
    {list : List DeviceCommonTimer} (distinct : (timerIds list).Nodup)
    (texts : MessageText root) :
    handleItems print heap root list =
      some (!(asked print heap root list).refused, leaves print heap root list) := by
  have puts := handlePutItems_eq print distinct (putItems root) texts.1 heap []
  rw [settled_nil] at puts
  unfold handleItems leaves asked
  rw [puts]
  cases hputs : (askedPuts print list heap [] (putItems root)).refused with
  | true => simp [hputs]
  | false =>
    have none := askedPuts_removed hputs
    have deletes := handleDeleteItems_eq (askedPuts print list heap [] (putItems root)).put
      distinct (deleteItems root) texts.2 []
    simp only [Bool.not_false, none, deletes, Bool.false_eq_true, ↓reduceIte, hputs]
    generalize askedDeletes (askedPuts print list heap [] (putItems root)).put []
      (deleteItems root) = batch
    obtain ⟨put, removed, refused⟩ := batch
    cases refused with
    | true => simp
    | false => simp

/-! ## Atomicity and durability -/

/-- A refused message changes nothing; after an accepted one that changed the list, with
memory for it, the record in flash is the list's. -/
def AtomicDurable (print : Printer) (heap : Heap) (root : Option CJson)
    (list : List DeviceCommonTimer) : Prop :=
  ∀ (m : ByteMem) (ret : Int) (list' : List DeviceCommonTimer),
    ((deviceHandleCloudTimer print heap root list).run m).1 = some (ret, list') →
      (ret = -1 → list' = list) ∧
      (ret = 0 → heap.AllocOk → list' ≠ list →
        TimerRecord ((deviceHandleCloudTimer print heap root list).run m).2 list')

/-- The batch removes no name of the list, and what it puts and does not remove again
already stands at its end. -/
def Untouched (list : List DeviceCommonTimer) (batch : Asked) : Prop :=
  (∀ id ∈ batch.removed, id ∉ timerIds list) ∧
    without (lastOf batch.put) batch.removed <:+ list

/-- A batch that is refused touches nothing, and one that is accepted leaves a list that
can be saved (or touches nothing). -/
def Consistent (print : Printer) (heap : Heap) (list : List DeviceCommonTimer) :
    Option CJson → Prop
  | none => True
  | some root =>
    let batch := asked print heap root list
    if batch.refused then
      Untouched list batch
    else
      heap.AllocOk → deletesAll root ∨ Untouched list batch ∨
        Saveable (settled list batch.put batch.removed)

theorem saveable_nil : Saveable [] := ⟨by simp, by simp [encodeTimers]⟩

/-- Without anything to save the message asked for nothing. -/
theorem leaves_of_not_saveEnable {print : Printer} {heap : Heap} {root : CJson}
    {list : List DeviceCommonTimer} (nothing : saveEnable root = false) :
    leaves print heap root list = list := by
  simp only [saveEnable, Bool.or_eq_false_iff, Bool.not_eq_false', List.isEmpty_iff] at nothing
  obtain ⟨⟨puts, deletes⟩, all⟩ := nothing
  simp [leaves, asked, puts, deletes, all, askedPuts, askedDeletes, settled_nil]

/-- The flash after an accepted message. -/
theorem accepted_record {print : Printer} {heap : Heap} {root : CJson}
    {list list' : List DeviceCommonTimer} (alloc : heap.AllocOk)
    (handled : handleItems print heap root list = some (true, list')) (save : saveEnable root = true)
    (m : ByteMem) :
    (Saveable list' ∧
        TimerRecord ((deviceHandleCloudTimer print heap (some root) list).run m).2 list') ∨
      (¬ Saveable list' ∧ ((deviceHandleCloudTimer print heap (some root) list).run m).2 = m) := by
  have alloc' : (heap.skip (2 * (putItems root).length)).AllocOk := fun k => alloc _
  unfold deviceHandleCloudTimer
  dsimp only
  rw [handled]
  dsimp only
  rw [if_pos save, run_bind]
  rcases deviceSaveTimerIntoFlash_run alloc' list' m with ⟨saveable, record⟩ | ⟨refused, kept⟩
  · exact .inl ⟨saveable, record⟩
  · exact .inr ⟨refused, by rw [kept]; rfl⟩

/-- No record of a non-empty list on a blank chip. -/
theorem not_timerRecord_blank {list : List DeviceCommonTimer} (nonempty : list ≠ []) :
    ¬ TimerRecord (fun _ => 0xFF) list := by
  rw [TimerRecord, if_neg nonempty]
  intro stored
  have magic := congrArg (fun bs => bs.getD 0 0) stored.header
  exact absurd magic (show ¬ (0xFF : UInt8) = 0xAA by decide)

section Outcome

variable {print : Printer} {heap : Heap} {root : CJson} {list : List DeviceCommonTimer}

/-- The result of a message that reads no text from a `NULL`. -/
theorem deviceHandleCloudTimer_asked (print : Printer) (heap : Heap) (distinct : (timerIds list).Nodup)
    (texts : MessageText root) (m : ByteMem) :
    ((deviceHandleCloudTimer print heap (some root) list).run m).1 =
      some (if (asked print heap root list).refused then -1 else 0,
        leaves print heap root list) := by
  rw [deviceHandleCloudTimer_result, handleItems_eq print heap distinct texts]
  cases (asked print heap root list).refused <;> rfl

theorem atomicDurable_of_refused (distinct : (timerIds list).Nodup) (texts : MessageText root)
    (refused : (asked print heap root list).refused = true) :
    AtomicDurable print heap (some root) list ↔ Untouched list (asked print heap root list) := by
  have result := deviceHandleCloudTimer_asked print heap distinct texts
  rw [refused, if_pos rfl] at result
  have left : leaves print heap root list = settled list (asked print heap root list).put
      (asked print heap root list).removed := by simp [leaves, refused]
  rw [Untouched, ← settled_eq_self_iff distinct, ← left]
  constructor
  · intro atomic
    exact (atomic (fun _ => 0xFF) (-1) _ (result _)).1 rfl
  · intro same m ret list' done
    rw [result] at done
    cases done
    exact ⟨fun _ => same, fun zero => absurd zero (by decide)⟩

theorem atomicDurable_of_accepted (distinct : (timerIds list).Nodup) (texts : MessageText root)
    (accepted : (asked print heap root list).refused = false) (alloc : heap.AllocOk) :
    AtomicDurable print heap (some root) list ↔
      leaves print heap root list = list ∨ Saveable (leaves print heap root list) := by
  have handled := handleItems_eq print heap distinct texts
  have result := deviceHandleCloudTimer_asked print heap distinct texts
  rw [accepted] at handled result
  rw [if_neg (by decide)] at result
  by_cases same : leaves print heap root list = list
  · refine ⟨fun _ => .inl same, fun _ m ret list' done => ?_⟩
    rw [result] at done
    cases done
    exact ⟨fun minus => absurd minus (by decide), fun _ _ changed => absurd same changed⟩
  have save : saveEnable root = true := by
    by_contra nothing
    rw [Bool.not_eq_true] at nothing
    exact same (leaves_of_not_saveEnable nothing)
  constructor
  · intro durable
    have record := (durable (fun _ => 0xFF) 0 _ (result _)).2 rfl alloc same
    rcases accepted_record alloc handled save fun _ => 0xFF with ⟨saveable, -⟩ | ⟨no, flash⟩
    · exact .inr saveable
    · rw [flash] at record
      refine absurd record (not_timerRecord_blank fun empty => no ?_)
      rw [empty]
      exact saveable_nil
  · intro consistent m ret list' done
    rw [result] at done
    cases done
    refine ⟨fun minus => absurd minus (by decide), fun _ _ changed => ?_⟩
    rcases accepted_record alloc handled save m with ⟨-, record⟩ | ⟨no, -⟩
    · exact record
    · exact consistent.elim (fun same => absurd same changed) fun saveable => absurd saveable no

/-- An accepted message without memory for its save promises nothing. -/
theorem atomicDurable_of_no_memory (distinct : (timerIds list).Nodup) (texts : MessageText root)
    (accepted : (asked print heap root list).refused = false) (short : ¬ heap.AllocOk) :
    AtomicDurable print heap (some root) list := by
  intro m ret list' done
  rw [deviceHandleCloudTimer_asked print heap distinct texts, accepted] at done
  cases done
  exact ⟨fun minus => absurd minus (by decide), fun _ alloc => absurd alloc short⟩

end Outcome

/-- Messages are atomic and durable exactly when the batch is consistent with the list. -/
theorem timerMessage_atomicDurable_iff (print : Printer) (heap : Heap) (root : Option CJson)
    (texts : ∀ message ∈ root, MessageText message) (list : TimerList) :
    AtomicDurable print heap root list ↔ Consistent print heap list root := by
  obtain ⟨list, distinct⟩ := list
  dsimp only
  cases root with
  | none =>
    refine ⟨fun _ => trivial, fun _ m ret list' done => ?_⟩
    cases done
    exact ⟨fun _ => rfl, fun zero => absurd zero (by decide)⟩
  | some root =>
    have texts := texts root rfl
    unfold Consistent
    dsimp only
    cases refused : (asked print heap root list).refused with
    | true =>
      rw [if_pos rfl]
      exact atomicDurable_of_refused distinct texts refused
    | false =>
      rw [if_neg (by decide)]
      by_cases alloc : heap.AllocOk
      · rw [atomicDurable_of_accepted distinct texts refused alloc]
        by_cases all : deletesAll root = true
        · have empty : leaves print heap root list = [] := by simp [leaves, refused, all]
          rw [empty]
          exact ⟨fun _ _ => .inl all, fun _ => .inr saveable_nil⟩
        · have left : leaves print heap root list = settled list (asked print heap root list).put
              (asked print heap root list).removed := by simp [leaves, all]
          rw [left, settled_eq_self_iff distinct]
          exact ⟨fun consistent _ => .inr consistent,
            fun consistent => (consistent alloc).resolve_left all⟩
      · exact ⟨fun _ ok => absurd ok alloc,
          fun _ => atomicDurable_of_no_memory distinct texts refused alloc⟩

/-- Adding one timer to the empty list is atomic and durable. -/
theorem timerMessage_addOne_atomicDurable :
    AtomicDurable (fun _ => .lit ['1']) (fun _ => Board.zeroed) (some addOneMessage) [] := by
  refine (timerMessage_atomicDurable_iff _ _ _ ?_ ⟨[], List.nodup_nil⟩).mpr ?_
  · rintro message ⟨⟩
    decide
  · intro _
    refine .inr (.inr ⟨?_, ?_⟩)
    · decide
    · decide

/-- `{"update":[{"id":"1"}]}`. -/
def bareUpdateMessage : CJson :=
  .object [(.lit ['u', 'p', 'd', 'a', 't', 'e'],
    .array [.object [(.lit ['i', 'd'], .string (.lit ['1']))]])]

theorem actionOne_holds : (2 : UInt16).toNat ≤ ([0x31, 0] : List UInt8).length := by decide

theorem actionOne_terminated : 0 ∈ ([0x31, 0] : List UInt8) := by decide

/-- The timer that `addOneMessage` adds. -/
def timerOne : DeviceCommonTimer where
  year := 0
  month := 0
  day := 0
  hour := 8
  minute := 30
  second := 0
  week := 1
  enable := 1
  timerId := padTimerId (.lit ['1']) (by decide)
  triggered := 0
  actionLen := 2
  action := [0x31, 0]
  holds := actionOne_holds
  terminated := actionOne_terminated

/-- An update without an `enable` field is refused after it has removed the timer. -/
theorem timerMessage_bareUpdate_not_atomic :
    MessageText bareUpdateMessage ∧
      ¬ AtomicDurable (fun _ => .lit ['1']) (fun _ => Board.zeroed) (some bareUpdateMessage)
        [timerOne] := by
  refine ⟨by decide, fun atomic => ?_⟩
  have done : ((deviceHandleCloudTimer (fun _ => .lit ['1']) (fun _ => Board.zeroed)
      (some bareUpdateMessage) [timerOne]).run fun _ => 0xFF).1 = some (-1, []) := rfl
  cases (atomic _ _ _ done).1 rfl

end Tr6260
