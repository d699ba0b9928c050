import Mathlib.Data.List.Induction
import Mathlib.Data.List.Nodup

/-!
# Ordered maps

A finite map with its keys in the order in which they came in: a key that is there
keeps its place and its value when it is inserted again, and loses both when it is
erased. `replay` is the map after a history of insertions and erasures; a key is
there exactly when it was inserted and not erased since (`mem_replay`).
-/

/-- Entries with distinct keys, the oldest first. -/
structure OrderedMap (K V : Type) where
  entries : List (K × V)
  distinct : (entries.map Prod.fst).Nodup

namespace OrderedMap

variable {K V : Type}

/-- The keys. -/
def keys (map : OrderedMap K V) : List K := map.entries.map Prod.fst

/-- The map without entries. -/
def empty : OrderedMap K V := ⟨[], .nil⟩

/-- The values at the keys with a property, the oldest first. -/
def select (map : OrderedMap K V) (p : K → Bool) : List V :=
  (map.entries.filter fun entry => p entry.1).map Prod.snd

variable [DecidableEq K]

/-- A new key comes last; an old one stays as it is. -/
def insertNew (map : OrderedMap K V) (key : K) (value : V) : OrderedMap K V :=
  if there : key ∈ map.keys then
    map
  else
    ⟨map.entries ++ [(key, value)], by
      rw [List.map_append, List.map_singleton]
      exact map.distinct.append (List.nodup_singleton key)
        (List.disjoint_singleton.mpr there)⟩

/-- The map without a key. -/
def erase (map : OrderedMap K V) (key : K) : OrderedMap K V :=
  ⟨map.entries.filter fun entry => entry.1 ≠ key,
    map.distinct.sublist (List.filter_sublist.map Prod.fst)⟩

variable {map : OrderedMap K V} {key other : K} {value : V}

theorem insertNew_of_mem (there : key ∈ map.keys) (value : V) : map.insertNew key value = map :=
  dif_pos there

theorem entries_insertNew (fresh : key ∉ map.keys) (value : V) :
    (map.insertNew key value).entries = map.entries ++ [(key, value)] := by
  rw [insertNew, dif_neg fresh]

theorem mem_insertNew :
    other ∈ (map.insertNew key value).keys ↔ other = key ∨ other ∈ map.keys := by
  by_cases there : key ∈ map.keys
  · rw [insertNew_of_mem there]
    constructor
    · exact .inr
    · rintro (rfl | mem)
      · exact there
      · exact mem
  · rw [keys, entries_insertNew there, List.map_append, List.mem_append, List.map_singleton,
      List.mem_singleton, or_comm, keys]

theorem mem_erase : other ∈ (map.erase key).keys ↔ other ≠ key ∧ other ∈ map.keys := by
  constructor
  · intro mem
    rcases List.mem_map.mp mem with ⟨entry, kept, rfl⟩
    rcases List.mem_filter.mp kept with ⟨there, apart⟩
    exact ⟨of_decide_eq_true apart, List.mem_map_of_mem there⟩
  · rintro ⟨apart, mem⟩
    rcases List.mem_map.mp mem with ⟨entry, there, rfl⟩
    exact List.mem_map_of_mem (List.mem_filter.mpr ⟨there, decide_eq_true apart⟩)

/-- Without the key nothing is erased. -/
theorem entries_erase_of_notMem (absent : key ∉ map.keys) :
    (map.erase key).entries = map.entries := by
  refine List.filter_eq_self.mpr fun entry there => decide_eq_true ?_
  rintro rfl
  exact absent (List.mem_map_of_mem there)

/-! ## Histories -/

/-- A change of a map. -/
inductive Op (K V : Type)
  | insert (key : K) (value : V)
  | erase (key : K)

/-- One change. -/
def apply (map : OrderedMap K V) : Op K V → OrderedMap K V
  | .insert key value => map.insertNew key value
  | .erase key => map.erase key

/-- The map after a history, from the empty one. -/
def replay (ops : List (Op K V)) : OrderedMap K V := ops.foldl apply empty

theorem replay_append (ops : List (Op K V)) (op : Op K V) :
    replay (ops ++ [op]) = (replay ops).apply op := by
  rw [replay, List.foldl_append]
  rfl

/-- The key was inserted and not erased since. -/
def Standing (ops : List (Op K V)) (key : K) : Prop :=
  ∃ before value after, ops = before ++ .insert key value :: after ∧ .erase key ∉ after

omit [DecidableEq K] in
theorem standing_append {ops : List (Op K V)} {op : Op K V} :
    Standing (ops ++ [op]) key ↔
      (∃ value, op = .insert key value) ∨ op ≠ .erase key ∧ Standing ops key := by
  constructor
  · rintro ⟨before, value, after, same, kept⟩
    -- the insertion is the last change, or stands in front of it
    induction after using List.reverseRecOn with
    | nil =>
      rcases List.append_inj' same rfl with ⟨-, last⟩
      exact .inl ⟨value, List.cons.inj last |>.1⟩
    | append_singleton after op' =>
      rw [← List.cons_append, ← List.append_assoc] at same
      rcases List.append_inj' same rfl with ⟨rfl, last⟩
      rcases (List.cons.inj last).1 with rfl
      rw [List.mem_append, not_or, List.mem_singleton] at kept
      exact .inr ⟨Ne.symm kept.2, before, value, after, rfl, kept.1⟩
  · rintro (⟨value, rfl⟩ | ⟨apart, before, value, after, rfl, kept⟩)
    · exact ⟨ops, value, [], rfl, nofun⟩
    · refine ⟨before, value, after ++ [op], ?_, ?_⟩
      · rw [List.append_assoc, List.cons_append]
      · rw [List.mem_append, not_or, List.mem_singleton]
        exact ⟨kept, Ne.symm apart⟩

/-- The keys of a history are the standing ones. -/
theorem mem_replay {ops : List (Op K V)} : key ∈ (replay ops).keys ↔ Standing ops key := by
  induction ops using List.reverseRecOn with
  | nil =>
    constructor
    · nofun
    · rintro ⟨before, value, after, same, -⟩
      cases before <;> cases same
  | append_singleton ops op ih =>
    rw [replay_append, standing_append, ← ih]
    cases op with
    | insert other value =>
      rw [apply, mem_insertNew]
      constructor
      · rintro (rfl | mem)
        · exact .inl ⟨value, rfl⟩
        · exact .inr ⟨nofun, mem⟩
      · rintro (⟨value, same⟩ | ⟨-, mem⟩)
        · cases same
          exact .inl rfl
        · exact .inr mem
    | erase other =>
      rw [apply, mem_erase]
      constructor
      · rintro ⟨apart, mem⟩
        exact .inr ⟨fun same => apart (Op.erase.inj same).symm, mem⟩
      · rintro (⟨value, same⟩ | ⟨apart, mem⟩)
        · cases same
        · exact ⟨fun same => apart (same ▸ rfl), mem⟩

end OrderedMap
