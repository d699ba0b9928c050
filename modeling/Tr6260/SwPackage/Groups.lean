import Tr6260.SwPackage.Partition

/-!
# Groups of suffixes that are not told apart yet

`V` ranks the suffixes, those that share their first `h` bytes alike. `I` lists each group of them
and says how far the ranks that one suffix has go on. A group is told apart from its front: its
first suffixes get ranks of their own and the others keep the rank of the group.
-/

namespace Tr6260

namespace Bsdiff

open SuffixOrder

variable {old : List UInt8} {V : Offs} {s s' s'' : Sorting} {h a b c e i j p q : Int} {n : Nat}

/-- The offsets of the suffixes, with that of the empty one. -/
def IsOffset (old : List UInt8) (p : Int) : Prop := 0 ≤ p ∧ p ≤ old.length

/-- Ranks that go with the order and are the same only where `h` bytes are. -/
structure Ranks (old : List UInt8) (h : Int) (V : Offs) : Prop where
  offset : ∀ p, IsOffset old p → IsOffset old (V p)
  lt : ∀ p q, IsOffset old p → IsOffset old q → V p < V q → suffix old p < suffix old q
  shares : ∀ p q, IsOffset old p → IsOffset old q → V p = V q → p = q ∨ Shares old h p q

/-- The offsets with a rank from `a` to before `b`. -/
def ranked (old : List UInt8) (V : Offs) (a b : Int) : Set Int :=
  {p | IsOffset old p ∧ a ≤ V p ∧ V p < b}

/-- The entries from `a` to before `b` are a group: its rank is the last of these. -/
structure Group (old : List UInt8) (h : Int) (s : Sorting) (a b : Int) : Prop where
  lists : Set.BijOn s.I.get (Set.Ico a b) (ranked old s.V a b)
  rank : ∀ p ∈ ranked old s.V a b, s.V p = b - 1
  room : ∀ p ∈ ranked old s.V a b, p + h ≤ old.length
  shares : ∀ p ∈ ranked old s.V a b, ∀ q ∈ ranked old s.V a b, p = q ∨ Shares old h p q

/-- One offset has the rank. -/
def Single (old : List UInt8) (V : Offs) (i : Int) : Prop :=
  ∃ p, IsOffset old p ∧ V p = i ∧ ∀ q, IsOffset old q → V q = i → q = p

/-- Runs of single ranks and groups, side by side. -/
inductive Tiles (old : List UInt8) (h : Int) (s : Sorting) : Int → Int → Prop
  | nil {a : Int} : Tiles old h s a a
  | run {a b : Int} (mark : s.I a < 0)
    (single : ∀ i, a ≤ i → i < a - s.I a → Single old s.V i)
    (rest : Tiles old h s (a - s.I a) b) : Tiles old h s a b
  | group {a c b : Int} (nonempty : a < c) (group : Group old h s a c)
    (rest : Tiles old h s c b) : Tiles old h s a b

/-! ## Tiles -/

namespace Tiles

theorem le (tiles : Tiles old h s a b) : a ≤ b := by
  induction tiles with
  | nil => exact le_refl _
  | run mark _ _ ih => omega
  | group nonempty _ _ ih => omega

theorem append (first : Tiles old h s a b) (second : Tiles old h s b c) : Tiles old h s a c := by
  induction first with
  | nil => exact second
  | run mark single _ ih => exact .run mark single (ih second)
  | group nonempty group _ ih => exact .group nonempty group (ih second)

end Tiles

/-- The same entries and the same offsets of the ranks of a range. -/
structure SameOn (old : List UInt8) (s s' : Sorting) (a b : Int) : Prop where
  entries : ∀ i, a ≤ i → i < b → s'.I i = s.I i
  ranks : ∀ p, IsOffset old p → a ≤ s.V p ∧ s.V p < b ∨ a ≤ s'.V p ∧ s'.V p < b → s'.V p = s.V p

theorem SameOn.mono (same : SameOn old s s' a b) (low : a ≤ c) (high : e ≤ b) :
    SameOn old s s' c e := by
  refine ⟨fun i low' high' => same.entries i (by omega) (by omega), ?_⟩
  intro p offset inside
  apply same.ranks p offset
  omega

theorem SameOn.ranked_eq (same : SameOn old s s' a b) :
    ranked old s'.V a b = ranked old s.V a b := by
  ext p
  constructor
  · intro member
    rcases member with ⟨offset, inside⟩
    have equal := same.ranks p offset (.inr inside)
    exact ⟨offset, equal ▸ inside⟩
  · intro member
    rcases member with ⟨offset, inside⟩
    have equal := same.ranks p offset (.inl inside)
    exact ⟨offset, equal.symm ▸ inside⟩

theorem Group.congr (group : Group old h s a b) (same : SameOn old s s' a b) :
    Group old h s' a b := by
  have ranked := same.ranked_eq
  refine ⟨?_, ?_, ?_, ?_⟩
  · rw [ranked]
    apply group.lists.congr
    intro i inside
    exact (same.entries i inside.1 inside.2).symm
  · intro p member
    rw [ranked] at member
    rw [same.ranks p member.1 (.inl member.2)]
    exact group.rank p member
  · intro p member
    rw [ranked] at member
    exact group.room p member
  · rw [ranked]
    exact group.shares

theorem Single.congr (single : Single old s.V i) (same : SameOn old s s' a b) (low : a ≤ i)
    (high : i < b) : Single old s'.V i := by
  rcases single with ⟨p, offset, rank, only⟩
  refine ⟨p, offset, ?_, ?_⟩
  · rw [same.ranks p offset (.inl (by omega))]
    exact rank
  · intro q offset' rank'
    apply only q offset'
    rw [← same.ranks q offset' (.inr (by omega))]
    exact rank'

theorem Tiles.congr (tiles : Tiles old h s a b) (same : SameOn old s s' a b) :
    Tiles old h s' a b := by
  induction tiles with
  | nil => exact .nil
  | run mark single rest ih =>
    have high := rest.le
    have entry := same.entries _ (le_refl _) (by omega)
    refine .run (entry ▸ mark) ?_ ?_
    · intro i low before
      rw [entry] at before
      exact (single i low before).congr same low (by omega)
    · rw [entry]
      exact ih (same.mono (by omega) (le_refl _))
  | group nonempty group rest ih =>
    have high := rest.le
    exact .group nonempty (group.congr (same.mono (le_refl _) high))
      (ih (same.mono (by omega) (le_refl _)))

/-! ## Groups -/

namespace Group

theorem mem (group : Group old h s a b) (low : a ≤ i) (high : i < b) :
    s.I i ∈ ranked old s.V a b := group.lists.mapsTo (Set.mem_Ico.mpr ⟨low, high⟩)

theorem exists_entry (group : Group old h s a b) (member : p ∈ ranked old s.V a b) :
    ∃ i, a ≤ i ∧ i < b ∧ s.I i = p := by
  rcases group.lists.surjOn member with ⟨i, inside, same⟩
  exact ⟨i, inside.1, inside.2, same⟩

theorem inj (group : Group old h s a b) (lowI : a ≤ i) (highI : i < b) (lowJ : a ≤ j)
    (highJ : j < b) (same : s.I i = s.I j) : i = j :=
  group.lists.injOn (Set.mem_Ico.mpr ⟨lowI, highI⟩) (Set.mem_Ico.mpr ⟨lowJ, highJ⟩) same

/-- Another order of the entries lists the same group. -/
theorem rearranged {I : Offs} (group : Group old h s a b)
    (moved : Rearranged (Set.Ico c e) s.I.get I.get) (low : a ≤ c) (high : e ≤ b) :
    Group old h { s with I := I } a b :=
  ⟨moved.bijOn (Set.Ico_subset_Ico low high) group.lists, group.rank, group.room,
    group.shares⟩

theorem key_offset (group : Group old h s a b) (pos : 0 ≤ h) (member : p ∈ ranked old s.V a b) :
    IsOffset old (p + h) := by
  have low := member.1.1
  exact ⟨by omega, group.room p member⟩

/-- A lesser key is that of a suffix before. -/
theorem lt_of_key (group : Group old h s a b) (ranks : Ranks old h s.V) (pos : 0 ≤ h)
    (memberP : p ∈ ranked old s.V a b) (memberQ : q ∈ ranked old s.V a b)
    (less : s.V (p + h) < s.V (q + h)) : suffix old p < suffix old q := by
  rcases group.shares p memberP q memberQ with same | shares
  · rw [same] at less
    exact absurd less (lt_irrefl _)
  · exact shares.lt
      (ranks.lt _ _ (group.key_offset pos memberP) (group.key_offset pos memberQ) less)

/-- The same key is that of suffixes which share twice as much. -/
theorem shares_of_key (group : Group old h s a b) (ranks : Ranks old h s.V) (pos : 0 ≤ h)
    (memberP : p ∈ ranked old s.V a b) (memberQ : q ∈ ranked old s.V a b)
    (equal : s.V (p + h) = s.V (q + h)) : p = q ∨ Shares old (h + h) p q := by
  rcases group.shares p memberP q memberQ with same | shares
  · exact .inl same
  · rcases ranks.shares _ _ (group.key_offset pos memberP) (group.key_offset pos memberQ) equal with
      same | shares'
    · exact .inl (by omega)
    · exact .inr (shares.add shares')

end Group

/-! ## The ranks of the front of a group -/

theorem rankLoop_of_mem {I : Offs} (low : i ≤ j) (high : j < i + n) (entry : I (a + j) = p) :
    rankLoop I a e n i V p = e := by
  induction n generalizing i V with
  | zero => omega
  | succ n ih =>
    rw [rankLoop]
    by_cases later : i < j
    · exact ih (by omega) (by omega)
    · have first : j = i := by omega
      -- a later entry that is the same offset writes the same rank
      clear ih
      rw [first] at entry
      have kept (n : Nat) (i : Int) (V : Offs) (at_ : V p = e) : rankLoop I a e n i V p = e := by
        induction n generalizing i V with
        | zero => exact at_
        | succ n ih =>
          rw [rankLoop]
          apply ih
          rw [Offs.set_get]
          split
          · rfl
          · exact at_
      apply kept
      rw [Offs.set_get, if_pos entry.symm]

theorem rankLoop_of_not_mem {I : Offs} (other : ∀ j, i ≤ j → j < i + n → I (a + j) ≠ p) :
    rankLoop I a e n i V p = V p := by
  induction n generalizing i V with
  | zero => rfl
  | succ n ih =>
    rw [rankLoop, ih]
    · have first := other i (le_refl _) (by omega)
      rw [Offs.set_get, if_neg first.symm]
    · intro j low high
      exact other j (by omega) (by omega)

theorem settle_V_of_mem (low : a ≤ i) (high : i < c) : (settle s a c).V (s.I i) = c - 1 := by
  apply rankLoop_of_mem (j := i - a)
  · omega
  · omega
  · rw [add_sub_cancel]

theorem settle_V_of_not_mem (other : ∀ i, a ≤ i → i < c → s.I i ≠ p) :
    (settle s a c).V p = s.V p := by
  apply rankLoop_of_not_mem
  intro j low high
  exact other (a + j) (by omega) (by omega)

theorem settle_I_of_ne (other : i ≠ a) : (settle s a c).I i = s.I i := by
  unfold settle
  dsimp only
  split
  · rw [Offs.set_get, if_neg other]
  · rfl

theorem settle_I_of_single (single : a = c - 1) : (settle s a c).I a = -1 := by
  unfold settle
  dsimp only
  rw [if_pos single, Offs.set_get, if_pos rfl]

theorem settle_I_of_many (many : a ≠ c - 1) : (settle s a c).I = s.I := by
  unfold settle
  dsimp only
  rw [if_neg many]

end Bsdiff

end Tr6260
