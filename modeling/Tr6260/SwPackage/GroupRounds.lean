import Tr6260.SwPackage.SplitGroup

/-!
# Rounds over the groups

A round over all groups doubles what suffixes of the same rank share, and joins the runs that it
passes. Rounds end when one run is everything, which it is once more would be shared than there
is.
-/

namespace Tr6260

namespace Bsdiff

open SuffixOrder

variable {old : List UInt8} {s s' : Sorting} {h a b c e i j len p q : Int} {n : Nat}

/-- The arrays outside of what was allocated. -/
structure SameAround (old : List UInt8) (s s' : Sorting) : Prop where
  entries : ∀ i : Int, i < 0 ∨ old.length < i → s'.I i = s.I i
  ranks : ∀ p : Int, p < 0 ∨ old.length < p → s'.V p = s.V p

theorem SameAround.refl : SameAround old s s := ⟨fun _ _ => rfl, fun _ _ => rfl⟩

theorem SameAround.trans {s'' : Sorting} (first : SameAround old s s')
    (second : SameAround old s' s'') : SameAround old s s'' :=
  ⟨fun i outside => (second.entries i outside).trans (first.entries i outside),
    fun p outside => (second.ranks p outside).trans (first.ranks p outside)⟩

/-! ## What a split leaves of the other groups -/

theorem Refined.sameOn (refined : Refined old h s a b b s') (group : Group old h s a b)
    (apart : e ≤ a ∨ b ≤ c) : SameOn old s s' c e := by
  have other (p : Int) (i : Int) (low : a ≤ i) (high : i < b) (entry : s.I i = p) :
      (a ≤ s.V p ∧ s.V p < b) ∧ a ≤ s'.V p ∧ s'.V p < b := by
    have member := group.mem low high
    have inside := refined.within i low high
    rw [entry] at member inside
    exact ⟨member.2, inside⟩
  refine ⟨fun i low high => refined.entries i (by omega), ?_⟩
  intro p offset inside
  apply refined.others
  intro i low high entry
  have both := other p i low high entry
  omega

theorem Refined.sameAround (refined : Refined old h s a b b s') (group : Group old h s a b)
    (low : 0 ≤ a) (high : b ≤ old.length + 1) : SameAround old s s' := by
  refine ⟨fun i outside => refined.entries i (by omega), ?_⟩
  intro p outside
  apply refined.others
  intro i lowI highI entry
  have member := (group.mem lowI highI).1
  rw [entry] at member
  rcases member with ⟨low', high'⟩
  omega

/-! ## One round -/

/-- Between two steps of a round: what is behind `i - len` is done, a run goes on from there
to `i`. -/
structure Midway (old : List UInt8) (h : Int) (i len : Int) (s : Sorting) : Prop where
  ranks : Ranks old h s.V
  nonneg : 0 ≤ len
  done : Tiles old (h + h) s 0 (i - len)
  single : ∀ j, i - len ≤ j → j < i → Single old s.V j
  rest : Tiles old h s i (old.length + 1)

theorem mergeRun_of_ne (other : len ≠ 0 → j ≠ i - len) : mergeRun s.I i len j = s.I j := by
  unfold mergeRun
  split
  · next some_ => rw [Offs.set_get, if_neg (other some_)]
  · rfl

namespace Midway

theorem low (midway : Midway old h i len s) : 0 ≤ i - len := midway.done.le

/-- The run is marked where it begins. -/
theorem merge_tiles (midway : Midway old h i len s) :
    Tiles old (h + h) { s with I := mergeRun s.I i len } 0 i := by
  have nonneg := midway.nonneg
  have same : SameOn old s { s with I := mergeRun s.I i len } 0 (i - len) :=
    ⟨fun j _ before => mergeRun_of_ne (by omega), fun _ _ _ => rfl⟩
  apply (midway.done.congr same).append
  by_cases empty : len = 0
  · rw [empty, sub_zero]
    exact .nil
  · have mark : mergeRun s.I i len (i - len) = -len := by
      rw [mergeRun, if_pos empty, Offs.set_get, if_pos rfl]
    have end_ : i - len - mergeRun s.I i len (i - len) = i := by
      rw [mark]
      omega
    refine .run ?_ ?_ ?_
    · show mergeRun s.I i len (i - len) < 0
      omega
    · intro j lowJ highJ
      exact midway.single j lowJ (by dsimp only at highJ; omega)
    · dsimp only
      rw [end_]
      exact .nil

theorem merge_sameAround (midway : Midway old h i len s) (high : i ≤ old.length + 1) :
    SameAround old s { s with I := mergeRun s.I i len } := by
  have low := midway.low
  have nonneg := midway.nonneg
  exact ⟨fun j outside => mergeRun_of_ne (by omega), fun _ _ => rfl⟩

/-- The end of a round. -/
theorem merge (midway : Midway old h i len s) (done : i = old.length + 1) :
    Ranks old h s.V ∧ Tiles old (h + h) { s with I := mergeRun s.I i len } 0 (old.length + 1) ∧
      SameAround old s { s with I := mergeRun s.I i len } := by
  refine ⟨midway.ranks, ?_, midway.merge_sameAround done.le⟩
  rw [← done]
  exact midway.merge_tiles

/-- A run is passed. -/
theorem pass_run (midway : Midway old h i len s) (going : i < old.length + 1) (mark : s.I i < 0) :
    Midway old h (i - s.I i) (len - s.I i) s ∧ i - s.I i ≤ old.length + 1 := by
  have nonneg := midway.nonneg
  cases midway.rest with
  | nil => omega
  | run _ single rest =>
    refine ⟨⟨midway.ranks, by omega, ?_, ?_, rest⟩, rest.le⟩
    · have same : i - s.I i - (len - s.I i) = i - len := by omega
      rw [same]
      exact midway.done
    · intro j low high
      rcases lt_or_ge j i with before | behind
      · exact midway.single j (by omega) before
      · exact single j behind high
  | group nonempty group _ =>
    have entry := (group.mem (le_refl i) nonempty).1.1
    omega

/-- A group is split. -/
theorem split_group (midway : Midway old h i len s) (pos : 0 ≤ h) (going : i < old.length + 1)
    (unmarked : 0 ≤ s.I i) :
    let s₁ : Sorting := { s with I := mergeRun s.I i len }
    let len' := s₁.V (s₁.I i) + 1 - i
    Midway old h (i + len') 0 (split h len'.toNat i len' s₁) ∧ 0 < len' ∧
      i + len' ≤ old.length + 1 ∧ SameAround old s (split h len'.toNat i len' s₁) := by
  intro s₁ len'
  have low := midway.low
  have nonneg := midway.nonneg
  have tiles := midway.merge_tiles
  have around := midway.merge_sameAround going.le
  have same : SameOn old s s₁ i (old.length + 1) :=
    ⟨fun j low _ => mergeRun_of_ne (by omega), fun _ _ _ => rfl⟩
  cases midway.rest with
  | nil => omega
  | run mark _ _ => omega
  | @group _ c _ nonempty group rest =>
    have high := rest.le
    have group₁ : Group old h s₁ i c := group.congr (same.mono (le_refl i) high)
    have rest₁ : Tiles old h s₁ c (old.length + 1) :=
      rest.congr (same.mono (by omega) (le_refl _))
    have last : s₁.V (s₁.I i) = c - 1 := group₁.rank _ (group₁.mem (le_refl i) nonempty)
    have size : len' = c - i := by
      show s₁.V (s₁.I i) + 1 - i = c - i
      omega
    have end_ : i + len' = c := by omega
    have front : Front old h s₁ i (i + len') c := by
      refine ⟨midway.ranks, group₁, by omega, by omega, by omega, ?_⟩
      intro j k lowJ highJ lowK highK
      omega
    have refined := split_refined (n := len'.toNat) pos front (by omega)
    rw [end_] at refined ⊢
    have before : Tiles old (h + h) (split h len'.toNat i len' s₁) 0 i :=
      tiles.congr (refined.sameOn group₁ (.inl (le_refl i)))
    refine ⟨⟨refined.ranks, le_refl 0, ?_, ?_, ?_⟩, by omega, high, ?_⟩
    · rw [sub_zero]
      exact before.append refined.tiles
    · intro j lowJ highJ
      omega
    · exact rest₁.congr (refined.sameOn group₁ (.inr (le_refl c)))
    · exact around.trans (refined.sameAround group₁ (by omega) high)

end Midway

theorem groupLoop_tiles (midway : Midway old h i len s) (pos : 0 ≤ h) (high : i ≤ old.length + 1)
    (enough : old.length + 1 - i ≤ n) :
    Ranks old h (groupLoop old.length h n i len s).V ∧
      Tiles old (h + h) (groupLoop old.length h n i len s) 0 (old.length + 1) ∧
      SameAround old s (groupLoop old.length h n i len s) := by
  induction n generalizing i len s with
  | zero =>
    rw [groupLoop]
    exact midway.merge (by omega)
  | succ n ih =>
    rw [groupLoop]
    by_cases going : i < old.length + 1
    · rw [if_pos going]
      by_cases mark : s.I i < 0
      · rw [if_pos mark]
        rcases midway.pass_run going mark with ⟨next, high⟩
        exact ih next high (by omega)
      · rw [if_neg mark]
        rcases midway.split_group pos going (by omega) with ⟨next, some_, high, around⟩
        rcases ih next high (by omega) with ⟨ranks, tiles, around'⟩
        exact ⟨ranks, tiles, around.trans around'⟩
    · rw [if_neg going]
      exact midway.merge (by omega)

/-- Where no group can be left, a round only joins the runs. -/
theorem groupLoop_joins (midway : Midway old h i i s) (large : old.length < h)
    (enough : old.length + 1 - i ≤ n) (high : i ≤ old.length + 1) :
    (groupLoop old.length h n i i s).I 0 = -(old.length + 1) := by
  have joined (done : i = old.length + 1) :
      mergeRun s.I i i 0 = -(old.length + 1) := by
    have some_ : i ≠ 0 := by omega
    rw [mergeRun, if_pos some_, sub_self, Offs.set_get, if_pos rfl, done]
  induction n generalizing i with
  | zero =>
    rw [groupLoop]
    exact joined (by omega)
  | succ n ih =>
    rw [groupLoop]
    by_cases going : i < old.length + 1
    · rw [if_pos going]
      have mark : s.I i < 0 := by
        cases midway.rest with
        | nil => omega
        | run mark _ _ => exact mark
        | group nonempty group _ =>
          have member := group.mem (le_refl i) nonempty
          have room := group.room _ member
          have low := member.1.1
          omega
      rw [if_pos mark]
      rcases midway.pass_run going mark with ⟨next, high⟩
      apply ih next (by omega) high
      intro done
      rw [mergeRun, if_pos (by omega), sub_self, Offs.set_get, if_pos rfl, done]
    · rw [if_neg going]
      exact joined (by omega)

/-! ## All rounds -/

/-- The ranks with which a round ends. -/
theorem Tiles.shares (tiles : Tiles old h s a b) (offsetP : IsOffset old p)
    (offsetQ : IsOffset old q) (equal : s.V p = s.V q) (low : a ≤ s.V p) (high : s.V p < b) : p = q ∨ Shares old h p q := by
  induction tiles with
  | nil => omega
  | @run a b mark single rest ih =>
    rcases lt_or_ge (s.V p) (a - s.I a) with here | later
    · rcases single _ low here with ⟨r, -, -, only⟩
      exact .inl ((only p offsetP rfl).trans (only q offsetQ equal.symm).symm)
    · exact ih later high
  | @group a c b nonempty group rest ih =>
    rcases lt_or_ge (s.V p) c with here | later
    · exact group.shares p ⟨offsetP, low, here⟩ q ⟨offsetQ, by omega, by omega⟩
    · exact ih later high

/-- All suffixes ranked alike share `h` bytes, and the arrays show the groups. -/
structure Sorted (old : List UInt8) (h : Int) (s : Sorting) : Prop where
  ranks : Ranks old h s.V
  tiles : Tiles old h s 0 (old.length + 1)

/-- Where everything is one run, the ranks are the places of the suffixes. -/
theorem Sorted.single (sorted : Sorted old h s) (done : s.I 0 = -(old.length + 1)) (low : 0 ≤ i)
    (high : i ≤ old.length) : Single old s.V i := by
  cases sorted.tiles with
  | run mark single rest => exact single i low (by omega)
  | group nonempty group _ =>
    have entry := (group.mem (le_refl 0) nonempty).1.1
    omega

theorem Sorted.start (sorted : Sorted old h s) : Midway old h 0 0 s := by
  refine ⟨sorted.ranks, le_refl 0, .nil, ?_, sorted.tiles⟩
  intro j low high
  omega

/-- One round. -/
theorem Sorted.round (sorted : Sorted old h s) (pos : 0 ≤ h) :
    Sorted old (h + h) (groupLoop old.length h (old.length + 1 : Int).toNat 0 0 s) ∧
      SameAround old s (groupLoop old.length h (old.length + 1 : Int).toNat 0 0 s) := by
  rcases groupLoop_tiles (n := (old.length + 1 : Int).toNat) sorted.start pos (by omega) (by omega)
    with ⟨ranks, tiles, around⟩
  refine ⟨⟨⟨ranks.offset, ranks.lt, ?_⟩, tiles⟩, around⟩
  intro p q offsetP offsetQ equal
  have offset := ranks.offset p offsetP
  exact tiles.shares offsetP offsetQ equal offset.1 (by have high := offset.2; omega)

/-- The rounds suffice. -/
theorem doublingLoop_sorted (sorted : Sorted old h s) (pos : 0 < h)
    (enough : h ≤ old.length → old.length + 2 ≤ n + h)
    (last : old.length < h → 1 ≤ n ∨ s.I 0 = -(old.length + 1)) :
    ∃ s', doublingLoop old.length n h s = some s' ∧ (∃ h', Sorted old h' s') ∧
      s'.I 0 = -(old.length + 1) ∧ SameAround old s s' := by
  induction n generalizing h s with
  | zero =>
    have done : s.I 0 = -(old.length + 1) := by omega
    exact ⟨s, by rw [doublingLoop, if_pos done], ⟨h, sorted⟩, done, .refl⟩
  | succ n ih =>
    rw [doublingLoop]
    by_cases done : s.I 0 = -(old.length + 1)
    · rw [if_pos done]
      exact ⟨s, rfl, ⟨h, sorted⟩, done, .refl⟩
    · rw [if_neg done]
      rcases sorted.round pos.le with ⟨next, around⟩
      have last' : old.length < h + h → 1 ≤ n ∨
          (groupLoop old.length h (old.length + 1 : Int).toNat 0 0 s).I 0 = -(old.length + 1) := by
        intro large
        rcases lt_or_ge (old.length : Int) h with beyond | within
        · exact .inr (groupLoop_joins sorted.start beyond (by omega) (by omega))
        · exact .inl (by omega)
      rcases ih next (by omega) (by omega) last' with ⟨s', returns, sorted', done', around'⟩
      exact ⟨s', returns, sorted', done', around.trans around'⟩

end Bsdiff

end Tr6260
