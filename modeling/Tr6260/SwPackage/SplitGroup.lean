import Tr6260.SwPackage.Groups

/-!
# A group told apart by `split`

Whatever the range of a group that `split` is called for, its suffixes get ranks within the range
that go with their order, and two that still have the same rank share twice as many bytes. Nothing
else is touched.
-/

namespace Tr6260

namespace Bsdiff

open SuffixOrder

variable {old : List UInt8} {s s' s'' : Sorting} {h a b c i j p q top : Int} {n : Nat}

/-- The entries before `b` of the rest of a group, from `a` to before `top`, are in order. -/
structure Refined (old : List UInt8) (h : Int) (s : Sorting) (a b top : Int) (s' : Sorting) :
    Prop where
  ranks : Ranks old h s'.V
  tiles : Tiles old (h + h) s' a b
  rest : b < top → Group old h s' b top
  entries : ∀ i, i < a ∨ b ≤ i → s'.I i = s.I i
  others : ∀ p, (∀ i, a ≤ i → i < b → s.I i ≠ p) → s'.V p = s.V p
  within : ∀ i, a ≤ i → i < b → a ≤ s'.V (s.I i) ∧ s'.V (s.I i) < b

namespace Refined

theorem refl (ranks : Ranks old h s.V) (group : a < top → Group old h s a top) :
    Refined old h s a a top s := by
  refine ⟨ranks, .nil, group, fun _ _ => rfl, fun _ _ => rfl, ?_⟩
  intro i low high
  omega

/-- One range after the other. -/
theorem trans (first : Refined old h s a b top s') (second : Refined old h s' b c top s'')
    (high : c ≤ top) : Refined old h s a c top s'' := by
  have low := first.tiles.le
  have mid := second.tiles.le
  -- what the second range moves had the rank of the group before
  have apart (p : Int) (before : s'.V p < b) (i : Int) (lowI : b ≤ i) (highI : i < c) :
      s'.I i ≠ p := by
    intro same
    have group := first.rest (by omega)
    have rank := group.rank p (same ▸ group.mem lowI (by omega))
    omega
  have same : SameOn old s' s'' a b := by
    refine ⟨fun i _ before => second.entries i (.inl before), ?_⟩
    intro p _ inside
    rcases inside with before | after
    · exact second.others p (apart p before.2)
    · apply second.others
      intro i lowI highI entry
      have moved := second.within i lowI highI
      rw [entry] at moved
      omega
  refine ⟨second.ranks, (first.tiles.congr same).append second.tiles, second.rest, ?_, ?_, ?_⟩
  · intro i outside
    rw [second.entries i (by omega), first.entries i (by omega)]
  · intro p other
    rw [second.others, first.others]
    · intro i lowI highI
      exact other i lowI (by omega)
    · intro i lowI highI
      rw [first.entries i (.inr lowI)]
      exact other i (by omega) highI
  · intro i lowI highI
    rcases lt_or_ge i b with front | behind
    · have inside := first.within i lowI front
      rw [second.others _ (apart _ inside.2)]
      omega
    · have inside := second.within i behind highI
      rw [first.entries i (.inr behind)] at inside
      omega

/-- It does not matter in what order the entries were. -/
theorem of_rearranged {I : Offs} (refined : Refined old h { s with I := I } a b top s')
    (moved : Rearranged (Set.Ico a b) s.I.get I.get) : Refined old h s a b top s' := by
  have image := moved.image_eq (le_refl _)
  refine ⟨refined.ranks, refined.tiles, refined.rest, ?_, ?_, ?_⟩
  · intro i outside
    rw [refined.entries i outside]
    apply moved.eq_outside
    intro inside
    rcases Set.mem_Ico.mp inside with ⟨low, high⟩
    omega
  · intro p other
    apply refined.others
    intro i low high entry
    have member : p ∈ I.get '' Set.Ico a b := ⟨i, ⟨low, high⟩, entry⟩
    rw [image] at member
    rcases member with ⟨j, inside, entry'⟩
    exact other j inside.1 inside.2 entry'
  · intro i low high
    have member : s.I i ∈ s.I.get '' Set.Ico a b := ⟨i, ⟨low, high⟩, rfl⟩
    rw [← image] at member
    rcases member with ⟨j, inside, entry⟩
    have within := refined.within j inside.1 inside.2
    dsimp only at within
    rw [entry] at within
    exact within

end Refined

/-- The suffixes listed before `b` are before those listed from there on. -/
def Before (old : List UInt8) (I : Offs) (a b top : Int) : Prop :=
  ∀ i j, a ≤ i → i < b → b ≤ j → j < top → suffix old (I i) < suffix old (I j)

theorem Before.rearranged {I I' : Offs} (before : Before old I a b top)
    (moved : Rearranged (Set.Ico a b) I.get I'.get) : Before old I' a b top := by
  intro i j lowI highI lowJ highJ
  have member : I' i ∈ I'.get '' Set.Ico a b := ⟨i, ⟨lowI, highI⟩, rfl⟩
  rw [moved.image_eq (le_refl _)] at member
  rcases member with ⟨i', inside, entry⟩
  have kept : I' j = I j := by
    apply moved.eq_outside
    intro inside
    exact absurd (Set.mem_Ico.mp inside).2 (by omega)
  rw [kept, ← entry]
  exact before i' j inside.1 inside.2 lowJ highJ

/-- The front of the rest of a group, which can be told from what is behind it. -/
structure Front (old : List UInt8) (h : Int) (s : Sorting) (a b top : Int) : Prop where
  ranks : Ranks old h s.V
  group : Group old h s a top
  low : 0 ≤ a
  nonempty : a < b
  high : b ≤ top
  before : Before old s.I a b top

/-! ## Ranks of their own -/

/-- An offset is an entry of the front, one of the rest, or not of the group. -/
theorem Front.place (front : Front old h s a b top) (offset : IsOffset old p) :
    ((settle s a b).V p = b - 1 ∧ s.V p = top - 1 ∧ ∃ i, a ≤ i ∧ i < b ∧ s.I i = p) ∨
    ((settle s a b).V p = s.V p ∧ s.V p = top - 1 ∧ ∃ j, b ≤ j ∧ j < top ∧ s.I j = p) ∨
    ((settle s a b).V p = s.V p ∧ (s.V p < a ∨ top ≤ s.V p)) := by
  rcases front with ⟨ranks, group, low, nonempty, high, before⟩
  by_cases member : p ∈ ranked old s.V a top
  · have rank := group.rank p member
    rcases group.exists_entry member with ⟨i, lowI, highI, rfl⟩
    rcases lt_or_ge i b with inFront | behind
    · exact .inl ⟨settle_V_of_mem lowI inFront, rank, i, lowI, inFront, rfl⟩
    · refine .inr (.inl ⟨settle_V_of_not_mem ?_, rank, i, behind, highI, rfl⟩)
      intro j lowJ highJ same
      have index := group.inj lowJ (by omega) lowI highI same
      omega
  · refine .inr (.inr ⟨settle_V_of_not_mem ?_, ?_⟩)
    · intro j lowJ highJ same
      exact member (same ▸ group.mem lowJ (by omega))
    · by_contra inside
      exact member ⟨offset, by omega, by omega⟩

/-- The suffixes of a front are told from the rest of the group, not from each other. -/
theorem settle_ranks (front : Front old h s a b top) : Ranks old h (settle s a b).V := by
  have place (p : Int) (offset : IsOffset old p) := front.place offset
  rcases front with ⟨ranks, group, low, nonempty, high, before⟩
  have last := ranks.offset _ (group.mem (le_refl a) (by omega)).1
  rw [group.rank _ (group.mem (le_refl a) (by omega))] at last
  rcases last with ⟨-, last⟩
  refine ⟨?_, ?_, ?_⟩
  · intro p offset
    rcases place p offset with ⟨rank, -⟩ | ⟨rank, -⟩ | ⟨rank, -⟩
    · rw [rank]
      exact ⟨by omega, by omega⟩
    · rw [rank]
      exact ranks.offset p offset
    · rw [rank]
      exact ranks.offset p offset
  · intro p q offsetP offsetQ less
    rcases place p offsetP with ⟨newP, oldP, i, lowI, highI, rfl⟩ | ⟨newP, oldP, -⟩ | ⟨newP, oldP⟩
    · rcases place q offsetQ with ⟨newQ, -⟩ | ⟨-, -, j, lowJ, highJ, rfl⟩ | ⟨newQ, oldQ⟩
      · omega
      · exact before i j lowI highI lowJ highJ
      · exact ranks.lt _ _ offsetP offsetQ (by omega)
    · rcases place q offsetQ with ⟨newQ, oldQ, -⟩ | ⟨newQ, oldQ, -⟩ | ⟨newQ, oldQ⟩
      · omega
      · omega
      · exact ranks.lt _ _ offsetP offsetQ (by omega)
    · rcases place q offsetQ with ⟨newQ, oldQ, -⟩ | ⟨newQ, oldQ, -⟩ | ⟨newQ, oldQ⟩
      · exact ranks.lt _ _ offsetP offsetQ (by omega)
      · exact ranks.lt _ _ offsetP offsetQ (by omega)
      · exact ranks.lt _ _ offsetP offsetQ (by omega)
  · intro p q offsetP offsetQ equal
    apply ranks.shares p q offsetP offsetQ
    rcases place p offsetP with ⟨newP, oldP, -⟩ | ⟨newP, oldP, -⟩ | ⟨newP, oldP⟩
    · rcases place q offsetQ with ⟨newQ, oldQ, -⟩ | ⟨newQ, oldQ, -⟩ | ⟨newQ, oldQ⟩ <;> omega
    · rcases place q offsetQ with ⟨newQ, oldQ, -⟩ | ⟨newQ, oldQ, -⟩ | ⟨newQ, oldQ⟩ <;> omega
    · rcases place q offsetQ with ⟨newQ, oldQ, -⟩ | ⟨newQ, oldQ, -⟩ | ⟨newQ, oldQ⟩ <;> omega

/-- What has a rank of the front is an entry of the front. -/
theorem Front.entry_of_rank (front : Front old h s a b top) (offset : IsOffset old p)
    (low : a ≤ (settle s a b).V p) (high : (settle s a b).V p < b) :
    ∃ i, a ≤ i ∧ i < b ∧ s.I i = p := by
  have inside := front.high
  have nonempty := front.nonempty
  rcases front.place offset with ⟨-, -, entry⟩ | ⟨new, rank, j, lowJ, highJ, -⟩ | ⟨new, rank⟩
  · exact entry
  · omega
  · omega

/-- A front whose suffixes share twice as much is a run or a group of its own. -/
theorem settle_tiles (front : Front old h s a b top)
    (equal : ∀ i j, a ≤ i → i < b → a ≤ j → j < b → s.I i = s.I j ∨
      Shares old (h + h) (s.I i) (s.I j)) :
    Tiles old (h + h) (settle s a b) a b := by
  have high := front.high
  have nonempty := front.nonempty
  by_cases single : a = b - 1
  · have mark := settle_I_of_single (s := s) single
    have end_ : a - (settle s a b).I a = b := by omega
    refine .run (by omega) ?_ (by rw [end_]; exact .nil)
    intro i low below
    have only : i = a := by omega
    refine ⟨s.I a, (front.group.mem (le_refl a) (by omega)).1, ?_, ?_⟩
    · rw [settle_V_of_mem (le_refl a) nonempty]
      omega
    · intro q offset rank
      rcases front.entry_of_rank offset (by omega) (by omega) with ⟨j, lowJ, highJ, rfl⟩
      have index : j = a := by omega
      rw [index]
  · have entries : (settle s a b).I = s.I := settle_I_of_many single
    refine .group nonempty ⟨?_, ?_, ?_, ?_⟩ .nil
    · rw [entries]
      refine ⟨?_, ?_, ?_⟩
      · intro i inside
        rcases Set.mem_Ico.mp inside with ⟨lowI, highI⟩
        refine ⟨(front.group.mem lowI (by omega)).1, ?_⟩
        rw [settle_V_of_mem lowI highI]
        omega
      · exact front.group.lists.injOn.mono (Set.Ico_subset_Ico_right high)
      · intro p member
        rcases front.entry_of_rank member.1 member.2.1 member.2.2 with ⟨i, lowI, highI, entry⟩
        exact ⟨i, ⟨lowI, highI⟩, entry⟩
    · intro p member
      rcases front.entry_of_rank member.1 member.2.1 member.2.2 with ⟨i, lowI, highI, rfl⟩
      exact settle_V_of_mem lowI highI
    · intro p member
      rcases front.entry_of_rank member.1 member.2.1 member.2.2 with ⟨i, lowI, highI, rfl⟩
      -- some other entry of the front shares with it
      have other : ∃ j, a ≤ j ∧ j < b ∧ i ≠ j := by
        rcases eq_or_ne i a with first | later
        · exact ⟨b - 1, by omega, by omega, by omega⟩
        · exact ⟨a, by omega, by omega, later⟩
      rcases other with ⟨j, lowJ, highJ, ne⟩
      rcases equal i j lowI highI lowJ highJ with same | shares
      · exact absurd (front.group.inj lowI (by omega) lowJ (by omega) same) ne
      · exact shares.within member.1.1 member.1.2
    · intro p memberP q memberQ
      rcases front.entry_of_rank memberP.1 memberP.2.1 memberP.2.2 with ⟨i, lowI, highI, rfl⟩
      rcases front.entry_of_rank memberQ.1 memberQ.2.1 memberQ.2.2 with ⟨j, lowJ, highJ, rfl⟩
      exact equal i j lowI highI lowJ highJ

/-- What is behind the front is the rest of the group. -/
theorem settle_rest (front : Front old h s a b top) (more : b < top) :
    Group old h (settle s a b) b top := by
  have nonempty := front.nonempty
  have group := front.group
  have same (p : Int) (member : p ∈ ranked old (settle s a b).V b top) :
      (settle s a b).V p = s.V p ∧ s.V p = top - 1 ∧ ∃ j, b ≤ j ∧ j < top ∧ s.I j = p := by
    rcases member with ⟨offset, low, high⟩
    rcases front.place offset with ⟨new, -⟩ | rest | ⟨new, rank⟩
    · omega
    · exact rest
    · omega
  have member (p : Int) (inside : p ∈ ranked old (settle s a b).V b top) :
      p ∈ ranked old s.V a top := by
    rcases same p inside with ⟨-, rank, -⟩
    exact ⟨inside.1, by omega, by omega⟩
  refine ⟨⟨?_, ?_, ?_⟩, ?_, ?_, ?_⟩
  · intro i inside
    rcases Set.mem_Ico.mp inside with ⟨lowI, highI⟩
    have old_ := group.mem (i := i) (by omega) highI
    have rank := group.rank _ old_
    rw [settle_I_of_ne (by omega)]
    refine ⟨old_.1, ?_⟩
    rw [settle_V_of_not_mem]
    · omega
    · intro j lowJ highJ entry
      have index := group.inj lowJ (by omega) (by omega) highI entry
      omega
  · intro i insideI j insideJ entry
    rcases Set.mem_Ico.mp insideI with ⟨lowI, highI⟩
    rcases Set.mem_Ico.mp insideJ with ⟨lowJ, highJ⟩
    rw [settle_I_of_ne (by omega), settle_I_of_ne (by omega)] at entry
    exact group.inj (by omega) highI (by omega) highJ entry
  · intro p inside
    rcases same p inside with ⟨-, -, j, lowJ, highJ, entry⟩
    refine ⟨j, ⟨lowJ, highJ⟩, ?_⟩
    rw [settle_I_of_ne (by omega)]
    exact entry
  · intro p inside
    rcases same p inside with ⟨new, rank, -⟩
    omega
  · intro p inside
    exact group.room p (member p inside)
  · intro p insideP q insideQ
    exact group.shares p (member p insideP) q (member q insideQ)

/-- The front of a group whose suffixes share twice as much. -/
theorem settle_refined (front : Front old h s a b top)
    (equal : ∀ i j, a ≤ i → i < b → a ≤ j → j < b → s.I i = s.I j ∨
      Shares old (h + h) (s.I i) (s.I j)) :
    Refined old h s a b top (settle s a b) := by
  refine ⟨settle_ranks front, settle_tiles front equal, settle_rest front, ?_, ?_, ?_⟩
  · intro i outside
    have nonempty := front.nonempty
    exact settle_I_of_ne (by omega)
  · intro p other
    exact settle_V_of_not_mem other
  · intro i low high
    have rank := settle_V_of_mem (s := s) low high
    omega

/-! ## A range -/

theorem selectionSort_refined {stop : Int} (pos : 0 ≤ h) (ranks : Ranks old h s.V)
    (group : a < top → Group old h s a top) (low : 0 ≤ a) (high : stop ≤ top)
    (before : Before old s.I a stop top) (inside : a ≤ stop) (enough : stop - a ≤ n) :
    Refined old h s a stop top (selectionSort h stop n a s) := by
  induction n generalizing a s with
  | zero =>
    have done : a = stop := by omega
    rw [← done]
    exact .refl ranks group
  | succ n ih =>
    rw [selectionSort]
    by_cases going : a < stop
    · rw [if_pos going]
      have group := group (by omega)
      have selected := selectLoop_selected (V := s.V) (I := s.I) (h := h) going
      generalize selectLoop s.V h a (stop - a - 1).toNat 1 ⟨s.I, 1, s.V (s.I a + h)⟩ = sel
        at selected
      have sum : a + (stop - a) = stop := by omega
      have moved := selected.moved
      have pos' := selected.pos
      have le := selected.le
      rw [sum] at moved
      have before' := before.rearranged moved
      have group' : Group old h { s with I := sel.I } a top :=
        group.rearranged moved (le_refl a) high
      apply Refined.of_rearranged ?_ moved
      have front : Front old h { s with I := sel.I } a (a + sel.j) top := by
        refine ⟨ranks, group', low, by omega, by omega, ?_⟩
        intro i j lowI highI lowJ highJ
        rcases lt_or_ge j stop with near | far
        · have equal := selected.equal i lowI highI
          have greater := selected.greater j lowJ (by omega)
          exact group'.lt_of_key ranks pos (group'.mem lowI (by omega))
            (group'.mem (by omega) highJ) (equal ▸ greater)
        · exact before' i j lowI (by omega) far highJ
      have first := settle_refined front (by
        intro i j lowI highI lowJ highJ
        have equal := (selected.equal i lowI highI).trans (selected.equal j lowJ highJ).symm
        exact group'.shares_of_key ranks pos (group'.mem lowI (by omega))
          (group'.mem lowJ (by omega)) equal)
      refine first.trans (ih first.ranks first.rest (by omega) ?_ (by omega) (by omega)) high
      intro i j lowI highI lowJ highJ
      rw [first.entries i (.inr lowI), first.entries j (by omega)]
      exact before' i j (by omega) highI lowJ highJ
    · rw [if_neg going]
      have done : a = stop := by omega
      rw [← done]
      exact .refl ranks group

/-- The parts of a front that has been sifted are in order. -/
theorem Sifted.before {I : Offs} {jj kk x : Int} (sifted : Sifted s.V s.I h x a b jj kk I)
    (front : Front old h s a b top) (pos : 0 ≤ h) (lowC : a ≤ c) (highC : c ≤ b)
    (parts : c = jj ∨ c = kk) : Before old I a c top := by
  have ordered := sifted.ordered
  have high := front.high
  have group : Group old h { s with I := I } a top :=
    front.group.rearranged sifted.moved (le_refl a) front.high
  intro i j lowI highI lowJ highJ
  rcases lt_or_ge j b with near | far
  · apply group.lt_of_key front.ranks pos (group.mem lowI (by omega)) (group.mem (by omega) highJ)
    show s.V (I i + h) < s.V (I j + h)
    rcases lt_or_ge i jj with less | equal
    · have below := sifted.less i lowI less
      rcases lt_or_ge j kk with mid | above
      · have same := sifted.equal j (by omega) mid
        omega
      · have greater := sifted.greater j above near
        omega
    · have same := sifted.equal i equal (by omega)
      have greater := sifted.greater j (by omega) near
      omega
  · exact front.before.rearranged sifted.moved i j lowI (by omega) far highJ

/-- The entry whose key a long range is parted by is one of those equal to it. -/
theorem keyCount_pivot {len : Int} (long : 0 < len) {x : Int}
    (pivot : s.V (s.I (a + len / 2) + h) = x) :
    1 ≤ keyCount s.V s.I h a (a + len) (· = x) ∧
      (keyCount s.V s.I h a (a + len) (· < x) : Int) + keyCount s.V s.I h a (a + len) (· = x) ≤
        len := by
  have whole : a + (len.toNat : Int) = a + len := by omega
  have total := keyCount_total (V := s.V) (I := s.I) (h := h) (x := x) (a := a) (n := len.toNat)
  rw [whole] at total
  refine ⟨Finset.card_pos.mpr ⟨a + len / 2, ?_⟩, by omega⟩
  exact Finset.mem_filter.mpr ⟨Finset.mem_Ico.mpr (by omega), pivot⟩

/-- `split`, for the entries before `a + len` of the rest of a group. -/
theorem split_refined {len : Int} (pos : 0 ≤ h) (front : Front old h s a (a + len) top)
    (enough : len ≤ n) : Refined old h s a (a + len) top (split h n a len s) := by
  induction n generalizing a len s with
  | zero =>
    have nonempty := front.nonempty
    omega
  | succ n ih =>
    have nonempty := front.nonempty
    have high := front.high
    have low := front.low
    rw [split]
    split
    · exact selectionSort_refined pos front.ranks (fun _ => front.group) front.low front.high
        front.before (by omega) (by omega)
    · next long =>
      dsimp only
      rw [countLoop_eq]
      have whole : a + (len.toNat : Int) = a + len := by omega
      rw [whole]
      dsimp only
      rw [zero_add, zero_add]
      generalize pivot : s.V (s.I (a + len / 2) + h) = x
      have bounds := bounds_of_keyCount (V := s.V) (I := s.I) (h := h) (x := x) (a := a)
        (b := a + len) (by omega)
      rcases keyCount_pivot (show 0 < len by omega) pivot with ⟨some_, total⟩
      have ordered : a ≤ keyCount s.V s.I h a (a + len) (· < x) + a := by omega
      have last : keyCount s.V s.I h a (a + len) (· = x) +
          (keyCount s.V s.I h a (a + len) (· < x) + a) ≤ a + len := by omega
      have some' : keyCount s.V s.I h a (a + len) (· < x) + a <
          keyCount s.V s.I h a (a + len) (· = x) +
          (keyCount s.V s.I h a (a + len) (· < x) + a) := by omega
      revert bounds ordered last some'
      generalize (keyCount s.V s.I h a (a + len) (· = x) : Int) +
        (keyCount s.V s.I h a (a + len) (· < x) + a) = kk
      generalize (keyCount s.V s.I h a (a + len) (· < x) : Int) + a = jj
      intro bounds lowJ highK between
      have sifted := sifted bounds ⟨lowJ, between.le, highK⟩
      have size : (a + len - a).toNat = len.toNat := by
        rw [add_sub_cancel_left]
      rw [size] at sifted
      generalize (equalLoop s.V h x jj kk len.toNat
        (lessLoop s.V h x jj kk len.toNat ⟨s.I, a, 0, 0⟩)).I = I at sifted
      have group : Group old h { s with I := I } a top :=
        front.group.rearranged sifted.moved (le_refl a) high
      apply Refined.of_rearranged ?_ sifted.moved
      have beforeJ := sifted.before front pos lowJ (by omega) (.inl rfl)
      have beforeK := sifted.before front pos (by omega) highK (.inr rfl)
      -- the keys below `x`
      have first : Refined old h { s with I := I } a jj top
          (if a < jj then split h n a (jj - a) { s with I := I } else { s with I := I }) := by
        split
        · next less =>
          have end_ : a + (jj - a) = jj := by omega
          have part : Refined old h { s with I := I } a (a + (jj - a)) top
              (split h n a (jj - a) { s with I := I }) := by
            apply ih _ (by omega)
            rw [end_]
            exact ⟨front.ranks, group, low, less, by omega, beforeJ⟩
          rw [end_] at part
          exact part
        · have none_ : jj = a := by omega
          rw [none_]
          exact .refl front.ranks fun _ => group
      generalize (if a < jj then split h n a (jj - a) { s with I := I } else { s with I := I }) = s₁
        at first
      -- those equal to it
      have front₁ : Front old h s₁ jj kk top := by
        refine ⟨first.ranks, first.rest (by omega), by omega, between, by omega, ?_⟩
        intro i j lowI highI lowJ' highJ
        rw [first.entries i (.inr lowI), first.entries j (by omega)]
        exact beforeK i j (by omega) highI lowJ' highJ
      have second := settle_refined front₁ (by
        intro i j lowI highI lowJ' highJ
        rw [first.entries i (.inr lowI), first.entries j (.inr lowJ')]
        have equal := (sifted.equal i lowI highI).trans (sifted.equal j lowJ' highJ).symm
        exact group.shares_of_key front.ranks pos (group.mem (by omega) (by omega))
          (group.mem (by omega) (by omega)) equal)
      have both := first.trans second (by omega)
      -- and those above it
      split
      · next more =>
        have end_ : kk + (a + len - kk) = a + len := by omega
        have part : Refined old h (settle s₁ jj kk) kk (kk + (a + len - kk)) top
            (split h n kk (a + len - kk) (settle s₁ jj kk)) := by
          apply ih _ (by omega)
          rw [end_]
          refine ⟨both.ranks, both.rest (by omega), by omega, more, high, ?_⟩
          intro i j lowI highI lowJ' highJ
          rw [both.entries i (.inr lowI), both.entries j (by omega)]
          exact front.before.rearranged sifted.moved i j (by omega) highI lowJ' highJ
        rw [end_] at part
        exact both.trans part high
      · have done : kk = a + len := by omega
        rw [← done]
        exact both

/-! ## The rounds of a split -/

theorem split_empty {len : Int} (empty : len ≤ 0) : split h n a len s = s := by
  cases n with
  | zero => rfl
  | succ n =>
    rw [split, if_pos (by omega), Int.toNat_of_nonpos empty]
    rfl

/-- A range is parted into shorter ones, so that rounds beyond its entries change nothing. -/
theorem split_rounds {m : Nat} {len : Int} (enough : len ≤ n) (more : len ≤ m) :
    split h n a len s = split h m a len s := by
  induction n generalizing m a len s with
  | zero => rw [split_empty (by omega), split_empty (by omega)]
  | succ n ih =>
    cases m with
    | zero => rw [split_empty (by omega), split_empty (by omega)]
    | succ m =>
      rw [split, split]
      by_cases short : len < 16
      · rw [if_pos short, if_pos short]
      rw [if_neg short, if_neg short]
      dsimp only
      rw [countLoop_eq, show a + (len.toNat : Int) = a + len by omega]
      dsimp only
      rw [zero_add, zero_add]
      generalize pivot : s.V (s.I (a + len / 2) + h) = x
      rcases keyCount_pivot (show 0 < len by omega) pivot with ⟨some_, total⟩
      generalize keyCount s.V s.I h a (a + len) (· < x) = less at total
      generalize keyCount s.V s.I h a (a + len) (· = x) = equal at some_ total
      have below (s : Sorting) :
          split h n a (↑less + a - a) s = split h m a (↑less + a - a) s :=
        ih (by omega) (by omega)
      have above (s : Sorting) :
          split h n (equal + (less + a)) (a + len - (equal + (less + a))) s =
            split h m (equal + (less + a)) (a + len - (equal + (less + a))) s :=
        ih (by omega) (by omega)
      simp only [below, above]

end Bsdiff

end Tr6260
