import Mathlib
import Tr6260.Rearrange
import Tr6260.SwPackage.Qsufsort

/-!
# What the loops of `split` do to their range

The key of the offset `p` is the rank of `p + h`. A short range gets its least keys to its front,
a long one is parted into the keys below, at and above one of them; nothing else is moved.
-/

namespace Tr6260

namespace Bsdiff

variable {V I I₀ : Offs} {h x a b c i k jj kk stop : Int} {n : Nat}

@[simp] theorem Offs.set_get (array : Offs) (a value i : Int) :
    (array.set a value) i = if i = a then value else array i :=
  Function.update_apply _ _ _ _

theorem exchange_get (I : Offs) (a b i : Int) :
    exchange I a b i = if i = b then I a else if i = a then I b else I i := by
  rw [exchange, Offs.set_get, Offs.set_get]

theorem exchange_eq_comp (I : Offs) (a b : Int) :
    (exchange I a b).get = I.get ∘ Equiv.swap a b := by
  funext i
  rw [exchange_get, Function.comp_apply, Equiv.swap_apply_def]
  grind

theorem exchange_rearranged {range : Set Int} (insideA : a ∈ range) (insideB : b ∈ range) :
    Rearranged range I.get (exchange I a b).get := by
  rw [exchange_eq_comp]
  exact .swap insideA insideB

/-! ## A short range -/

/-- The first `i` entries from `k` on have their least keys, which are `x`, in front. -/
structure Selected (V I₀ : Offs) (h k i : Int) (sel : Selection) : Prop where
  moved : Rearranged (Set.Ico k (k + i)) I₀.get sel.I.get
  pos : 1 ≤ sel.j
  le : sel.j ≤ i
  equal : ∀ c, k ≤ c → c < k + sel.j → V (sel.I c + h) = sel.x
  greater : ∀ c, k + sel.j ≤ c → c < k + i → sel.x < V (sel.I c + h)

theorem Selected.least {sel : Selection} (selected : Selected V I₀ h k i sel) (low : k ≤ c)
    (high : c < k + i) : sel.x ≤ V (sel.I c + h) := by
  rcases lt_or_ge c (k + sel.j) with front | behind
  · exact (selected.equal c low front).ge
  · exact (selected.greater c behind high).le

theorem Selected.start : Selected V I h k 1 ⟨I, 1, V (I k + h)⟩ := by
  refine ⟨.refl, le_refl _, le_refl _, ?_, ?_⟩
  · intro c low high
    have same : c = k := by
      dsimp only at high
      omega
    rw [same]
  · intro c low high
    dsimp only at low
    omega

/-- The exchange of the entry `i` with the one behind the least keys. -/
theorem Selected.exchanged {sel : Selection}
    (moved : Rearranged (Set.Ico k (k + i)) I₀.get sel.I.get) (low : 0 ≤ c) (high : c ≤ i) :
    Rearranged (Set.Ico k (k + (i + 1))) I₀.get (exchange sel.I (k + c) (k + i)).get := by
  have wide : Set.Ico k (k + i) ⊆ Set.Ico k (k + (i + 1)) :=
    Set.Ico_subset_Ico_right (by omega)
  exact (moved.mono wide).trans
    (exchange_rearranged (Set.mem_Ico.mpr (by omega)) (Set.mem_Ico.mpr (by omega)))

theorem Selected.round {sel : Selection} (selected : Selected V I₀ h k i sel) :
    Selected V I₀ h k (i + 1) (selectRound V h k i sel) := by
  have pos := selected.pos
  have le := selected.le
  have wide : Set.Ico k (k + i) ⊆ Set.Ico k (k + (i + 1)) :=
    Set.Ico_subset_Ico_right (by omega)
  unfold selectRound
  by_cases less : V (sel.I (k + i) + h) < sel.x
  · -- a new least key: the one entry that has it goes to the front
    rw [if_pos less, if_pos rfl]
    refine ⟨Selected.exchanged (c := 0) selected.moved (le_refl 0) (by omega), ?_, ?_, ?_, ?_⟩
    · show (1 : Int) ≤ 0 + 1
      omega
    · show (0 : Int) + 1 ≤ i + 1
      omega
    · intro c low high
      dsimp only at high ⊢
      have first : c = k + 0 := by omega
      rw [exchange_get, if_neg (by omega), if_pos first]
    · intro c low high
      dsimp only at low ⊢
      rw [exchange_get]
      split
      · have front := selected.equal (k + 0) (by omega) (by omega)
        omega
      · rw [if_neg (by omega)]
        have least := selected.least (c := c) (by omega) (by omega)
        omega
  · rw [if_neg less]
    by_cases equal : V (sel.I (k + i) + h) = sel.x
    · rw [if_pos equal]
      refine ⟨Selected.exchanged selected.moved (by omega) le, ?_, ?_, ?_, ?_⟩
      · show 1 ≤ sel.j + 1
        omega
      · show sel.j + 1 ≤ i + 1
        omega
      · intro c low high
        dsimp only at high ⊢
        rw [exchange_get]
        split
        · have same : sel.j = i := by omega
          rw [same]
          exact equal
        · split
          · exact equal
          · exact selected.equal c low (by omega)
      · intro c low high
        dsimp only at low ⊢
        rw [exchange_get]
        split
        · exact selected.greater (k + sel.j) (by omega) (by omega)
        · rw [if_neg (by omega)]
          exact selected.greater c (by omega) (by omega)
    · rw [if_neg equal]
      refine ⟨selected.moved.mono wide, pos, by omega, selected.equal, ?_⟩
      intro c low high
      rcases eq_or_ne c (k + i) with same | other
      · rw [same]
        omega
      · exact selected.greater c low (by omega)

theorem Selected.loop {sel : Selection} (selected : Selected V I₀ h k i sel) :
    Selected V I₀ h k (i + n) (selectLoop V h k n i sel) := by
  induction n generalizing i sel with
  | zero =>
    rw [Nat.cast_zero, add_zero]
    exact selected
  | succ n ih =>
    have next := ih selected.round
    have same : i + 1 + (n : Int) = i + ((n + 1 : Nat) : Int) := by omega
    rw [same] at next
    exact next

/-- The whole of a short range. -/
theorem selectLoop_selected (low : k < stop) :
    Selected V I h k (stop - k) (selectLoop V h k (stop - k - 1).toNat 1 ⟨I, 1, V (I k + h)⟩) := by
  have first : Selected V I h k 1 ⟨I, 1, V (I k + h)⟩ := .start
  have same : 1 + ((stop - k - 1).toNat : Int) = stop - k := by omega
  have whole : Selected V I h k (1 + ((stop - k - 1).toNat : Int))
    (selectLoop V h k (stop - k - 1).toNat 1 ⟨I, 1, V (I k + h)⟩) := first.loop
  rw [same] at whole
  exact whole

/-! ## A long range -/

section Long

variable {s : Sorting} {p : Parting}

/-- How many of a range have a key with a property. -/
noncomputable def keyCount (V I : Offs) (h a b : Int) (P : Int → Prop) [DecidablePred P] : Nat :=
  ((Finset.Ico a b).filter fun i => P (V (I i + h))).card

theorem keyCount_succ {P : Int → Prop} [DecidablePred P] (low : a < b) :
    keyCount V I h a b P = keyCount V I h (a + 1) b P + if P (V (I a + h)) then 1 else 0 := by
  have front : Finset.Ico a b = insert a (Finset.Ico (a + 1) b) := by
    ext i
    rw [Finset.mem_insert, Finset.mem_Ico, Finset.mem_Ico]
    omega
  rw [keyCount, front, Finset.filter_insert]
  split
  · rw [Finset.card_insert_of_notMem, keyCount]
    intro member
    have low := (Finset.mem_Ico.mp (Finset.mem_filter.mp member).1).1
    omega
  · rfl

theorem countLoop_eq (counts : Int × Int) :
    countLoop s h x n i counts =
      (counts.1 + keyCount s.V s.I h i (i + n) (· < x),
        counts.2 + keyCount s.V s.I h i (i + n) (· = x)) := by
  induction n generalizing i counts with
  | zero => simp [countLoop, keyCount]
  | succ n ih =>
    have last : i + 1 + (n : Int) = i + ((n + 1 : Nat) : Int) := by omega
    rw [countLoop, ih, last, keyCount_succ (a := i) (by omega), keyCount_succ (a := i) (by omega)]
    ext
    · dsimp only
      split <;> push_cast <;> omega
    · dsimp only
      split <;> push_cast <;> omega

/-- The range from `a` to `b` with what the two loops have found of it: keys below `x` from `a`
on, keys equal to it from `jj` on and keys above it from `kk` on. -/
structure Parted (V I₀ : Offs) (h x a b jj kk : Int) (p : Parting) : Prop where
  moved : Rearranged (Finset.Ico a b : Set Int) I₀.get p.I.get
  bounds : a ≤ p.i ∧ p.i ≤ jj ∧ 0 ≤ p.j ∧ jj + p.j ≤ kk ∧ 0 ≤ p.k ∧ kk + p.k ≤ b
  less : ∀ c, a ≤ c → c < p.i → V (p.I c + h) < x
  equal : ∀ c, jj ≤ c → c < jj + p.j → V (p.I c + h) = x
  greater : ∀ c, kk ≤ c → c < kk + p.k → x < V (p.I c + h)

/-- Where the parts begin is what the range has of each kind. -/
structure Bounds (V I₀ : Offs) (h x a b jj kk : Int) : Prop where
  less : (keyCount V I₀ h a b (· < x) : Int) = jj - a
  equal : (keyCount V I₀ h a b (· = x) : Int) = kk - jj
  greater : (keyCount V I₀ h a b (x < ·) : Int) = b - kk

namespace Parted

theorem exchanged (parted : Parted V I₀ h x a b jj kk p) (lowC : a ≤ c) (highC : c < b)
    (lowI : a ≤ i) (highI : i < b) :
    Rearranged (Finset.Ico a b : Set Int) I₀.get (exchange p.I c i).get := by
  apply parted.moved.trans
  apply exchange_rearranged
  · exact Finset.mem_coe.mpr (Finset.mem_Ico.mpr ⟨lowC, highC⟩)
  · exact Finset.mem_coe.mpr (Finset.mem_Ico.mpr ⟨lowI, highI⟩)

theorem keyCount_eq (parted : Parted V I₀ h x a b jj kk p) (P : Int → Prop) [DecidablePred P] :
    keyCount V p.I h a b P = keyCount V I₀ h a b P :=
  parted.moved.card_filter fun q => P (V (q + h))

/-- An entry with the key `x` that was not there yet has a place among its kind. -/
theorem equal_room (parted : Parted V I₀ h x a b jj kk p) (bounds : Bounds V I₀ h x a b jj kk)
    (low : a ≤ c) (high : c < b) (other : c < jj ∨ jj + p.j ≤ c) (key : V (p.I c + h) = x) :
    jj + p.j < kk := by
  have inside := parted.bounds
  have more : (Finset.Ico jj (jj + p.j)).card + 1 ≤ keyCount V p.I h a b (· = x) := by
    apply Finset.card_add_one_le_filter (i := c)
    · exact Finset.Ico_subset_Ico (by omega) (by omega)
    · intro i member
      rcases Finset.mem_Ico.mp member with ⟨low, high⟩
      exact parted.equal i low high
    · exact Finset.mem_Ico.mpr ⟨low, high⟩
    · rw [Finset.mem_Ico]
      omega
    · exact key
  have count := bounds.equal
  rw [Int.card_Ico, parted.keyCount_eq] at more
  omega

/-- So has one with a key above it. -/
theorem greater_room (parted : Parted V I₀ h x a b jj kk p) (bounds : Bounds V I₀ h x a b jj kk)
    (low : a ≤ c) (high : c < kk) (key : x < V (p.I c + h)) : kk + p.k < b := by
  have inside := parted.bounds
  have more : (Finset.Ico kk (kk + p.k)).card + 1 ≤ keyCount V p.I h a b (x < ·) := by
    apply Finset.card_add_one_le_filter (i := c)
    · exact Finset.Ico_subset_Ico (by omega) (by omega)
    · intro i member
      rcases Finset.mem_Ico.mp member with ⟨low, high⟩
      exact parted.greater i low high
    · exact Finset.mem_Ico.mpr ⟨low, by omega⟩
    · rw [Finset.mem_Ico]
      omega
    · exact key
  have count := bounds.greater
  rw [Int.card_Ico, parted.keyCount_eq] at more
  omega

/-- Once the keys below `x` are in front, none is behind them. -/
theorem not_less (parted : Parted V I₀ h x a b jj kk p) (bounds : Bounds V I₀ h x a b jj kk)
    (done : p.i = jj) (low : jj ≤ c) (high : c < b) : x ≤ V (p.I c + h) := by
  have inside := parted.bounds
  by_contra less
  have member : c ∈ Finset.Ico a jj := by
    apply Finset.mem_of_card_filter_le (s := Finset.Ico a b)
      (P := fun i => V (p.I i + h) < x)
    · exact Finset.Ico_subset_Ico_right (by omega)
    · intro i member
      rcases Finset.mem_Ico.mp member with ⟨low, high⟩
      exact parted.less i low (by omega)
    · change keyCount V p.I h a b (· < x) ≤ _
      have count := bounds.less
      rw [Int.card_Ico, parted.keyCount_eq]
      omega
    · exact Finset.mem_Ico.mpr ⟨by omega, high⟩
    · exact not_le.mp less
  have front := (Finset.mem_Ico.mp member).2
  omega

/-- Once those equal to it follow, all that is behind them is above it. -/
theorem rest_greater (parted : Parted V I₀ h x a b jj kk p) (bounds : Bounds V I₀ h x a b jj kk)
    (done : p.i = jj) (done' : jj + p.j = kk) (low : kk ≤ c) (high : c < b) :
    x < V (p.I c + h) := by
  have inside := parted.bounds
  rcases (parted.not_less bounds done (by omega) high).lt_or_eq with above | equal
  · exact above
  · have room := parted.equal_room bounds (by omega) high (.inr (by omega)) equal.symm
    omega

/-- What is above `x` goes to the end of what has been found above it. -/
theorem exchange_above (parted : Parted V I₀ h x a b jj kk p) (bounds : Bounds V I₀ h x a b jj kk)
    (front : p.i ≤ i) (other : i < jj ∨ jj + p.j ≤ i) (inKk : i < kk) (above : x < V (p.I i + h)) :
    Parted V I₀ h x a b jj kk { p with I := exchange p.I i (kk + p.k), k := p.k + 1 } := by
  have inside := parted.bounds
  have room := parted.greater_room bounds (c := i) (by omega) inKk above
  refine ⟨parted.exchanged (by omega) (by omega) (by omega) (by omega), ?_, ?_, ?_, ?_⟩
  · dsimp only
    omega
  · intro c low high
    dsimp only at high ⊢
    rw [exchange_get, if_neg (by omega), if_neg (by omega)]
    exact parted.less c low high
  · intro c low high
    dsimp only at high ⊢
    rw [exchange_get, if_neg (by omega), if_neg (by omega)]
    exact parted.equal c low high
  · intro c low high
    dsimp only at high ⊢
    rw [exchange_get]
    split
    · exact above
    · rw [if_neg (by omega)]
      exact parted.greater c low (by omega)

/-- One round of `while(i<jj)`. -/
theorem less_round (parted : Parted V I₀ h x a b jj kk p) (bounds : Bounds V I₀ h x a b jj kk)
    (going : p.i < jj) :
    Parted V I₀ h x a b jj kk
      (if V (p.I p.i + h) < x then { p with i := p.i + 1 }
      else if V (p.I p.i + h) = x then { p with I := exchange p.I p.i (jj + p.j), j := p.j + 1 }
      else { p with I := exchange p.I p.i (kk + p.k), k := p.k + 1 }) := by
  have inside := parted.bounds
  split
  · next less =>
    refine ⟨parted.moved, ?_, ?_, parted.equal, parted.greater⟩
    · dsimp only
      omega
    · intro c low high
      dsimp only at high ⊢
      rcases eq_or_ne c p.i with same | other
      · rw [same]
        exact less
      · exact parted.less c low (by omega)
  · next notLess =>
    split
    · next equal =>
      have room := parted.equal_room bounds (c := p.i) (by omega) (by omega) (.inl going) equal
      refine ⟨parted.exchanged (by omega) (by omega) (by omega) (by omega), ?_, ?_, ?_, ?_⟩
      · dsimp only
        omega
      · intro c low high
        dsimp only at high ⊢
        rw [exchange_get, if_neg (by omega), if_neg (by omega)]
        exact parted.less c low high
      · intro c low high
        dsimp only at high ⊢
        rw [exchange_get]
        split
        · exact equal
        · rw [if_neg (by omega)]
          exact parted.equal c low (by omega)
      · intro c low high
        dsimp only at high ⊢
        rw [exchange_get, if_neg (by omega), if_neg (by omega)]
        exact parted.greater c low high
    · next notEqual =>
      have above : x < V (p.I p.i + h) := by omega
      exact parted.exchange_above bounds (le_refl _) (.inl going) (by omega) above

/-- One round of `while(jj+j<kk)`. -/
theorem equal_round (parted : Parted V I₀ h x a b jj kk p) (bounds : Bounds V I₀ h x a b jj kk)
    (done : p.i = jj) (going : jj + p.j < kk) :
    Parted V I₀ h x a b jj kk
      (if V (p.I (jj + p.j) + h) = x then { p with j := p.j + 1 }
      else { p with I := exchange p.I (jj + p.j) (kk + p.k), k := p.k + 1 }) := by
  have inside := parted.bounds
  split
  · next equal =>
    refine ⟨parted.moved, ?_, parted.less, ?_, parted.greater⟩
    · dsimp only
      omega
    · intro c low high
      dsimp only at high ⊢
      rcases eq_or_ne c (jj + p.j) with same | other
      · rw [same]
        exact equal
      · exact parted.equal c low (by omega)
  · next notEqual =>
    have least := parted.not_less bounds done (c := jj + p.j) (by omega) (by omega)
    have above : x < V (p.I (jj + p.j) + h) := by omega
    exact parted.exchange_above bounds (by omega) (.inr (le_refl _)) going above

theorem lessLoop_parted (parted : Parted V I₀ h x a b jj kk p)
    (bounds : Bounds V I₀ h x a b jj kk)
    (enough : jj - p.i + (kk - jj - p.j) + (b - kk - p.k) ≤ n) :
    Parted V I₀ h x a b jj kk (lessLoop V h x jj kk n p) ∧
      (lessLoop V h x jj kk n p).i = jj := by
  have inside := parted.bounds
  induction n generalizing p with
  | zero => exact ⟨parted, by rw [lessLoop]; omega⟩
  | succ n ih =>
    rw [lessLoop]
    by_cases going : p.i < jj
    · rw [if_pos going]
      have next := parted.less_round bounds going
      refine ih next ?_ next.bounds
      split
      · dsimp only
        omega
      · split
        · dsimp only
          omega
        · dsimp only
          omega
    · rw [if_neg going]
      exact ⟨parted, by omega⟩

theorem equalLoop_parted (parted : Parted V I₀ h x a b jj kk p)
    (bounds : Bounds V I₀ h x a b jj kk) (done : p.i = jj)
    (enough : kk - jj - p.j + (b - kk - p.k) ≤ n) :
    Parted V I₀ h x a b jj kk (equalLoop V h x jj kk n p) ∧
      (equalLoop V h x jj kk n p).i = jj ∧
      jj + (equalLoop V h x jj kk n p).j = kk := by
  have inside := parted.bounds
  induction n generalizing p with
  | zero => exact ⟨parted, done, by rw [equalLoop]; omega⟩
  | succ n ih =>
    rw [equalLoop]
    by_cases going : jj + p.j < kk
    · rw [if_pos going]
      have next := parted.equal_round bounds done going
      refine ih next ?_ ?_ next.bounds
      · split
        · exact done
        · exact done
      · split
        · dsimp only
          omega
        · dsimp only
          omega
    · rw [if_neg going]
      exact ⟨parted, done, by omega⟩

end Parted

theorem keyCount_total :
    keyCount V I h a (a + n) (· < x) + keyCount V I h a (a + n) (· = x) +
      keyCount V I h a (a + n) (x < ·) = n := by
  induction n generalizing a with
  | zero => simp [keyCount]
  | succ n ih =>
    have last : a + ((n + 1 : Nat) : Int) = a + 1 + (n : Int) := by omega
    have before := ih (a := a + 1)
    rw [last, keyCount_succ (a := a) (by omega), keyCount_succ (a := a) (by omega),
      keyCount_succ (a := a) (by omega)]
    rcases lt_trichotomy (V (I a + h)) x with less | equal | greater
    · rw [if_pos less, if_neg less.ne, if_neg less.le.not_gt]
      omega
    · rw [if_neg equal.not_lt, if_pos equal, if_neg equal.not_gt]
      omega
    · rw [if_neg greater.le.not_gt, if_neg greater.ne', if_pos greater]
      omega

theorem bounds_of_keyCount (low : a ≤ b) :
    Bounds V I h x a b (keyCount V I h a b (· < x) + a)
      (keyCount V I h a b (· = x) + (keyCount V I h a b (· < x) + a)) := by
  have total := keyCount_total (V := V) (I := I) (h := h) (x := x) (a := a) (n := (b - a).toNat)
  have last : a + ((b - a).toNat : Int) = b := by omega
  rw [last] at total
  refine ⟨by omega, by omega, by omega⟩

/-- What the three loops of `split` leave of a long range. -/
structure Sifted (V I₀ : Offs) (h x a b jj kk : Int) (I : Offs) : Prop where
  moved : Rearranged (Set.Ico a b) I₀.get I.get
  ordered : a ≤ jj ∧ jj ≤ kk ∧ kk ≤ b
  less : ∀ c, a ≤ c → c < jj → V (I c + h) < x
  equal : ∀ c, jj ≤ c → c < kk → V (I c + h) = x
  greater : ∀ c, kk ≤ c → c < b → x < V (I c + h)

theorem sifted (bounds : Bounds V I h x a b jj kk) (ordered : a ≤ jj ∧ jj ≤ kk ∧ kk ≤ b) :
    Sifted V I h x a b jj kk
      (equalLoop V h x jj kk (b - a).toNat
        (lessLoop V h x jj kk (b - a).toNat ⟨I, a, 0, 0⟩)).I := by
  have first : Parted V I h x a b jj kk ⟨I, a, 0, 0⟩ := by
    refine ⟨.refl, ?_, ?_, ?_, ?_⟩
    · dsimp only
      omega
    · intro c low high
      dsimp only at high
      omega
    · intro c low high
      dsimp only at high
      omega
    · intro c low high
      dsimp only at high
      omega
  rcases first.lessLoop_parted bounds (n := (b - a).toNat) (by dsimp only; omega) with
    ⟨second, done⟩
  have inside := second.bounds
  rcases second.equalLoop_parted bounds done (n := (b - a).toNat) (by omega) with
    ⟨third, done, done'⟩
  refine ⟨?_, ordered, ?_, ?_, ?_⟩
  · rw [← Finset.coe_Ico]
    exact third.moved
  · intro c low high
    exact third.less c low (by omega)
  · intro c low high
    exact third.equal c low (by omega)
  · intro c low high
    exact third.rest_greater bounds done done' low high

end Long

end Bsdiff

end Tr6260
