import Tr6260.SwPackage.GroupRounds

/-!
# `qsufsort` sorts the suffixes

The buckets group the suffixes by their first byte, the rounds tell them apart, and the ranks
they end with are turned into the list of the suffixes in their order.
-/

namespace Tr6260

namespace Bsdiff

open SuffixOrder

variable {old : List UInt8} {I V buckets : Offs} {s : Sorting} {c d i j p q x : Int} {n : Nat}

/-! ## The buckets -/

/-- How many bytes are below `c`. -/
def below (old : List UInt8) (c : Int) : Nat := old.countP fun b => (b.toNat : Int) < c

/-- How many are `c`. -/
def count (old : List UInt8) (c : Int) : Nat := old.countP fun b => (b.toNat : Int) = c

theorem below_succ (old : List UInt8) (c : Int) :
    below old (c + 1) = below old c + count old c := by
  induction old with
  | nil => rfl
  | cons b old ih =>
    unfold below count at ih ⊢
    rw [List.countP_cons, List.countP_cons, List.countP_cons, ih]
    rcases lt_trichotomy (b.toNat : Int) c with less | equal | greater
    · simp [less, less.ne, less.le]
      omega
    · simp [equal]
      omega
    · simp [greater.not_gt, greater.ne', greater]

theorem below_mono (low : c ≤ d) : below old c ≤ below old d := by
  apply List.countP_mono_left
  intro b _ less
  rw [decide_eq_true_iff] at less ⊢
  omega

theorem below_zero : below old 0 = 0 := by
  apply List.countP_eq_zero.mpr
  intro b _ less
  rw [decide_eq_true_iff] at less
  omega

theorem below_256 : below old 256 = old.length := by
  apply List.countP_eq_length.mpr
  intro b _
  rw [decide_eq_true_iff]
  have small := b.toNat_lt
  omega

theorem count_pos {b : UInt8} (member : b ∈ old) : 0 < count old b.toNat := by
  apply List.countP_pos_iff.mpr
  exact ⟨b, member, by simp⟩

theorem countBytes_get : countBytes old buckets x = buckets x + count old x := by
  induction old generalizing buckets with
  | nil => simp [countBytes, count]
  | cons b old ih =>
    rw [countBytes, ih, Offs.set_get, count, count, List.countP_cons]
    by_cases same : x = b.toNat
    · rw [if_pos same, same]
      simp
      omega
    · rw [if_neg same]
      simp [Ne.symm same]

theorem sumBuckets_get (first : buckets (i - 1) = below old i)
    (counts : ∀ c, i ≤ c → buckets c = count old c) :
    sumBuckets n i buckets x =
      if i ≤ x ∧ x < i + n then (below old (x + 1) : Int) else buckets x := by
  induction n generalizing i buckets with
  | zero => rw [sumBuckets, if_neg (by omega)]
  | succ n ih =>
    have sum : buckets i + buckets (i - 1) = below old (i + 1) := by
      rw [first, counts i (le_refl i), below_succ]
      omega
    rw [sumBuckets, ih]
    · rw [Offs.set_get]
      by_cases here : x = i
      · rw [if_neg (by omega), if_pos here, if_pos (by omega), here]
        exact sum
      · rw [if_neg here]
        by_cases later : i + 1 ≤ x ∧ x < i + 1 + n
        · rw [if_pos later, if_pos (by omega)]
        · rw [if_neg later, if_neg (by omega)]
    · rw [Offs.set_get, if_pos (by omega)]
      exact sum
    · intro c above
      rw [Offs.set_get, if_neg (by omega)]
      exact counts c (by omega)

theorem shiftBuckets_get :
    shiftBuckets n buckets x = if 1 ≤ x ∧ x ≤ n then buckets (x - 1) else buckets x := by
  induction n generalizing buckets with
  | zero => rw [shiftBuckets, if_neg (by omega)]
  | succ n ih =>
    rw [shiftBuckets, ih, Offs.set_get, Offs.set_get]
    by_cases last : x = (n + 1 : Nat)
    · have before : x - 1 = n := by omega
      rw [if_neg (by omega), if_pos last, if_pos (by omega), before]
    · by_cases inside : 1 ≤ x ∧ x ≤ n
      · rw [if_pos inside, if_neg (by omega), if_pos (by omega)]
      · rw [if_neg inside, if_neg last, if_neg (by omega)]

/-- The buckets before the suffixes are placed: how many bytes are below. -/
theorem buckets_get (low : 0 ≤ x) (high : x < 256) :
    ((shiftBuckets 255 (sumBuckets 255 1 (countBytes old ⟨fun _ => 0⟩))).set 0 0) x =
      below old x := by
  have zero (c : Int) : countBytes old ⟨fun _ => 0⟩ c = count old c := by
    rw [countBytes_get]
    exact zero_add _
  have sums := @sumBuckets_get old (countBytes old ⟨fun _ => 0⟩) 1
  rw [Offs.set_get]
  split
  · next first => rw [first, below_zero, Nat.cast_zero]
  · next later =>
    rw [shiftBuckets_get, if_pos (by omega), sums]
    · split
      · rw [sub_add_cancel]
      · have first : x = 1 := by omega
        have one := below_succ old 0
        rw [first, sub_self, zero, ← zero_add (1 : Int), one, below_zero, zero_add]
    · have one := below_succ old 0
      rw [sub_self, zero, ← zero_add (1 : Int), one, below_zero, zero_add]
    · intro c _
      exact zero c

/-! ## The suffixes in their buckets -/

/-- The offsets before `i` of suffixes that begin with `c`. -/
def bucket (old : List UInt8) (c i : Int) : Set Int :=
  {p | 0 ≤ p ∧ p < i ∧ ∃ b, old[p.toNat]? = some b ∧ (b.toNat : Int) = c}

theorem bucket_succ_of_eq {b : UInt8} (low : 0 ≤ i) (at_ : old[i.toNat]? = some b) :
    bucket old b.toNat (i + 1) = insert i (bucket old b.toNat i) := by
  ext p
  constructor
  · intro member
    rcases member with ⟨lowP, highP, first⟩
    rcases eq_or_ne p i with same | other
    · exact .inl same
    · exact .inr ⟨lowP, by omega, first⟩
  · intro member
    rcases member with same | ⟨lowP, highP, first⟩
    · rw [same]
      exact ⟨low, by omega, b, at_, rfl⟩
    · exact ⟨lowP, by omega, first⟩

theorem bucket_succ_of_ne {b : UInt8} (at_ : old[i.toNat]? = some b) (other : c ≠ b.toNat) :
    bucket old c (i + 1) = bucket old c i := by
  ext p
  constructor
  · intro member
    rcases member with ⟨lowP, highP, b', at', first⟩
    rcases eq_or_ne p i with same | before
    · rw [same, at_] at at'
      cases at'
      exact absurd first.symm other
    · exact ⟨lowP, by omega, b', at', first⟩
  · intro member
    rcases member with ⟨lowP, highP, first⟩
    exact ⟨lowP, by omega, first⟩

/-- The first `i` suffixes are in their buckets. -/
structure Placed (old : List UInt8) (i : Int) (I₀ : Offs) (state : Offs × Offs) : Prop where
  buckets : ∀ c, 0 ≤ c → c < 256 → state.1 c = below old c + count (old.take i.toNat) c
  lists : ∀ c, 0 ≤ c → c < 256 →
    Set.BijOn state.2.get (Set.Ioc (below old c) (state.1 c)) (bucket old c i)
  around : ∀ j : Int, j ≤ 0 ∨ old.length < j → state.2 j = I₀ j

theorem count_take_le : count (old.take n) c ≤ count old c :=
  (List.take_sublist n old).countP_le

theorem count_take_succ {b : UInt8} (at_ : old[n]? = some b) :
    count (old.take (n + 1)) c = count (old.take n) c + if (b.toNat : Int) = c then 1 else 0 := by
  rw [List.take_add_one, at_, Option.toList_some, count, List.countP_append, List.countP_singleton]
  simp [count]

namespace Placed

variable {I₀ : Offs} {state : Offs × Offs}

/-- A bucket ends before the next one. -/
theorem le (placed : Placed old i I₀ state) (low : 0 ≤ c) (high : c < 256) :
    state.1 c ≤ below old (c + 1) := by
  have most : count (old.take i.toNat) c ≤ count old c := count_take_le
  rw [placed.buckets c low high, below_succ]
  omega

theorem place {b : UInt8} (placed : Placed old i I₀ state) (low : 0 ≤ i)
    (at_ : old[i.toNat]? = some b) :
    Placed old (i + 1) I₀ (state.1.set b.toNat (state.1 b.toNat + 1),
      state.2.set (state.1 b.toNat + 1) i) := by
  have small := b.toNat_lt
  have next : (i + 1).toNat = i.toNat + 1 := by omega
  have counted := placed.buckets b.toNat (by omega) (by omega)
  -- there is room for the suffix in its bucket
  have room : state.1 b.toNat + 1 ≤ below old (b.toNat + 1) := by
    have most : count (old.take (i.toNat + 1)) b.toNat ≤ count old b.toNat := count_take_le
    rw [count_take_succ at_, if_pos rfl] at most
    rw [counted, below_succ]
    omega
  have last : below old (b.toNat + 1) ≤ below old 256 := below_mono (by omega)
  rw [below_256] at last
  refine ⟨?_, ?_, ?_⟩
  · intro c lowC highC
    rw [Offs.set_get, next, count_take_succ at_]
    by_cases same : c = b.toNat
    · rw [if_pos same, if_pos same.symm, same, counted]
      push_cast
      omega
    · rw [if_neg same, if_neg (Ne.symm same), placed.buckets c lowC highC]
      push_cast
      omega
  · intro c lowC highC
    rw [Offs.set_get]
    by_cases same : c = b.toNat
    · rw [if_pos same, same, bucket_succ_of_eq low at_]
      have front : Set.Ioc (below old b.toNat : Int) (state.1 b.toNat + 1) =
          insert (state.1 b.toNat + 1) (Set.Ioc (below old b.toNat : Int) (state.1 b.toNat)) := by
        ext j
        rw [Set.mem_insert_iff, Set.mem_Ioc, Set.mem_Ioc]
        omega
      have before : Set.BijOn (state.2.set (state.1 b.toNat + 1) i).get
          (Set.Ioc (below old b.toNat : Int) (state.1 b.toNat)) (bucket old b.toNat i) := by
        apply (placed.lists b.toNat (by omega) (by omega)).congr
        intro j inside
        rw [Offs.set_get, if_neg (by have high := inside.2; omega)]
      have value : (state.2.set (state.1 b.toNat + 1) i) (state.1 b.toNat + 1) = i := by
        rw [Offs.set_get, if_pos rfl]
      have fresh : i ∉ bucket old b.toNat i := by
        intro member
        have high := member.2.1
        omega
      have whole := before.insert (a := state.1 b.toNat + 1) (value.symm ▸ fresh)
      rw [value] at whole
      rw [front]
      exact whole
    · rw [if_neg same, bucket_succ_of_ne at_ same]
      apply (placed.lists c lowC highC).congr
      intro j inside
      rcases Set.mem_Ioc.mp inside with ⟨lowJ, highJ⟩
      have end_ := placed.le lowC highC
      rw [Offs.set_get, if_neg]
      intro slot
      rcases lt_or_gt_of_ne same with before | behind
      · have mono : below old (c + 1) ≤ below old b.toNat := below_mono (by omega)
        omega
      · have mono : below old (b.toNat + 1) ≤ below old c := below_mono (by omega)
        omega
  · intro j outside
    rw [Offs.set_get, if_neg (by omega)]
    exact placed.around j outside

end Placed

theorem placeLoop_placed {rest : List UInt8} {I₀ : Offs} {state : Offs × Offs}
    (placed : Placed old i I₀ state) (low : 0 ≤ i) (high : i ≤ old.length)
    (here : old.drop i.toNat = rest) :
    Placed old old.length I₀ (placeLoop rest i state) := by
  induction rest generalizing i state with
  | nil =>
    have beyond := List.drop_eq_nil_iff.mp here
    have done : i = old.length := by omega
    rw [placeLoop, ← done]
    exact placed
  | cons b rest ih =>
    have at_ : old[i.toNat]? = some b := by
      rw [← List.head?_drop, here, List.head?_cons]
    have next : (i + 1).toNat = i.toNat + 1 := by omega
    rcases List.getElem?_eq_some_iff.mp at_ with ⟨inside, -⟩
    rw [placeLoop]
    apply ih (placed.place low at_) (by omega) (by omega)
    rw [next, ← List.drop_drop, here]
    rfl

/-! ## The first ranks and marks -/

theorem rankBytes_of_mem {b : UInt8} {rest : List UInt8} (low : i ≤ p)
    (at_ : rest[(p - i).toNat]? = some b) : rankBytes buckets rest i V p = buckets b.toNat := by
  induction rest generalizing i V with
  | nil => cases at_
  | cons d rest ih =>
    rw [rankBytes]
    rcases eq_or_ne p i with same | other
    · have kept {rest : List UInt8} {j : Int} {V : Offs} (before : p < j) :
          rankBytes buckets rest j V p = V p := by
        induction rest generalizing j V with
        | nil => rfl
        | cons d rest ih => rw [rankBytes, ih (by omega), Offs.set_get, if_neg (by omega)]
      rw [same, sub_self] at at_
      cases at_
      rw [kept (by omega), Offs.set_get, if_pos same]
    · have next : (p - i).toNat = (p - (i + 1)).toNat + 1 := by omega
      rw [next, List.getElem?_cons_succ] at at_
      exact ih (by omega) at_

theorem rankBytes_of_not_mem {rest : List UInt8} (outside : p < i ∨ i + rest.length ≤ p) :
    rankBytes buckets rest i V p = V p := by
  induction rest generalizing i V with
  | nil => rfl
  | cons d rest ih =>
    rw [List.length_cons] at outside
    rw [rankBytes, ih (by omega), Offs.set_get, if_neg (by omega)]

theorem markLoop_of_not (other : ∀ c, i ≤ c → c < i + n → buckets c = buckets (c - 1) + 1 →
    j ≠ buckets c) : markLoop buckets n i I j = I j := by
  induction n generalizing i I with
  | zero => rfl
  | succ n ih =>
    rw [markLoop, ih]
    · split
      · next single =>
        rw [Offs.set_get, if_neg (other i (le_refl i) (by omega) single)]
      · rfl
    · intro c low high single
      exact other c (by omega) (by omega) single

theorem markLoop_of_single (low : i ≤ c) (high : c < i + n)
    (single : buckets c = buckets (c - 1) + 1) : markLoop buckets n i I (buckets c) = -1 := by
  have kept {n : Nat} {i : Int} {I : Offs} (at_ : I (buckets c) = -1) :
      markLoop buckets n i I (buckets c) = -1 := by
    induction n generalizing i I with
    | zero => exact at_
    | succ n ih =>
      rw [markLoop]
      apply ih
      split
      · rw [Offs.set_get]
        split
        · rfl
        · exact at_
      · exact at_
  induction n generalizing i I with
  | zero => omega
  | succ n ih =>
    rw [markLoop]
    rcases eq_or_ne c i with same | other
    · apply kept
      rw [← same, if_pos single, Offs.set_get, if_pos rfl]
    · exact ih (by omega) (by omega)

/-- What `qsufsort` has before its rounds. -/
structure Bucketed (old : List UInt8) (s₀ s : Sorting) : Prop where
  rank : ∀ p b, 0 ≤ p → old[p.toNat]? = some b → s.V p = below old (b.toNat + 1)
  last : s.V old.length = 0
  first : s.I 0 = -1
  single : ∀ c, 1 ≤ c → c < 256 → count old c = 1 →
    s.I (below old (c + 1)) = -1 ∧ ∃ p, bucket old c old.length = {p}
  lists : ∀ c, 0 ≤ c → c < 256 → ¬ (1 ≤ c ∧ count old c = 1) →
    Set.BijOn s.I.get (Set.Ioc (below old c : Int) (below old (c + 1))) (bucket old c old.length)
  around : SameAround old s₀ s

theorem bucketSort_bucketed : Bucketed old s (bucketSort old s) := by
  unfold bucketSort
  dsimp only
  have initial : Placed old 0 s.I
      ((shiftBuckets 255 (sumBuckets 255 1 (countBytes old ⟨fun _ => 0⟩))).set 0 0, s.I) := by
    refine ⟨?_, ?_, fun _ _ => rfl⟩
    · intro c low high
      rw [buckets_get low high]
      rfl
    · intro c low high
      rw [buckets_get low high, Set.Ioc_self]
      have none_ : bucket old c 0 = ∅ := by
        ext p
        constructor
        · intro member
          have low := member.1
          have high := member.2.1
          omega
        · intro gone
          exact gone.elim
      rw [none_]
      exact Set.bijOn_empty _
  have placed : Placed old old.length s.I (placeLoop old 0 (_, s.I)) :=
    placeLoop_placed initial (le_refl 0) (by omega) rfl
  generalize placeLoop old 0 ((shiftBuckets 255 (sumBuckets 255 1
    (countBytes old ⟨fun _ => 0⟩))).set 0 0, s.I) = state at placed
  rcases state with ⟨buckets, I⟩
  dsimp only
  -- the buckets end where those of the next byte begin
  have bucket_eq (c : Int) (low : 0 ≤ c) (high : c < 256) : buckets c = below old (c + 1) := by
    have at_ := placed.buckets c low high
    rw [Int.toNat_natCast, List.take_length] at at_
    rw [at_, below_succ]
    push_cast
    rfl
  have single_iff (c : Int) (low : 1 ≤ c) (high : c < 256) :
      buckets c = buckets (c - 1) + 1 ↔ count old c = 1 := by
    rw [bucket_eq c (by omega) high, bucket_eq (c - 1) (by omega) (by omega), sub_add_cancel,
      below_succ]
    omega
  have end_le (c : Int) (high : c < 256) : below old (c + 1) ≤ old.length := by
    have mono : below old (c + 1) ≤ below old 256 := below_mono (by omega)
    rw [below_256] at mono
    exact mono
  refine ⟨?_, ?_, ?_, ?_, ?_, ?_⟩
  · intro p b low at_
    rcases List.getElem?_eq_some_iff.mp at_ with ⟨inside, -⟩
    have small := b.toNat_lt
    rw [Offs.set_get, if_neg (by omega), rankBytes_of_mem low (by rw [sub_zero]; exact at_)]
    exact bucket_eq _ (by omega) (by omega)
  · rw [Offs.set_get, if_pos rfl]
  · rw [Offs.set_get, if_pos rfl]
  · intro c low high one
    have some_ := below_succ old c
    rw [Offs.set_get, if_neg (by omega), ← bucket_eq c (by omega) high]
    refine ⟨markLoop_of_single low (by omega) ((single_iff c low high).mpr one),
      I (below old (c + 1)), ?_⟩
    have lists := placed.lists c (by omega) high
    dsimp only at lists
    have only : Set.Ioc (below old c : Int) (buckets c) = {(below old (c + 1) : Int)} := by
      ext j
      rw [bucket_eq c (by omega) high, Set.mem_Ioc, Set.mem_singleton_iff]
      omega
    rw [← lists.image_eq, only, Set.image_singleton]
  · intro c low high many
    have lists := placed.lists c low high
    dsimp only at lists
    rw [bucket_eq c low high] at lists
    apply lists.congr
    intro j inside
    rcases Set.mem_Ioc.mp inside with ⟨lowJ, highJ⟩
    rw [Offs.set_get, if_neg (by omega), markLoop_of_not, Offs.set_get, if_neg (by omega)]
    intro d lowD highD single same
    rw [single_iff d lowD (by omega)] at single
    rw [bucket_eq d (by omega) (by omega)] at same
    -- no other bucket ends here
    rcases lt_trichotomy d c with before | here | behind
    · have mono : below old (d + 1) ≤ below old c := below_mono (by omega)
      omega
    · rw [here] at single
      exact many ⟨by omega, single⟩
    · have mono : below old (c + 1) ≤ below old d := below_mono (by omega)
      have some_ := below_succ old d
      omega
  · refine ⟨?_, ?_⟩
    · intro j outside
      rw [Offs.set_get, if_neg (by omega), markLoop_of_not, Offs.set_get, if_neg (by omega)]
      · exact placed.around j (by omega)
      · intro d lowD highD single same
        rw [single_iff d lowD (by omega)] at single
        rw [bucket_eq d (by omega) (by omega)] at same
        have high := end_le d (by omega)
        have some_ := below_succ old d
        omega
    · intro p outside
      rw [Offs.set_get, if_neg (by omega), rankBytes_of_not_mem (by omega)]

namespace Bucketed

variable {s₀ : Sorting}

/-- An offset is that of the empty suffix or has a first byte. -/
theorem place (bucketed : Bucketed old s₀ s) (offset : IsOffset old p) :
    (p = old.length ∧ s.V p = 0) ∨
      (p < old.length ∧ ∃ b : UInt8, old[p.toNat]? = some b ∧ s.V p = below old (b.toNat + 1) ∧
        0 < count old b.toNat) := by
  rcases offset with ⟨low, high⟩
  rcases high.eq_or_lt with last | before
  · exact .inl ⟨last, last ▸ bucketed.last⟩
  · have inside : p.toNat < old.length := by omega
    have at_ : old[p.toNat]? = some old[p.toNat] := List.getElem?_eq_getElem inside
    exact .inr ⟨before, _, at_, bucketed.rank p _ low at_, count_pos (List.getElem_mem inside)⟩

theorem ranks (bucketed : Bucketed old s₀ s) : Ranks old 1 s.V := by
  refine ⟨?_, ?_, ?_⟩
  · intro p offset
    rcases bucketed.place offset with ⟨-, rank⟩ | ⟨-, b, -, rank, -⟩
    · exact ⟨by omega, by omega⟩
    · have small := b.toNat_lt
      have high : below old (b.toNat + 1) ≤ below old 256 := below_mono (by omega)
      rw [below_256] at high
      exact ⟨by omega, by omega⟩
  · intro p q offsetP offsetQ less
    rcases bucketed.place offsetQ with ⟨-, rankQ⟩ | ⟨before, d, atQ, rankQ, -⟩
    · rcases bucketed.place offsetP with ⟨-, rankP⟩ | ⟨-, b, -, rankP, -⟩
      · omega
      · omega
    · rcases bucketed.place offsetP with ⟨last, -⟩ | ⟨-, b, atP, rankP, -⟩
      · rw [last]
        exact suffix_end_lt offsetQ.1 before
      · apply suffix_lt_of_entry_lt offsetP.1 offsetQ.1 atP atQ
        rw [UInt8.lt_iff_toNat_lt]
        by_contra notLess
        have mono : below old (d.toNat + 1) ≤ below old (b.toNat + 1) := below_mono (by omega)
        omega
  · intro p q offsetP offsetQ equal
    rcases bucketed.place offsetP with ⟨lastP, rankP⟩ | ⟨-, b, atP, rankP, someP⟩
    · rcases bucketed.place offsetQ with ⟨lastQ, -⟩ | ⟨-, d, -, rankQ, someQ⟩
      · exact .inl (lastP.trans lastQ.symm)
      · have some_ := below_succ old d.toNat
        omega
    · have someB := below_succ old b.toNat
      rcases bucketed.place offsetQ with ⟨-, rankQ⟩ | ⟨-, d, atQ, rankQ, someQ⟩
      · omega
      · have someD := below_succ old d.toNat
        rcases lt_trichotomy b.toNat d.toNat with less | same | greater
        · have mono : below old (b.toNat + 1) ≤ below old d.toNat := below_mono (by omega)
          omega
        · rw [← UInt8.toNat_inj.mp same] at atQ
          exact .inr (.one offsetP.1 offsetQ.1 atP atQ)
        · have mono : below old (d.toNat + 1) ≤ below old b.toNat := below_mono (by omega)
          omega

/-- The offsets of a bucket are those with its ranks. -/
theorem ranked_eq (bucketed : Bucketed old s₀ s) :
    ranked old s.V (below old c + 1) (below old (c + 1) + 1) = bucket old c old.length := by
  ext p
  constructor
  · intro member
    rcases member with ⟨offset, lowP, highP⟩
    rcases bucketed.place offset with ⟨-, rank⟩ | ⟨before, b, at_, rank, some_⟩
    · omega
    · have someB := below_succ old b.toNat
      refine ⟨offset.1, before, b, at_, ?_⟩
      rcases lt_trichotomy (b.toNat : Int) c with less | same | greater
      · have mono : below old (b.toNat + 1) ≤ below old c := below_mono (by omega)
        omega
      · exact same
      · have mono : below old (c + 1) ≤ below old b.toNat := below_mono (by omega)
        omega
  · intro member
    rcases member with ⟨lowP, before, b, at_, same⟩
    have offset : IsOffset old p := ⟨lowP, before.le⟩
    rcases bucketed.place offset with ⟨last, -⟩ | ⟨-, b', at', rank, some_⟩
    · omega
    · rw [at_] at at'
      cases at'
      have someB := below_succ old b.toNat
      rw [same] at rank some_ someB
      exact ⟨offset, by omega, by omega⟩

/-- One bucket. -/
theorem tiles_bucket (bucketed : Bucketed old s₀ s) (low : 0 ≤ c) (high : c < 256) :
    Tiles old 1 s (below old c + 1) (below old (c + 1) + 1) := by
  have some_ := below_succ old c
  have ranked := bucketed.ranked_eq (c := c)
  by_cases one : 1 ≤ c ∧ count old c = 1
  · rcases bucketed.single c one.1 high one.2 with ⟨mark, p, only⟩
    have end_ : (below old c : Int) + 1 = below old (c + 1) := by omega
    rw [← end_] at mark
    rw [only] at ranked
    refine .run (by omega) ?_ ?_
    · intro i lowI highI
      have place : p ∈ Bsdiff.ranked old s.V (below old c + 1) (below old (c + 1) + 1) :=
        ranked ▸ Set.mem_singleton p
      refine ⟨p, place.1, by have inside := place.2; omega, ?_⟩
      intro q offset rank
      have member : q ∈ Bsdiff.ranked old s.V (below old c + 1) (below old (c + 1) + 1) :=
        ⟨offset, by omega, by omega⟩
      rw [ranked] at member
      exact member
    · have done : (below old c : Int) + 1 - s.I (below old c + 1) = below old (c + 1) + 1 := by
        omega
      rw [done]
      exact .nil
  · by_cases empty : count old c = 0
    · have same : (below old (c + 1) : Int) + 1 = below old c + 1 := by omega
      rw [same]
      exact .nil
    · have lists := bucketed.lists c low high one
      have range : Set.Ioc (below old c : Int) (below old (c + 1)) =
          Set.Ico (below old c + 1 : Int) (below old (c + 1) + 1) := by
        ext j
        rw [Set.mem_Ioc, Set.mem_Ico]
        omega
      refine .group (by omega) ⟨?_, ?_, ?_, ?_⟩ .nil
      · rw [ranked, ← range]
        exact lists
      · intro p member
        rw [ranked] at member
        rcases member with ⟨lowP, before, b, at_, first⟩
        have rank := bucketed.rank p b lowP at_
        rw [first] at rank
        omega
      · intro p member
        rw [ranked] at member
        have before := member.2.1
        omega
      · intro p memberP q memberQ
        rw [ranked] at memberP memberQ
        rcases memberP with ⟨lowP, -, b, atP, firstP⟩
        rcases memberQ with ⟨lowQ, -, d, atQ, firstQ⟩
        have same : b = d := UInt8.toNat_inj.mp (by omega)
        exact .inr (.one lowP lowQ atP (same ▸ atQ))

/-- The first buckets. -/
theorem tiles_below (bucketed : Bucketed old s₀ s) (most : n ≤ 256) :
    Tiles old 1 s 0 (below old n + 1) := by
  induction n with
  | zero =>
    rw [Nat.cast_zero, below_zero]
    have end_ : (0 : Int) - s.I 0 = 1 := by
      rw [bucketed.first]
      rfl
    refine .run (by rw [bucketed.first]; decide) ?_ (by rw [end_]; exact .nil)
    intro i low high
    rw [end_] at high
    have only : i = 0 := by omega
    refine ⟨old.length, ⟨by omega, le_refl _⟩, only ▸ bucketed.last, ?_⟩
    intro q offset rank
    rcases bucketed.place offset with ⟨last, -⟩ | ⟨-, b, -, rank', some_⟩
    · exact last
    · have someB := below_succ old b.toNat
      omega
  | succ n ih =>
    rw [Nat.cast_succ]
    exact (ih (by omega)).append (bucketed.tiles_bucket (by omega) (by omega))

theorem sorted (bucketed : Bucketed old s₀ s) : Sorted old 1 s := by
  refine ⟨bucketed.ranks, ?_⟩
  have tiles := bucketed.tiles_below (le_refl 256)
  rw [Nat.cast_ofNat, below_256] at tiles
  exact tiles

end Bucketed

/-! ## The list of the suffixes -/

theorem invertLoop_of_not_mem (other : ∀ q : Int, i ≤ q → q < i + n → V q ≠ j) :
    invertLoop V n i I j = I j := by
  induction n generalizing i I with
  | zero => rfl
  | succ n ih =>
    have here := other i (le_refl i) (by omega)
    rw [invertLoop, ih, Offs.set_get, if_neg here.symm]
    intro q low high
    exact other q (by omega) (by omega)

theorem invertLoop_of_mem
    (inj : ∀ p q : Int, i ≤ p → p < i + n → i ≤ q → q < i + n → V p = V q → p = q)
    (low : i ≤ p) (high : p < i + n) : invertLoop V n i I (V p) = p := by
  induction n generalizing i I with
  | zero => omega
  | succ n ih =>
    rw [invertLoop]
    rcases eq_or_ne p i with same | other
    · rw [invertLoop_of_not_mem, Offs.set_get, if_pos (same ▸ rfl), same]
      intro q lowQ highQ equal
      have again := inj q p (by omega) (by omega) low high equal
      omega
    · apply ih _ (by omega) (by omega)
      intro p q lowP highP lowQ highQ
      exact inj p q (by omega) (by omega) (by omega) (by omega)

/-- `I` lists the suffixes in their order, the empty one among them. -/
structure SuffixArray (old : List UInt8) (I : Offs) : Prop where
  lists : Set.BijOn I.get (Set.Icc 0 old.length) (Set.Icc 0 old.length)
  sorted : ∀ i j : Int, 0 ≤ i → i < j → j ≤ old.length → suffix old (I i) < suffix old (I j)

/-- `qsufsort` returns, whatever was in the arrays, with the suffixes in their order, and writes
only where it may. -/
theorem qsufsort_sorts (old : List UInt8) (s : Sorting) :
    ∃ s', qsufsort old s = some s' ∧ SuffixArray old s'.I ∧ SameAround old s s' := by
  have bucketed : Bucketed old s (bucketSort old s) := bucketSort_bucketed
  rcases doublingLoop_sorted (n := old.length + 2) bucketed.sorted (by decide) (by omega) (by omega)
    with ⟨s₁, returns, ⟨h, sorted⟩, done, around⟩
  have inj (p q : Int) (offsetP : IsOffset old p) (offsetQ : IsOffset old q)
      (equal : s₁.V p = s₁.V q) : p = q := by
    have range := sorted.ranks.offset p offsetP
    rcases sorted.single done range.1 range.2 with ⟨r, -, -, only⟩
    exact (only p offsetP rfl).trans (only q offsetQ equal.symm).symm
  have place (i : Int) (low : 0 ≤ i) (high : i ≤ old.length) :
      ∃ p, IsOffset old p ∧ s₁.V p = i ∧ invertLoop s₁.V (old.length + 1) 0 s₁.I i = p := by
    rcases sorted.single done low high with ⟨p, offset, rank, -⟩
    rcases offset with ⟨lowP, highP⟩
    refine ⟨p, ⟨lowP, highP⟩, rank, ?_⟩
    rw [← rank]
    apply invertLoop_of_mem _ lowP (by omega)
    intro p q lowP highP lowQ highQ
    exact inj p q ⟨lowP, by omega⟩ ⟨lowQ, by omega⟩
  have result : qsufsort old s =
      some { s₁ with I := invertLoop s₁.V (old.length + 1) 0 s₁.I } := by
    rw [qsufsort, returns]
    rfl
  refine ⟨_, result, ⟨⟨?_, ?_, ?_⟩, ?_⟩,
    (bucketed.around.trans around).trans ⟨?_, fun _ _ => rfl⟩⟩
  · intro i inside
    rcases place i inside.1 inside.2 with ⟨p, offset, -, entry⟩
    dsimp only
    rw [entry]
    exact offset
  · intro i insideI j insideJ equal
    rcases place i insideI.1 insideI.2 with ⟨p, -, rankP, entryP⟩
    rcases place j insideJ.1 insideJ.2 with ⟨q, -, rankQ, entryQ⟩
    dsimp only at equal
    rw [entryP, entryQ] at equal
    rw [← rankP, ← rankQ, equal]
  · intro p inside
    have range := sorted.ranks.offset p inside
    refine ⟨s₁.V p, range, ?_⟩
    rcases place _ range.1 range.2 with ⟨q, offset, rank, entry⟩
    dsimp only
    rw [entry]
    exact inj q p offset inside rank
  · intro i j low less high
    rcases place i low (by omega) with ⟨p, offsetP, rankP, entryP⟩
    rcases place j (by omega) high with ⟨q, offsetQ, rankQ, entryQ⟩
    dsimp only
    rw [entryP, entryQ]
    exact sorted.ranks.lt p q offsetP offsetQ (by omega)
  · intro i outside
    apply invertLoop_of_not_mem
    intro q low high rank
    have range := sorted.ranks.offset q ⟨low, by omega⟩
    rcases range with ⟨lowV, highV⟩
    omega

end Bsdiff

end Tr6260
