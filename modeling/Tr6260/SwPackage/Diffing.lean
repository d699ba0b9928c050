import Tr6260.Delta
import Tr6260.SwPackage.Bsdiff

/-!
# The loops of `SwBsdiff` stay in their buffers

One statement for each loop: it returns when the offsets it begins with are in range, and what it
returns is in range again.
-/

namespace Tr6260

namespace Bsdiff

open SuffixOrder

variable {I : Offs} {old new : List UInt8} {lastoffset lastscan lastpos scan pos i st en : Int}
variable {n : Nat}

theorem byteAt_returns (low : 0 ≤ i) (high : i < old.length) : ∃ b, byteAt old i = some b := by
  have inside : i.toNat < old.length := by omega
  exact ⟨old[i.toNat], by rw [byteAt, if_pos low, List.getElem?_eq_getElem inside]⟩

theorem matchlen_bounds (xs ys : List UInt8) :
    0 ≤ matchlen xs ys ∧ matchlen xs ys ≤ xs.length ∧ matchlen xs ys ≤ ys.length := by
  fun_induction matchlen xs ys with
  | case1 a xs b ys other =>
    rw [List.length_cons, List.length_cons]
    omega
  | case2 a xs b ys same ih =>
    rw [List.length_cons, List.length_cons]
    omega
  | case3 xs ys _ => omega

/-- The array of the suffixes holds offsets of suffixes. -/
def Listed (old : List UInt8) (I : Offs) : Prop :=
  ∀ i : Int, 0 ≤ i → i ≤ old.length → IsOffset old (I i)

theorem SuffixArray.listed (sorted : SuffixArray old I) : Listed old I :=
  fun _ low high => sorted.lists.mapsTo ⟨low, high⟩

theorem tailAt_of_offset (offset : IsOffset old i) : tailAt old i = some (suffix old i) :=
  if_pos offset

/-- What a search finds: so many bytes are at the offset. -/
structure Found (old new : List UInt8) (len pos : Int) : Prop where
  offset : IsOffset old pos
  len : len = matchlen (suffix old pos) new

theorem Found.nonneg {len : Int} (found : Found old new len pos) : 0 ≤ len := by
  rw [found.len]
  exact (matchlen_bounds _ _).1

theorem Found.le {len : Int} (found : Found old new len pos) : len ≤ new.length := by
  rw [found.len]
  exact (matchlen_bounds _ _).2.2

theorem search_found (listed : Listed old I) (low : 0 ≤ st) (le : st ≤ en) (high : en ≤ old.length)
    (enough : en - st < n) :
    ∃ len pos, search I old new n st en = some (len, pos) ∧ Found old new len pos := by
  induction n generalizing st en with
  | zero => omega
  | succ n ih =>
    rw [search]
    split
    · have first := listed st low (by omega)
      have last := listed en (by omega) high
      rw [tailAt_of_offset first, tailAt_of_offset last]
      simp only [Option.bind_eq_bind, Option.bind_some]
      split
      · exact ⟨_, _, rfl, first, rfl⟩
      · exact ⟨_, _, rfl, last, rfl⟩
    · next far =>
      have mid := listed (st + (en - st) / 2) (by omega) (by omega)
      dsimp only
      rw [tailAt_of_offset mid]
      simp only [Option.bind_eq_bind, Option.bind_some]
      split
      · exact ih (by omega) (by omega) high (by omega)
      · exact ih low (by omega) (by omega) (by omega)

theorem sameAt_returns (low : 0 ≤ i) (high : i < new.length) (shifted : 0 ≤ i + lastoffset) :
    ∃ one, sameAt old new lastoffset i = some one := by
  rw [sameAt]
  split
  · next inside =>
    rcases byteAt_returns shifted inside with ⟨a, atOld⟩
    rcases byteAt_returns low high with ⟨b, atNew⟩
    exact ⟨a == b, by rw [atOld, atNew]; rfl⟩
  · exact ⟨false, rfl⟩

theorem scoreLoop_returns {oldscore : Int} (low : 0 ≤ i) (high : i + n ≤ new.length)
    (shifted : 0 ≤ i + lastoffset) :
    ∃ score, scoreLoop old new lastoffset n i oldscore = some score ∧ oldscore ≤ score := by
  induction n generalizing i oldscore with
  | zero => exact ⟨oldscore, rfl, le_refl _⟩
  | succ n ih =>
    have first : ∃ one, sameAt old new lastoffset i = some one :=
      sameAt_returns low (by omega) shifted
    rcases first with ⟨one, returns⟩
    have rest : ∃ score, scoreLoop old new lastoffset n (i + 1)
        (if one then oldscore + 1 else oldscore) = some score ∧
        (if one then oldscore + 1 else oldscore) ≤ score :=
      ih (by omega) (by omega) (by omega)
    rcases rest with ⟨score, returns', le⟩
    refine ⟨score, by rw [scoreLoop, returns]; exact returns', le_trans ?_ le⟩
    split <;> omega

/-! ## The next match -/

/-- Where the scan from `p` on stops. It has moved on, or nothing is left. -/
structure Scanned (old new : List UInt8) (p : Int) (s : Scanning) : Prop where
  low : p ≤ s.scan
  high : s.scan ≤ new.length
  offset : IsOffset old s.pos
  ahead : s.scan < new.length → 0 ≤ s.len ∧ s.scan + s.len ≤ new.length
  progress : s.scan = new.length ∨ p < s.scan + s.len

theorem scanLoop_scanned {p : Int} {s : Scanning} (listed : Listed old I) (lowP : 0 ≤ p)
    (shifted : 0 ≤ p + lastoffset) (low : p ≤ s.scan) (high : s.scan ≤ new.length)
    (lowC : p ≤ s.scsc) (highC : s.scsc ≤ new.length) (offset : IsOffset old s.pos)
    (first : s.scan = p → 0 ≤ s.oldscore) (enough : new.length - s.scan ≤ n) :
    ∃ s', scanLoop I old new lastoffset n s = some s' ∧ Scanned old new p s' := by
  induction n generalizing s with
  | zero =>
    refine ⟨s, rfl, low, high, offset, ?_, .inl (by omega)⟩
    intro more
    omega
  | succ n ih =>
    rw [scanLoop]
    by_cases more : s.scan < new.length
    · rw [if_pos more]
      have here : IsOffset new s.scan := ⟨by omega, high⟩
      have length := length_suffix here.1 here.2
      have search : ∃ len pos,
          search I old (suffix new s.scan) (old.length + 1) 0 old.length = some (len, pos) ∧
          Found old (suffix new s.scan) len pos :=
        search_found listed (le_refl 0) (by omega) (le_refl _) (by omega)
      rcases search with ⟨len, pos, found, at_⟩
      have nonneg := at_.nonneg
      have le := at_.le
      have score : ∃ score, scoreLoop old new lastoffset (s.scan + len - s.scsc).toNat s.scsc
          s.oldscore = some score ∧ s.oldscore ≤ score :=
        scoreLoop_returns (by omega) (by omega) (by omega)
      rcases score with ⟨score, scored, mono⟩
      rw [tailAt_of_offset here]
      simp only [Option.bind_eq_bind, Option.bind_some, found, scored]
      by_cases found' : len = score ∧ len ≠ 0 ∨ len > score + 8
      · rw [if_pos found']
        refine ⟨_, rfl, low, high, at_.offset, ?_, ?_⟩
        · intro _
          exact ⟨nonneg, by dsimp only; omega⟩
        · right
          dsimp only
          rcases eq_or_ne s.scan p with start | later
          · have pos := first start
            omega
          · omega
      · rw [if_neg found']
        have one : ∃ one, sameAt old new lastoffset s.scan = some one :=
          sameAt_returns (by omega) more (by omega)
        rcases one with ⟨one, same⟩
        rw [same, Option.bind_some]
        apply ih
        · dsimp only
          omega
        · dsimp only
          omega
        · dsimp only
          omega
        · dsimp only
          omega
        · exact at_.offset
        · intro start
          dsimp only at start
          omega
        · dsimp only
          omega
    · rw [if_neg more]
      refine ⟨s, rfl, low, high, offset, ?_, .inl (by omega)⟩
      intro more'
      exact absurd more' more

/-! ## The ends of a match -/

/-- Bytes from `lastscan` on, and from `lastpos` on in the old firmware. -/
def Forward (old : List UInt8) (lastscan lastpos scan len : Int) : Prop :=
  0 ≤ len ∧ lastscan + len ≤ scan ∧ lastpos + len ≤ old.length

/-- Bytes before `scan`, and before `pos` in the old firmware. -/
def Backward (lastscan scan pos len : Int) : Prop :=
  0 ≤ len ∧ lastscan + len ≤ scan ∧ len ≤ pos

theorem lenfLoop_forward {f : Scoring} (lowScan : 0 ≤ lastscan) (highScan : scan ≤ new.length)
    (lowPos : 0 ≤ lastpos) (low : 0 ≤ i) (forward : Forward old lastscan lastpos scan f.len) :
    ∃ f', lenfLoop old new lastscan lastpos scan n i f = some f' ∧
      Forward old lastscan lastpos scan f'.len := by
  induction n generalizing i f with
  | zero => exact ⟨f, rfl, forward⟩
  | succ n ih =>
    rw [lenfLoop]
    by_cases inside : lastscan + i < scan ∧ lastpos + i < old.length
    · rw [if_pos inside]
      rcases byteAt_returns (i := lastpos + i) (by omega) inside.2 with ⟨a, atOld⟩
      have atNew : ∃ b, byteAt new (lastscan + i) = some b :=
        byteAt_returns (by omega) (by omega)
      rcases atNew with ⟨b, atNew⟩
      simp only [atOld, atNew, Option.bind_eq_bind, Option.bind_some]
      apply ih (by omega)
      generalize (if a = b then f.s + 1 else f.s) = s
      rw [apply_ite Scoring.len]
      dsimp only
      split
      · exact ⟨by omega, by omega, by omega⟩
      · exact forward
    · rw [if_neg inside]
      exact ⟨f, rfl, forward⟩

theorem lenbLoop_backward {b : Scoring} (lowScan : 0 ≤ lastscan) (highScan : scan ≤ new.length)
    (offset : IsOffset old pos) (low : 1 ≤ i) (backward : Backward lastscan scan pos b.len) :
    ∃ b', lenbLoop old new lastscan scan pos n i b = some b' ∧
      Backward lastscan scan pos b'.len := by
  induction n generalizing i b with
  | zero => exact ⟨b, rfl, backward⟩
  | succ n ih =>
    rw [lenbLoop]
    by_cases inside : scan ≥ lastscan + i ∧ pos ≥ i
    · rw [if_pos inside]
      have high := offset.2
      rcases byteAt_returns (i := pos - i) (by omega) (by omega : pos - i < old.length) with
        ⟨x, atOld⟩
      rcases byteAt_returns (i := scan - i) (by omega) (by omega : scan - i < new.length) with
        ⟨y, atNew⟩
      simp only [atOld, atNew, Option.bind_eq_bind, Option.bind_some]
      apply ih (by omega)
      generalize (if x = y then b.s + 1 else b.s) = s
      rw [apply_ite Scoring.len]
      dsimp only
      split
      · exact ⟨by omega, by omega, by omega⟩
      · exact backward
    · rw [if_neg inside]
      exact ⟨b, rfl, backward⟩

theorem overlapLoop_returns {f b : Int × Int} {o : Scoring} (low : 0 ≤ i)
    (lowF : 0 ≤ f.1 ∧ 0 ≤ f.2) (highF : f.1 + (i + n) ≤ new.length ∧ f.2 + (i + n) ≤ old.length)
    (lowB : 0 ≤ b.1 ∧ 0 ≤ b.2) (highB : b.1 + (i + n) ≤ new.length ∧ b.2 + (i + n) ≤ old.length)
    (range : 0 ≤ o.len ∧ o.len ≤ i) :
    ∃ o', overlapLoop old new f b n i o = some o' ∧ 0 ≤ o'.len ∧ o'.len ≤ i + n := by
  induction n generalizing i o with
  | zero => exact ⟨o, rfl, range.1, by omega⟩
  | succ n ih =>
    rcases byteAt_returns (i := f.1 + i) (by omega) (by omega : f.1 + i < new.length) with ⟨x, at₁⟩
    rcases byteAt_returns (i := f.2 + i) (by omega) (by omega : f.2 + i < old.length) with ⟨y, at₂⟩
    rcases byteAt_returns (i := b.1 + i) (by omega) (by omega : b.1 + i < new.length) with ⟨z, at₃⟩
    rcases byteAt_returns (i := b.2 + i) (by omega) (by omega : b.2 + i < old.length) with ⟨w, at₄⟩
    rw [overlapLoop]
    simp only [at₁, at₂, at₃, at₄, Option.bind_eq_bind, Option.bind_some]
    have next : i + ((n + 1 : Nat) : Int) = i + 1 + n := by omega
    rw [next] at highF highB ⊢
    apply ih (by omega) highF highB
    rw [apply_ite Scoring.len]
    dsimp only
    split <;> omega

/-! ## What is written -/

theorem diffLoop_eq (lowScan : 0 ≤ lastscan + i) (highScan : lastscan + i + n ≤ new.length)
    (lowPos : 0 ≤ lastpos + i) (highPos : lastpos + i + n ≤ old.length) :
    diffLoop old new lastscan lastpos n i =
      some (Delta.subtracted old (lastpos + i) ((new.drop (lastscan + i).toNat).take n)) := by
  induction n generalizing i with
  | zero => rfl
  | succ n ih =>
    have inNew : (lastscan + i).toNat < new.length := by omega
    have inOld : (lastpos + i).toNat < old.length := by omega
    have next : (lastscan + (i + 1)).toNat = (lastscan + i).toNat + 1 := by omega
    have atNew : byteAt new (lastscan + i) = some new[(lastscan + i).toNat] := by
      rw [byteAt, if_pos lowScan, List.getElem?_eq_getElem inNew]
    have atOld : byteAt old (lastpos + i) = some old[(lastpos + i).toNat] := by
      rw [byteAt, if_pos lowPos, List.getElem?_eq_getElem inOld]
    have value : Delta.oldAt old (lastpos + i) = old[(lastpos + i).toNat] := by
      rw [Delta.oldAt, if_pos lowPos, List.getD_eq_getElem?_getD, List.getElem?_eq_getElem inOld,
        Option.getD_some]
    have rest := ih (i := i + 1) (by omega) (by omega) (by omega) (by omega)
    rw [diffLoop, atNew, atOld, rest, List.drop_eq_getElem_cons inNew, List.take_succ_cons,
      Delta.subtracted, value, next, add_assoc]
    rfl

theorem extraLoop_eq {start : Int} (low : 0 ≤ start + i) (high : start + i + n ≤ new.length) :
    extraLoop new start n i = some ((new.drop (start + i).toNat).take n) := by
  induction n generalizing i with
  | zero => rfl
  | succ n ih =>
    have inside : (start + i).toNat < new.length := by omega
    have next : (start + (i + 1)).toNat = (start + i).toNat + 1 := by omega
    have here : byteAt new (start + i) = some new[(start + i).toNat] := by
      rw [byteAt, if_pos low, List.getElem?_eq_getElem inside]
    have rest := ih (i := i + 1) (by omega) (by omega)
    rw [extraLoop, here, rest, List.drop_eq_getElem_cons inside, List.take_succ_cons, next]
    rfl

end Bsdiff

end Tr6260
