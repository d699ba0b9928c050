import Tr6260.SuffixOrder
import Mathlib.Logic.Function.Basic

/-!
# The sorting of the suffixes of the old firmware

`split` and `qsufsort` of `sw_bsdiff.c`, on arrays of `off_t` that may hold anything before. A
loop is a recursion on the number of its rounds that are left, or on a bound for it.
-/

namespace Tr6260

namespace Bsdiff

/-- An array of `off_t`, with whatever is around it. -/
@[ext]
structure Offs where
  get : Int → Int

instance : CoeFun Offs fun _ => Int → Int := ⟨Offs.get⟩

/-- `array[a]=value;`. -/
def Offs.set (array : Offs) (a value : Int) : Offs := ⟨Function.update array.get a value⟩

/-- The arrays `I` and `V`. -/
structure Sorting where
  I : Offs
  V : Offs

/-- `tmp=I[a];I[a]=I[b];I[b]=tmp;`. -/
def exchange (I : Offs) (a b : Int) : Offs := (I.set a (I b)).set b (I a)

/-! ## `split` -/

/-- The variables of the inner loop on a short range. -/
structure Selection where
  I : Offs
  j : Int
  x : Int

/-- One round of it. -/
def selectRound (V : Offs) (h k i : Int) (sel : Selection) : Selection :=
  let sel := if V (sel.I (k + i) + h) < sel.x
    then { sel with x := V (sel.I (k + i) + h), j := 0 } else sel
  if V (sel.I (k + i) + h) = sel.x
  then { sel with I := exchange sel.I (k + sel.j) (k + i), j := sel.j + 1 } else sel

/-- `for(i=1;k+i<start+len;i++)`. -/
def selectLoop (V : Offs) (h k : Int) : Nat → Int → Selection → Selection
  | 0, _, sel => sel
  | rounds + 1, i, sel => selectLoop V h k rounds (i + 1) (selectRound V h k i sel)

/-- `for(i=0;i<j;i++) V[I[a+i]]=e;`. -/
def rankLoop (I : Offs) (a e : Int) : Nat → Int → Offs → Offs
  | 0, _, V => V
  | rounds + 1, i, V => rankLoop I a e rounds (i + 1) (V.set (I (a + i)) e)

/-- The ranks of a range of equal keys, which is marked as sorted when it has one entry. -/
def settle (s : Sorting) (a e : Int) : Sorting :=
  { V := rankLoop s.I a (e - 1) (e - a).toNat 0 s.V
    I := if a = e - 1 then s.I.set a (-1) else s.I }

/-- `for(k=start;k<start+len;k+=j)`. -/
def selectionSort (h stop : Int) : Nat → Int → Sorting → Sorting
  | 0, _, s => s
  | rounds + 1, k, s =>
    if k < stop then
      let sel := selectLoop s.V h k (stop - k - 1).toNat 1 ⟨s.I, 1, s.V (s.I k + h)⟩
      selectionSort h stop rounds (k + sel.j) (settle { s with I := sel.I } k (k + sel.j))
    else s

/-- `for(i=start;i<start+len;i++)`, with `jj` and `kk`. -/
def countLoop (s : Sorting) (h x : Int) : Nat → Int → Int × Int → Int × Int
  | 0, _, counts => counts
  | rounds + 1, i, (jj, kk) =>
    let key := s.V (s.I i + h)
    countLoop s h x rounds (i + 1)
      (if key < x then jj + 1 else jj, if key = x then kk + 1 else kk)

/-- The variables of the loops that part a long range. -/
structure Parting where
  I : Offs
  i : Int
  j : Int
  k : Int

/-- `while(i<jj)`. -/
def lessLoop (V : Offs) (h x jj kk : Int) : Nat → Parting → Parting
  | 0, p => p
  | rounds + 1, p =>
    if p.i < jj then
      lessLoop V h x jj kk rounds
        (if V (p.I p.i + h) < x then { p with i := p.i + 1 }
        else if V (p.I p.i + h) = x then
          { p with I := exchange p.I p.i (jj + p.j), j := p.j + 1 }
        else { p with I := exchange p.I p.i (kk + p.k), k := p.k + 1 })
    else p

/-- `while(jj+j<kk)`. -/
def equalLoop (V : Offs) (h x jj kk : Int) : Nat → Parting → Parting
  | 0, p => p
  | rounds + 1, p =>
    if jj + p.j < kk then
      equalLoop V h x jj kk rounds
        (if V (p.I (jj + p.j) + h) = x then { p with j := p.j + 1 }
        else { p with I := exchange p.I (jj + p.j) (kk + p.k), k := p.k + 1 })
    else p

/-- `split`. A range is split in fewer rounds than it has entries (`split_rounds`). -/
def split (h : Int) : Nat → Int → Int → Sorting → Sorting
  | 0, _, _, s => s
  | rounds + 1, start, len, s =>
    if len < 16 then selectionSort h (start + len) len.toNat start s
    else
      let x := s.V (s.I (start + len / 2) + h)
      let (less, equal) := countLoop s h x len.toNat start (0, 0)
      let jj := less + start
      let kk := equal + jj
      let p := lessLoop s.V h x jj kk len.toNat ⟨s.I, start, 0, 0⟩
      let p := equalLoop s.V h x jj kk len.toNat p
      let s := { s with I := p.I }
      let s := if start < jj then split h rounds start (jj - start) s else s
      let s := settle s jj kk
      if kk < start + len then split h rounds kk (start + len - kk) s else s

/-! ## `qsufsort` -/

/-- `for(i=0;i<oldsize;i++) buckets[old[i]]++;`. -/
def countBytes : List UInt8 → Offs → Offs
  | [], buckets => buckets
  | c :: old, buckets =>
    countBytes old (buckets.set c.toNat (buckets c.toNat + 1))

/-- `for(i=1;i<256;i++) buckets[i]+=buckets[i-1];`. -/
def sumBuckets : Nat → Int → Offs → Offs
  | 0, _, buckets => buckets
  | rounds + 1, i, buckets =>
    sumBuckets rounds (i + 1) (buckets.set i (buckets i + buckets (i - 1)))

/-- `for(i=255;i>0;i--) buckets[i]=buckets[i-1];`. -/
def shiftBuckets : Nat → Offs → Offs
  | 0, buckets => buckets
  | i + 1, buckets => shiftBuckets i (buckets.set (i + 1 : Nat) (buckets i))

/-- `for(i=0;i<oldsize;i++) I[++buckets[old[i]]]=i;`. -/
def placeLoop : List UInt8 → Int → Offs × Offs → Offs × Offs
  | [], _, state => state
  | c :: old, i, (buckets, I) =>
    let b := buckets c.toNat + 1
    placeLoop old (i + 1) (buckets.set c.toNat b, I.set b i)

/-- `for(i=0;i<oldsize;i++) V[i]=buckets[old[i]];`. -/
def rankBytes (buckets : Offs) : List UInt8 → Int → Offs → Offs
  | [], _, V => V
  | c :: old, i, V => rankBytes buckets old (i + 1) (V.set i (buckets c.toNat))

/-- `for(i=1;i<256;i++) if(buckets[i]==buckets[i-1]+1) I[buckets[i]]=-1;`. -/
def markLoop (buckets : Offs) : Nat → Int → Offs → Offs
  | 0, _, I => I
  | rounds + 1, i, I =>
    markLoop buckets rounds (i + 1)
      (if buckets i = buckets (i - 1) + 1 then I.set (buckets i) (-1) else I)

/-- `qsufsort` before its first round over the groups. -/
def bucketSort (old : List UInt8) (s : Sorting) : Sorting :=
  let buckets := countBytes old ⟨fun _ => 0⟩
  let buckets := sumBuckets 255 1 buckets
  let buckets := (shiftBuckets 255 buckets).set 0 0
  let (buckets, I) := placeLoop old 0 (buckets, s.I)
  let I := I.set 0 old.length
  let V := (rankBytes buckets old 0 s.V).set old.length 0
  let I := markLoop buckets 255 1 I
  { I := I.set 0 (-1), V := V }

/-- `if(len) I[i-len]=-len;`. -/
def mergeRun (I : Offs) (i len : Int) : Offs :=
  if len ≠ 0 then I.set (i - len) (-len) else I

/-- `for(i=0;i<oldsize+1;)` and the end of the last run. -/
def groupLoop (size h : Int) : Nat → Int → Int → Sorting → Sorting
  | 0, i, len, s => { s with I := mergeRun s.I i len }
  | rounds + 1, i, len, s =>
    if i < size + 1 then
      if s.I i < 0 then groupLoop size h rounds (i - s.I i) (len - s.I i) s
      else
        let s := { s with I := mergeRun s.I i len }
        let len := s.V (s.I i) + 1 - i
        groupLoop size h rounds (i + len) 0 (split h len.toNat i len s)
    else { s with I := mergeRun s.I i len }

/-- `for(h=1;I[0]!=-(oldsize+1);h+=h)`, with no result when the rounds do not suffice. -/
def doublingLoop (size : Int) : Nat → Int → Sorting → Option Sorting
  | 0, _, s => if s.I 0 = -(size + 1) then some s else none
  | rounds + 1, h, s =>
    if s.I 0 = -(size + 1) then some s
    else doublingLoop size rounds (h + h) (groupLoop size h (size + 1).toNat 0 0 s)

/-- `for(i=0;i<oldsize+1;i++) I[V[i]]=i;`. -/
def invertLoop (V : Offs) : Nat → Int → Offs → Offs
  | 0, _, I => I
  | rounds + 1, i, I => invertLoop V rounds (i + 1) (I.set (V i) i)

/-- `qsufsort`. -/
def qsufsort (old : List UInt8) (s : Sorting) : Option Sorting := do
  let s ← doublingLoop old.length (old.length + 2) 1 (bucketSort old s)
  some { s with I := invertLoop s.V (old.length + 1) 0 s.I }

end Bsdiff

end Tr6260
