import Tr6260.LittleEndian
import Tr6260.SwPackage.Patch

/-!
# A patch gives the new firmware

`bspatch` is what a patch is for: it reads the header and the blocks back and applies the
difference they hold to the old firmware. LZMA and its inverse are not the tool's own.
-/

namespace Tr6260

namespace Bsdiff

open ByteMem

variable {malloc : Nat → Bool} {lzma : List UInt8 → Nat → Option (List UInt8 × List UInt8)}
variable {unlzma : List UInt8 → List UInt8 → Option (List UInt8)} {s : Sorting}
variable {old new patch prop : List UInt8} {steps : List (DeltaStep UInt8)} {made : Made} {x : Int}

/-! ## Numbers -/

/-- What `offtout` writes for a number: its size, and its sign in the last bit. -/
def offtin (bytes : List UInt8) : Int :=
  if leNat bytes < 2 ^ 63 then leNat bytes else -((leNat bytes - 2 ^ 63 : Nat) : Int)

theorem ofNat_mod (n : Nat) : UInt8.ofNat (n % 256) = UInt8.ofNat n := by
  apply UInt8.toNat_inj.mp
  rw [UInt8.toNat_ofNat', UInt8.toNat_ofNat']
  omega

theorem ofNat_or_sign {n : Nat} (small : n < 128) :
    UInt8.ofNat n ||| 0x80 = UInt8.ofNat (n + 128) := by
  have all : ∀ n < 128, UInt8.ofNat n ||| 0x80 = UInt8.ofNat (n + 128) := by decide
  exact all n small

theorem leBytes_eight (v : Nat) : leBytes 8 v =
    [UInt8.ofNat v, UInt8.ofNat (v / 256), UInt8.ofNat (v / 256 ^ 2), UInt8.ofNat (v / 256 ^ 3),
      UInt8.ofNat (v / 256 ^ 4), UInt8.ofNat (v / 256 ^ 5), UInt8.ofNat (v / 256 ^ 6),
      UInt8.ofNat (v / 256 ^ 7)] := by
  simp only [leBytes, Nat.div_div_eq_div_mul]
  rfl

/-- The bit of the sign is in the last byte. -/
theorem byte_sign {y i : Nat} (low : i < 7) :
    UInt8.ofNat ((y + 2 ^ 63) / 256 ^ i) = UInt8.ofNat (y / 256 ^ i) := by
  have bit : 2 ^ 63 = 256 ^ i * (2 ^ (55 - 8 * i) * 256) := by
    have base : (256 : Nat) = 2 ^ 8 := rfl
    rw [base, ← pow_mul, ← pow_add, ← pow_add]
    congr 1
    omega
  rw [bit, Nat.add_mul_div_left _ _ (Nat.pow_pos (by decide)), ← ofNat_mod,
    Nat.add_mul_mod_self_right, ofNat_mod]

theorem offtout_eq (small : x.natAbs < 2 ^ 63) :
    offtout x = leBytes 8 (x.natAbs + if x < 0 then 2 ^ 63 else 0) := by
  unfold offtout
  generalize x.natAbs = y at small
  dsimp only
  rw [leBytes_eight]
  simp only [ofNat_mod]
  split
  · have last : UInt8.ofNat (y / 256 ^ 7) ||| 0x80 = UInt8.ofNat ((y + 2 ^ 63) / 256 ^ 7) := by
      rw [ofNat_or_sign (by omega)]
      congr 1
      omega
    have first := byte_sign (y := y) (i := 0) (by decide)
    have second := byte_sign (y := y) (i := 1) (by decide)
    rw [pow_zero, Nat.div_one, Nat.div_one] at first
    rw [pow_one] at second
    have others (i : Nat) (low : i < 7) := byte_sign (y := y) low
    rw [last, first, second, others 2 (by decide), others 3 (by decide), others 4 (by decide),
      others 5 (by decide), others 6 (by decide), pow_zero, Nat.div_one, pow_one]
  · rw [add_zero, pow_zero, Nat.div_one, pow_one]

theorem offtin_offtout (small : x.natAbs < 2 ^ 63) : offtin (offtout x) = x := by
  rw [offtout_eq small, offtin]
  by_cases negative : x < 0
  · rw [if_pos negative, leNat_leBytes (by omega), if_neg (by omega)]
    omega
  · rw [if_neg negative, leNat_leBytes (by omega), if_pos (by omega)]
    omega

/-! ## Blocks -/

/-- The steps of a number of triples, which use up the blocks. -/
def stepsOf : Nat → List UInt8 → List UInt8 → List UInt8 → Option (List (DeltaStep UInt8))
  | 0, cb, db, eb => if cb = [] ∧ db = [] ∧ eb = [] then some [] else none
  | count + 1, cb, db, eb =>
    let x := offtin (cb.take 8)
    let y := offtin ((cb.drop 8).take 8)
    let z := offtin ((cb.drop 16).take 8)
    if x < 0 ∨ (db.length : Int) < x ∨ y < 0 ∨ (eb.length : Int) < y then none
    else do
      let steps ← stepsOf count (cb.drop 24) (db.drop x.toNat) (eb.drop y.toNat)
      some (⟨db.take x.toNat, eb.take y.toNat, z⟩ :: steps)

/-- The new firmware that a patch gives for the old one. -/
def bspatch (unlzma : List UInt8 → List UInt8 → Option (List UInt8))
    (prop old patch : List UInt8) : Option (List UInt8) :=
  if patch.take 8 ≠ magic then none
  else do
    let cblen := offtin ((patch.drop 8).take 8)
    let dblen := offtin ((patch.drop 16).take 8)
    let newLen := offtin ((patch.drop 24).take 8)
    if cblen < 0 ∨ dblen < 0 then none
    else do
      let blocks ← unlzma prop (patch.drop 32)
      let steps ← stepsOf (cblen.toNat / 24) (blocks.take cblen.toNat)
        ((blocks.drop cblen.toNat).take dblen.toNat) (blocks.drop (cblen.toNat + dblen.toNat))
      let new := Delta.restore old 0 steps
      if new.length = newLen then some new else none

/-- Steps whose numbers fit eight bytes. -/
def Small (step : DeltaStep UInt8) : Prop :=
  step.diff.length < 2 ^ 63 ∧ step.extra.length < 2 ^ 63 ∧ step.seek.natAbs < 2 ^ 63

@[simp] theorem length_ctrl (step : DeltaStep UInt8) : (ctrl step).length = 24 := rfl

theorem length_cb : (blocksOf steps).cb.length = 24 * steps.length := by
  induction steps with
  | nil => rfl
  | cons step steps ih =>
    unfold blocksOf at ih ⊢
    dsimp only at ih ⊢
    rw [List.flatMap_cons, List.length_append, ih, length_ctrl, List.length_cons]
    omega

theorem stepsOf_blocksOf (small : ∀ step ∈ steps, Small step) :
    stepsOf steps.length (blocksOf steps).cb (blocksOf steps).db (blocksOf steps).eb =
      some steps := by
  induction steps with
  | nil => rfl
  | cons step steps ih =>
    rcases small step List.mem_cons_self with ⟨diff, extra, seek⟩
    have rest := ih fun other member => small other (List.mem_cons_of_mem _ member)
    unfold blocksOf at rest ⊢
    dsimp only at rest ⊢
    rw [List.flatMap_cons, List.flatMap_cons, List.flatMap_cons, ctrl, List.length_cons, stepsOf]
    simp only [List.append_assoc]
    have first : (offtout step.diff.length ++ (offtout step.extra.length ++ (offtout step.seek ++
        steps.flatMap ctrl))).take 8 = offtout step.diff.length := rfl
    have second : ((offtout step.diff.length ++ (offtout step.extra.length ++ (offtout step.seek ++
        steps.flatMap ctrl))).drop 8).take 8 = offtout step.extra.length := rfl
    have third : ((offtout step.diff.length ++ (offtout step.extra.length ++ (offtout step.seek ++
        steps.flatMap ctrl))).drop 16).take 8 = offtout step.seek := rfl
    have after : (offtout step.diff.length ++ (offtout step.extra.length ++ (offtout step.seek ++
        steps.flatMap ctrl))).drop 24 = steps.flatMap ctrl := rfl
    rw [first, second, third, after, offtin_offtout (by omega), offtin_offtout (by omega),
      offtin_offtout seek, if_neg, Int.toNat_natCast, Int.toNat_natCast, List.drop_left,
      List.drop_left, rest, List.take_left, List.take_left]
    · rfl
    · rw [List.length_append, List.length_append]
      omega

/-- The tail of a package's patch. -/
theorem bspatch_made (inverse : unlzma prop patch =
      some ((blocksOf steps).cb ++ (blocksOf steps).db ++ (blocksOf steps).eb))
    (restores : Delta.restore old 0 steps = new) (small : ∀ step ∈ steps, Small step)
    (cb : (blocksOf steps).cb.length < 2 ^ 63) (db : (blocksOf steps).db.length < 2 ^ 63)
    (length : new.length < 2 ^ 63) :
    bspatch unlzma prop old (header (blocksOf steps) new.length ++ patch) = some new := by
  have back := stepsOf_blocksOf small
  have count : (blocksOf steps).cb.length = 24 * steps.length := length_cb
  generalize blocksOf steps = blocks at *
  have first : (header blocks new.length ++ patch).take 8 = magic := rfl
  have cblen : ((header blocks new.length ++ patch).drop 8).take 8 = offtout blocks.cb.length := rfl
  have dblen : ((header blocks new.length ++ patch).drop 16).take 8 = offtout blocks.db.length := rfl
  have newLen : ((header blocks new.length ++ patch).drop 24).take 8 = offtout new.length := rfl
  have body : (header blocks new.length ++ patch).drop 32 = patch := rfl
  have triples : 24 * steps.length / 24 = steps.length := by omega
  rw [bspatch, first, cblen, dblen, newLen, body, offtin_offtout (by omega),
    offtin_offtout (by omega), offtin_offtout (by omega), if_neg (by simp), if_neg (by omega),
    inverse]
  simp only [Int.toNat_natCast, Option.bind_eq_bind, Option.bind_some]
  rw [List.append_assoc, List.take_left, List.drop_left, List.take_left, ← List.drop_drop,
    List.drop_left, List.drop_left, count, triples, back, Option.bind_some, restores]
  simp

/-! ## What was in memory -/

/-- There is one order of the suffixes. -/
theorem SuffixArray.unique {I I' : Offs} (sorted : SuffixArray old I)
    (sorted' : SuffixArray old I') {i : Int} (low : 0 ≤ i) (high : i ≤ old.length) :
    I i = I' i := by
  induction i using Int.strongRec (m := 0) with
  | lt i below => omega
  | ge i low' ih =>
    have before (j : Int) (lowJ : 0 ≤ j) (less : j < i) : I j = I' j :=
      ih j less lowJ (by omega)
    rcases sorted'.lists.surjOn (sorted.lists.mapsTo ⟨low, high⟩) with ⟨k, insideK, here⟩
    rcases sorted.lists.surjOn (sorted'.lists.mapsTo ⟨low, high⟩) with ⟨l, insideL, here'⟩
    by_contra other
    have laterK : i < k := by
      rcases lt_trichotomy k i with less | same | greater
      · rw [← before k insideK.1 less] at here
        have again := sorted.lists.injOn insideK ⟨low, high⟩ here
        omega
      · rw [same] at here
        exact absurd here.symm other
      · exact greater
    have laterL : i < l := by
      rcases lt_trichotomy l i with less | same | greater
      · rw [before l insideL.1 less] at here'
        have again := sorted'.lists.injOn insideL ⟨low, high⟩ here'
        omega
      · rw [same] at here'
        exact absurd here' other
      · exact greater
    have up := sorted.sorted i l low laterL insideL.2
    have down := sorted'.sorted i k low laterK insideK.2
    rw [here'] at up
    rw [here] at down
    exact List.lt_irrefl _ (List.lt_trans up down)

theorem search_congr {I I' : Offs} (same : ∀ i : Int, 0 ≤ i → i ≤ old.length → I i = I' i)
    {n : Nat} {st en : Int} (low : 0 ≤ st) (le : st ≤ en) (high : en ≤ old.length) :
    search I old new n st en = search I' old new n st en := by
  induction n generalizing st en with
  | zero => rfl
  | succ n ih =>
    rw [search, search]
    split
    · rw [same st low (by omega), same en (by omega) high]
    · have upper : search I old new n (st + (en - st) / 2) en =
          search I' old new n (st + (en - st) / 2) en := ih (by omega) (by omega) high
      have lower : search I old new n st (st + (en - st) / 2) =
          search I' old new n st (st + (en - st) / 2) := ih low (by omega) (by omega)
      dsimp only
      rw [same _ (by omega) (by omega), upper, lower]

theorem scanLoop_congr {I I' : Offs} (same : ∀ i : Int, 0 ≤ i → i ≤ old.length → I i = I' i)
    {lastoffset : Int} {n : Nat} {s : Scanning} :
    scanLoop I old new lastoffset n s = scanLoop I' old new lastoffset n s := by
  induction n generalizing s with
  | zero => rfl
  | succ n ih =>
    have found (text : List UInt8) : search I old text (old.length + 1) 0 old.length =
        search I' old text (old.length + 1) 0 old.length :=
      search_congr same (le_refl 0) (by omega) (le_refl _)
    rw [scanLoop, scanLoop]
    simp only [found, ih]

theorem diffingLoop_congr {I I' : Offs} (same : ∀ i : Int, 0 ≤ i → i ≤ old.length → I i = I' i)
    {n : Nat} {d : Diffing} : diffingLoop I old new n d = diffingLoop I' old new n d := by
  induction n generalizing d with
  | zero => rfl
  | succ n ih =>
    have scanned (lastoffset : Int) (n : Nat) (s : Scanning) :
        scanLoop I old new lastoffset n s = scanLoop I' old new lastoffset n s :=
      scanLoop_congr same
    rw [diffingLoop, diffingLoop]
    simp only [scanned, ih]

/-- Any list of the suffixes in their order shows what a call makes. -/
theorem SuffixArray.swBsdiff_made {I : Offs} {d : Diffing} (sorted : SuffixArray old I)
    (returns : diffingLoop I old new (new.length + 2) {} = some d)
    (granted : ∀ n, n ≤ (old.length + 1) * 8 + new.length * 2 → malloc n = true)
    (few : d.blocks.cb.length ≤ new.length + 1)
    (room : d.blocks.cb.length + d.blocks.db.length + d.blocks.eb.length + 32 ≤ 2 * new.length) :
    swBsdiff malloc lzma s old new =
      some (packed d.blocks new.length
        (lzma (d.blocks.cb ++ d.blocks.db ++ d.blocks.eb) (2 * new.length))) := by
  rcases qsufsort_sorts old s with ⟨s', sorts, sorted', -⟩
  have same : diffingLoop s'.I old new (new.length + 2) {} =
      diffingLoop I old new (new.length + 2) {} :=
    diffingLoop_congr fun i low high => sorted'.unique sorted low high
  rw [swBsdiff, sorts, granted _ (by omega), granted _ (by omega), granted _ (by omega)]
  simp only [Option.bind_eq_bind, Option.bind_some, same, returns]
  rw [if_neg (by simp), if_neg (by simp), if_neg (by omega), if_neg (by omega)]

/-- How a call ends does not depend on what `I` and `V` held when they were allocated. -/
theorem swBsdiff_reproducible (s s' : Sorting) :
    swBsdiff malloc lzma s old new = swBsdiff malloc lzma s' old new := by
  rcases qsufsort_sorts old s with ⟨r, sorts, sorted, -⟩
  rcases qsufsort_sorts old s' with ⟨r', sorts', sorted', -⟩
  have same : diffingLoop r.I old new (new.length + 2) {} =
      diffingLoop r'.I old new (new.length + 2) {} :=
    diffingLoop_congr fun i low high => sorted.unique sorted' low high
  rw [swBsdiff, swBsdiff, sorts, sorts']
  simp only [Option.bind_eq_bind, Option.bind_some, same]

/-! ## A firmware that grows -/

/-- The blocks of the difference from a zero byte to 64 of them. -/
def grownBlocks : List UInt8 :=
  offtout 1 ++ offtout 63 ++ offtout (-1) ++ List.replicate 64 0

/-- Their compressed form: literals, a short match and a long one. -/
def lzmaOfGrown : List UInt8 :=
  [0, 0, 128, 64, 137, 69, 150, 27, 71, 28, 106, 42, 202, 38, 64, 0]

/-- `SwLzmaCompress`, of these blocks. -/
def grownLzma (src : List UInt8) (room : Nat) : Option (List UInt8 × List UInt8) :=
  if src = grownBlocks ∧ 16 ≤ room then some (lzmaOfGrown, [0, 0, 32, 0, 0]) else none

def grownUnlzma (prop patch : List UInt8) : Option (List UInt8) :=
  if prop = [0, 0, 32, 0, 0] ∧ patch = lzmaOfGrown then some grownBlocks else none

theorem grownUnlzma_grownLzma (src : List UInt8) (room : Nat) (patch prop : List UInt8)
    (made : grownLzma src room = some (patch, prop)) : grownUnlzma prop patch = some src := by
  unfold grownLzma at made
  split at made
  · next grown =>
    cases made
    rw [grownUnlzma, if_pos ⟨rfl, rfl⟩, grown.1]
  · cases made

theorem sorted_zero : SuffixArray [0] ⟨fun i => 1 - i⟩ where
  lists := by
    refine ⟨?_, ?_, ?_⟩
    · intro i inside
      rw [Set.mem_Icc, List.length_singleton] at inside ⊢
      dsimp only
      omega
    · intro i _ j _ same
      dsimp only at same
      omega
    · intro i inside
      rw [Set.mem_Icc, List.length_singleton] at inside
      exact ⟨1 - i, ⟨by omega, by rw [List.length_singleton]; omega⟩, by dsimp only; omega⟩
  sorted := by
    intro i j low less high
    rw [List.length_singleton] at high
    have first : i = 0 := by omega
    have second : j = 1 := by omega
    rw [first, second]
    decide

theorem diffingLoop_grown :
    (diffingLoop ⟨fun i => 1 - i⟩ [0] (List.replicate 64 0) 66 {}).map (fun d =>
      (d.blocks.cb, d.blocks.db, d.blocks.eb)) =
      some (offtout 1 ++ offtout 63 ++ offtout (-1), [0], List.replicate 63 0) := by
  decide +kernel

/-- Arrays of zeros. -/
def zeroSorting : Sorting := ⟨⟨fun _ => 0⟩, ⟨fun _ => 0⟩⟩

/-- The patch for a firmware that grows from one zero byte to 64. -/
def grownPatch : List UInt8 :=
  magic ++ offtout 24 ++ offtout 1 ++ offtout 64 ++ lzmaOfGrown

theorem swBsdiff_grown (granted : ∀ n ≤ 144, malloc n = true)
    (compressed : lzma grownBlocks 128 = some (lzmaOfGrown, [0, 0, 32, 0, 0])) :
    swBsdiff malloc lzma s [0] (List.replicate 64 0) =
      some (.patch grownPatch [0, 0, 32, 0, 0]) := by
  rcases Option.map_eq_some_iff.mp diffingLoop_grown with ⟨d, returns, blocks⟩
  have cb : d.blocks.cb = offtout 1 ++ offtout 63 ++ offtout (-1) := congrArg (·.1) blocks
  have db : d.blocks.db = [0] := congrArg (·.2.1) blocks
  have eb : d.blocks.eb = List.replicate 63 0 := congrArg (·.2.2) blocks
  have whole : d.blocks.cb ++ d.blocks.db ++ d.blocks.eb = grownBlocks := by
    rw [cb, db, eb]
    decide +kernel
  have head : header d.blocks 64 = magic ++ offtout 24 ++ offtout 1 ++ offtout 64 := by
    rw [header, cb, db]
    rfl
  rw [sorted_zero.swBsdiff_made returns granted (by rw [cb]; decide)
    (by rw [cb, db, eb]; decide), whole, List.length_replicate]
  rw [compressed, packed, head, grownPatch]

/-! ## A call -/

theorem length_le_flatMap {f : DeltaStep UInt8 → List UInt8} {step : DeltaStep UInt8}
    (member : step ∈ steps) : (f step).length ≤ (steps.flatMap f).length := by
  apply List.Sublist.length_le
  exact List.sublist_flatten_of_mem (List.mem_map_of_mem member)

/-- How a call ends, by the number of its steps. -/
theorem swBsdiff_eq (lengthOld : old.length < 2 ^ 31) (lengthNew : new.length < 2 ^ 31) :
    ∃ steps, Delta.restore old 0 steps = new ∧ (∀ step ∈ steps, Small step) ∧
      swBsdiff malloc lzma s old new = some (
        if malloc ((old.length + 1) * 8) = false then .refused
        else if malloc (new.length + 1) = false ∨ malloc (new.length * 2) = false then .refused
        else if new.length + 1 < 24 * steps.length then .overrun
        else if new.length < 24 * steps.length + 32 then .refused
        else packed (blocksOf steps) new.length
          (lzma ((blocksOf steps).cb ++ (blocksOf steps).db ++ (blocksOf steps).eb)
            (2 * new.length))) := by
  rcases qsufsort_sorts old s with ⟨s', sorts, sorted, -⟩
  have blocks : ∃ d steps, diffingLoop s'.I old new (new.length + 2) {} = some d ∧
      d.blocks = blocksOf steps ∧ Delta.restore old 0 steps = new ∧
      ∀ step ∈ steps, -(old.length : Int) ≤ step.seek ∧ step.seek ≤ old.length :=
    diffingLoop_blocks sorted.listed
  rcases blocks with ⟨d, steps, returns, blocks, restores, seeks⟩
  have total : (Delta.restore old 0 steps).length = _ := Delta.length_restore
  rw [restores] at total
  refine ⟨steps, restores, ?_, ?_⟩
  · intro step member
    have diff := length_le_flatMap (f := DeltaStep.diff) member
    have extra := length_le_flatMap (f := DeltaStep.extra) member
    have seek := seeks step member
    exact ⟨by omega, by omega, by omega⟩
  · have sum : (blocksOf steps).db.length + (blocksOf steps).eb.length = new.length := total.symm
    rw [swBsdiff, sorts]
    simp only [Option.bind_eq_bind, Option.bind_some, returns, blocks, length_cb]
    have room : 24 * steps.length + (blocksOf steps).db.length + (blocksOf steps).eb.length + 32 >
        2 * new.length ↔ new.length < 24 * steps.length + 32 := by omega
    rw [if_congr room rfl rfl]
    by_cases first : malloc ((old.length + 1) * 8) = false
    · rw [if_pos first, if_pos first]
    rw [if_neg first, if_neg first]
    by_cases second : malloc (new.length + 1) = false ∨ malloc (new.length * 2) = false
    · rw [if_pos second, if_pos second]
    rw [if_neg second, if_neg second]
    by_cases beyond : new.length + 1 < 24 * steps.length
    · rw [if_pos beyond, if_pos beyond]
    rw [if_neg beyond, if_neg beyond]
    by_cases short : new.length < 24 * steps.length + 32
    · rw [if_pos short, if_pos short]
    rw [if_neg short, if_neg short]

/-- What a patch is made of. -/
theorem swBsdiff_patch (lengthOld : old.length < 2 ^ 31) (lengthNew : new.length < 2 ^ 31)
    (made : swBsdiff malloc lzma s old new = some (.patch patch prop)) :
    ∃ steps body, Delta.restore old 0 steps = new ∧ (∀ step ∈ steps, Small step) ∧
      24 * steps.length + 32 ≤ new.length ∧ patch = header (blocksOf steps) new.length ++ body ∧
      lzma ((blocksOf steps).cb ++ (blocksOf steps).db ++ (blocksOf steps).eb) (2 * new.length) =
        some (body, prop) := by
  rcases swBsdiff_eq lengthOld lengthNew with ⟨steps, restores, small, returns⟩
  rw [returns] at made
  have result := Option.some.inj made
  split at result
  · cases result
  split at result
  · cases result
  split at result
  · cases result
  split at result
  · cases result
  next long =>
  generalize compressed : lzma ((blocksOf steps).cb ++ (blocksOf steps).db ++ (blocksOf steps).eb)
    (2 * new.length) = packed at result
  cases packed with
  | none => cases result
  | some packed =>
    cases result
    exact ⟨steps, packed.1, restores, small, by omega, rfl, compressed⟩

/-- `SwBsdiff` reads only inside of its buffers, and a patch that it makes gives the new firmware
for the old one. -/
theorem swBsdiff_restores (lengthOld : old.length < 2 ^ 31) (lengthNew : new.length < 2 ^ 31)
    (inverse : ∀ src room patch prop, lzma src room = some (patch, prop) →
      unlzma prop patch = some src) :
    ∃ made, swBsdiff malloc lzma s old new = some made ∧
      ∀ patch prop, made = .patch patch prop → bspatch unlzma prop old patch = some new := by
  have all : ∃ steps, Delta.restore old 0 steps = new ∧ (∀ step ∈ steps, Small step) ∧
      swBsdiff malloc lzma s old new = _ := swBsdiff_eq lengthOld lengthNew
  rcases all with ⟨_, _, _, returns⟩
  refine ⟨_, returns, ?_⟩
  intro patch prop same
  rw [same] at returns
  rcases swBsdiff_patch lengthOld lengthNew returns with
    ⟨steps, body, restores, small, long, rfl, compressed⟩
  have total : (Delta.restore old 0 steps).length = _ := Delta.length_restore
  rw [restores] at total
  have db : (blocksOf steps).db.length ≤ new.length := by
    rw [total]
    exact Nat.le_add_right _ _
  exact bspatch_made (inverse _ _ _ _ compressed) restores small
    (by rw [length_cb]; omega) (by omega) (by omega)

theorem swBsdiff_restores_grown :
    swBsdiff (fun _ => true) grownLzma zeroSorting [0] (List.replicate 64 0) =
        some (.patch grownPatch [0, 0, 32, 0, 0]) ∧
      bspatch grownUnlzma [0, 0, 32, 0, 0] [0] grownPatch = some (List.replicate 64 0) := by
  have returns : swBsdiff (fun _ => true) grownLzma zeroSorting [0]
      (List.replicate 64 0) = some (.patch grownPatch [0, 0, 32, 0, 0]) :=
    swBsdiff_grown (fun _ _ => rfl) (by decide +kernel)
  have result : ∃ made, swBsdiff (fun _ => true) grownLzma zeroSorting [0]
      (List.replicate 64 0) = some made ∧ ∀ patch prop, made = .patch patch prop →
        bspatch grownUnlzma prop [0] patch = some (List.replicate 64 0) :=
    swBsdiff_restores (by decide) (by decide) grownUnlzma_grownLzma
  rcases result with ⟨made, returns', restores⟩
  exact ⟨returns, restores _ _ (Option.some.inj (returns'.symm.trans returns))⟩

/-- The control block of a short new firmware is written beyond its end, and every patch that is
made is for one of at least 56 bytes. -/
theorem swBsdiff_short (lengthOld : old.length < 2 ^ 31) (lengthNew : new.length < 2 ^ 31)
    (some_ : new ≠ []) (granted : ∀ n, malloc n = true) :
    (new.length < 23 → swBsdiff malloc lzma s old new = some .overrun) ∧
      ∀ patch prop, swBsdiff malloc lzma s old new = some (.patch patch prop) →
        56 ≤ new.length := by
  have pos (steps : List (DeltaStep UInt8)) (restores : Delta.restore old 0 steps = new) :
      1 ≤ steps.length := by
    cases steps with
    | nil => exact absurd restores.symm some_
    | cons step steps => exact Nat.le_add_left _ _
  constructor
  · intro short
    have all : ∃ steps, Delta.restore old 0 steps = new ∧ (∀ step ∈ steps, Small step) ∧
        swBsdiff malloc lzma s old new = _ := swBsdiff_eq lengthOld lengthNew
    rcases all with ⟨steps, restores, -, returns⟩
    have one := pos steps restores
    rw [returns]
    simp only [granted, Bool.true_eq_false, or_self, if_false]
    rw [if_pos (by omega)]
  · intro patch prop made
    rcases swBsdiff_patch lengthOld lengthNew made with ⟨steps, -, restores, -, long, -, -⟩
    have one := pos steps restores
    omega

/-- 22 bytes, of which the control block takes 24, and 64, for which a patch is made. -/
theorem swBsdiff_short_one :
    swBsdiff (fun _ => true) (fun _ _ => none) zeroSorting [0] (List.replicate 22 7) =
        some .overrun ∧
      ∃ patch prop, swBsdiff (fun _ => true) grownLzma zeroSorting [0] (List.replicate 64 0) =
        some (.patch patch prop) ∧ 56 ≤ (List.replicate 64 (0 : UInt8)).length := by
  constructor
  · have short : (List.replicate 22 (7 : UInt8)).length < 23 →
        swBsdiff (fun _ => true) (fun _ _ => none) zeroSorting [0] (List.replicate 22 7) =
          some .overrun :=
      (swBsdiff_short (by decide) (by decide) (by decide) fun _ => rfl).1
    exact short (by decide)
  · have returns : swBsdiff (fun _ => true) grownLzma zeroSorting [0] (List.replicate 64 0) = _ :=
      swBsdiff_grown (fun _ _ => rfl) (by decide +kernel)
    exact ⟨_, _, returns, (swBsdiff_short (by decide) (by decide) (by decide) fun _ => rfl).2
      _ _ returns⟩

end Bsdiff

end Tr6260
