import Tr6260.SwPackage.Describe

/-!
# A package made with the tool's own `SwBsdiff` and `SwSha256`

Of the libraries only LZMA is then left to others. `SwBsdiff` returns 0 also when `SwLzmaCompress`
has failed on the blocks, and the tool then packages what the failure leaves. From every other
difference in the package and the slice of the old firmware that its table names, the slice of the
new firmware can be had.
-/

namespace Tr6260

open Bsdiff

/-- What a failing `SwLzmaCompress` leaves at `dst`, as many bytes as `*dstLen` then says, and in
`prop`. -/
structure LzmaFailure where
  left : List UInt8 → Nat → List UInt8 × List UInt8
  length_prop : ∀ src room, (left src room).2.length = 5

/-- What `SwBsdiff` leaves in `outBuff` and `prop`, where it returns 0. For slices of 2^31 bytes and
more the tool has no memory; a call that has written behind `cb` is refused by the length check that
follows. -/
def PkgEnv.ownBsdiff (env : PkgEnv) (failure : LzmaFailure) (s : Sorting) (old new : List UInt8) :
    Option (List UInt8 × List UInt8) :=
  if old.length < 2 ^ 31 ∧ new.length < 2 ^ 31 then
    match swBsdiff env.malloc env.lzma s old new with
    | some (.patch patch prop) => some (patch, prop)
    | some (.uncompressed head src) =>
      let left := failure.left src (2 * new.length)
      some (head ++ left.1, left.2)
    | _ => none
  else none

/-- `SwLzmaCompress` has failed in a call of `SwBsdiff`. -/
def PkgEnv.Uncompressed (env : PkgEnv) (s : Sorting) (old new : List UInt8) : Prop :=
  ∃ head src, swBsdiff env.malloc env.lzma s old new = some (.uncompressed head src)

section Own

variable {env : PkgEnv} {failure : LzmaFailure} {s : Sorting} {old new patch prop : List UInt8}

theorem PkgEnv.ownBsdiff_cases (made : env.ownBsdiff failure s old new = some (patch, prop)) :
    (old.length < 2 ^ 31 ∧ new.length < 2 ^ 31) ∧
      (swBsdiff env.malloc env.lzma s old new = some (.patch patch prop) ∨
        env.Uncompressed s old new ∧ prop.length = 5) := by
  unfold ownBsdiff at made
  split at made
  · next lengths =>
    refine ⟨lengths, ?_⟩
    split at made
    · next returns =>
      cases made
      exact .inl returns
    · next returns =>
      cases made
      exact .inr ⟨⟨_, _, returns⟩, failure.length_prop _ _⟩
    · cases made
  · cases made

theorem PkgEnv.length_ownBsdiff (made : env.ownBsdiff failure s old new = some (patch, prop)) :
    prop.length = 5 := by
  rcases PkgEnv.ownBsdiff_cases made with ⟨⟨lengthOld, lengthNew⟩, returns | failed⟩
  · rcases swBsdiff_patch lengthOld lengthNew returns with ⟨steps, body, -, -, -, -, compressed⟩
    exact env.length_lzma compressed
  · exact failed.2

end Own

/-- The surroundings of the tool, with its own `SwBsdiff` and with what the arrays of that hold when
they are allocated. -/
def PkgEnv.withBsdiff (env : PkgEnv) (failure : LzmaFailure) (s : Sorting) : PkgEnv :=
  { env with
    bsdiff := env.ownBsdiff failure s
    length_bsdiff := PkgEnv.length_ownBsdiff }

/-- The same with its own `SwSha256`, and what the context of that holds. -/
def PkgEnv.withTool (env : PkgEnv) (failure : LzmaFailure) (s : Sorting) (ctx : SwSha256.Ctx) :
    PkgEnv :=
  { env.withBsdiff failure s with
    sha256 := SwSha256.hashed ctx
    length_sha256 := SwSha256.length_hashed ctx }

/-- `LzmaUncompress` undoes what `SwLzmaCompress` does. -/
structure LzmaInverse (env : PkgEnv) where
  unlzma : List UInt8 → List UInt8 → Option (List UInt8)
  unlzma_lzma : ∀ src room patch prop, env.lzma src room = some (patch, prop) →
    unlzma prop patch = some src

theorem totalSlice_method {env : PkgEnv} {opt : SectionOpt} {i : Nat} {row : SectionTable}
    {patch : List UInt8} {offset : UInt32} (total : opt.method ≠ 1)
    (made : partSlice env opt i offset = some (row, patch)) : row.method = opt.method := by
  rw [partSlice, if_neg total] at made
  unfold totalSlice at made
  dsimp only at made
  split at made
  · rcases Option.bind_eq_some_iff.mp made with ⟨packed, -, same⟩
    cases same
    rfl
  · cases made
    rfl

/-- Where a table says that its patch is a difference, the old firmware has a slice. -/
theorem partSlice_diff {env : PkgEnv} {opt : SectionOpt} {i : Nat} {row : SectionTable}
    {patch : List UInt8} {offset : UInt32} (wf : opt.Wf)
    (size : opt.method = 1 → 0 ≤ opt.partSize)
    (made : partSlice env opt i offset = some (row, patch)) (diff : row.method = 1) :
    Located env opt i row ∧
      env.bsdiff (row.oldSlice env opt i) (row.newSlice env opt i) = some (patch, row.prop) := by
  by_cases method : opt.method = 1
  · by_cases gone : UInt32.ofNat (piece (toSize opt.partSize) i (opt.oldFile env)).length = 0
    · rcases diffSlice_behind wf method (size method) gone made with ⟨-, zero, -⟩
      rw [diff] at zero
      exact absurd zero (by decide)
    · rcases diffSlice_made wf method (size method) gone made with ⟨located, -, -, -, patched⟩
      exact ⟨located, patched⟩
  · have plain := totalSlice_method method made
    exact absurd (plain.symm.trans diff) method

/-- Every table of a package that says its patch is a difference is right, unless the compression
has failed and nobody has noticed: the patch, as the file holds it, gives the slice of the new
firmware for that of the old one. The digest in the table is that of the slice. -/
theorem swPkgMain_restored {env : PkgEnv} {failure : LzmaFailure} {s : Sorting}
    {ctx : SwSha256.Ctx} (room : ctx.block.length = 128) (inverse : LzmaInverse env)
    {doc : Option XmlRoot} {out : PkgResult}
    (made : swPkgMain (env.withTool failure s ctx) doc = some out)
    (fits : PkgFits (env.withTool failure s ctx) out.cfg) :
    ∀ e ∈ out.state.log, e.row.method = 1 →
      let tool := env.withTool failure s ctx
      let old := e.row.oldSlice tool (out.cfg.opt e.part) e.slice
      let new := e.row.newSlice tool (out.cfg.opt e.part) e.slice
      (¬ env.Uncompressed s old new →
        bspatch inverse.unlzma e.row.prop old (e.row.payload out.pkgsrc) = some new) ∧
      (new.length < 2 ^ 29 → e.row.hashb = SwSha256.sha256 new) := by
  rcases swPkgMain_run made with ⟨es, state, run⟩
  intro e logged diff
  have member := logged
  rw [run.log] at member
  rcases run.owner member with ⟨low, used, i, found⟩
  rcases run.parts.own PkgRun.nodup (List.mem_range.mpr low) used with ⟨ready, -, slices⟩
  rcases slices i e found with ⟨-, slice, emitted⟩
  rw [← slice] at emitted
  have wf := (run.wf.part e.part used).2.1
  rcases partSlice_diff wf (fun method => (ready.diff method).1) emitted diff with
    ⟨located, patched⟩
  rcases PkgEnv.ownBsdiff_cases patched with ⟨⟨lengthOld, lengthNew⟩, made⟩
  have payload : e.row.payload out.pkgsrc = e.patch :=
    (run.layout_of_fits fits).payloads e logged
  constructor
  · intro compressed
    have returns := made.resolve_right fun failed => compressed failed.1
    rcases swBsdiff_restores lengthOld lengthNew inverse.unlzma_lzma with ⟨_, returns', restores⟩
    rw [payload]
    exact restores _ _ (Option.some.inj (returns'.symm.trans returns))
  · intro short
    rw [located.hashb]
    change SwSha256.hashed ctx _ = _
    rw [SwSha256.hashed_eq room short]

/-! ## A package of a firmware that grows -/

theorem totalPatchLoop_withBsdiff {env : PkgEnv} {failure : LzmaFailure} {s : Sorting}
    {part fileLen left i : Nat} {opt : SectionOpt} {new : List UInt8} {state : PkgState} :
    totalPatchLoop (env.withBsdiff failure s) part opt fileLen left i new state =
      totalPatchLoop env part opt fileLen left i new state := by
  induction left generalizing i new state with
  | zero => rfl
  | succ left ih =>
    rw [totalPatchLoop, totalPatchLoop]
    simp only [ih]
    rfl

section Extends

variable {env : PkgEnv} {failure : LzmaFailure} {s : Sorting} {part : Nat} {opt : SectionOpt}
variable {cfg : PkgConfig}
variable {state state' : PkgState}
variable (extends_ : ∀ old new r, env.bsdiff old new = some r →
  env.ownBsdiff failure s old new = some r)

include extends_

theorem diffSlice_extends {i : Nat} {offset : UInt32} {old new : List UInt8} {ranOut : Bool}
    {r : SectionTable × List UInt8} (made : diffSlice env opt i offset old new ranOut = some r) :
    diffSlice (env.withBsdiff failure s) opt i offset old new ranOut = some r := by
  unfold diffSlice at made ⊢
  split at made
  · cases made
  · next some_ =>
    rw [if_neg some_]
    dsimp only at made ⊢
    cases ranOut with
    | true => exact made
    | false =>
      rcases Option.bind_eq_some_iff.mp made with ⟨packed, patched, row⟩
      apply Option.bind_eq_some_iff.mpr
      exact ⟨packed, extends_ _ _ _ patched, row⟩

theorem diffPatchLoop_extends {left i : Nat} {old new : List UInt8} {ranOut : Bool}
    (made : diffPatchLoop env part opt left i old new ranOut state = some state') :
    diffPatchLoop (env.withBsdiff failure s) part opt left i old new ranOut state = some state' := by
  induction left generalizing i old new ranOut state with
  | zero => exact made
  | succ left ih =>
    rw [diffPatchLoop] at made ⊢
    rcases Option.bind_eq_some_iff.mp made with ⟨r, slice, rest⟩
    apply Option.bind_eq_some_iff.mpr
    exact ⟨r, diffSlice_extends extends_ slice, ih rest⟩

theorem pkgPartitions_extends {indices : List Nat}
    (made : pkgPartitions env cfg indices state = some state') :
    pkgPartitions (env.withBsdiff failure s) cfg indices state = some state' := by
  induction indices generalizing state with
  | nil => exact made
  | cons index indices ih =>
    rw [pkgPartitions] at made ⊢
    split at made
    · next unused =>
      rw [if_pos unused]
      exact ih made
    · next used =>
      rw [if_neg used]
      rcases Option.bind_eq_some_iff.mp made with ⟨middle, created, rest⟩
      apply Option.bind_eq_some_iff.mpr
      refine ⟨middle, ?_, ih rest⟩
      split at created
      · next diff =>
        rw [if_pos diff]
        unfold swPkgDiffPatchCreate at created ⊢
        dsimp only at created ⊢
        split at created
        · cases created
        · next granted =>
          rcases Option.bind_eq_some_iff.mp created with ⟨old, opened, created⟩
          rcases Option.bind_eq_some_iff.mp created with ⟨new, opened', looped⟩
          apply (if_neg granted).trans
          apply Option.bind_eq_some_iff.mpr
          refine ⟨old, opened, Option.bind_eq_some_iff.mpr ⟨new, opened', ?_⟩⟩
          exact diffPatchLoop_extends extends_ looped
      · next total =>
        rw [if_neg total]
        unfold swPkgTotalPatchCreate at created ⊢
        simp only [totalPatchLoop_withBsdiff]
        exact created

/-- What is made with some differences is made with the tool's own, where they are the same. -/
theorem swPkgMain_extends {doc : Option XmlRoot} {out : PkgResult}
    (made : swPkgMain env doc = some out) : swPkgMain (env.withBsdiff failure s) doc = some out := by
  rcases Option.bind_eq_some_iff.mp made with ⟨cfg, parsed, made⟩
  rcases Option.bind_eq_some_iff.mp made with ⟨state, partitions, created⟩
  apply Option.bind_eq_some_iff.mpr
  refine ⟨cfg, parsed, Option.bind_eq_some_iff.mpr ⟨state, ?_, created⟩⟩
  exact pkgPartitions_extends extends_ partitions

theorem PkgFits.extends_own (fits : PkgFits env cfg)
    (patched : ∀ k < otaDiffSectionNum, (cfg.opt k).used = true →
      ∀ i < sliceCount (cfg.opt k) ((cfg.opt k).newFile env).length,
        (slicePatch env (cfg.opt k) i).isSome) : PkgFits (env.withBsdiff failure s) cfg where
  slices := fits.slices
  small := fits.small
  room := by
    have same : ∀ k ∈ List.range otaDiffSectionNum,
        partRoom (env.withBsdiff failure s) (cfg.opt k) = partRoom env (cfg.opt k) := by
      intro k member
      unfold partRoom
      split
      · next used =>
        congr 1
        apply List.map_congr_left
        intro i inside
        have low : i < sliceCount (cfg.opt k) ((cfg.opt k).newFile env).length := by
          have bounds : 0 ≤ i ∧ i < 0 + sliceCount (cfg.opt k) ((cfg.opt k).newFile env).length :=
            List.mem_range'_1.mp inside
          omega
        have found := patched k (List.mem_range.mp member) used i low
        have patch : slicePatch (env.withBsdiff failure s) (cfg.opt k) i =
            slicePatch env (cfg.opt k) i := by
          unfold slicePatch at found ⊢
          dsimp only at found ⊢
          split at found
          · next diff =>
            rw [if_pos diff, if_pos diff]
            split at found
            · next behind =>
              rw [if_pos behind]
              exact if_pos behind
            · next there =>
              rw [if_neg there]
              refine (if_neg there).trans ?_
              rw [Option.isSome_map] at found
              rcases Option.isSome_iff_exists.mp found with ⟨r, patched⟩
              have own : (env.withBsdiff failure s).bsdiff _ _ = some r := extends_ _ _ _ patched
              rw [patched]
              exact congrArg (Option.map Prod.fst) own
          · next total =>
            rw [if_neg total, if_neg total]
            rfl
        unfold sliceRoom
        rw [patch]
      · rfl
    rw [List.map_congr_left same]
    exact fits.room

end Extends

/-- The tool with a firmware of one byte that grows to 80: a difference, and a slice behind it that
is compressed. -/
def grownEnv : PkgEnv := growEnv [0] (List.replicate 80 0)

theorem grown_swBsdiff (s : Sorting) :
    swBsdiff grownEnv.malloc grownEnv.lzma s [0] (List.replicate 64 0) =
      some (.patch grownPatch lzmaProp) := by
  apply swBsdiff_grown
  · intro n small
    apply decide_eq_true
    omega
  · change growLzma grownBlocks 128 = _
    decide +kernel

theorem growBsdiff_own {failure : LzmaFailure} {s : Sorting} (old new : List UInt8)
    (r : List UInt8 × List UInt8) (made : growBsdiff old new = some r) :
    grownEnv.ownBsdiff failure s old new = some r := by
  unfold growBsdiff at made
  split at made
  · next same =>
    cases made
    unfold PkgEnv.ownBsdiff
    rw [same.1, same.2, if_pos (by decide), grown_swBsdiff]
  · cases made

/-- A failure that leaves nothing. -/
def noFailure : LzmaFailure where
  left _ _ := ([], lzmaProp)
  length_prop _ _ := rfl

/-- The tool with its own functions. -/
def grownTool : PkgEnv := grownEnv.withTool noFailure zeroSorting SwSha256.freshCtx

def grownInverse : LzmaInverse grownEnv where
  unlzma := growUnlzma
  unlzma_lzma := growUnlzma_growLzma

theorem swPkgMain_grown :
    (swPkgMain grownEnv (some (markedDoc (tag ['6', '4'])))).map (fun out => decide (
      PkgFits grownEnv out.cfg ∧
      (∀ k < otaDiffSectionNum, (out.cfg.opt k).used = true →
        ∀ i < sliceCount (out.cfg.opt k) ((out.cfg.opt k).newFile grownEnv).length,
          (slicePatch grownEnv (out.cfg.opt k) i).isSome) ∧
      out.state.log.map (fun e => e.row.method) = [1, 0] ∧
      ∀ e ∈ out.state.log, e.row.method = 1 →
        e.row.oldSlice grownEnv (out.cfg.opt e.part) e.slice = [0] ∧
        e.row.newSlice grownEnv (out.cfg.opt e.part) e.slice = List.replicate 64 0)) =
      some true := by
  decide +kernel

theorem swPkgMain_restored_grown :
    ∃ out, swPkgMain grownTool (some (markedDoc (tag ['6', '4']))) = some out ∧
      out.state.log.map (fun e => e.row.method) = [1, 0] ∧
      ∀ e ∈ out.state.log, e.row.method = 1 →
        bspatch growUnlzma e.row.prop [0] (e.row.payload out.pkgsrc) =
          some (List.replicate 64 0) ∧
        e.row.hashb = SwSha256.sha256 (List.replicate 64 0) := by
  rcases Option.map_eq_some_iff.mp swPkgMain_grown with ⟨out, made, checks⟩
  rcases of_decide_eq_true checks with ⟨fits, patched, methods, slices⟩
  have extends_ := @growBsdiff_own noFailure zeroSorting
  have same : grownTool = grownEnv.withBsdiff noFailure zeroSorting := rfl
  have own : swPkgMain grownTool (some (markedDoc (tag ['6', '4']))) = some out := by
    rw [same]
    exact swPkgMain_extends extends_ made
  have ownFits : PkgFits grownTool out.cfg := by
    rw [same]
    exact fits.extends_own extends_ patched
  refine ⟨out, own, methods, ?_⟩
  intro e logged diff
  rcases slices e logged diff with ⟨old, new⟩
  have oldTool : e.row.oldSlice grownTool (out.cfg.opt e.part) e.slice = [0] := old
  have newTool : e.row.newSlice grownTool (out.cfg.opt e.part) e.slice = List.replicate 64 0 := new
  have room : SwSha256.freshCtx.block.length = 128 := rfl
  have all := swPkgMain_restored room grownInverse own ownFits e logged diff
  dsimp only at all
  rw [← grownTool, oldTool, newTool] at all
  refine ⟨all.1 ?_, all.2 (by decide)⟩
  rintro ⟨head, src, failed⟩
  rw [grown_swBsdiff] at failed
  cases failed

end Tr6260
