import Tr6260.SwPackage.Bspatch
import Tr6260.SwPackage.Fits

/-!
# What a table says of its patch

From a table and its patch the slice of the new firmware can be had again: as it is,
by `LzmaUncompress`, or from the slice of the old firmware the patch is a difference to.
-/

namespace Tr6260

open Bsdiff

/-- The inverses of `SwLzmaCompress` and `SwBsdiff`, which need the five bytes of `prop`. -/
structure PkgDecoders (env : PkgEnv) where
  unlzma : List UInt8 → List UInt8 → Option (List UInt8)
  unlzma_lzma : ∀ {src room patch prop}, env.lzma src room = some (patch, prop) →
    unlzma prop patch = some src
  bspatch : List UInt8 → List UInt8 → List UInt8 → Option (List UInt8)
  bspatch_bsdiff : ∀ {old new patch prop}, env.bsdiff old new = some (patch, prop) →
    bspatch prop old patch = some new

/-- The bytes of `prop` in a table. -/
def SectionTable.prop (row : SectionTable) : List UInt8 := row.reserve.take 5

/-- The slice a table and its patch stand for, given the old slice. -/
def SectionTable.restore {env : PkgEnv} (dec : PkgDecoders env) (row : SectionTable)
    (oldSlice payload : List UInt8) : Option (List UInt8) :=
  if row.method = 1 then dec.bspatch row.prop oldSlice payload
  else if row.compress = 1 then dec.unlzma row.prop payload
  else some payload

/-- The slice of the old firmware that the table of slice `i` names. -/
def SectionTable.oldSlice (env : PkgEnv) (opt : SectionOpt) (i : Nat) (row : SectionTable) :
    List UInt8 :=
  ((opt.oldFile env).drop (i * toSize opt.partSize)).take row.addrfLen.toNat

/-- The slice of the new firmware that the table of slice `i` names. -/
def SectionTable.newSlice (env : PkgEnv) (opt : SectionOpt) (i : Nat) (row : SectionTable) :
    List UInt8 :=
  ((opt.newFile env).drop (i * totalCount opt (opt.newFile env).length)).take row.addrbLen.toNat

/-- Where the slice of a table is, in either firmware, and its digest. -/
structure Located (env : PkgEnv) (opt : SectionOpt) (i : Nat) (row : SectionTable) : Prop where
  addrf : row.addrf = opt.addrf + UInt32.ofInt opt.partSize * UInt32.ofNat i
  addrb : row.addrb = opt.addrb + UInt32.ofInt opt.partSize * UInt32.ofNat i
  hashb : row.hashb = env.sha256 (row.newSlice env opt i)

/-- What the table of slice `i` says of a patch. -/
structure Described {env : PkgEnv} (dec : PkgDecoders env) (opt : SectionOpt) (i : Nat)
    (row : SectionTable) (payload : List UInt8) : Prop extends Located env opt i row where
  method : row.method = 0 ∨ row.method = 1
  compress : row.compress = 0 ∨ row.compress = 1
  plain : row.method = 0 → row.compress = 0 → payload = row.newSlice env opt i
  lzma : row.method = 0 → row.compress = 1 →
    ∃ room, env.lzma (row.newSlice env opt i) room = some (payload, row.prop)
  diff : row.method = 1 → row.hashf = env.sha256 (row.oldSlice env opt i) ∧
    env.bsdiff (row.oldSlice env opt i) (row.newSlice env opt i) = some (payload, row.prop)
  restored : row.restore dec (row.oldSlice env opt i) payload = some (row.newSlice env opt i)

/-- Slice `i` is not one behind the end of the old firmware that is compressed without being
marked so. A slice that is its own compressed form does no harm. -/
def SliceMarked (env : PkgEnv) (opt : SectionOpt) (i : Nat) : Prop :=
  opt.method = 1 → opt.compress = 0 → (opt.oldFile env).length ≤ i * toSize opt.partSize →
    ∃ prop, env.lzma (piece (toSize opt.partSize) i (opt.newFile env)) (toSize opt.partSize) =
      some (piece (toSize opt.partSize) i (opt.newFile env), prop)

/-! ## One slice -/

section Slice

variable {env : PkgEnv} {dec : PkgDecoders env} {opt : SectionOpt} {i : Nat} {row : SectionTable}
variable {patch : List UInt8} {offset : UInt32}

theorem take_copyName {prop : List UInt8} (length : prop.length = 5) :
    (copyName (List.replicate 6 0) prop).take 5 = prop := by
  have whole : prop.take 6 = prop := List.take_of_length_le (by rw [length]; decide)
  rw [copyName, List.length_replicate, whole]
  exact List.take_left' length

theorem take_length_piece (size i : Nat) (file : List UInt8) :
    (file.drop (i * size)).take (piece size i file).length = piece size i file := by
  rw [length_piece, ← List.length_drop, piece, ← List.take_eq_take_min]

/-- The piece of a file as its table names it. -/
theorem take_ofNat_length {size : Nat} {file : List UInt8}
    (small : (piece size i file).length < 2 ^ 32) :
    (file.drop (i * size)).take (UInt32.ofNat (piece size i file).length).toNat =
      piece size i file := by
  rw [UInt32.toNat_ofNat', Nat.mod_eq_of_lt small, take_length_piece]

theorem Described.of_plain (located : Located env opt i row) (method : row.method = 0)
    (compress : row.compress = 0) : Described dec opt i row (row.newSlice env opt i) := by
  refine ⟨located, .inl method, .inl compress, fun _ _ => rfl, ?_, ?_, ?_⟩
  · intro _ marked
    rw [compress] at marked
    exact absurd marked (by decide)
  · intro diff
    rw [method] at diff
    exact absurd diff (by decide)
  · rw [SectionTable.restore, if_neg (by rw [method]; decide), if_neg (by rw [compress]; decide)]

theorem Described.of_lzma {room : Nat} (located : Located env opt i row) (method : row.method = 0)
    (compress : row.compress = 1)
    (made : env.lzma (row.newSlice env opt i) room = some (patch, row.prop)) :
    Described dec opt i row patch := by
  refine ⟨located, .inl method, .inr compress, ?_, fun _ _ => ⟨room, made⟩, ?_, ?_⟩
  · intro _ plain
    rw [compress] at plain
    exact absurd plain (by decide)
  · intro diff
    rw [method] at diff
    exact absurd diff (by decide)
  · rw [SectionTable.restore, if_neg (by rw [method]; decide), if_pos compress]
    exact dec.unlzma_lzma made

theorem Described.of_diff (located : Located env opt i row) (method : row.method = 1)
    (compress : row.compress = 0 ∨ row.compress = 1)
    (hashf : row.hashf = env.sha256 (row.oldSlice env opt i))
    (made : env.bsdiff (row.oldSlice env opt i) (row.newSlice env opt i) = some (patch, row.prop)) :
    Described dec opt i row patch := by
  have other (zero : row.method = 0) : False := by
    rw [method] at zero
    exact absurd zero (by decide)
  refine ⟨located, .inr method, compress, fun zero => (other zero).elim,
    fun zero => (other zero).elim, fun _ => ⟨hashf, made⟩, ?_⟩
  rw [SectionTable.restore, if_pos method]
  exact dec.bspatch_bsdiff made

/-- A slice that is read is not empty. -/
theorem partSlice_nonzero (diff : opt.method = 1)
    (done : partSlice env opt i offset = some (row, patch)) : opt.partSize ≠ 0 := by
  intro zero
  rw [partSlice, if_pos diff, zero] at done
  cases done

theorem length_piece_partSize (wf : opt.Wf) (size : 0 ≤ opt.partSize) (file : List UInt8) :
    (piece (toSize opt.partSize) i file).length < 2 ^ 32 := by
  have high := wf.partSize.2
  rw [length_piece, toSize]
  omega

theorem newSlice_eq (wf : opt.Wf) (size : 0 ≤ opt.partSize) (nonzero : opt.partSize ≠ 0)
    (len : row.addrbLen = UInt32.ofNat
      (piece (toSize opt.partSize) i (opt.newFile env)).length) :
    row.newSlice env opt i = piece (toSize opt.partSize) i (opt.newFile env) := by
  have count : totalCount opt (opt.newFile env).length = toSize opt.partSize := if_pos nonzero
  rw [SectionTable.newSlice, count, len]
  exact take_ofNat_length (length_piece_partSize wf size _)

theorem oldSlice_eq (wf : opt.Wf) (size : 0 ≤ opt.partSize) (len : row.addrfLen =
      UInt32.ofNat (piece (toSize opt.partSize) i (opt.oldFile env)).length) :
    row.oldSlice env opt i = piece (toSize opt.partSize) i (opt.oldFile env) := by
  rw [SectionTable.oldSlice, len]
  exact take_ofNat_length (length_piece_partSize wf size _)

/-- Where the old firmware has a slice, the table is that of a difference to it. -/
theorem diffSlice_made (wf : opt.Wf) (diff : opt.method = 1) (size : 0 ≤ opt.partSize)
    (there : UInt32.ofNat (piece (toSize opt.partSize) i (opt.oldFile env)).length ≠ 0)
    (done : partSlice env opt i offset = some (row, patch)) :
    Located env opt i row ∧ row.method = 1 ∧ row.compress = opt.compress ∧
      row.hashf = env.sha256 (row.oldSlice env opt i) ∧
      env.bsdiff (row.oldSlice env opt i) (row.newSlice env opt i) = some (patch, row.prop) := by
  have nonzero := partSlice_nonzero diff done
  rw [partSlice, if_pos diff] at done
  unfold diffSlice at done
  dsimp only at done
  split at done
  · cases done
  rw [if_neg (decide_eq_true_iff.not.mpr there)] at done
  rcases Option.bind_eq_some_iff.mp done with ⟨⟨payload, prop⟩, made, same⟩
  have slice : row.newSlice env opt i = piece (toSize opt.partSize) i (opt.newFile env) := by
    apply newSlice_eq wf size nonzero
    cases same
    rfl
  have before : row.oldSlice env opt i = piece (toSize opt.partSize) i (opt.oldFile env) := by
    apply oldSlice_eq wf size
    cases same
    rfl
  refine ⟨⟨?_, ?_, ?_⟩, ?_, ?_, ?_, ?_⟩
  · cases same; rfl
  · cases same; rfl
  · rw [slice]
    cases same
    rfl
  · cases same
    exact diff
  · cases same
    rfl
  · rw [before]
    cases same
    rfl
  · rw [before, slice, made]
    cases same
    exact congrArg (fun bytes => some (payload, bytes))
      (take_copyName (env.length_bsdiff made)).symm

/-- Behind the end of the old firmware the table is that of a compressed slice. -/
theorem diffSlice_behind (wf : opt.Wf) (diff : opt.method = 1) (size : 0 ≤ opt.partSize)
    (gone : UInt32.ofNat (piece (toSize opt.partSize) i (opt.oldFile env)).length = 0)
    (done : partSlice env opt i offset = some (row, patch)) :
    Located env opt i row ∧ row.method = 0 ∧ row.compress = opt.compress ∧
      row.newSlice env opt i = piece (toSize opt.partSize) i (opt.newFile env) ∧
      env.lzma (row.newSlice env opt i) (toSize opt.partSize) = some (patch, row.prop) := by
  have nonzero := partSlice_nonzero diff done
  rw [partSlice, if_pos diff] at done
  unfold diffSlice at done
  dsimp only at done
  split at done
  · cases done
  rw [if_pos (decide_eq_true gone)] at done
  rcases Option.bind_eq_some_iff.mp done with ⟨⟨payload, prop⟩, made, same⟩
  have slice : row.newSlice env opt i = piece (toSize opt.partSize) i (opt.newFile env) := by
    apply newSlice_eq wf size nonzero
    cases same
    rfl
  refine ⟨⟨?_, ?_, ?_⟩, ?_, ?_, slice, ?_⟩
  · cases same; rfl
  · cases same; rfl
  · rw [slice]
    cases same
    rfl
  · cases same
    rfl
  · cases same
    rfl
  · rw [slice, made]
    cases same
    exact congrArg (fun bytes => some (payload, bytes)) (take_copyName (env.length_lzma made)).symm

/-- With an old slice to compare with, a difference is what its table says; a slice behind the end
of the old firmware is so when `compress` is set, and else only when LZMA leaves it as it is. -/
theorem diffSlice_described (wf : opt.Wf) (diff : opt.method = 1) (size : 0 ≤ opt.partSize)
    (done : partSlice env opt i offset = some (row, patch)) :
    Described dec opt i row patch ↔ SliceMarked env opt i := by
  have pos := toSize_pos wf.partSize (partSlice_nonzero diff done)
  have gone_iff : UInt32.ofNat (piece (toSize opt.partSize) i (opt.oldFile env)).length = 0 ↔
      (opt.oldFile env).length ≤ i * toSize opt.partSize := by
    rw [ofNat_eq_zero (length_piece_partSize wf size _), length_piece]
    omega
  by_cases gone : UInt32.ofNat (piece (toSize opt.partSize) i (opt.oldFile env)).length = 0
  · rcases diffSlice_behind wf diff size gone done with ⟨located, method, compress, slice, made⟩
    constructor
    · intro described _ plain _
      have fixed := described.plain method (compress.trans plain)
      rw [← slice]
      exact ⟨row.prop, fixed ▸ made⟩
    · intro marked
      rcases wf.compress with plain | compressed
      · rcases marked diff plain (gone_iff.mp gone) with ⟨prop', fixed⟩
        rw [← slice, made] at fixed
        cases fixed
        exact .of_plain located method (compress.trans plain)
      · exact .of_lzma located method (compress.trans compressed) made
  · rcases diffSlice_made wf diff size gone done with ⟨located, method, compress, hashf, made⟩
    constructor
    · intro _ _ _ behind
      exact absurd (gone_iff.mpr behind) gone
    · intro _
      exact .of_diff located method (by rw [compress]; exact wf.compress) hashf made

/-- A slice taken as it is, or compressed. -/
theorem totalSlice_described (wf : opt.Wf) (total : opt.method ≠ 1)
    (done : partSlice env opt i offset = some (row, patch)) : Described dec opt i row patch := by
  have method : opt.method = 0 := wf.method.resolve_right total
  rw [partSlice, if_neg total] at done
  unfold totalSlice at done
  dsimp only at done
  have new (row : SectionTable) (len : row.addrbLen = UInt32.ofNat
      (piece (totalCount opt (opt.newFile env).length) i (opt.newFile env)).length) :
      (piece (totalCount opt (opt.newFile env).length) i (opt.newFile env)).take
        (UInt32.ofNat (piece (totalCount opt (opt.newFile env).length) i
          (opt.newFile env)).length).toNat = row.newSlice env opt i := by
    have within : (UInt32.ofNat (piece (totalCount opt (opt.newFile env).length) i
        (opt.newFile env)).length).toNat ≤ totalCount opt (opt.newFile env).length := by
      rw [UInt32.toNat_ofNat', length_piece]
      exact (Nat.mod_le ..).trans (Nat.min_le_left ..)
    rw [SectionTable.newSlice, len, piece, List.take_take, ← piece, Nat.min_eq_left within]
  split at done
  · next compressed =>
    rcases Option.bind_eq_some_iff.mp done with ⟨⟨payload, prop⟩, made, same⟩
    have slice := new row (by cases same; rfl)
    have props : row.prop = prop := by
      cases same
      exact take_copyName (env.length_lzma made)
    have payload_ : payload = patch := by cases same; rfl
    rw [slice, payload_, ← props] at made
    refine Described.of_lzma ⟨?_, ?_, ?_⟩ ?_ ?_ made
    · cases same; rfl
    · cases same; rfl
    · rw [← slice]
      cases same
      rfl
    · cases same
      exact method
    · cases same
      exact wf.compress.resolve_left compressed
  · next plain =>
    rw [not_not] at plain
    have slice := new row (by cases done; rfl)
    have payload : row.newSlice env opt i = patch := by
      rw [← slice]
      cases done
      rfl
    rw [← payload]
    refine Described.of_plain ⟨?_, ?_, ?_⟩ ?_ ?_
    · cases done; rfl
    · cases done; rfl
    · rw [← slice]
      cases done
      rfl
    · cases done
      exact method
    · cases done
      exact plain

end Slice

/-! ## A package -/

/-- The bytes of a package where a table says its patch is. -/
def SectionTable.payload (row : SectionTable) (pkgsrc : List UInt8) : List UInt8 :=
  (pkgsrc.drop row.patchOffset.toNat).take row.patchSize.toNat

/-- No slice is compressed without being marked so. -/
def PkgMarked (env : PkgEnv) (cfg : PkgConfig) : Prop :=
  ∀ k < otaDiffSectionNum, (cfg.opt k).used = true →
    ∀ i < (cfg.opt k).sectionNum.toNat, SliceMarked env (cfg.opt k) i

/-- The tables describe what was written for them. -/
def PkgDescribed {env : PkgEnv} (dec : PkgDecoders env) (out : PkgResult)
    (payload : Emitted → List UInt8) : Prop :=
  ∀ e ∈ out.state.log, Described dec (out.cfg.opt e.part) e.slice e.row (payload e)

section Run

variable {env : PkgEnv} {dec : PkgDecoders env} {out : PkgResult} {es : List Emitted}
variable {s : PkgState}

theorem PkgRun.described_iff (run : PkgRun env out es s) {e : Emitted} (member : e ∈ es) :
    Described dec (out.cfg.opt e.part) e.slice e.row e.patch ↔
      SliceMarked env (out.cfg.opt e.part) e.slice := by
  rcases run.owner member with ⟨low, used, i, found⟩
  rcases run.parts.own PkgRun.nodup (List.mem_range.mpr low) used with ⟨ready, -, slices⟩
  have wf := (run.wf.part e.part used).2.1
  rcases slices i e found with ⟨-, slice, made⟩
  rw [slice]
  by_cases diff : (out.cfg.opt e.part).method = 1
  · exact diffSlice_described wf diff (ready.diff diff).1 made
  · exact ⟨fun _ method => absurd method diff, fun _ => totalSlice_described wf diff made⟩

theorem PkgRun.marked_iff (run : PkgRun env out es s) :
    (∀ e ∈ es, SliceMarked env (out.cfg.opt e.part) e.slice) ↔ PkgMarked env out.cfg := by
  constructor
  · intro marked k low used i inside
    rcases run.parts.own PkgRun.nodup (List.mem_range.mpr low) used with ⟨-, length, slices⟩
    rw [← length] at inside
    have found := List.getElem?_eq_getElem inside
    have member := List.mem_filter.mp (List.getElem_mem inside)
    rcases slices i _ found with ⟨part, slice, -⟩
    have here := marked _ member.1
    rwa [part, slice, Nat.zero_add] at here
  · intro marked e member
    rcases run.owner member with ⟨low, used, i, found⟩
    rcases run.parts.own PkgRun.nodup (List.mem_range.mpr low) used with ⟨-, length, slices⟩
    have inside := (List.getElem?_eq_some_iff.mp found).1
    rw [length] at inside
    rw [(slices i e found).2.1, Nat.zero_add]
    exact marked e.part low used i inside

end Run

/-- The tables of a package describe their patches exactly when no slice is compressed without
being marked so; of a package that fits this is true of what its file holds. -/
theorem swPkgMain_described_iff {env : PkgEnv} (dec : PkgDecoders env) {doc : Option XmlRoot}
    {out : PkgResult} (made : swPkgMain env doc = some out) :
    (PkgDescribed dec out Emitted.patch ↔ PkgMarked env out.cfg) ∧
      (PkgFits env out.cfg →
        (PkgDescribed dec out (fun e => e.row.payload out.pkgsrc) ↔ PkgMarked env out.cfg)) := by
  rcases swPkgMain_run made with ⟨es, s, run⟩
  have written : PkgDescribed dec out Emitted.patch ↔ PkgMarked env out.cfg := by
    rw [← run.marked_iff, PkgDescribed, run.log]
    exact forall₂_congr fun e member => run.described_iff member
  refine ⟨written, fun fits => ?_⟩
  have layout := run.layout_of_fits fits
  rw [← written]
  refine forall₂_congr fun e member => ?_
  have payload : e.row.payload out.pkgsrc = e.patch := layout.payloads e member
  dsimp only
  rw [payload]

/-! ## An old firmware that has run out -/

/-- The compressed form of 16 zero bytes, a literal and a match, and its `prop`. -/
def lzmaOfZeros : List UInt8 := [0, 0, 109, 212, 71, 0, 0]

def lzmaProp : List UInt8 := [0, 0, 32, 0, 0]

/-- `SwLzmaCompress`, of 16 zero bytes and of the blocks of the difference below. -/
def growLzma (src : List UInt8) (room : Nat) : Option (List UInt8 × List UInt8) :=
  if src = List.replicate 16 0 ∧ 7 ≤ room then some (lzmaOfZeros, lzmaProp)
  else grownLzma src room

def growUnlzma (prop patch : List UInt8) : Option (List UInt8) :=
  if prop = lzmaProp ∧ patch = lzmaOfZeros then some (List.replicate 16 0)
  else grownUnlzma prop patch

theorem growUnlzma_growLzma (src : List UInt8) (room : Nat) (patch prop : List UInt8)
    (made : growLzma src room = some (patch, prop)) : growUnlzma prop patch = some src := by
  unfold growLzma at made
  split at made
  · next zeros =>
    cases made
    rw [growUnlzma, if_pos ⟨rfl, rfl⟩, zeros.1]
  · unfold grownLzma at made
    split at made
    · next grown =>
      cases made
      rw [growUnlzma, if_neg (by decide), grownUnlzma, if_pos ⟨rfl, rfl⟩, grown.1]
    · cases made

theorem length_growLzma {src patch prop : List UInt8} {room : Nat}
    (made : growLzma src room = some (patch, prop)) : prop.length = 5 := by
  unfold growLzma grownLzma at made
  split at made
  · cases made
    rfl
  · split at made
    · cases made
      rfl
    · cases made

/-- The one difference that is made here, from a zero byte to 64. -/
def growBsdiff (old new : List UInt8) : Option (List UInt8 × List UInt8) :=
  if old = [0] ∧ new = List.replicate 64 0 then some (grownPatch, lzmaProp) else none

theorem length_growBsdiff {old new patch prop : List UInt8}
    (made : growBsdiff old new = some (patch, prop)) : prop.length = 5 := by
  unfold growBsdiff at made
  split at made
  · cases made
    rfl
  · cases made

/-- An old firmware `o` and a new one `n`. -/
def growEnv (old new : List UInt8) : PkgEnv where
  files name :=
    if name = tag ['o'] then some old
    else if name = tag ['n'] then some new
    else none
  malloc n := n < 2 ^ 63
  malloc_huge := huge_refused
  canCreate := true
  sha256 := SwSha256.hashed SwSha256.freshCtx
  length_sha256 := SwSha256.length_hashed SwSha256.freshCtx
  crc32 := SwCrc32.swCrc32Calc
  lzma := growLzma
  length_lzma := length_growLzma
  bsdiff := growBsdiff
  length_bsdiff := length_growBsdiff

def growDecoders (old new : List UInt8) : PkgDecoders (growEnv old new) where
  unlzma := growUnlzma
  unlzma_lzma := growUnlzma_growLzma _ _ _ _
  bspatch := bspatch growUnlzma
  bspatch_bsdiff made := by
    rename_i old' new' patch prop
    change growBsdiff old' new' = some (patch, prop) at made
    unfold growBsdiff at made
    split at made
    · next same =>
      cases made
      rw [same.1, same.2]
      decide +kernel
    · cases made

/-- A partition `p` that is the difference from `o` to `n`, in pieces of a size. -/
def diffDoc (size : CString) (more : List (CString × Option CString)) : XmlRoot where
  name := tag ['r', 'o', 'o', 't']
  children := [{
    name := tag ['p']
    order := some (tag ['0'])
    children := [(tag ['p', 'a', 'r', 't', 's', 'i', 'z', 'e'], some size),
      (tag ['m', 'e', 't', 'h', 'o', 'd'], some (tag ['d', 'i', 'f', 'f'])),
      (tag ['o', 'l', 'd', 'n', 'a', 'm', 'e'], some (tag ['o'])),
      (tag ['n', 'e', 'w', 'n', 'a', 'm', 'e'], some (tag ['n']))] ++ more }]

/-- The same, with the slices behind the end of the old firmware marked as compressed. -/
def markedDoc (size : CString) : XmlRoot :=
  diffDoc size [(tag ['c', 'o', 'm', 'p', 'r', 'e', 's', 's'], some (tag ['l', 'z', 'm', 'a']))]

/-- A firmware of one byte and one of 80: a difference, and a slice behind its end. -/
theorem swPkgMain_described_lzma :
    ∃ out, swPkgMain (growEnv [0] (List.replicate 80 0)) (some (markedDoc (tag ['6', '4']))) =
        some out ∧
      out.state.log.map (fun e => (e.row.method, e.row.compress)) = [(1, 1), (0, 1)] ∧
      PkgDescribed (growDecoders [0] (List.replicate 80 0)) out Emitted.patch ∧
      PkgDescribed (growDecoders [0] (List.replicate 80 0)) out
        (fun e => e.row.payload out.pkgsrc) := by
  have compressed : (swPkgMain (growEnv [0] (List.replicate 80 0))
      (some (markedDoc (tag ['6', '4'])))).map (fun out => decide (
        out.state.log.map (fun e => (e.row.method, e.row.compress)) = [(1, 1), (0, 1)] ∧
        PkgFits (growEnv [0] (List.replicate 80 0)) out.cfg ∧
        ∀ k < otaDiffSectionNum, (out.cfg.opt k).used = true → (out.cfg.opt k).compress ≠ 0)) =
      some true := by
    decide +kernel
  rcases Option.map_eq_some_iff.mp compressed with ⟨out, made, checks⟩
  rcases of_decide_eq_true checks with ⟨rows, fits, all⟩
  have marked : PkgMarked (growEnv [0] (List.replicate 80 0)) out.cfg :=
    fun k low used i _ _ plain => absurd plain (all k low used)
  have described := swPkgMain_described_iff (growDecoders [0] (List.replicate 80 0)) made
  exact ⟨out, made, rows, described.1.mpr marked, (described.2 fits).mpr marked⟩

/-- Without `compress` the slice is compressed all the same, and its table does not say so. -/
theorem swPkgMain_described_broken :
    ∃ out, swPkgMain (growEnv [] (List.replicate 16 0)) (some (diffDoc (tag ['1', '6']) [])) =
        some out ∧
      ¬ PkgDescribed (growDecoders [] (List.replicate 16 0)) out Emitted.patch := by
  have differs : (swPkgMain (growEnv [] (List.replicate 16 0))
      (some (diffDoc (tag ['1', '6']) []))).map (fun out =>
      decide (∃ e ∈ out.state.log, e.row.method = 0 ∧ e.row.compress = 0 ∧ e.patch ≠
        e.row.newSlice (growEnv [] (List.replicate 16 0)) (out.cfg.opt e.part) e.slice)) =
      some true := by
    decide +kernel
  rcases Option.map_eq_some_iff.mp differs with ⟨out, made, found⟩
  rcases of_decide_eq_true found with ⟨e, member, method, compress, other⟩
  exact ⟨out, made, fun described => other ((described e member).plain method compress)⟩

end Tr6260
