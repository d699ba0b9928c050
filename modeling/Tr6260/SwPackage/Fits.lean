import Mathlib.Algebra.BigOperators.Ring.Finset
import Tr6260.SwPackage.Crc32
import Tr6260.SwPackage.Layout
import Tr6260.SwPackage.Sha256
import Tr6260.SwPackage.Tiling

/-!
# Packages that fit

The layout the tool means to produce, and when it does: no partition has more slices
than it has tables, and tables and patches together do not exceed `g_pkgBuff`.
-/

namespace Tr6260

open ByteMem

/-! ## The layout -/

/-- The tables of a partition, in the order they were written. -/
def partRows (log : List Emitted) (k : Nat) : List SectionTable :=
  (log.filter fun e => e.part = k).map Emitted.row

/-- The layout of a package. -/
structure PkgLayout (env : PkgEnv) (out : PkgResult) : Prop where
  header : out.pkgsrc.take sizeofPkgHeader = out.header.bytes
  count : out.state.log.length = out.header.sectionNum.toNat
  tables : ∀ i e, out.state.log[i]? = some e →
    (out.pkgsrc.drop (sizeofPkgHeader + sizeofSectionTable * i)).take sizeofSectionTable =
      e.row.bytes
  sizes : ∀ e ∈ out.state.log, e.row.patchSize.toNat = e.patch.length
  payloads : ∀ e ∈ out.state.log,
    (out.pkgsrc.drop e.row.patchOffset.toNat).take e.row.patchSize.toNat = e.patch
  ordered : out.state.log.Pairwise fun e e' =>
    e.row.patchOffset.toNat + e.row.patchSize.toNat ≤ e'.row.patchOffset.toNat
  after : ∀ e ∈ out.state.log,
    sizeofPkgHeader + sizeofSectionTable * out.state.log.length ≤ e.row.patchOffset.toNat
  within : ∀ e ∈ out.state.log,
    e.row.patchOffset.toNat + e.row.patchSize.toNat ≤ out.header.pkgSize.toNat
  buffer : out.header.pkgSize.toNat ≤ sizeofPkgBuff
  capacity : ∀ e ∈ out.state.log, e.slice < otaDiffSectionNum
  tiled : ∀ k < otaDiffSectionNum, (out.cfg.opt k).used = true →
    ∃ file, env.files (out.cfg.opt k).newName = some file ∧
      Tiles (out.cfg.opt k).addrb file.length (partRows out.state.log k)

/-- The patch for slice `i`: the difference to the piece of the old firmware there, or without such
a piece the compressed slice; without a difference, the slice compressed or as it is. -/
def slicePatch (env : PkgEnv) (opt : SectionOpt) (i : Nat) : Option (List UInt8) :=
  let new := opt.newFile env
  let slice := piece (totalCount opt new.length) i new
  if opt.method = 1 then
    if (opt.oldFile env).length ≤ i * toSize opt.partSize then
      (env.lzma slice (toSize opt.partSize)).map Prod.fst
    else
      (env.bsdiff (piece (toSize opt.partSize) i (opt.oldFile env)) slice).map Prod.fst
  else if opt.compress ≠ 0 then
    (env.lzma slice new.length).map Prod.fst
  else
    some slice

/-- The room the patch of slice `i` takes. -/
def sliceRoom (env : PkgEnv) (opt : SectionOpt) (i : Nat) : Nat :=
  round16 ((slicePatch env opt i).map List.length |>.getD 0)

/-- The room a partition takes, for its tables and its patches. -/
def partRoom (env : PkgEnv) (opt : SectionOpt) : Nat :=
  if opt.used then
    ((List.range' 0 (sliceCount opt (opt.newFile env).length)).map fun i =>
      sizeofSectionTable + sliceRoom env opt i).sum
  else 0

/-- No partition has more slices than tables, a new firmware taken in one piece is shorter than
4 GiB, and header, tables and patches fit the buffer. -/
structure PkgFits (env : PkgEnv) (cfg : PkgConfig) : Prop where
  slices : ∀ k < otaDiffSectionNum, (cfg.opt k).used = true →
    sliceCount (cfg.opt k) ((cfg.opt k).newFile env).length ≤ otaDiffSectionNum
  small : ∀ k < otaDiffSectionNum, (cfg.opt k).used = true → (cfg.opt k).partSize ≤ 0 →
    ((cfg.opt k).newFile env).length < 2 ^ 32
  room : sizeofPkgHeader +
    ((List.range otaDiffSectionNum).map fun k => partRoom env (cfg.opt k)).sum ≤ sizeofPkgBuff

instance (env : PkgEnv) (cfg : PkgConfig) : Decidable (PkgFits env cfg) :=
  decidable_of_iff
    ((∀ k < otaDiffSectionNum, (cfg.opt k).used = true →
        sliceCount (cfg.opt k) ((cfg.opt k).newFile env).length ≤ otaDiffSectionNum) ∧
      (∀ k < otaDiffSectionNum, (cfg.opt k).used = true → (cfg.opt k).partSize ≤ 0 →
        ((cfg.opt k).newFile env).length < 2 ^ 32) ∧
      sizeofPkgHeader + ((List.range otaDiffSectionNum).map fun k =>
        partRoom env (cfg.opt k)).sum ≤ sizeofPkgBuff)
    ⟨fun fits => ⟨fits.1, fits.2.1, fits.2.2⟩, fun fits => ⟨fits.slices, fits.small, fits.room⟩⟩

/-! ## Partitions apart -/

section Parts

variable {env : PkgEnv} {cfg : PkgConfig} {ks : List Nat} {es : List Emitted} {k : Nat}

/-- Pieces of a new firmware shorter than 4 GiB, or cut by a size, are shorter. -/
theorem length_piece_lt {opt : SectionOpt} {file : List UInt8} (i : Nat)
    (range : -2 ^ 31 ≤ opt.partSize ∧ opt.partSize < 2 ^ 31)
    (small : opt.partSize ≤ 0 → file.length < 2 ^ 32) :
    (piece (totalCount opt file.length) i file).length < 2 ^ 32 := by
  rw [length_piece]
  by_cases pos : opt.partSize ≤ 0
  · have bound := small pos
    omega
  · rw [totalCount, if_pos (by omega), toSize]
    omega

theorem partSlice_patch {opt : SectionOpt} {i : Nat} {offset : UInt32} {row : SectionTable}
    {patch : List UInt8} (range : -2 ^ 31 ≤ opt.partSize ∧ opt.partSize < 2 ^ 31)
    (diff : opt.method = 1 → 0 ≤ opt.partSize)
    (small : opt.partSize ≤ 0 → (opt.newFile env).length < 2 ^ 32)
    (done : partSlice env opt i offset = some (row, patch)) :
    slicePatch env opt i = some patch := by
  have short := length_piece_lt i range small
  unfold partSlice at done
  unfold slicePatch
  dsimp only
  split at done
  · next method =>
    rw [if_pos method]
    unfold diffSlice at done
    dsimp only at done
    split at done
    · cases done
    · next nonempty =>
      have nonzero : opt.partSize ≠ 0 := by
        intro zero
        rw [zero] at nonempty
        exact nonempty rfl
      have size : toSize opt.partSize < 2 ^ 31 := by
        have low := diff method
        rw [toSize]
        omega
      have gone_iff : UInt32.ofNat (piece (toSize opt.partSize) i (opt.oldFile env)).length = 0 ↔
          (opt.oldFile env).length ≤ i * toSize opt.partSize := by
        have pos := toSize_pos range nonzero
        rw [ofNat_eq_zero (by rw [length_piece]; omega), length_piece]
        omega
      rw [totalCount, if_pos nonzero]
      split at done
      · next gone =>
        rw [if_pos (gone_iff.mp (of_decide_eq_true gone))]
        rcases Option.bind_eq_some_iff.mp done with ⟨made, found, same⟩
        cases same
        rw [found]
        rfl
      · next there =>
        rw [if_neg fun gone => there (decide_eq_true (gone_iff.mpr gone))]
        rcases Option.bind_eq_some_iff.mp done with ⟨made, found, same⟩
        cases same
        rw [found]
        rfl
  · next method =>
    rw [if_neg method]
    have whole : (piece (totalCount opt (opt.newFile env).length) i (opt.newFile env)).take
        (UInt32.ofNat (piece (totalCount opt (opt.newFile env).length) i
          (opt.newFile env)).length).toNat =
        piece (totalCount opt (opt.newFile env).length) i (opt.newFile env) := by
      rw [UInt32.toNat_ofNat', Nat.mod_eq_of_lt short, List.take_length]
    unfold totalSlice at done
    dsimp only at done
    rw [whole] at done
    split at done
    · next compress =>
      rcases Option.bind_eq_some_iff.mp done with ⟨made, found, same⟩
      cases same
      rw [if_pos compress, found]
      rfl
    · next plain =>
      cases done
      rw [if_neg plain]

theorem SlicesFrom.room {opt : SectionOpt} {first : Nat}
    (range : -2 ^ 31 ≤ opt.partSize ∧ opt.partSize < 2 ^ 31)
    (diff : opt.method = 1 → 0 ≤ opt.partSize)
    (small : opt.partSize ≤ 0 → (opt.newFile env).length < 2 ^ 32)
    (slices : SlicesFrom env k opt first es) :
    ((List.range' first es.length).map fun i => sizeofSectionTable + sliceRoom env opt i).sum =
      sizeofSectionTable * es.length + patchRoom es := by
  induction es generalizing first with
  | nil => rfl
  | cons e es ih =>
    have rest : SlicesFrom env k opt (first + 1) es := by
      intro i e' found
      have next := slices (i + 1) e' found
      rwa [Nat.add_comm i 1, ← Nat.add_assoc] at next
    have patch := partSlice_patch range diff small (slices 0 e rfl).2.2
    have room : sliceRoom env opt first = round16 e.patch.length := by
      rw [sliceRoom, show slicePatch env opt first = some e.patch from patch]
      rfl
    rw [List.length_cons, List.range'_succ, List.map_cons, List.sum_cons, ih rest, room,
      Nat.mul_succ, patchRoom_cons]
    omega

theorem PartsEmitted.part_mem (parts : PartsEmitted env cfg ks es) :
    ∀ e ∈ es, e.part ∈ ks ∧ (cfg.opt e.part).used = true := by
  induction ks generalizing es with
  | nil =>
    rw [show es = [] from parts]
    exact fun e member => by cases member
  | cons k ks ih =>
    rw [PartsEmitted] at parts
    split at parts
    · next used =>
      rcases parts with ⟨own, rest, rfl, -, -, slices, parts⟩
      intro e member
      rcases List.mem_append.mp member with here | later
      · rcases List.mem_iff_getElem?.mp here with ⟨i, found⟩
        rw [(slices i e found).1]
        exact ⟨List.mem_cons_self, used⟩
      · exact ⟨List.mem_cons_of_mem _ (ih parts e later).1, (ih parts e later).2⟩
    · exact fun e member => ⟨List.mem_cons_of_mem _ (ih parts e member).1, (ih parts e member).2⟩

/-- The tables of one partition. -/
theorem PartsEmitted.own (parts : PartsEmitted env cfg ks es) (distinct : ks.Nodup)
    (member : k ∈ ks) (used : (cfg.opt k).used = true) :
    PartReady env (cfg.opt k) ∧
      (es.filter fun e => e.part = k).length = (cfg.opt k).sectionNum.toNat ∧
      SlicesFrom env k (cfg.opt k) 0 (es.filter fun e => e.part = k) := by
  induction ks generalizing es with
  | nil => cases member
  | cons k' ks ih =>
    rw [List.nodup_cons] at distinct
    rw [PartsEmitted] at parts
    split at parts
    · rcases parts with ⟨own, rest, rfl, ready, length, slices, parts⟩
      have ownPart : ∀ e ∈ own, e.part = k' := by
        intro e here
        rcases List.mem_iff_getElem?.mp here with ⟨i, found⟩
        exact (slices i e found).1
      rw [List.filter_append]
      rcases List.mem_cons.mp member with rfl | later
      · have mine : own.filter (fun e => decide (e.part = k)) = own :=
          List.filter_eq_self.mpr fun e here => decide_eq_true (ownPart e here)
        have others : rest.filter (fun e => decide (e.part = k)) = [] := by
          rw [List.filter_eq_nil_iff]
          intro e here same
          exact distinct.1 (of_decide_eq_true same ▸ (parts.part_mem e here).1)
        rw [mine, others, List.append_nil]
        exact ⟨ready, length, slices⟩
      · have others : own.filter (fun e => decide (e.part = k)) = [] := by
          rw [List.filter_eq_nil_iff]
          intro e here same
          rw [ownPart e here] at same
          exact distinct.1 (of_decide_eq_true same ▸ later)
        rw [others, List.nil_append]
        exact ih parts distinct.2 later
    · next unused =>
      rcases List.mem_cons.mp member with rfl | later
      · exact absurd used unused
      · exact ih parts distinct.2 later

/-- A sum over partitions is at most their number times a common bound. -/
theorem sum_map_le {f : Nat → Nat} {bound : Nat} (most : ∀ k ∈ ks, f k ≤ bound) :
    (ks.map f).sum ≤ ks.length * bound := by
  induction ks with
  | nil => exact Nat.zero_le _
  | cons k ks ih =>
    have here := most k List.mem_cons_self
    have rest := ih fun k' later => most k' (List.mem_cons_of_mem _ later)
    rw [List.map_cons, List.sum_cons, List.length_cons, Nat.succ_mul]
    omega

theorem PartsEmitted.length (parts : PartsEmitted env cfg ks es) :
    es.length = (ks.map fun k => (cfg.num k).toNat).sum := by
  induction ks generalizing es with
  | nil => rw [show es = [] from parts]; rfl
  | cons k ks ih =>
    rw [PartsEmitted] at parts
    rw [List.map_cons, List.sum_cons, PkgConfig.num]
    split at parts
    · next used =>
      rcases parts with ⟨own, rest, rfl, -, length, -, parts⟩
      rw [if_pos used, List.length_append, length, ih parts]
    · next unused =>
      rw [if_neg unused, ih parts]
      exact (Nat.zero_add _).symm

/-- What was written takes the room the partitions need. -/
theorem PartsEmitted.room (parts : PartsEmitted env cfg ks es)
    (ranges : ∀ k, (cfg.opt k).used = true → -2 ^ 31 ≤ (cfg.opt k).partSize ∧
      (cfg.opt k).partSize < 2 ^ 31)
    (counts : ∀ k ∈ ks, (cfg.opt k).used = true → (cfg.opt k).sectionNum.toNat =
      sliceCount (cfg.opt k) ((cfg.opt k).newFile env).length)
    (small : ∀ k ∈ ks, (cfg.opt k).used = true → (cfg.opt k).partSize ≤ 0 →
      ((cfg.opt k).newFile env).length < 2 ^ 32) :
    sizeofSectionTable * es.length + patchRoom es =
      (ks.map fun k => partRoom env (cfg.opt k)).sum := by
  induction ks generalizing es with
  | nil => rw [show es = [] from parts]; rfl
  | cons k ks ih =>
    rw [PartsEmitted] at parts
    rw [List.map_cons, List.sum_cons, partRoom]
    split at parts
    · next used =>
      rcases parts with ⟨own, rest, rfl, ready, length, slices, parts⟩
      have others := ih parts (fun k' later => counts k' (List.mem_cons_of_mem _ later))
        (fun k' later => small k' (List.mem_cons_of_mem _ later))
      have mine := slices.room (ranges k used) (fun method => (ready.diff method).1)
        (small k List.mem_cons_self used)
      rw [length, counts k List.mem_cons_self used] at mine
      rw [if_pos used, mine, ← counts k List.mem_cons_self used, ← length, ← others,
        List.length_append, patchRoom, List.map_append, List.sum_append, ← patchRoom, ← patchRoom]
      rw [Nat.mul_add]
      omega
    · next unused =>
      rw [if_neg unused, Nat.zero_add]
      exact ih parts (fun k' later => counts k' (List.mem_cons_of_mem _ later))
        (fun k' later => small k' (List.mem_cons_of_mem _ later))

end Parts

/-! ## Runs -/

/-- A run that returned 0. -/
structure PkgRun (env : PkgEnv) (out : PkgResult) (es : List Emitted) (s : PkgState) : Prop where
  wf : out.cfg.Wf env.files
  parts : PartsEmitted env out.cfg (List.range otaDiffSectionNum) es
  emits : Emits (pkgStart out.cfg) es s
  created : swPkgFileCreate env out.cfg s = some out

theorem swPkgMain_run {env : PkgEnv} {doc : Option XmlRoot} {out : PkgResult}
    (made : swPkgMain env doc = some out) : ∃ es s, PkgRun env out es s := by
  rcases Option.bind_eq_some_iff.mp made with ⟨cfg, parsed, rest⟩
  rcases Option.bind_eq_some_iff.mp rest with ⟨s, written, created⟩
  have wf := swCfgParseFile_spec parsed
  rcases pkgPartitions_emits wf written with ⟨es, emits, parts⟩
  have same : out.cfg = cfg := by
    unfold swPkgFileCreate at created
    dsimp only at created
    split at created
    · cases created
      rfl
    · cases created
  subst same
  exact ⟨es, s, wf, parts, emits, created⟩

namespace PkgRun

variable {env : PkgEnv} {out : PkgResult} {es : List Emitted} {s : PkgState}

theorem log (run : PkgRun env out es s) : out.state.log = es := by
  have created := run.created
  unfold swPkgFileCreate at created
  dsimp only at created
  split at created
  · have same := congrArg (fun result => result.map fun r => r.state.log) created
    rw [Option.map_some, Option.map_some, run.emits.log] at same
    exact (Option.some.inj same).symm
  · cases created

/-- The buffer, the header and the file at the end. -/
theorem files (run : PkgRun env out es s) :
    out.header.sectionNum = out.cfg.header.sectionNum ∧ out.header.pkgSize = s.pkgPatchLen ∧
      out.header.Wf ∧
      out.pkgsrc = ((s.pkgBuff.store 0 out.cfg.header.bytes).store 0 out.header.bytes).load 0
        s.pkgPatchLen.toNat := by
  have created := run.created
  unfold swPkgFileCreate at created
  dsimp only at created
  split at created
  · have header := congrArg (fun result => result.map PkgResult.header) created
    have file := congrArg (fun result => result.map PkgResult.pkgsrc) created
    rw [Option.map_some, Option.map_some] at header file
    have header := Option.some.inj header
    have file := Option.some.inj file
    dsimp only at header file
    rw [header] at file
    rw [← header]
    exact ⟨rfl, rfl, ⟨run.wf.header.magic, run.wf.header.srcVersion, run.wf.header.dstVersion⟩,
      header ▸ file.symm⟩
  · cases created

theorem nodup : (List.range otaDiffSectionNum).Nodup := List.nodup_range

/-- Behind the header the file is what the partitions left. -/
theorem file_slice (run : PkgRun env out es s) {off : Nat} {bytes : List UInt8}
    (held : s.pkgBuff.Holds off bytes) (behind : sizeofPkgHeader ≤ off)
    (within : off + bytes.length ≤ s.pkgPatchLen.toNat) :
    (out.pkgsrc.drop off).take bytes.length = bytes := by
  rcases run.files with ⟨-, -, wf, file⟩
  have held' :
      ((s.pkgBuff.store 0 out.cfg.header.bytes).store 0 out.header.bytes).Holds off bytes :=
    (held.congr (store_frame _ _ _ (.inr (by rw [run.wf.header.length_bytes]; omega)))).congr
      (store_frame _ _ _ (.inr (by rw [wf.length_bytes]; omega)))
  have inside : off + bytes.length ≤
      (((s.pkgBuff.store 0 out.cfg.header.bytes).store 0 out.header.bytes).load 0
        s.pkgPatchLen.toNat).length := by
    rwa [length_load]
  have slice := (holds_load _ 0 s.pkgPatchLen.toNat).slice inside
  rw [← file, Nat.zero_add] at slice
  rw [← slice]
  exact held'

theorem rows (run : PkgRun env out es s) {k : Nat} (low : k < otaDiffSectionNum)
    (used : (out.cfg.opt k).used = true) :
    RowsFrom env (out.cfg.opt k) 0 (es.filter fun e => e.part = k) := by
  rcases run.parts.own nodup (List.mem_range.mpr low) used with ⟨-, -, slices⟩
  exact fun i e found => partSlice_shape (run.wf.part k used).2.1 (slices i e found).2.2

/-- Every table written is one of a used partition. -/
theorem owner (run : PkgRun env out es s) {e : Emitted} (member : e ∈ es) :
    e.part < otaDiffSectionNum ∧ (out.cfg.opt e.part).used = true ∧
      ∃ i : Nat, (es.filter fun e' => e'.part = e.part)[i]? = some e := by
  rcases run.parts.part_mem e member with ⟨inside, used⟩
  refine ⟨List.mem_range.mp inside, used, ?_⟩
  exact List.mem_iff_getElem?.mp (List.mem_filter.mpr ⟨member, decide_eq_true rfl⟩)

/-- The offsets the partitions begin with. -/
theorem start {cfg : PkgConfig} {n : Nat} (num : cfg.header.sectionNum.toNat = n)
    (few : n ≤ otaDiffSectionNum * otaDiffSectionNum) :
    (pkgStart cfg).pkgTableLen.toNat = sizeofPkgHeader ∧
      (pkgStart cfg).pkgPatchLen.toNat = sizeofPkgHeader + sizeofSectionTable * n := by
  refine ⟨rfl, ?_⟩
  have header : (UInt32.ofNat sizeofPkgHeader).toNat = 64 := rfl
  have table : (UInt32.ofNat sizeofSectionTable).toNat = 112 := rfl
  have bound : otaDiffSectionNum * otaDiffSectionNum = 4096 := rfl
  rw [pkgStart, UInt32.toNat_add, UInt32.toNat_mul, num, header, table, sizeofPkgHeader,
    sizeofSectionTable]
  omega

/-- With at most 64 slices to a partition there are at most 64 * 64. -/
theorem few (run : PkgRun env out es s)
    (most : ∀ k < otaDiffSectionNum, (out.cfg.opt k).used = true →
      (out.cfg.opt k).sectionNum.toNat ≤ otaDiffSectionNum) :
    es.length ≤ otaDiffSectionNum * otaDiffSectionNum := by
  have bound : ((List.range otaDiffSectionNum).map fun k => (out.cfg.num k).toNat).sum ≤
      (List.range otaDiffSectionNum).length * otaDiffSectionNum := by
    apply sum_map_le
    intro k low
    rw [PkgConfig.num]
    split
    · next used => exact most k (List.mem_range.mp low) used
    · exact Nat.zero_le _
  rw [run.parts.length]
  rwa [List.length_range] at bound

/-- The header counts the tables when every partition has as many as its file has pieces. -/
theorem headerNum (run : PkgRun env out es s)
    (nonneg : ∀ k < otaDiffSectionNum, (out.cfg.opt k).used = true → 0 ≤ (out.cfg.opt k).sectionNum)
    (few : es.length ≤ otaDiffSectionNum * otaDiffSectionNum) :
    out.cfg.header.sectionNum.toNat = es.length := by
  have casts : ∀ k ∈ Finset.range otaDiffSectionNum,
      out.cfg.num k = ((out.cfg.num k).toNat : Int) := by
    intro k low
    rw [PkgConfig.num]
    split
    · next used => exact (Int.toNat_of_nonneg (nonneg k (Finset.mem_range.mp low) used)).symm
    · rfl
  have total : ∑ k ∈ Finset.range otaDiffSectionNum, out.cfg.num k = (es.length : Int) := by
    rw [Finset.sum_congr rfl casts, run.parts.length, ← Nat.cast_sum]
    rfl
  have bound : otaDiffSectionNum * otaDiffSectionNum = 4096 := rfl
  rw [run.wf.sectionNum, total, UInt32.ofInt, UInt32.toNat_ofNat']
  omega

/-- What was written takes the room the partitions need. -/
theorem room (run : PkgRun env out es s)
    (counts : ∀ k < otaDiffSectionNum, (out.cfg.opt k).used = true →
      (out.cfg.opt k).sectionNum.toNat =
        sliceCount (out.cfg.opt k) ((out.cfg.opt k).newFile env).length)
    (small : ∀ k < otaDiffSectionNum, (out.cfg.opt k).used = true →
      (out.cfg.opt k).partSize ≤ 0 → ((out.cfg.opt k).newFile env).length < 2 ^ 32) :
    sizeofSectionTable * es.length + patchRoom es =
      ((List.range otaDiffSectionNum).map fun k => partRoom env (out.cfg.opt k)).sum :=
  run.parts.room (fun k used => (run.wf.part k used).2.1.partSize)
    (fun k low => counts k (List.mem_range.mp low)) fun k low => small k (List.mem_range.mp low)

theorem layout_of_fits (run : PkgRun env out es s) (fits : PkgFits env out.cfg) :
    PkgLayout env out := by
  have sixtyFour : otaDiffSectionNum = 64 := rfl
  have counts : ∀ k < otaDiffSectionNum, (out.cfg.opt k).used = true →
      (out.cfg.opt k).sectionNum =
        sliceCount (out.cfg.opt k) ((out.cfg.opt k).newFile env).length := by
    intro k low used
    have most := fits.slices k low used
    exact (sectionNum_spec (run.wf.part k used).2.2).2 (by omega)
  have few : es.length ≤ otaDiffSectionNum * otaDiffSectionNum := by
    refine run.few fun k low used => ?_
    rw [counts k low used, Int.toNat_natCast]
    exact fits.slices k low used
  have num : out.cfg.header.sectionNum.toNat = es.length := by
    refine run.headerNum (fun k low used => ?_) few
    rw [counts k low used]
    exact Int.natCast_nonneg _
  rcases start num few with ⟨tableLen, patchLen⟩
  have room := run.room (fun k low used => by rw [counts k low used, Int.toNat_natCast]) fits.small
  have within : (pkgStart out.cfg).pkgPatchLen.toNat + patchRoom es ≤ sizeofPkgBuff := by
    have total := fits.room
    omega
  rcases run.emits.placed within with ⟨placed, last⟩
  rcases run.files with ⟨headerNum, headerSize, headerWf, file⟩
  have shape : ∀ e ∈ es, ∃ i, RowShape env (out.cfg.opt e.part) i e.row e.patch := by
    intro e member
    rcases run.owner member with ⟨low, used, i, found⟩
    exact ⟨_, run.rows low used i e found⟩
  have small : ∀ e ∈ es, e.row.patchSize.toNat = e.patch.length := by
    intro e member
    rcases shape e member with ⟨i, row⟩
    have bounds := (placed.bounds member).2
    have long := (round16_bounds e.patch.length).1
    have size : sizeofPkgBuff = 1048576 := rfl
    rw [row.patchSize, UInt32.toNat_ofNat']
    exact Nat.mod_eq_of_lt (by omega)
  have rows : ∀ e ∈ es, e.row.bytes.length = sizeofSectionTable := by
    intro e member
    rcases shape e member with ⟨i, row⟩
    exact row.wf.length_bytes
  have memory := (run.emits.memory rows within (by omega)).1
  have fileEnd : (pkgStart out.cfg).pkgPatchLen.toNat ≤ s.pkgPatchLen.toNat := by omega
  have ends : ∀ e ∈ es, e.row.patchOffset.toNat + e.patch.length ≤ s.pkgPatchLen.toNat := by
    intro e member
    have bounds := (placed.bounds member).2
    have long := (round16_bounds e.patch.length).1
    omega
  constructor
  case header =>
    have len : out.header.bytes.length ≤ s.pkgPatchLen.toNat := by
      rw [headerWf.length_bytes]
      omega
    have held := (store_holds (s.pkgBuff.store 0 out.cfg.header.bytes) 0 out.header.bytes).load
    rw [file, ← headerWf.length_bytes, show s.pkgPatchLen.toNat = out.header.bytes.length +
      (s.pkgPatchLen.toNat - out.header.bytes.length) by omega, load_add, held, List.take_left]
  case count => rw [run.log, headerNum, num]
  case tables =>
    intro i e found
    rw [run.log] at found
    have member := List.mem_of_getElem? found
    have low := (List.getElem?_eq_some_iff.mp found).1
    have held := (memory i e found).1
    rw [tableLen] at held
    rw [← rows e member]
    rw [← rows e member] at held
    refine run.file_slice held (Nat.le_add_right ..) ?_
    have step : sizeofSectionTable * (i + 1) ≤ sizeofSectionTable * es.length :=
      Nat.mul_le_mul_left _ low
    rw [Nat.mul_succ] at step
    rw [rows e member]
    omega
  case sizes => rw [run.log]; exact small
  case payloads =>
    rw [run.log]
    intro e member
    rcases List.mem_iff_getElem?.mp member with ⟨i, found⟩
    have bounds := (placed.bounds member).1
    rw [small e member]
    exact run.file_slice (memory i e found).2 (by omega) (ends e member)
  case ordered =>
    rw [run.log]
    refine placed.pairwise.imp_of_mem ?_
    intro e e' member _ order
    rwa [small e member]
  case after =>
    rw [run.log]
    intro e member
    have bounds := (placed.bounds member).1
    omega
  case within =>
    rw [run.log, headerSize]
    intro e member
    rw [small e member]
    exact ends e member
  case buffer =>
    rw [headerSize, last]
    exact within
  case capacity =>
    rw [run.log]
    intro e member
    rcases run.owner member with ⟨low, used, i, found⟩
    rcases run.parts.own nodup (List.mem_range.mpr low) used with ⟨-, length, slices⟩
    have index := (List.getElem?_eq_some_iff.mp found).1
    have most := fits.slices e.part low used
    rw [length, counts e.part low used, Int.toNat_natCast] at index
    rw [(slices i e found).2.1]
    omega
  case tiled =>
    rw [run.log]
    intro k low used
    rcases run.parts.own nodup (List.mem_range.mpr low) used with ⟨ready, length, slices⟩
    rcases ready.new with ⟨new, found⟩
    have newFile : (out.cfg.opt k).newFile env = new := by
      rw [SectionOpt.newFile, found]
      rfl
    refine ⟨new, found, ?_⟩
    rw [counts k low used, Int.toNat_natCast] at length
    have tiles := (run.rows low used).tiles (run.wf.part k used).2.1.partSize
      (by rw [Nat.zero_add]; exact length) (fits.small k low used)
    rw [newFile, Nat.zero_mul, Nat.sub_zero] at tiles
    have zero : UInt32.ofInt (out.cfg.opt k).partSize * UInt32.ofNat 0 = 0 := UInt32.mul_zero
    rwa [zero, UInt32.add_zero] at tiles

/-- The tables of a partition that keeps within `sectionTable`. -/
theorem few_of_layout (run : PkgRun env out es s) (layout : PkgLayout env out) {k : Nat}
    (low : k < otaDiffSectionNum) (used : (out.cfg.opt k).used = true) :
    (out.cfg.opt k).sectionNum.toNat ≤ otaDiffSectionNum := by
  rcases run.parts.own nodup (List.mem_range.mpr low) used with ⟨-, length, slices⟩
  rw [← length]
  cases count : (es.filter fun e => e.part = k).length with
  | zero => exact Nat.zero_le _
  | succ last =>
    have index : last < (es.filter fun e => e.part = k).length := by omega
    have found := List.getElem?_eq_getElem index
    have member := (List.mem_filter.mp (List.getElem_mem index)).1
    have slice := (slices last _ found).2.1
    have inside := layout.capacity _ (by rw [run.log]; exact member)
    omega

theorem tiles_of_layout (run : PkgRun env out es s) (layout : PkgLayout env out) {k : Nat}
    (low : k < otaDiffSectionNum) (used : (out.cfg.opt k).used = true) :
    (out.cfg.opt k).sectionNum.toNat =
        sliceCount (out.cfg.opt k) ((out.cfg.opt k).newFile env).length ∧
      ((out.cfg.opt k).partSize ≤ 0 → ((out.cfg.opt k).newFile env).length < 2 ^ 32) := by
  rcases run.wf.part k used with ⟨-, wf, counted⟩
  rcases run.parts.own nodup (List.mem_range.mpr low) used with ⟨-, length, -⟩
  rcases layout.tiled k low used with ⟨file, found, tiles⟩
  have newFile : (out.cfg.opt k).newFile env = file := by
    rw [SectionOpt.newFile, found]
    rfl
  rw [← newFile, run.log] at tiles
  rw [← length]
  refine (run.rows low used).of_tiles wf.partSize ?_ (fun zero => ?_) tiles
  · rw [length]
    exact (sectionNum_spec counted).1
  · rcases counted with ⟨-, one⟩ | ⟨nonzero, -⟩
    · rw [length, one]
      rfl
    · exact absurd zero nonzero

theorem fits_of_layout (run : PkgRun env out es s) (layout : PkgLayout env out) :
    PkgFits env out.cfg := by
  have sixtyFour : otaDiffSectionNum = 64 := rfl
  have slices : ∀ k < otaDiffSectionNum, (out.cfg.opt k).used = true →
      sliceCount (out.cfg.opt k) ((out.cfg.opt k).newFile env).length ≤ otaDiffSectionNum := by
    intro k low used
    rw [← (run.tiles_of_layout layout low used).1]
    exact run.few_of_layout layout low used
  have few : es.length ≤ otaDiffSectionNum * otaDiffSectionNum :=
    run.few fun k low used => run.few_of_layout layout low used
  have num : out.cfg.header.sectionNum.toNat = es.length := by
    refine run.headerNum (fun k low used => ?_) few
    have most := slices k low used
    rw [(sectionNum_spec (run.wf.part k used).2.2).2 (by omega)]
    exact Int.natCast_nonneg _
  rcases start num few with ⟨-, patchLen⟩
  have room := run.room (fun k low used => (run.tiles_of_layout layout low used).1)
    fun k low used => (run.tiles_of_layout layout low used).2
  have bounds : otaDiffSectionNum * otaDiffSectionNum = 4096 := rfl
  have size : sizeofPkgBuff = 1048576 := rfl
  have ends : ∀ e ∈ es, e.row.patchOffset.toNat + e.patch.length ≤ sizeofPkgBuff := by
    intro e member
    rw [← run.log] at member
    rw [← layout.sizes e member]
    exact Nat.le_trans (layout.within e member) layout.buffer
  have within := run.emits.fits (by rw [patchLen, sizeofPkgHeader, sizeofSectionTable]; omega)
    (by rw [patchLen, sizeofPkgHeader, sizeofSectionTable]; omega) ends
  exact ⟨slices, fun k low used => (run.tiles_of_layout layout low used).2, by omega⟩

end PkgRun

/-- The package has its layout exactly when it fits. -/
theorem swPkgMain_layout_iff {env : PkgEnv} {doc : Option XmlRoot} {out : PkgResult}
    (made : swPkgMain env doc = some out) : PkgLayout env out ↔ PkgFits env out.cfg := by
  rcases swPkgMain_run made with ⟨es, s, run⟩
  exact ⟨run.fits_of_layout, run.layout_of_fits⟩

theorem huge_refused (n : Nat) (huge : 2 ^ 63 ≤ n) : decide (n < 2 ^ 63) = false :=
  decide_eq_false (Nat.not_lt.mpr huge)

theorem nothing_made {old new patch prop : List UInt8}
    (made : (fun _ _ => none : List UInt8 → List UInt8 → Option (List UInt8 × List UInt8)) old new =
      some (patch, prop)) : prop.length = 5 := by
  cases made

/-- A new firmware `n` of `count` zero bytes. Nothing is compressed. -/
def zeroEnv (count : Nat) : PkgEnv where
  files name := if name = tag ['n'] then some (List.replicate count 0) else none
  malloc n := n < 2 ^ 63
  malloc_huge := huge_refused
  canCreate := true
  sha256 := SwSha256.hashed SwSha256.freshCtx
  length_sha256 := SwSha256.length_hashed SwSha256.freshCtx
  crc32 := SwCrc32.swCrc32Calc
  lzma _ _ := none
  length_lzma gone := by cases gone
  bsdiff _ _ := none
  length_bsdiff := @nothing_made

/-- A partition taken from `n`. -/
def zeroNode (name order size : CString) : XmlNode where
  name := name
  order := some order
  children := [(tag ['p', 'a', 'r', 't', 's', 'i', 'z', 'e'], some size),
    (tag ['n', 'e', 'w', 'n', 'a', 'm', 'e'], some (tag ['n']))]

/-- A partition `p` taken from `n` byte by byte. -/
def byteDoc : XmlRoot where
  name := tag ['r', 'o', 'o', 't']
  children := [zeroNode (tag ['p']) (tag ['0']) (tag ['1'])]

/-- The same, and a partition `q` taken from `n` in one piece. -/
def wholeDoc : XmlRoot where
  name := tag ['r', 'o', 'o', 't']
  children := byteDoc.children ++ [zeroNode (tag ['q']) (tag ['1']) (tag ['0'])]

theorem swPkgMain_decided {env : PkgEnv} {doc : Option XmlRoot} {fits : Bool}
    (made : (swPkgMain env doc).map (fun out => decide (PkgFits env out.cfg)) = some fits) :
    ∃ out, swPkgMain env doc = some out ∧ (PkgFits env out.cfg ↔ fits = true) := by
  rcases Option.map_eq_some_iff.mp made with ⟨out, found, same⟩
  exact ⟨out, found, by rw [← same, decide_eq_true_eq]⟩

theorem swPkgMain_layout_three :
    ∃ out, swPkgMain (zeroEnv 3) (some byteDoc) = some out ∧
      PkgLayout (zeroEnv 3) out := by
  rcases swPkgMain_decided (show (swPkgMain (zeroEnv 3) (some byteDoc)).map _ =
    some true by decide +kernel) with ⟨out, made, fits⟩
  exact ⟨out, made, (swPkgMain_layout_iff made).mpr (fits.mpr rfl)⟩

/-- 65 slices run on behind the tables of their partition, into the next one. -/
theorem swPkgMain_layout_broken :
    ∃ out, swPkgMain (zeroEnv 65) (some wholeDoc) = some out ∧
      ¬ PkgLayout (zeroEnv 65) out := by
  rcases swPkgMain_decided (show (swPkgMain (zeroEnv 65) (some wholeDoc)).map _ =
    some false by decide +kernel) with ⟨out, made, fits⟩
  rcases swPkgMain_run made with ⟨es, s, run⟩
  exact ⟨out, made, fun layout => absurd (fits.mp (run.fits_of_layout layout)) Bool.false_ne_true⟩

end Tr6260
