import Tr6260.SwPackage.Package

/-!
# What a run of the package tool writes

A run writes a list of tables with their patches, each at the offsets reached before
it (`Emits`), and the tables of a partition are its slices in closed form (`partSlice`).
-/

namespace Tr6260

open CString ByteMem

/-! ## Slices -/

/-- The piece number `i` of a file read in pieces of `size`. -/
def piece (size i : Nat) (file : List UInt8) : List UInt8 := (file.drop (i * size)).take size

def SectionOpt.newFile (env : PkgEnv) (opt : SectionOpt) : List UInt8 :=
  (env.files opt.newName).getD []

def SectionOpt.oldFile (env : PkgEnv) (opt : SectionOpt) : List UInt8 :=
  (env.files opt.oldName).getD []

/-- The table and the patch of slice `i`. -/
def partSlice (env : PkgEnv) (opt : SectionOpt) (i : Nat) (patchOffset : UInt32) :
    Option (SectionTable × List UInt8) :=
  if opt.method = 1 then
    let oldSlice := piece (toSize opt.partSize) i (opt.oldFile env)
    diffSlice env opt i patchOffset oldSlice (piece (toSize opt.partSize) i (opt.newFile env))
      (UInt32.ofNat oldSlice.length = 0)
  else
    let new := opt.newFile env
    totalSlice env opt new.length i patchOffset (piece (totalCount opt new.length) i new)

/-- Tables that are the slices of a partition from slice `first` on. -/
def SlicesFrom (env : PkgEnv) (part : Nat) (opt : SectionOpt) (first : Nat) (es : List Emitted) :
    Prop :=
  ∀ i e, es[i]? = some e → e.part = part ∧ e.slice = first + i ∧
    partSlice env opt (first + i) e.row.patchOffset = some (e.row, e.patch)

/-- A table and its patch are written at the running offsets, in either order. -/
def Writes (s : PkgState) (e : Emitted) (s' : PkgState) : Prop :=
  e.row.patchOffset = s.pkgPatchLen ∧
    (s' = ((s.record e).putTable e.row).putPatch e.patch ∨
      s' = ((s.record e).putPatch e.patch).putTable e.row)

/-- Tables and patches are written one after the other. -/
inductive Emits : PkgState → List Emitted → PkgState → Prop
  | nil (s : PkgState) : Emits s [] s
  | cons {s s1 s' : PkgState} {e : Emitted} {es : List Emitted} :
    Writes s e s1 → Emits s1 es s' → Emits s (e :: es) s'

theorem Emits.append {s s1 s' : PkgState} {es es' : List Emitted} (first : Emits s es s1)
    (rest : Emits s1 es' s') : Emits s (es ++ es') s' := by
  induction first with
  | nil => exact rest
  | cons write _ ih => exact .cons write (ih rest)

section Loops

variable {env : PkgEnv} {opt : SectionOpt} {part left i : Nat} {s s' : PkgState}

theorem SlicesFrom.cons {first : Nat} {e : Emitted} {es : List Emitted} (part_ : e.part = part)
    (slice : e.slice = first)
    (here : partSlice env opt first e.row.patchOffset = some (e.row, e.patch))
    (rest : SlicesFrom env part opt (first + 1) es) : SlicesFrom env part opt first (e :: es) := by
  intro i e' found
  cases i with
  | zero =>
    cases found
    exact ⟨part_, slice, here⟩
  | succ i =>
    rw [← Nat.add_assoc, Nat.add_right_comm]
    exact rest i e' found

theorem piece_drop (size i : Nat) (file : List UInt8) :
    (file.drop (i * size)).drop size = file.drop ((i + 1) * size) := by
  rw [List.drop_drop, Nat.succ_mul]

theorem ofNat_eq_zero {n : Nat} (small : n < 2 ^ 32) : UInt32.ofNat n = 0 ↔ n = 0 := by
  rw [← UInt32.toNat_inj, UInt32.toNat_ofNat', Nat.mod_eq_of_lt small]
  rfl

/-- An old file that has run out stays so. -/
theorem piece_over {size : Nat} {file : List UInt8} (small : size < 2 ^ 32)
    (ended : UInt32.ofNat (piece size i file).length = 0) :
    UInt32.ofNat (piece size (i + 1) file).length = 0 := by
  have len (k : Nat) : (piece size k file).length = min size (file.length - k * size) := by
    rw [piece, List.length_take, List.length_drop]
  rw [ofNat_eq_zero (by rw [len]; omega)] at ended ⊢
  rw [len] at ended ⊢
  rw [Nat.succ_mul]
  omega

theorem diffSlice_patchOffset {patchOffset : UInt32} {oldSlice newSlice patch : List UInt8}
    {oldover : Bool} {row : SectionTable}
    (done : diffSlice env opt i patchOffset oldSlice newSlice oldover = some (row, patch)) :
    row.patchOffset = patchOffset := by
  unfold diffSlice at done
  split at done
  · cases done
  · dsimp only at done
    split at done
    all_goals
      rcases Option.bind_eq_some_iff.mp done with ⟨made, -, same⟩
      cases same
      rfl

theorem totalSlice_patchOffset {patchOffset : UInt32} {fileLen : Nat} {read patch : List UInt8}
    {row : SectionTable}
    (done : totalSlice env opt fileLen i patchOffset read = some (row, patch)) :
    row.patchOffset = patchOffset := by
  unfold totalSlice at done
  dsimp only at done
  split at done
  · rcases Option.bind_eq_some_iff.mp done with ⟨made, -, same⟩
    cases same
    rfl
  · cases done
    rfl

theorem diffPatchLoop_emits {oldover : Bool} (diff : opt.method = 1)
    (small : toSize opt.partSize < 2 ^ 32)
    (ended : oldover = true →
      UInt32.ofNat (piece (toSize opt.partSize) i (opt.oldFile env)).length = 0)
    (done : diffPatchLoop env part opt left i ((opt.oldFile env).drop (i * toSize opt.partSize))
      ((opt.newFile env).drop (i * toSize opt.partSize)) oldover s = some s') :
    ∃ es, Emits s es s' ∧ es.length = left ∧ SlicesFrom env part opt i es := by
  induction left generalizing i oldover s with
  | zero =>
    cases done
    exact ⟨[], .nil _, rfl, fun j e found => by cases found⟩
  | succ left ih =>
    rcases Option.bind_eq_some_iff.mp done with ⟨⟨row, patch⟩, made, rest⟩
    have now : (oldover || decide (UInt32.ofNat (piece (toSize opt.partSize) i
        (opt.oldFile env)).length = 0)) =
        decide (UInt32.ofNat (piece (toSize opt.partSize) i (opt.oldFile env)).length = 0) := by
      cases oldover with
      | false => rfl
      | true => exact (decide_eq_true (ended rfl)).symm
    change diffSlice env opt i s.pkgPatchLen (piece _ i _) (piece _ i _) (_ || _) = _ at made
    change diffPatchLoop env part opt left (i + 1) _ _ (_ || _) _ = _ at rest
    rw [piece] at now
    rw [now] at made rest
    rw [piece_drop, piece_drop] at rest
    rcases ih (fun gone => piece_over small (of_decide_eq_true gone)) rest with
      ⟨es, emits, length, slices⟩
    have offset := diffSlice_patchOffset made
    refine ⟨⟨part, i, row, patch⟩ :: es, .cons ⟨offset, .inl rfl⟩ emits, congrArg (· + 1) length,
      SlicesFrom.cons rfl rfl ?_ slices⟩
    rw [partSlice, if_pos diff, offset]
    exact made

theorem totalPatchLoop_emits (total : opt.method ≠ 1)
    (done : totalPatchLoop env part opt (opt.newFile env).length left i
      ((opt.newFile env).drop (i * totalCount opt (opt.newFile env).length)) s = some s') :
    ∃ es, Emits s es s' ∧ es.length = left ∧ SlicesFrom env part opt i es := by
  induction left generalizing i s with
  | zero =>
    cases done
    exact ⟨[], .nil _, rfl, fun j e found => by cases found⟩
  | succ left ih =>
    rcases Option.bind_eq_some_iff.mp done with ⟨⟨row, patch⟩, made, rest⟩
    rw [piece_drop] at rest
    rcases ih rest with ⟨es, emits, length, slices⟩
    have offset := totalSlice_patchOffset made
    refine ⟨⟨part, i, row, patch⟩ :: es, .cons ⟨offset, .inr rfl⟩ emits, congrArg (· + 1) length,
      SlicesFrom.cons rfl rfl ?_ slices⟩
    rw [partSlice, if_neg total, offset]
    exact made

theorem toInt_nonneg_of_malloc {n : Int} (granted : env.malloc (toSize (toInt n)) = true) :
    0 ≤ toInt n := by
  by_contra negative
  have low := (toInt_range n).1
  have huge : 2 ^ 63 ≤ toSize (toInt n) := by
    rw [toSize]
    omega
  rw [env.malloc_huge _ huge] at granted
  cases granted

/-- A size for which `malloc` found room for the slices is not negative. -/
theorem partSize_of_malloc (range : -2 ^ 31 ≤ opt.partSize ∧ opt.partSize < 2 ^ 31)
    (slice : env.malloc (toSize (toInt (opt.partSize + 1))) = true)
    (patch : env.malloc (toSize (toInt (2 * opt.partSize + 1))) = true) : 0 ≤ opt.partSize := by
  have first := toInt_nonneg_of_malloc slice
  have second := toInt_nonneg_of_malloc patch
  by_contra negative
  rw [toInt_of_range (by omega) (by omega)] at first
  have last : opt.partSize = -1 := by omega
  rw [last] at second
  exact absurd second (by decide)

/-- What is known of a partition whose tables were made: the new firmware can be read, and the
difference to an old one needs both files and a size. -/
structure PartReady (env : PkgEnv) (opt : SectionOpt) : Prop where
  new : ∃ file, env.files opt.newName = some file
  diff : opt.method = 1 → 0 ≤ opt.partSize ∧ ∃ file, env.files opt.oldName = some file

theorem swPkgDiffPatchCreate_emits (diff : opt.method = 1)
    (range : -2 ^ 31 ≤ opt.partSize ∧ opt.partSize < 2 ^ 31)
    (done : swPkgDiffPatchCreate env part opt s = some s') :
    PartReady env opt ∧ ∃ es, Emits s es s' ∧ es.length = opt.sectionNum.toNat ∧
      SlicesFrom env part opt 0 es := by
  unfold swPkgDiffPatchCreate at done
  dsimp only at done
  split at done
  · cases done
  · next granted =>
    rw [not_or, not_or, Bool.not_eq_false, Bool.not_eq_false] at granted
    have size := partSize_of_malloc range granted.1 granted.2.2
    rcases Option.bind_eq_some_iff.mp done with ⟨old, oldFound, rest⟩
    rcases Option.bind_eq_some_iff.mp rest with ⟨new, newFound, rest⟩
    have oldFile : opt.oldFile env = old := by rw [SectionOpt.oldFile, oldFound]; rfl
    have newFile : opt.newFile env = new := by rw [SectionOpt.newFile, newFound]; rfl
    have small : toSize opt.partSize < 2 ^ 32 := by
      rw [toSize]
      omega
    refine ⟨⟨⟨new, newFound⟩, fun _ => ⟨size, old, oldFound⟩⟩, ?_⟩
    refine diffPatchLoop_emits diff small (show false = true → _ from fun gone => by cases gone) ?_
    rw [oldFile, newFile, Nat.zero_mul, List.drop_zero, List.drop_zero]
    exact rest

theorem swPkgTotalPatchCreate_emits (total : opt.method ≠ 1)
    (done : swPkgTotalPatchCreate env part opt s = some s') :
    PartReady env opt ∧ ∃ es, Emits s es s' ∧ es.length = opt.sectionNum.toNat ∧
      SlicesFrom env part opt 0 es := by
  unfold swPkgTotalPatchCreate at done
  dsimp only at done
  split at done
  · cases done
  · rcases Option.bind_eq_some_iff.mp done with ⟨new, newFound, rest⟩
    have newFile : opt.newFile env = new := by rw [SectionOpt.newFile, newFound]; rfl
    refine ⟨⟨⟨new, newFound⟩, fun diff => absurd diff total⟩, ?_⟩
    apply totalPatchLoop_emits total
    rw [newFile, Nat.zero_mul, List.drop_zero]
    rw [newFound] at rest
    exact rest

end Loops

/-! ## Partitions -/

/-- The tables of the used partitions among `indices`, one partition after the other. -/
def PartsEmitted (env : PkgEnv) (cfg : PkgConfig) : List Nat → List Emitted → Prop
  | [], es => es = []
  | k :: ks, es =>
    if (cfg.opt k).used then
      ∃ own rest, es = own ++ rest ∧ PartReady env (cfg.opt k) ∧
        own.length = (cfg.opt k).sectionNum.toNat ∧ SlicesFrom env k (cfg.opt k) 0 own ∧
        PartsEmitted env cfg ks rest
    else PartsEmitted env cfg ks es

theorem pkgPartitions_emits {env : PkgEnv} {cfg : PkgConfig} {ks : List Nat} {s s' : PkgState}
    (wf : cfg.Wf env.files) (done : pkgPartitions env cfg ks s = some s') :
    ∃ es, Emits s es s' ∧ PartsEmitted env cfg ks es := by
  induction ks generalizing s with
  | nil =>
    cases done
    exact ⟨[], .nil _, rfl⟩
  | cons k ks ih =>
    unfold pkgPartitions at done
    dsimp only at done
    split at done
    · next unused =>
      rcases ih done with ⟨es, emits, parts⟩
      refine ⟨es, emits, ?_⟩
      rw [PartsEmitted, if_neg (by rw [unused]; decide)]
      exact parts
    · next used =>
      have used := Bool.eq_true_of_not_eq_false used
      rcases Option.bind_eq_some_iff.mp done with ⟨s1, made, rest⟩
      rcases ih rest with ⟨es, emits, parts⟩
      have own : PartReady env (cfg.opt k) ∧ ∃ own, Emits s own s1 ∧
          own.length = (cfg.opt k).sectionNum.toNat ∧ SlicesFrom env k (cfg.opt k) 0 own := by
        split at made
        · next diff => exact swPkgDiffPatchCreate_emits diff (wf.part k used).2.1.partSize made
        · next total => exact swPkgTotalPatchCreate_emits total made
      rcases own with ⟨ready, own, ownEmits, length, slices⟩
      refine ⟨own ++ es, ownEmits.append emits, ?_⟩
      rw [PartsEmitted, if_pos used]
      exact ⟨own, es, rfl, ready, length, slices, parts⟩

end Tr6260
