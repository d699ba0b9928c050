import Tr6260.CString
import Mathlib.Logic.Function.Basic
import Mathlib.Algebra.BigOperators.Group.Finset.Basic
import Mathlib.Algebra.BigOperators.Group.Finset.Piecewise
import Mathlib.Algebra.Order.Group.Int

/-!
# The configuration of the package tool

`sw_config.c` reads `swconfig.xml` into the header of the package and the table of
partitions. A document is the list of its root's children, a child the list of its own;
`text` is what `xmlNodeListGetString` returns for one. Functions have no result when
the tool returns `-1` or uses text that is not there.
-/

namespace Tr6260

open CString

/-- `OTA_DIFF_SECTION_NUM`. -/
def otaDiffSectionNum : Nat := 64

/-- A number stored into an `int`. -/
def toInt (n : Int) : Int := Int.bmod n (2 ^ 32)

/-- An `int` where a `size_t` is expected. -/
def toSize (n : Int) : Nat := (n % 2 ^ 64).toNat

/-- `memcpy` of a text into an array, cut off at its end; the rest of the array stays. -/
def copyName (array text : List UInt8) : List UInt8 :=
  text.take array.length ++ array.drop text.length

/-- `PkgHeader`, without `reserve`. -/
structure PkgHeader where
  magic : List UInt8 := List.replicate 7 0
  ver : UInt8 := 0
  pkgSize : UInt32 := 0
  crc : UInt32 := 0
  sectionNum : UInt32 := 0
  srcVersion : List UInt8 := List.replicate 16 0
  dstVersion : List UInt8 := List.replicate 16 0

/-- `SectionOpt`, without its tables. -/
structure SectionOpt where
  used : Bool := false
  sectionName : List UInt8 := List.replicate 64 0
  partSize : Int := 0
  sectionNum : Int := 0
  addrf : UInt32 := 0
  addrb : UInt32 := 0
  method : UInt8 := 0
  compress : UInt8 := 0
  oldFirmName : List UInt8 := List.replicate 64 0
  newFirmName : List UInt8 := List.replicate 64 0

/-- The text at `newFirmName`: the bytes behind the array are zero until the tables are made. -/
def SectionOpt.newName (opt : SectionOpt) : CString := ofBytes opt.newFirmName

/-- The text at `oldFirmName`, which runs on into `newFirmName` when it fills its array. -/
def SectionOpt.oldName (opt : SectionOpt) : CString := ofBytes (opt.oldFirmName ++ opt.newFirmName)

/-- `g_pkgHeader` and `g_pkgOpt`. -/
structure PkgConfig where
  header : PkgHeader := {}
  opt : Nat → SectionOpt := fun _ => {}

/-- The firmware files that can be read, by name. -/
abbrev FirmwareFiles := CString → Option (List UInt8)

/-- An element below the root. -/
structure XmlNode where
  name : CString
  order : Option CString
  children : List (CString × Option CString)

/-- The root element. -/
structure XmlRoot where
  name : CString
  children : List XmlNode

def tag (cs : List Char) : CString := lit cs

/-! ## Elements -/

/-- One round of the loop of `SwCfgParseGlobal`. -/
def parseGlobalChild (child : CString × Option CString) (header : PkgHeader) : Option PkgHeader :=
  if child.1 = tag ['m', 'a', 'g', 'i', 'c'] then do
    let key ← child.2
    some { header with magic := copyName header.magic key.1 }
  else if child.1 = tag ['p', 'a', 't', 'c', 'h', 'v', 'e', 'r'] then do
    let key ← child.2
    let value := atoi key
    if value < 0 ∨ value > 0xFF then none else some { header with ver := toU8 value }
  else if child.1 = tag ['s', 'o', 'f', 't', 'v', 'e', 'r', 'f'] then do
    let key ← child.2
    some { header with srcVersion := copyName header.srcVersion key.1 }
  else if child.1 = tag ['s', 'o', 'f', 't', 'v', 'e', 'r', 'b'] then do
    let key ← child.2
    some { header with dstVersion := copyName header.dstVersion key.1 }
  else
    some header

/-- `SwCfgParseGlobal`. -/
def swCfgParseGlobal : List (CString × Option CString) → PkgHeader → Option PkgHeader
  | [], header => some header
  | child :: children, header => do
    let header ← parseGlobalChild child header
    swCfgParseGlobal children header

/-- One round of the loop of `SwCfgParseElement`. -/
def parseElementChild (child : CString × Option CString) (opt : SectionOpt) : Option SectionOpt :=
  if child.1 = tag ['a', 'd', 'd', 'r', 'f'] then do
    let key ← child.2
    some { opt with addrf := UInt32.ofInt (atoi key) }
  else if child.1 = tag ['a', 'd', 'd', 'r', 'b'] then do
    let key ← child.2
    some { opt with addrb := UInt32.ofInt (atoi key) }
  else if child.1 = tag ['p', 'a', 'r', 't', 's', 'i', 'z', 'e'] then do
    let key ← child.2
    some { opt with partSize := toInt (atoi key) }
  else if child.1 = tag ['m', 'e', 't', 'h', 'o', 'd'] then do
    let key ← child.2
    some (if key = tag ['d', 'i', 'f', 'f'] then { opt with method := 1 } else opt)
  else if child.1 = tag ['c', 'o', 'm', 'p', 'r', 'e', 's', 's'] then do
    let key ← child.2
    some (if key = tag ['l', 'z', 'm', 'a'] then { opt with compress := 1 } else opt)
  else if child.1 = tag ['o', 'l', 'd', 'n', 'a', 'm', 'e'] then
    match child.2 with
    | none => some opt
    | some key => some { opt with oldFirmName := copyName opt.oldFirmName key.1 }
  else if child.1 = tag ['n', 'e', 'w', 'n', 'a', 'm', 'e'] then do
    let key ← child.2
    some { opt with newFirmName := copyName opt.newFirmName key.1 }
  else
    some opt

def parseElementChildren : List (CString × Option CString) → SectionOpt → Option SectionOpt
  | [], opt => some opt
  | child :: children, opt => do
    let opt ← parseElementChild child opt
    parseElementChildren children opt

/-- The number of slices `SwCfgUpdateElement` works out: a quotient of `size_t`s stored into an
`int`, one more when there is a rest. -/
def sliceNum (fileLen : Nat) (partSize : Int) : Int :=
  let slice := toInt (fileLen / toSize partSize)
  if fileLen % toSize partSize ≠ 0 then toInt (slice + 1) else slice

/-- `SwCfgUpdateElement`: the partition, and what it adds to the header's number of sections. -/
def swCfgUpdateElement (files : FirmwareFiles) (opt : SectionOpt) : Option (SectionOpt × UInt32) :=
  if opt.partSize = 0 then
    some ({ opt with sectionNum := toInt (opt.sectionNum + 1) }, 1)
  else if opt.newName.strlen = 0 then
    none
  else do
    let file ← files opt.newName
    let slice := sliceNum file.length opt.partSize
    some ({ opt with sectionNum := slice }, UInt32.ofInt slice)

/-- `SwCfgParseElement`. -/
def swCfgParseElement (files : FirmwareFiles) (node : XmlNode) (cfg : PkgConfig) :
    Option PkgConfig :=
  if node.name = tag ['g', 'l', 'o', 'b', 'a', 'l'] then do
    let header ← swCfgParseGlobal node.children cfg.header
    some { cfg with header := header }
  else do
    let order ← node.order
    let orderNum := atoi order
    if orderNum < 0 ∨ orderNum > 32 then
      none
    else
      let index := orderNum.toNat
      let opt := cfg.opt index
      if opt.used then
        none
      else
        let opt := { opt with used := true, sectionName := copyName opt.sectionName node.name.1 }
        let opt ← parseElementChildren node.children opt
        let (opt, more) ← swCfgUpdateElement files opt
        some { cfg with
          header := { cfg.header with sectionNum := cfg.header.sectionNum + more }
          opt := Function.update cfg.opt index opt }

/-- The loop of `SwCfgParseFile` over the children of the root. -/
def parseNodes (files : FirmwareFiles) : List XmlNode → PkgConfig → Option PkgConfig
  | [], cfg => some cfg
  | node :: nodes, cfg =>
    if node.name = tag ['t', 'e', 'x', 't'] then
      parseNodes files nodes cfg
    else do
      let cfg ← swCfgParseElement files node cfg
      parseNodes files nodes cfg

/-- `SwCfgParseFile`, on a document that could be parsed and is not empty, if there is one. -/
def swCfgParseFile (files : FirmwareFiles) (doc : Option XmlRoot) : Option PkgConfig := do
  let root ← doc
  if root.name = tag ['r', 'o', 'o', 't'] then parseNodes files root.children {} else none

/-! ## What an accepted configuration is -/

theorem length_copyName (array text : List UInt8) :
    (copyName array text).length = array.length := by
  rw [copyName, List.length_append, List.length_take, List.length_drop]
  omega

theorem toInt_range (n : Int) : -2 ^ 31 ≤ toInt n ∧ toInt n < 2 ^ 31 :=
  ⟨Int.le_bmod (by decide), Int.bmod_lt (by decide)⟩

theorem toInt_of_range {n : Int} (low : -2 ^ 31 ≤ n) (high : n < 2 ^ 31) : toInt n = n :=
  Int.bmod_eq_of_le low high

/-- The header's texts fill their arrays. -/
structure PkgHeader.Wf (header : PkgHeader) : Prop where
  magic : header.magic.length = 7
  srcVersion : header.srcVersion.length = 16
  dstVersion : header.dstVersion.length = 16

/-- What the children of an element may have set. -/
structure SectionOpt.Wf (opt : SectionOpt) : Prop where
  sectionName : opt.sectionName.length = 64
  partSize : -2 ^ 31 ≤ opt.partSize ∧ opt.partSize < 2 ^ 31
  method : opt.method = 0 ∨ opt.method = 1
  compress : opt.compress = 0 ∨ opt.compress = 1

/-- The number of sections is the one that goes with the new firmware. -/
def SectionOpt.Counted (files : FirmwareFiles) (opt : SectionOpt) : Prop :=
  (opt.partSize = 0 ∧ opt.sectionNum = 1) ∨
    opt.partSize ≠ 0 ∧ ∃ file, files opt.newName = some file ∧
      opt.sectionNum = sliceNum file.length opt.partSize

/-- The sections a partition has in the package. -/
def PkgConfig.num (cfg : PkgConfig) (k : Nat) : Int :=
  if (cfg.opt k).used then (cfg.opt k).sectionNum else 0

/-- A configuration between two elements. -/
structure PkgConfig.Wf (files : FirmwareFiles) (cfg : PkgConfig) : Prop where
  header : cfg.header.Wf
  fresh : ∀ k, (cfg.opt k).used = false → cfg.opt k = {}
  part : ∀ k, (cfg.opt k).used = true → k ≤ 32 ∧ (cfg.opt k).Wf ∧ (cfg.opt k).Counted files
  sectionNum : cfg.header.sectionNum =
    UInt32.ofInt (∑ k ∈ Finset.range otaDiffSectionNum, cfg.num k)

section Parse

variable {files : FirmwareFiles} {cfg cfg' : PkgConfig}

theorem parseGlobalChild_spec {child : CString × Option CString} {header header' : PkgHeader}
    (wf : header.Wf) (done : parseGlobalChild child header = some header') :
    header'.Wf ∧ header'.sectionNum = header.sectionNum := by
  rcases wf with ⟨magic, src, dst⟩
  unfold parseGlobalChild at done
  split at done
  · rcases Option.bind_eq_some_iff.mp done with ⟨key, -, same⟩
    cases same
    exact ⟨⟨(length_copyName ..).trans magic, src, dst⟩, rfl⟩
  split at done
  · rcases Option.bind_eq_some_iff.mp done with ⟨key, -, same⟩
    dsimp only at same
    split at same
    · cases same
    · cases same
      exact ⟨⟨magic, src, dst⟩, rfl⟩
  split at done
  · rcases Option.bind_eq_some_iff.mp done with ⟨key, -, same⟩
    cases same
    exact ⟨⟨magic, (length_copyName ..).trans src, dst⟩, rfl⟩
  split at done
  · rcases Option.bind_eq_some_iff.mp done with ⟨key, -, same⟩
    cases same
    exact ⟨⟨magic, src, (length_copyName ..).trans dst⟩, rfl⟩
  · cases done
    exact ⟨⟨magic, src, dst⟩, rfl⟩

theorem swCfgParseGlobal_spec {children : List (CString × Option CString)}
    {header header' : PkgHeader} (wf : header.Wf)
    (done : swCfgParseGlobal children header = some header') :
    header'.Wf ∧ header'.sectionNum = header.sectionNum := by
  induction children generalizing header with
  | nil =>
    cases done
    exact ⟨wf, rfl⟩
  | cons child children ih =>
    rcases Option.bind_eq_some_iff.mp done with ⟨header1, first, rest⟩
    rcases parseGlobalChild_spec wf first with ⟨wf1, same1⟩
    rcases ih wf1 rest with ⟨wf', same'⟩
    exact ⟨wf', same'.trans same1⟩

theorem parseElementChild_spec {child : CString × Option CString} {opt opt' : SectionOpt}
    (wf : opt.Wf) (done : parseElementChild child opt = some opt') :
    opt'.Wf ∧ opt'.used = opt.used ∧ opt'.sectionNum = opt.sectionNum := by
  rcases wf with ⟨name, size, method, compress⟩
  unfold parseElementChild at done
  split at done
  · rcases Option.bind_eq_some_iff.mp done with ⟨key, -, same⟩
    cases same
    exact ⟨⟨name, size, method, compress⟩, rfl, rfl⟩
  split at done
  · rcases Option.bind_eq_some_iff.mp done with ⟨key, -, same⟩
    cases same
    exact ⟨⟨name, size, method, compress⟩, rfl, rfl⟩
  split at done
  · rcases Option.bind_eq_some_iff.mp done with ⟨key, -, same⟩
    cases same
    exact ⟨⟨name, toInt_range _, method, compress⟩, rfl, rfl⟩
  split at done
  · rcases Option.bind_eq_some_iff.mp done with ⟨key, -, same⟩
    cases same
    split
    · exact ⟨⟨name, size, .inr rfl, compress⟩, rfl, rfl⟩
    · exact ⟨⟨name, size, method, compress⟩, rfl, rfl⟩
  split at done
  · rcases Option.bind_eq_some_iff.mp done with ⟨key, -, same⟩
    cases same
    split
    · exact ⟨⟨name, size, method, .inr rfl⟩, rfl, rfl⟩
    · exact ⟨⟨name, size, method, compress⟩, rfl, rfl⟩
  split at done
  · split at done
    all_goals
      cases done
      exact ⟨⟨name, size, method, compress⟩, rfl, rfl⟩
  split at done
  · rcases Option.bind_eq_some_iff.mp done with ⟨key, -, same⟩
    cases same
    exact ⟨⟨name, size, method, compress⟩, rfl, rfl⟩
  · cases done
    exact ⟨⟨name, size, method, compress⟩, rfl, rfl⟩

theorem parseElementChildren_spec {children : List (CString × Option CString)}
    {opt opt' : SectionOpt} (wf : opt.Wf) (done : parseElementChildren children opt = some opt') :
    opt'.Wf ∧ opt'.used = opt.used ∧ opt'.sectionNum = opt.sectionNum := by
  induction children generalizing opt with
  | nil =>
    cases done
    exact ⟨wf, rfl, rfl⟩
  | cons child children ih =>
    rcases Option.bind_eq_some_iff.mp done with ⟨opt1, first, rest⟩
    rcases parseElementChild_spec wf first with ⟨wf1, used1, num1⟩
    rcases ih wf1 rest with ⟨wf', used', num'⟩
    exact ⟨wf', used'.trans used1, num'.trans num1⟩

/-- A fresh partition gets its number of sections, and the header gets as many. -/
theorem swCfgUpdateElement_spec {opt opt' : SectionOpt} {more : UInt32} (wf : opt.Wf)
    (fresh : opt.sectionNum = 0) (done : swCfgUpdateElement files opt = some (opt', more)) :
    opt'.Wf ∧ opt'.used = opt.used ∧ opt'.Counted files ∧ more = UInt32.ofInt opt'.sectionNum := by
  rcases wf with ⟨name, size, method, compress⟩
  unfold swCfgUpdateElement at done
  split at done
  next zero =>
    cases done
    have one : toInt (opt.sectionNum + 1) = 1 := by
      rw [fresh]
      rfl
    refine ⟨⟨name, size, method, compress⟩, rfl, .inl ⟨zero, one⟩, ?_⟩
    simp only [one]
    rfl
  next nonzero =>
    split at done
    · cases done
    · rcases Option.bind_eq_some_iff.mp done with ⟨file, found, same⟩
      cases same
      exact ⟨⟨name, size, method, compress⟩, rfl, .inr ⟨nonzero, file, found, rfl⟩, rfl⟩

/-- A partition is added. -/
theorem PkgConfig.Wf.updated {index : Nat} {opt : SectionOpt} {more : UInt32} (wf : cfg.Wf files)
    (low : index ≤ 32) (unused : (cfg.opt index).used = false) (used : opt.used = true)
    (optWf : opt.Wf) (counted : opt.Counted files) (added : more = UInt32.ofInt opt.sectionNum) :
    PkgConfig.Wf files { cfg with
      header := { cfg.header with sectionNum := cfg.header.sectionNum + more }
      opt := Function.update cfg.opt index opt } := by
  refine ⟨⟨wf.header.magic, wf.header.srcVersion, wf.header.dstVersion⟩, ?_, ?_, ?_⟩
  · intro k unused'
    by_cases same : k = index
    · subst same
      simp only [Function.update_self, used] at unused'
      cases unused'
    · simp only [Function.update_of_ne same] at unused' ⊢
      exact wf.fresh k unused'
  · intro k used'
    by_cases same : k = index
    · subst same
      simp only [Function.update_self]
      exact ⟨low, optWf, counted⟩
    · simp only [Function.update_of_ne same] at used' ⊢
      exact wf.part k used'
  · have inside : index ∈ Finset.range otaDiffSectionNum :=
      Finset.mem_range.mpr (Nat.lt_of_le_of_lt low (by decide))
    have before : cfg.num index = 0 := if_neg (by rw [unused]; decide)
    have num : PkgConfig.num { cfg with
        header := { cfg.header with sectionNum := cfg.header.sectionNum + more }
        opt := Function.update cfg.opt index opt } =
        Function.update cfg.num index opt.sectionNum := by
      funext k
      by_cases same : k = index
      · subst same
        simp only [PkgConfig.num, Function.update_self, used, if_true]
      · simp only [PkgConfig.num, Function.update_of_ne same]
    have total : ∑ k ∈ Finset.range otaDiffSectionNum, cfg.num k =
        ∑ k ∈ Finset.range otaDiffSectionNum \ {index}, cfg.num k := by
      rw [← Finset.add_sum_erase _ _ inside, before, zero_add, Finset.sdiff_singleton_eq_erase]
    rw [num, Finset.sum_update_of_mem inside, UInt32.ofInt_add, ← total, ← wf.sectionNum, ← added,
      UInt32.add_comm]

theorem swCfgParseElement_spec {node : XmlNode} (wf : cfg.Wf files)
    (done : swCfgParseElement files node cfg = some cfg') : cfg'.Wf files := by
  unfold swCfgParseElement at done
  split at done
  · rcases Option.bind_eq_some_iff.mp done with ⟨header, parsed, same⟩
    cases same
    rcases swCfgParseGlobal_spec wf.header parsed with ⟨header', num⟩
    exact ⟨header', wf.fresh, wf.part, num.trans wf.sectionNum⟩
  · rcases Option.bind_eq_some_iff.mp done with ⟨order, -, rest⟩
    dsimp only at rest
    split at rest
    · cases rest
    · next valid =>
      split at rest
      · cases rest
      · next unused =>
        rcases Option.bind_eq_some_iff.mp rest with ⟨opt1, children, rest⟩
        rcases Option.bind_eq_some_iff.mp rest with ⟨⟨opt2, more⟩, updated, same⟩
        cases same
        have low : (atoi order).toNat ≤ 32 := by omega
        rw [wf.fresh _ (Bool.eq_false_of_not_eq_true unused)] at children
        have start : ({ ({} : SectionOpt) with
            used := true
            sectionName := copyName (List.replicate 64 0) node.name.1 } : SectionOpt).Wf :=
          ⟨length_copyName .., (by decide : (-2 ^ 31 : Int) ≤ 0 ∧ (0 : Int) < 2 ^ 31), .inl rfl,
            .inl rfl⟩
        rcases parseElementChildren_spec start children with ⟨wf1, used1, num1⟩
        rcases swCfgUpdateElement_spec wf1 num1 updated with ⟨wf2, used2, counted, added⟩
        exact wf.updated low (Bool.eq_false_of_not_eq_true unused) (used2.trans used1) wf2 counted
          added

theorem parseNodes_spec {nodes : List XmlNode} (wf : cfg.Wf files)
    (done : parseNodes files nodes cfg = some cfg') : cfg'.Wf files := by
  induction nodes generalizing cfg with
  | nil =>
    cases done
    exact wf
  | cons node nodes ih =>
    unfold parseNodes at done
    split at done
    · exact ih wf done
    · rcases Option.bind_eq_some_iff.mp done with ⟨cfg1, first, rest⟩
      exact ih (swCfgParseElement_spec wf first) rest

/-- An accepted configuration. -/
theorem swCfgParseFile_spec {doc : Option XmlRoot} (done : swCfgParseFile files doc = some cfg) :
    cfg.Wf files := by
  rcases Option.bind_eq_some_iff.mp done with ⟨root, -, rest⟩
  split at rest
  · refine parseNodes_spec ⟨⟨rfl, rfl, rfl⟩, fun k _ => rfl, fun k used => ?_, ?_⟩ rest
    · cases used
    · exact congrArg UInt32.ofInt (Finset.sum_eq_zero fun k _ => rfl).symm
  · cases rest

end Parse

end Tr6260
