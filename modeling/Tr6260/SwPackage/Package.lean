import Tr6260.LittleEndian
import Tr6260.SwPackage.Config

/-!
# Making a package

`sw_package.c`: for every partition a table and a patch for each slice of its new
firmware, written into `g_pkgBuff` at two running offsets, and the buffer written to
a file. The arrays of the tool are not cut off at their ends here: what lies behind
`g_pkgBuff` and behind a partition's 64 tables is memory of its own, and `log` keeps
what was written, so that staying inside is something to prove.

Functions have no result when the tool returns `-1`.
-/

namespace Tr6260

open CString ByteMem

/-- `sizeof(PkgHeader)`. -/
def sizeofPkgHeader : Nat := 64

/-- `sizeof(SectionTable)`. -/
def sizeofSectionTable : Nat := 112

/-- `sizeof(g_pkgBuff)`. -/
def sizeofPkgBuff : Nat := 1 * 1024 * 1024

/-- `SectionTable`. -/
structure SectionTable where
  sectionName : List UInt8
  addrf : UInt32
  addrfLen : UInt32
  addrb : UInt32
  addrbLen : UInt32
  patchOffset : UInt32
  patchSize : UInt32
  method : UInt8
  compress : UInt8
  reserve : List UInt8
  hashf : List UInt8
  hashb : List UInt8
  deriving DecidableEq

/-- A `SectionTable` as it lies in memory. -/
def SectionTable.bytes (row : SectionTable) : List UInt8 :=
  row.sectionName ++ leBytes 4 row.addrf.toNat ++ leBytes 4 row.addrfLen.toNat ++
    leBytes 4 row.addrb.toNat ++ leBytes 4 row.addrbLen.toNat ++ leBytes 4 row.patchOffset.toNat ++
    leBytes 4 row.patchSize.toNat ++ [row.method, row.compress] ++ row.reserve ++ row.hashf ++
    row.hashb

/-- A `PkgHeader` as it lies in memory. -/
def PkgHeader.bytes (header : PkgHeader) : List UInt8 :=
  header.magic ++ [header.ver] ++ leBytes 4 header.pkgSize.toNat ++ leBytes 4 header.crc.toNat ++
    leBytes 4 header.sectionNum.toNat ++ List.replicate 12 0 ++ header.srcVersion ++
    header.dstVersion

/-- What the tool uses of its surroundings and of its libraries: the files, `malloc`, whether
`pkgsrc` can be made, the two digests, `SwLzmaCompress` with the room for its result, and
`SwBsdiff`. The last two also yield the five bytes of `prop`. -/
structure PkgEnv where
  files : FirmwareFiles
  malloc : Nat → Bool
  malloc_huge : ∀ n, 2 ^ 63 ≤ n → malloc n = false
  canCreate : Bool
  sha256 : List UInt8 → List UInt8
  length_sha256 : ∀ bytes, (sha256 bytes).length = 32
  crc32 : List UInt8 → UInt32
  lzma : List UInt8 → Nat → Option (List UInt8 × List UInt8)
  length_lzma : ∀ {src room patch prop}, lzma src room = some (patch, prop) → prop.length = 5
  bsdiff : List UInt8 → List UInt8 → Option (List UInt8 × List UInt8)
  length_bsdiff : ∀ {old new patch prop}, bsdiff old new = some (patch, prop) → prop.length = 5

/-- A table that was written, with the patch it is for. -/
structure Emitted where
  part : Nat
  slice : Nat
  row : SectionTable
  patch : List UInt8

/-- `g_pkgBuff`, the two running offsets, and what was written. -/
structure PkgState where
  pkgBuff : ByteMem
  pkgTableLen : UInt32
  pkgPatchLen : UInt32
  log : List Emitted

/-- A length rounded up to a multiple of 16. -/
def round16 (len : Nat) : Nat := if len % 16 ≠ 0 then len + 16 - len % 16 else len

def PkgState.putTable (s : PkgState) (row : SectionTable) : PkgState :=
  { s with
    pkgBuff := s.pkgBuff.store s.pkgTableLen.toNat row.bytes
    pkgTableLen := s.pkgTableLen + UInt32.ofNat sizeofSectionTable }

def PkgState.putPatch (s : PkgState) (patch : List UInt8) : PkgState :=
  { s with
    pkgBuff := s.pkgBuff.store s.pkgPatchLen.toNat patch
    pkgPatchLen := s.pkgPatchLen + UInt32.ofNat (round16 patch.length) }

def PkgState.record (s : PkgState) (e : Emitted) : PkgState := { s with log := s.log ++ [e] }

/-- What both loops set in the table of a slice before they read the files. -/
def SectionOpt.row (opt : SectionOpt) (i : Nat) (patchOffset : UInt32) : SectionTable where
  sectionName := opt.sectionName.take 16
  addrf := opt.addrf + UInt32.ofInt opt.partSize * UInt32.ofNat i
  addrfLen := 0
  addrb := opt.addrb + UInt32.ofInt opt.partSize * UInt32.ofNat i
  addrbLen := 0
  patchOffset := patchOffset
  patchSize := 0
  method := opt.method
  compress := opt.compress
  reserve := List.replicate 6 0
  hashf := List.replicate 32 0
  hashb := List.replicate 32 0

/-- A round of the loop of `SwPkgDiffPatchCreate`: the table and the patch. `oldover` says
whether the old file has run out. -/
def diffSlice (env : PkgEnv) (opt : SectionOpt) (i : Nat) (patchOffset : UInt32)
    (oldSlice newSlice : List UInt8) (oldover : Bool) : Option (SectionTable × List UInt8) :=
  if UInt32.ofNat newSlice.length = 0 then
    none
  else
    let row := { opt.row i patchOffset with
      addrbLen := UInt32.ofNat newSlice.length
      hashb := env.sha256 newSlice }
    if oldover then do
      let (patch, prop) ← env.lzma newSlice (toSize opt.partSize)
      some ({ row with
        method := 0
        reserve := copyName row.reserve prop
        patchSize := UInt32.ofNat patch.length }, patch)
    else do
      let (patch, prop) ← env.bsdiff oldSlice newSlice
      some ({ row with
        addrfLen := UInt32.ofNat oldSlice.length
        hashf := env.sha256 oldSlice
        reserve := copyName row.reserve prop
        patchSize := UInt32.ofNat patch.length }, patch)

/-- The loop of `SwPkgDiffPatchCreate`: `left` rounds from slice `i` on, with what is still to be
read of both files. -/
def diffPatchLoop (env : PkgEnv) (part : Nat) (opt : SectionOpt) :
    Nat → Nat → List UInt8 → List UInt8 → Bool → PkgState → Option PkgState
  | 0, _, _, _, _, s => some s
  | left + 1, i, old, new, oldover, s => do
    let oldSlice := old.take (toSize opt.partSize)
    let newSlice := new.take (toSize opt.partSize)
    let oldover := oldover || UInt32.ofNat oldSlice.length = 0
    let (row, patch) ← diffSlice env opt i s.pkgPatchLen oldSlice newSlice oldover
    diffPatchLoop env part opt left (i + 1) (old.drop (toSize opt.partSize))
      (new.drop (toSize opt.partSize)) oldover
      (((s.record ⟨part, i, row, patch⟩).putTable row).putPatch patch)

/-- `SwPkgDiffPatchCreate`. -/
def swPkgDiffPatchCreate (env : PkgEnv) (part : Nat) (opt : SectionOpt) (s : PkgState) :
    Option PkgState :=
  let size := toSize (toInt (opt.partSize + 1))
  if env.malloc size = false ∨ env.malloc size = false ∨
      env.malloc (toSize (toInt (2 * opt.partSize + 1))) = false then
    none
  else do
    let old ← env.files opt.oldName
    let new ← env.files opt.newName
    diffPatchLoop env part opt opt.sectionNum.toNat 0 old new false s

/-- A round of the loop of `SwPkgTotalPatchCreate`: the table and the patch. -/
def totalSlice (env : PkgEnv) (opt : SectionOpt) (fileLen i : Nat) (patchOffset : UInt32)
    (read : List UInt8) : Option (SectionTable × List UInt8) :=
  let newLen := UInt32.ofNat read.length
  let newSlice := read.take newLen.toNat
  let row := { opt.row i patchOffset with hashb := env.sha256 newSlice, addrbLen := newLen }
  if opt.compress ≠ 0 then do
    let (patch, prop) ← env.lzma newSlice fileLen
    some ({ row with
      reserve := copyName row.reserve prop
      patchSize := UInt32.ofNat patch.length }, patch)
  else
    some ({ row with patchSize := newLen }, newSlice)

/-- How much a round of `SwPkgTotalPatchCreate` reads at most. -/
def totalCount (opt : SectionOpt) (fileLen : Nat) : Nat :=
  if opt.partSize ≠ 0 then toSize opt.partSize else fileLen

/-- The loop of `SwPkgTotalPatchCreate`, with what is still to be read of the file. -/
def totalPatchLoop (env : PkgEnv) (part : Nat) (opt : SectionOpt) (fileLen : Nat) :
    Nat → Nat → List UInt8 → PkgState → Option PkgState
  | 0, _, _, s => some s
  | left + 1, i, new, s => do
    let (row, patch) ←
      totalSlice env opt fileLen i s.pkgPatchLen (new.take (totalCount opt fileLen))
    totalPatchLoop env part opt fileLen left (i + 1) (new.drop (totalCount opt fileLen))
      (((s.record ⟨part, i, row, patch⟩).putPatch patch).putTable row)

/-- `SwPkgTotalPatchCreate`. A file that `stat` does not find has length 0 and cannot be opened. -/
def swPkgTotalPatchCreate (env : PkgEnv) (part : Nat) (opt : SectionOpt) (s : PkgState) :
    Option PkgState := do
  let fileLen := ((env.files opt.newName).map List.length).getD 0
  if env.malloc (fileLen + 1) = false ∨ env.malloc (fileLen + 1) = false then
    none
  else do
    let new ← env.files opt.newName
    totalPatchLoop env part opt fileLen opt.sectionNum.toNat 0 new s

/-- The partition loop of `main`. -/
def pkgPartitions (env : PkgEnv) (cfg : PkgConfig) : List Nat → PkgState → Option PkgState
  | [], s => some s
  | index :: indices, s =>
    let opt := cfg.opt index
    if opt.used = false then
      pkgPartitions env cfg indices s
    else do
      let s ← (if opt.method = 1 then swPkgDiffPatchCreate env index opt s
        else swPkgTotalPatchCreate env index opt s)
      pkgPartitions env cfg indices s

/-- What a run that returns 0 leaves: the configuration, the tool's memory, the header and the
file `pkgsrc`. -/
structure PkgResult where
  cfg : PkgConfig
  state : PkgState
  header : PkgHeader
  pkgsrc : List UInt8

/-- `SwPkgFileCreate`. -/
def swPkgFileCreate (env : PkgEnv) (cfg : PkgConfig) (s : PkgState) : Option PkgResult :=
  let buff := s.pkgBuff.store 0 cfg.header.bytes
  let header := { cfg.header with
    crc := env.crc32 (buff.load 16 (s.pkgPatchLen.toNat - 16))
    pkgSize := s.pkgPatchLen }
  let buff := buff.store 0 header.bytes
  if env.canCreate then
    some ⟨cfg, { s with pkgBuff := buff }, header, buff.load 0 s.pkgPatchLen.toNat⟩
  else
    none

/-- The tool's memory when `main` begins with the partitions. -/
def pkgStart (cfg : PkgConfig) : PkgState where
  pkgBuff _ := 0xFF
  pkgTableLen := UInt32.ofNat sizeofPkgHeader
  pkgPatchLen := UInt32.ofNat sizeofPkgHeader +
    UInt32.ofNat sizeofSectionTable * cfg.header.sectionNum
  log := []

/-- `main`, when it returns 0. -/
def swPkgMain (env : PkgEnv) (doc : Option XmlRoot) : Option PkgResult := do
  let cfg ← swCfgParseFile env.files doc
  let s ← pkgPartitions env cfg (List.range otaDiffSectionNum) (pkgStart cfg)
  swPkgFileCreate env cfg s

end Tr6260
