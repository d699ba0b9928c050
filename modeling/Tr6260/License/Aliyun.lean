import Mathlib.Data.List.Forall2
import Tr6260.Uart.Handler

/-!
# The Aliyun licence

Product key, device id and device secret are one record of three fields, each
behind a byte with its length. `ya_write_aliyun_cert` compares the length bytes it
meets with the limits, and neither their number nor the end of a field with the
end of the record. `ya_read_parse_aliyun_cert` walks the record in the same way
and copies the fields to three blocks, which it allocates for the first value it
finds and uses for every later one.

The lines that print the strings are left out.
-/

namespace Tr6260

open FlashProg

/-! ## Length-prefixed fields -/

/-- A field behind its length. -/
def prefixed (field : List UInt8) : List UInt8 := UInt8.ofNat field.length :: field

/-- Fields one after another. -/
def encodeFields (fields : List (List UInt8)) : List UInt8 := (fields.map prefixed).flatten

/-- `YA_PRODUCT_KEY_LEN`, `YA_DEVICE_ID_LEN` and `YA_DEVICE_SECRET_LEN`. -/
def aliyunLimits : List Nat := [20, 32, 64]

/-- A licence, with every field within its limit. -/
structure AliyunLicence where
  fields : List (List UInt8)
  within : List.Forall₂ (fun field limit => field.length ≤ limit) fields aliyunLimits

/-- The record of a licence. -/
def AliyunLicence.encode (licence : AliyunLicence) : List UInt8 := encodeFields licence.fields

/-! ## The reader -/

/-- `aliyun_productkey`, `aliyun_deviceid` and `aliyun_productsecret`. -/
abbrev AliyunStrings := List (Option (List UInt8))

/-- The loop of `ya_read_parse_aliyun_cert` from `index` on, with a limit for each string to come. -/
def parseFields (heap : Heap) (buf : List UInt8) (readDataLen : Nat) :
    List Nat → AliyunStrings → Nat → Option (Int × AliyunStrings)
  | limit :: limits, block :: blocks, index =>
    if index < readDataLen then
      let len := (buf.getD index 0).toNat
      if len > limit then
        some (-1, block :: blocks)
      else
        match block.or ((heap 0).memoryAlloc (len + 1)) with
        | none => some (-1, block :: blocks)
        | some block => do
          let block ← Block.write block 0 (List.replicate (len + 1) 0)
          let field ← Block.read buf (index + 1) len
          let block ← Block.write block 0 field
          let (ret, blocks) ←
            parseFields (heap.skip 1) buf readDataLen limits blocks (index + 1 + len)
          return (ret, some block :: blocks)
    else
      some (0, block :: blocks)
  | _, blocks, _ => some (0, blocks)

/-- The size of the reader's buffer. -/
def aliyunBufLen : Nat := 1024

/-- `ya_read_parse_aliyun_cert`: the result and the strings. -/
def yaReadParseAliyunCert (heap : Heap) (strings : AliyunStrings) :
    FlashProg (Option (Int × AliyunStrings)) :=
  match (heap 0).memoryAlloc aliyunBufLen with
  | none => return some (-1, strings)
  | some _ => do
    match ← yaReadFlashWithVarLen (heap 1) yaLicenseAliyuun aliyunBufLen 1 with
    | none => return some (-1, strings)
    | some stored =>
      if stored.length = 0 then
        return some (-1, strings)
      else
        return do
          let buf ← Block.write (List.replicate aliyunBufLen 0) 0 stored
          parseFields (heap.skip 2) buf stored.length aliyunLimits strings 0

/-! ## Histories -/

/-- The flash and the strings. -/
structure AliyunState where
  flash : ByteMem
  strings : AliyunStrings

/-- A call of one of the two functions. -/
inductive AliyunCall
  | write (board : Board) (record : List UInt8)
  | readParse (heap : Heap)

/-- Result and state of a call; `none` when it leaves a block. -/
def AliyunState.step (s : AliyunState) : AliyunCall → Option (Int × AliyunState)
  | .write board record =>
    let (ret, flash) := (yaWriteAliyunCert board record record.length).run s.flash
    ret.map fun ret => (ret, { s with flash })
  | .readParse heap =>
    let (result, flash) := (yaReadParseAliyunCert heap s.strings).run s.flash
    result.map fun (ret, strings) => (ret, { flash, strings })

/-- Histories in which every call meets a condition, with the record accepted last. -/
inductive AliyunRun (meets : AliyunState → AliyunCall → Prop) :
    AliyunState → Option (List UInt8) → Prop
  | start (flash : ByteMem) : AliyunRun meets ⟨flash, [none, none, none]⟩ none
  | accepted {s s' : AliyunState} {last : Option (List UInt8)} {board : Board}
      {record : List UInt8} (run : AliyunRun meets s last) (met : meets s (.write board record))
      (moved : s.step (.write board record) = some (0, s')) : AliyunRun meets s' (some record)
  | refused {s s' : AliyunState} {last : Option (List UInt8)} {board : Board}
      {record : List UInt8} {ret : Int} (run : AliyunRun meets s last)
      (met : meets s (.write board record))
      (moved : s.step (.write board record) = some (ret, s')) (failed : ret ≠ 0) :
      AliyunRun meets s' last
  | read {s s' : AliyunState} {last : Option (List UInt8)} {heap : Heap} {ret : Int}
      (run : AliyunRun meets s last) (met : meets s (.readParse heap))
      (moved : s.step (.readParse heap) = some (ret, s')) : AliyunRun meets s' last

/-- A string holds a field and its terminator. -/
def HoldsField (field : List UInt8) (block : Option (List UInt8)) : Prop :=
  ∃ bytes, block = some bytes ∧ bytes.take (field.length + 1) = field ++ [0]

/-- Only the record of a licence is accepted, no call leaves a block, and the next read gives the
licence accepted last. -/
structure AliyunState.Kept (meets : AliyunState → AliyunCall → Prop) (s : AliyunState)
    (last : Option (List UInt8)) : Prop where
  complete : ∀ board record s', meets s (.write board record) →
    s.step (.write board record) = some (0, s') →
    ∃ licence : AliyunLicence, record = licence.encode
  inside : ∀ call, meets s call → s.step call ≠ none
  readBack : ∀ heap record, meets s (.readParse heap) → last = some record →
    ∃ (licence : AliyunLicence) (s' : AliyunState), record = licence.encode ∧
      s.step (.readParse heap) = some (0, s') ∧ List.Forall₂ HoldsField licence.fields s'.strings

/-- Every block that is there has room for its field. -/
def FieldsFit (fields : List (List UInt8)) (strings : AliyunStrings) : Prop :=
  List.Forall₂ (fun field block => ∀ bytes ∈ block, field.length < bytes.length) fields strings

/-- What the checks of `ya_write_aliyun_cert` and `ya_write_flash` let through. -/
def AliyunPasses (record : List UInt8) : Prop :=
  record ≠ [] ∧ record.length ≤ maxDataLen - 10 ∧
    aliyunFits record record.length aliyunLimits 0 = true

/-- What passes the checks is a licence that fits the blocks, `ya_hal_flash_write` happens to return
zero, and there is memory to read. -/
def AliyunState.Orderly (s : AliyunState) : AliyunCall → Prop
  | .write board record => board.flashWriteResult = 0 ∧ (AliyunPasses record →
    ∃ licence : AliyunLicence, record = licence.encode ∧ FieldsFit licence.fields s.strings)
  | .readParse heap => heap.AllocOk

/-! ## The walk over the fields -/

section Walk

variable {heap : Heap} {buf field : List UInt8} {fields : List (List UInt8)}
  {readDataLen index : Nat} {limits : List Nat} {blocks : AliyunStrings}

theorem encodeFields_cons : encodeFields (field :: fields) = prefixed field ++ encodeFields fields :=
  rfl

/-- The fields stand in the buffer from `index` on. -/
def FieldsAt (buf : List UInt8) (index : Nat) (fields : List (List UInt8)) : Prop :=
  ∃ front tail, buf = front ++ (encodeFields fields ++ tail) ∧ front.length = index

theorem FieldsAt.len (there : FieldsAt buf index (field :: fields)) (short : field.length < 256) :
    (buf.getD index 0).toNat = field.length := by
  rcases there with ⟨front, tail, rfl, rfl⟩
  rw [encodeFields_cons, List.append_assoc, List.getD_append_right _ _ _ _ (Nat.le_refl _),
    Nat.sub_self, prefixed, List.cons_append, List.getD_cons_zero, UInt8.toNat_ofNat',
    Nat.mod_eq_of_lt short]

theorem FieldsAt.read (there : FieldsAt buf index (field :: fields)) :
    Block.read buf (index + 1) field.length = some field := by
  rcases there with ⟨front, tail, rfl, rfl⟩
  rw [encodeFields_cons, List.append_assoc,
    Block.read_of_le (by simp only [prefixed, List.length_append, List.length_cons]; omega),
    List.drop_length_add_append, prefixed, List.cons_append, List.drop_succ_cons, List.drop_zero,
    List.take_left]

theorem FieldsAt.next (there : FieldsAt buf index (field :: fields)) :
    FieldsAt buf (index + 1 + field.length) fields := by
  rcases there with ⟨front, tail, rfl, rfl⟩
  refine ⟨front ++ prefixed field, tail, ?_, ?_⟩
  · rw [encodeFields_cons, List.append_assoc, List.append_assoc]
  · rw [List.length_append, prefixed, List.length_cons]
    omega

theorem Heap.AllocOk.skip (alloc : heap.AllocOk) (n : Nat) : (heap.skip n).AllocOk :=
  fun k => alloc (n + k)

/-- Every block the walk from `index` on comes to has room. -/
def BlocksFit (buf : List UInt8) (readDataLen : Nat) : List Nat → AliyunStrings → Nat → Prop
  | limit :: limits, block :: blocks, index =>
    index < readDataLen → (buf.getD index 0).toNat ≤ limit →
      (∀ bytes ∈ block, (buf.getD index 0).toNat < bytes.length) ∧
        BlocksFit buf readDataLen limits blocks (index + 1 + (buf.getD index 0).toNat)
  | _, _, _ => True

theorem BlocksFit.of_empty (empty : ∀ block ∈ blocks, block = none) :
    BlocksFit buf readDataLen limits blocks index := by
  induction limits generalizing blocks index with
  | nil => cases blocks <;> trivial
  | cons limit limits ih =>
    cases blocks with
    | nil => trivial
    | cons block blocks =>
      intro _ _
      rw [empty block (.head _)]
      exact ⟨nofun, ih fun other mem => empty other (.tail _ mem)⟩

/-- One field of the walk. -/
theorem parseFields_cons {limit : Nat} {block : Option (List UInt8)} (alloc : (heap 0).AllocOk)
    (more : index < readDataLen) {len : Nat} (size : (buf.getD index 0).toNat = len)
    (within : len ≤ limit) (room : ∀ bytes ∈ block, len < bytes.length)
    (read : Block.read buf (index + 1) len = some field) :
    ∃ bytes, len < bytes.length ∧ bytes.take (field.length + 1) = field ++ [0] ∧
      parseFields heap buf readDataLen (limit :: limits) (block :: blocks) index =
        (parseFields (heap.skip 1) buf readDataLen limits blocks (index + 1 + len)).map
          fun (ret, blocks) => (ret, some bytes :: blocks) := by
  have same := Block.length_read read
  obtain ⟨bytes, found, wide⟩ : ∃ bytes,
      block.or ((heap 0).memoryAlloc (len + 1)) = some bytes ∧ len < bytes.length := by
    cases block with
    | none =>
      rcases alloc.block (len + 1) with ⟨bytes, found, wide⟩
      exact ⟨bytes, found, by omega⟩
    | some bytes => exact ⟨bytes, rfl, room bytes rfl⟩
  obtain ⟨cleared, clears, len₁⟩ := Block.exists_write
    (show 0 + (List.replicate (field.length + 1) (0 : UInt8)).length ≤ bytes.length by
      rw [List.length_replicate]
      omega)
  obtain ⟨copied, copies, len₂⟩ := Block.exists_write
    (show 0 + field.length ≤ cleared.length by omega)
  refine ⟨copied, by omega, Block.take_write_terminated clears copies, ?_⟩
  rw [parseFields, if_pos more]
  dsimp only
  rw [size, if_neg (by omega), found]
  rw [same] at clears
  dsimp only
  rw [clears, Option.bind_eq_bind, Option.bind_some, read, Option.bind_eq_bind, Option.bind_some,
    copies, Option.bind_some]
  cases parseFields (heap.skip 1) buf readDataLen limits blocks (index + 1 + len) <;> rfl

/-- The walk stays inside its buffers, and the blocks have room afterwards. -/
theorem BlocksFit.parseFields (alloc : heap.AllocOk)
    (room : index + (limits.map (· + 1)).sum ≤ buf.length)
    (fit : BlocksFit buf readDataLen limits blocks index) :
    ∃ ret blocks', parseFields heap buf readDataLen limits blocks index = some (ret, blocks') ∧
      blocks'.length = blocks.length ∧ BlocksFit buf readDataLen limits blocks' index := by
  induction limits generalizing heap blocks index with
  | nil => exact ⟨0, blocks, by cases blocks <;> rfl, rfl, by cases blocks <;> trivial⟩
  | cons limit limits ih =>
    cases blocks with
    | nil => exact ⟨0, [], rfl, rfl, trivial⟩
    | cons block blocks =>
      by_cases more : index < readDataLen
      · by_cases within : (buf.getD index 0).toNat ≤ limit
        · rcases fit more within with ⟨wide, rest⟩
          rw [List.map_cons, List.sum_cons] at room
          rcases parseFields_cons (alloc 0) more rfl within wide
            (Block.read_of_le (by omega)) with ⟨bytes, wide', -, parsed⟩
          rcases ih (alloc.skip 1) (by omega) rest with ⟨ret, blocks', parsed', count, fit'⟩
          refine ⟨ret, some bytes :: blocks', ?_, ?_, fun _ _ => ⟨?_, fit'⟩⟩
          · rw [parsed, parsed']
            rfl
          · rw [List.length_cons, List.length_cons, count]
          · rintro _ ⟨⟩
            exact wide'
        · refine ⟨-1, block :: blocks, ?_, rfl, fit⟩
          rw [Tr6260.parseFields, if_pos more]
          dsimp only
          rw [if_pos (by omega)]
      · refine ⟨0, block :: blocks, ?_, rfl, fit⟩
        rw [Tr6260.parseFields, if_neg more]

/-- Blocks that have room for the fields of a licence. -/
theorem FieldsFit.blocksFit (fit : FieldsFit fields blocks)
    (within : List.Forall₂ (fun field limit => field.length ≤ limit) fields limits)
    (small : ∀ limit ∈ limits, limit < 256) (there : FieldsAt buf index fields) :
    BlocksFit buf readDataLen limits blocks index := by
  induction fit generalizing limits index with
  | nil =>
    cases within
    trivial
  | @cons field block fields blocks room rest ih =>
    cases within with
    | @cons _ limit _ limits bound within =>
      intro _ _
      rw [there.len (Nat.lt_of_le_of_lt bound (small limit (.head _)))]
      exact ⟨room, ih within (fun limit mem => small limit (.tail _ mem)) there.next⟩

/-- The walk over the record of a licence. -/
theorem BlocksFit.parse_licence (alloc : heap.AllocOk)
    (within : List.Forall₂ (fun field limit => field.length ≤ limit) fields limits)
    (small : ∀ limit ∈ limits, limit < 256) (count : blocks.length = fields.length)
    (there : FieldsAt buf index fields)
    (fit : BlocksFit buf (index + (encodeFields fields).length) limits blocks index) :
    ∃ blocks', Tr6260.parseFields heap buf (index + (encodeFields fields).length) limits blocks
      index = some (0, blocks') ∧ List.Forall₂ HoldsField fields blocks' := by
  induction within generalizing heap blocks index with
  | nil =>
    cases blocks with
    | nil => exact ⟨[], rfl, .nil⟩
    | cons block blocks => cases count
  | @cons field limit fields limits bound within ih =>
    cases blocks with
    | nil => cases count
    | cons block blocks =>
      have size := there.len (Nat.lt_of_le_of_lt bound (small limit (.head _)))
      have total : index + (encodeFields (field :: fields)).length =
          index + 1 + field.length + (encodeFields fields).length := by
        rw [encodeFields_cons, List.length_append, prefixed, List.length_cons]
        omega
      rw [total] at fit ⊢
      have more : index < index + 1 + field.length + (encodeFields fields).length := by omega
      rcases fit more (size.symm ▸ bound) with ⟨room, rest⟩
      rw [size] at room rest
      rcases parseFields_cons (alloc 0) more size bound room there.read with
        ⟨bytes, -, text, parsed⟩
      rcases ih (alloc.skip 1)
        (fun limit mem => small limit (.tail _ mem)) (Nat.succ.inj count) there.next rest with
        ⟨blocks', parsed', held⟩
      refine ⟨some bytes :: blocks', ?_, .cons ⟨bytes, rfl, text⟩ held⟩
      rw [parsed, parsed']
      rfl

end Walk

/-! ## One call -/

section Calls

variable {board : Board} {heap : Heap} {m : ByteMem} {strings : AliyunStrings}
  {record : List UInt8}

/-- A write is refused and changes nothing, or what passes the checks is stored. -/
theorem yaWriteAliyunCert_cases (result : board.flashWriteResult = 0) (record : List UInt8)
    (m : ByteMem) :
    (∃ ret, ret ≠ 0 ∧ (yaWriteAliyunCert board record record.length).run m = (some ret, m)) ∨
      ∃ m', (yaWriteAliyunCert board record record.length).run m = (some 0, m') ∧
        AliyunPasses record ∧ RecordAt m' yaLicenseAliyuun record := by
  have aligned : yaLicenseAliyuun % spiflashSectorSize = 0 := by decide
  by_cases passes : aliyunFits record record.length [20, 32, 64] 0 = false ∨
      record.length > maxDataLen - 10
  · rw [yaWriteAliyunCert, if_pos passes]
    exact .inl ⟨-1, by decide, rfl⟩
  obtain ⟨ret, m', wrote, run⟩ := yaWriteAliyunCert_run board passes m
  rw [List.take_length] at wrote
  rw [not_or, Bool.not_eq_false, Nat.not_lt] at passes
  rw [run]
  split
  next failed =>
    rw [yaWriteFlash_failed result aligned wrote failed]
    exact .inl ⟨-1, by decide, rfl⟩
  next done =>
    rw [not_not.mp done] at wrote
    rcases yaWriteFlash_accepted wrote with ⟨-, nonempty, -, -, stored⟩
    exact .inr ⟨m', rfl, ⟨List.ne_nil_of_length_pos (Nat.pos_of_ne_zero nonempty), passes.2,
      passes.1⟩, stored⟩

/-- The reader's buffer with a record in it. -/
def aliyunBuf (stored : List UInt8) : List UInt8 :=
  stored ++ List.replicate (aliyunBufLen - stored.length) 0

theorem write_aliyunBuf (short : record.length ≤ aliyunBufLen) :
    Block.write (List.replicate aliyunBufLen 0) 0 record = some (aliyunBuf record) := by
  rw [Block.write_of_le (by rw [List.length_replicate]; omega), List.take_zero, List.nil_append,
    Nat.zero_add, List.drop_replicate, aliyunBuf]

theorem length_aliyunBuf (short : record.length ≤ aliyunBufLen) :
    (aliyunBuf record).length = aliyunBufLen := by
  rw [aliyunBuf, List.length_append, List.length_replicate]
  omega

/-- A read fails at once, or walks over the record there is. -/
theorem yaReadParseAliyunCert_cases (alloc : heap.AllocOk) (strings : AliyunStrings) (m : ByteMem) :
    (yaReadParseAliyunCert heap strings).run m = (some (-1, strings), m) ∨
      ∃ stored, RecordAt m yaLicenseAliyuun stored ∧ stored.length ≤ aliyunBufLen ∧
        (yaReadParseAliyunCert heap strings).run m =
          (parseFields (heap.skip 2) (aliyunBuf stored) stored.length aliyunLimits strings 0, m) := by
  rcases (alloc 0).block aliyunBufLen with ⟨block, buffer, -⟩
  rw [yaReadParseAliyunCert, buffer]
  dsimp only
  rw [run_bind]
  cases found : (yaReadFlashWithVarLen (heap 1) yaLicenseAliyuun aliyunBufLen 1).run m with
  | mk read m' =>
    have same : ((yaReadFlashWithVarLen (heap 1) yaLicenseAliyuun aliyunBufLen 1).run m).2 = m :=
      (readFlashRecord_readOnly (heap 1) yaLicenseAliyuun aliyunBufLen 1 _).run m
    rw [found] at same
    subst same
    cases read with
    | none => exact .inl rfl
    | some stored =>
      rcases yaReadFlashWithVarLen_found found with ⟨-, there, short⟩
      dsimp only
      split
      next => exact .inl rfl
      next =>
        refine .inr ⟨stored, there, short, ?_⟩
        rw [write_aliyunBuf short]
        rfl

/-- A read of a record that is there. -/
theorem yaReadParseAliyunCert_stored (alloc : heap.AllocOk)
    (stored : RecordAt m yaLicenseAliyuun record) (nonempty : record ≠ [])
    (short : record.length ≤ aliyunBufLen) (strings : AliyunStrings) :
    (yaReadParseAliyunCert heap strings).run m =
      (parseFields (heap.skip 2) (aliyunBuf record) record.length aliyunLimits strings 0, m) := by
  rcases (alloc 0).block aliyunBufLen with ⟨block, buffer, -⟩
  rw [yaReadParseAliyunCert, buffer]
  dsimp only
  have small : record.length ≤ maxDataLen - 10 := Nat.le_trans short (by decide)
  rw [run_bind, yaReadFlashWithVarLen_memory (heap 1) stored
    (Nat.lt_of_le_of_lt short (by decide)) (by decide) (by decide) (by decide),
    if_pos ⟨⟨small, short⟩, alloc 1 _⟩]
  dsimp only
  rw [if_neg (fun empty => nonempty (List.length_eq_zero_iff.mp empty)), write_aliyunBuf short]
  rfl

end Calls

/-! ## Histories of calls -/

theorem AliyunLicence.length_fields (licence : AliyunLicence) : licence.fields.length = 3 :=
  licence.within.length_eq

theorem AliyunLicence.length_encode (licence : AliyunLicence) :
    3 ≤ licence.encode.length ∧ licence.encode.length ≤ aliyunBufLen := by
  rcases licence with ⟨fields, within⟩
  rcases within with _ | ⟨first, _ | ⟨second, _ | ⟨third, _ | _⟩⟩⟩
  rw [AliyunLicence.encode, encodeFields_cons, encodeFields_cons, encodeFields_cons, aliyunBufLen]
  simp only [encodeFields, List.map_nil, List.flatten_nil, List.append_nil, prefixed,
    List.length_append, List.length_cons]
  omega

theorem AliyunLicence.fieldsAt (licence : AliyunLicence) :
    FieldsAt (aliyunBuf licence.encode) 0 licence.fields :=
  ⟨[], _, rfl, rfl⟩

theorem aliyunLimits_small : ∀ limit ∈ aliyunLimits, limit < 256 := by decide

/-- There are three strings, with room for the fields of the record there is, and the record is the
licence accepted last. -/
structure AliyunState.Matches (s : AliyunState) (last : Option (List UInt8)) : Prop where
  count : s.strings.length = 3
  fit : ∀ stored, RecordAt s.flash yaLicenseAliyuun stored → stored.length ≤ aliyunBufLen →
    BlocksFit (aliyunBuf stored) stored.length aliyunLimits s.strings 0
  stored : ∀ record, last = some record → RecordAt s.flash yaLicenseAliyuun record ∧
    ∃ licence : AliyunLicence, record = licence.encode

section Histories

variable {s s' : AliyunState} {last : Option (List UInt8)} {board : Board} {heap : Heap}
  {record : List UInt8}

/-- A write keeps what the flash and the strings hold together. -/
theorem AliyunState.Matches.write (ok : s.Matches last) (met : s.Orderly (.write board record)) :
    (∃ ret, ret ≠ 0 ∧ s.step (.write board record) = some (ret, s)) ∨
      ∃ s', s.step (.write board record) = some (0, s') ∧ s'.Matches (some record) := by
  rcases met with ⟨result, sound⟩
  rcases yaWriteAliyunCert_cases result record s.flash with
    ⟨ret, failed, run⟩ | ⟨m', run, passes, there⟩
  · refine .inl ⟨ret, failed, ?_⟩
    rw [AliyunState.step, run]
    rfl
  · rcases sound passes with ⟨licence, rfl, fits⟩
    refine .inr ⟨⟨m', s.strings⟩, ?_, ok.count, fun stored there' short => ?_, ?_⟩
    · rw [AliyunState.step, run]
      rfl
    · have same := there'.unique there (Nat.lt_of_le_of_lt short (by decide))
        (Nat.lt_of_le_of_lt passes.2.1 (by decide))
      rw [same]
      exact fits.blocksFit licence.within aliyunLimits_small licence.fieldsAt
    · rintro _ ⟨⟩
      exact ⟨there, licence, rfl⟩

theorem AliyunState.Matches.accepted (ok : s.Matches last) (met : s.Orderly (.write board record))
    (moved : s.step (.write board record) = some (0, s')) : s'.Matches (some record) := by
  rcases ok.write met with ⟨ret, failed, step⟩ | ⟨s'', step, ok'⟩
  · rw [step] at moved
    cases moved
    exact absurd rfl failed
  · rw [step] at moved
    cases moved
    exact ok'

theorem AliyunState.Matches.refused (ok : s.Matches last) (met : s.Orderly (.write board record))
    {ret : Int} (moved : s.step (.write board record) = some (ret, s')) (failed : ret ≠ 0) :
    s' = s := by
  rcases ok.write met with ⟨ret', -, step⟩ | ⟨s'', step, -⟩
  · rw [step] at moved
    cases moved
    rfl
  · rw [step] at moved
    cases moved
    exact absurd rfl failed

/-- A read keeps it too. -/
theorem AliyunState.Matches.read (ok : s.Matches last) (alloc : heap.AllocOk) :
    ∃ ret s', s.step (.readParse heap) = some (ret, s') ∧ s'.Matches last := by
  rcases yaReadParseAliyunCert_cases alloc s.strings s.flash with run | ⟨stored, there, short, run⟩
  · refine ⟨-1, s, ?_, ok⟩
    rw [AliyunState.step, run]
    rfl
  · rcases (ok.fit stored there short).parseFields
      (alloc.skip 2) (by rw [length_aliyunBuf short]; decide) with
      ⟨ret, strings, parsed, count, fit⟩
    rw [parsed] at run
    refine ⟨ret, ⟨s.flash, strings⟩, ?_, count.trans ok.count, fun stored' there' short' => ?_,
      ok.stored⟩
    · rw [AliyunState.step, run]
      rfl
    · rw [there'.unique there (Nat.lt_of_le_of_lt short' (by decide))
        (Nat.lt_of_le_of_lt short (by decide))]
      exact fit

theorem AliyunRun.matches_last (run : AliyunRun AliyunState.Orderly s last) : s.Matches last := by
  induction run with
  | start flash =>
    have empty : ∀ block ∈ [none, none, none], block = (none : Option (List UInt8)) := by decide
    exact ⟨rfl, fun stored _ _ => .of_empty empty, nofun⟩
  | accepted run met moved ok => exact ok.accepted met moved
  | refused run met moved failed ok =>
    rw [ok.refused met moved failed]
    exact ok
  | read run met moved ok =>
    rcases ok.read met with ⟨ret, s', step, ok'⟩
    rw [step] at moved
    cases moved
    exact ok'

/-- While every call is in order, what is accepted is a licence and the next read gives it. -/
theorem aliyunLicence_kept (run : AliyunRun AliyunState.Orderly s last) :
    s.Kept AliyunState.Orderly last := by
  have ok := run.matches_last
  refine ⟨fun board record s' met moved => ?_, fun call met outside => ?_,
    fun heap record met accepted => ?_⟩
  · exact ((ok.accepted met moved).stored record rfl).2
  · cases call with
    | write board record =>
      rcases ok.write met with ⟨ret, -, step⟩ | ⟨s', step, -⟩
      · rw [step] at outside
        cases outside
      · rw [step] at outside
        cases outside
    | readParse heap =>
      rcases ok.read met with ⟨ret, s', step, -⟩
      rw [step] at outside
      cases outside
  · rcases ok.stored record accepted with ⟨there, licence, rfl⟩
    rcases licence.length_encode with ⟨long, short⟩
    have fit := ok.fit _ there short
    have read := yaReadParseAliyunCert_stored met there (List.ne_nil_of_length_pos (by omega)) short
      s.strings
    rcases BlocksFit.parse_licence (met.skip 2) licence.within
      aliyunLimits_small (ok.count.trans licence.length_fields.symm) licence.fieldsAt
      (by rw [Nat.zero_add]; exact fit) with ⟨strings, parsed, held⟩
    rw [Nat.zero_add, ← AliyunLicence.encode] at parsed
    refine ⟨licence, ⟨s.flash, strings⟩, rfl, ?_, held⟩
    rw [AliyunState.step, read]
    dsimp only
    rw [parsed]
    rfl

end Histories

/-- A licence with fields of one, two and three bytes. -/
def AliyunLicence.sample : AliyunLicence where
  fields := [[0x41], [0x42, 0x43], [0x44, 0x45, 0x46]]
  within := .cons (by decide) (.cons (by decide) (.cons (by decide) .nil))

/-- A licence is written to an empty flash. -/
theorem aliyunLicence_kept_sample : ∃ s : AliyunState,
    AliyunRun AliyunState.Orderly s (some AliyunLicence.sample.encode) ∧
      s.Kept AliyunState.Orderly (some AliyunLicence.sample.encode) := by
  have met : AliyunState.Orderly ⟨fun _ => 0xFF, [none, none, none]⟩
      (.write .zeroed AliyunLicence.sample.encode) :=
    ⟨rfl, fun _ => ⟨.sample, rfl, .cons nofun (.cons nofun (.cons nofun .nil))⟩⟩
  have run := AliyunRun.accepted (.start fun _ => 0xFF) met rfl
  exact ⟨_, run, aliyunLicence_kept run⟩

/-- One byte, the length of a field that is not there, is accepted. -/
theorem aliyunLicence_truncated : ¬ ∀ (s : AliyunState) (last : Option (List UInt8)),
    AliyunRun (fun _ _ => True) s last → s.Kept (fun _ _ => True) last := by
  intro kept
  rcases (kept _ _ (.start fun _ => 0xFF)).complete .zeroed [0x14] _ trivial rfl with
    ⟨licence, same⟩
  have long := licence.length_encode.1
  rw [← same] at long
  exact absurd long (by decide)

end Tr6260
