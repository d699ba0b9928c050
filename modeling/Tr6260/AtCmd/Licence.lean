import Tr6260.AtCmd.Command
import Tr6260.License.Aliyun

/-!
# Storing a licence

What the licence part of a command asks for, and what the handler makes of it. It answers
`RESP_OK` when every part it looks up is there and, for `AWS_CERT`, accepted; whether the
three parts of `ALI_CERT` were written it does not say.
-/

namespace Tr6260

open CString FlashProg

namespace AtCmd

/-! ## What a command asks for -/

/-- The texts of the parts of a licence. -/
def Values (license : CJson) (names : List (List UInt8)) (values : List (List UInt8)) : Prop :=
  List.Forall₂ (fun name value => ∃ item text, license.getObjectItem name = some item ∧
    item.valuestring = some text ∧ text.1 = value) names values

/-- The three parts are a licence, which was accepted and is in the flash. -/
def AliyunWritten (heap : Heap) (license : CJson) (m : ByteMem) : Prop :=
  ∃ (licence : AliyunLicence) (m' : ByteMem), Values license aliyunNames licence.fields ∧
    (yaWriteAliyunCert (heap 0) licence.encode licence.encode.length).run m = (some 0, m') ∧
    RecordAt m' yaLicenseAliyuun licence.encode

/-- The parts are there, and one after the other was accepted and is in the flash. -/
def AwsWritten (cert : CertEnv) (license : CJson) :
    Heap → List (List UInt8 × AwsField) → ByteMem → Prop
  | _, [], _ => True
  | heap, (name, field) :: parts, m =>
    ∃ item value buf m', license.getObjectItem name = some item ∧ item.valuestring = some value ∧
      (field.write cert (heap 0) (value.1 ++ [0]) (UInt16.ofNat value.strlen) field.addr).run m =
        (some (0, buf), m') ∧
      RecordAt m' field.addr value.1 ∧ AwsWritten cert license (heap.skip 1) parts m'

/-- The text asks for a licence of a server. -/
def Asks (env : Env) (json : CString) (server : List UInt8) (license : CJson) : Prop :=
  ∃ root item text, env.parse json = some root ∧ root.getObjectItem serverName = some item ∧
    item.valuestring = some text ∧ text.1 = server ∧ root.getObjectItem licenseName = some license

/-- Every part of the licence of the selected server was accepted and written. -/
def Written (env : Env) (heap : Heap) (m : ByteMem) (json : CString) : Prop :=
  (∃ license, Asks env json cn license ∧ AliyunWritten heap license m) ∨
    ∃ license, Asks env json us license ∧ AwsWritten env.cert license heap awsParts m

/-! ## Which licences the handler can read -/

/-- The parts up to the first one that is missing are texts, and their record fits the buffer. -/
def AliyunLegible (license : CJson) : List (List UInt8) → Nat → Prop
  | [], _ => True
  | name :: names, pos => ∀ item, license.getObjectItem name = some item →
    ∃ value, item.valuestring = some value ∧ pos + 1 + value.strlen ≤ cmdBufferSize ∧
      AliyunLegible license names (pos + 1 + value.strlen)

/-- The parts up to the first one that is missing or refused are texts. -/
def AwsLegible (cert : CertEnv) (license : CJson) :
    Heap → List (List UInt8 × AwsField) → ByteMem → Prop
  | _, [], _ => True
  | heap, (name, field) :: parts, m => ∀ item, license.getObjectItem name = some item →
    ∃ value, item.valuestring = some value ∧ ∀ buf m',
      (field.write cert (heap 0) (value.1 ++ [0]) (UInt16.ofNat value.strlen) field.addr).run m =
        (some (0, buf), m') →
      AwsLegible cert license (heap.skip 1) parts m'

/-- What the handler looks up in a JSON text is text. -/
structure Legible (env : Env) (heap : Heap) (m : ByteMem) (json : CString) : Prop where
  server : ∀ root item, env.parse json = some root → root.getObjectItem serverName = some item →
    item.valuestring.isSome
  aliyun : ∀ license, Asks env json cn license → AliyunLegible license aliyunNames 0
  aws : ∀ license, Asks env json us license → AwsLegible env.cert license heap awsParts m

/-- The three parts of an Aliyun licence keep to their lengths, there is memory for the record, and
`ya_hal_flash_write` happens to return zero. -/
def AliyunStorable (heap : Heap) (values : List (List UInt8)) : Prop :=
  List.Forall₂ (fun value limit => value.length ≤ limit) values aliyunLimits ∧
    ((heap 0).memoryAlloc (recordAllocLen (encodeFields values).length + 4)).isSome ∧
    (heap 0).flashWriteResult = 0

/-- The licence of an Aliyun server, when its three parts are there, can be stored. -/
def Storable (env : Env) (heap : Heap) (json : CString) : Prop :=
  ∀ license values, Asks env json cn license → Values license aliyunNames values →
    AliyunStorable heap values

/-- The three parts of an Aliyun licence are there, or those of an AWS licence were written. -/
def Completed (env : Env) (heap : Heap) (m : ByteMem) (json : CString) : Prop :=
  (∃ license values, Asks env json cn license ∧ Values license aliyunNames values) ∨
    ∃ license, Asks env json us license ∧ AwsWritten env.cert license heap awsParts m

/-! ## The Aliyun licence -/

section Aliyun

variable {license : CJson} {names : List (List UInt8)} {buf : List UInt8} {pos : Nat}

/-- One part of the loop. -/
theorem aliyunLoop_cons (names : List (List UInt8)) (pos : Nat) {name : List UInt8}
    {item : CJson} {value : CString}
    (found : license.getObjectItem name = some item) (text : item.valuestring = some value)
    (size : buf.length = cmdBufferSize) :
    (AliyunLegible license (name :: names) pos ↔ pos + 1 + value.strlen ≤ cmdBufferSize ∧
        AliyunLegible license names (pos + 1 + value.strlen)) ∧
      if pos + 1 + value.strlen ≤ cmdBufferSize then
        ∃ buf', buf'.length = cmdBufferSize ∧
          buf'.take (pos + 1 + value.strlen) = buf.take pos ++ prefixed value.1 ∧
          aliyunLoop license (name :: names) buf pos =
            aliyunLoop license names buf' (pos + 1 + value.strlen)
      else aliyunLoop license (name :: names) buf pos = none := by
  constructor
  · rw [AliyunLegible, found]
    constructor
    · intro all
      rcases all item rfl with ⟨value', there, rest⟩
      rw [text] at there
      cases there
      exact rest
    · rintro rest _ ⟨⟩
      exact ⟨value, text, rest⟩
  · rw [aliyunLoop, found]
    dsimp only
    rw [text, Option.bind_eq_bind, Option.bind_some]
    split
    · next room =>
      have first : pos + [UInt8.ofNat value.strlen].length ≤ buf.length := by
        rw [List.length_singleton, size]
        omega
      rcases Block.exists_write first with ⟨buf1, write1, len1⟩
      have second : pos + 1 + value.1.length ≤ buf1.length := by
        rw [len1, size]
        exact room
      rcases Block.exists_write second with ⟨buf2, write2, len2⟩
      refine ⟨buf2, by rw [len2, len1, size], ?_, ?_⟩
      · have front := Block.take_write_end write1
        rw [List.length_singleton] at front
        rw [CString.strlen, Block.take_write_end write2, front, prefixed, List.append_assoc]
        rfl
      · rw [write1, Option.bind_eq_bind, Option.bind_some, write2]
        rfl
    · next full =>
      rcases Option.eq_none_or_eq_some (Block.write buf pos [UInt8.ofNat value.strlen]) with
        out | ⟨buf1, write1⟩
      · rw [out]
        rfl
      · have len1 := Block.length_write write1
        have out : Block.write buf1 (pos + 1) value.1 = none :=
          if_neg (by rw [len1, size]; exact full)
        rw [write1, Option.bind_eq_bind, Option.bind_some, out]
        rfl

/-- The loop leaves the buffer or finds a number, misses a part, or puts the record together. -/
theorem aliyunLoop_spec (license : CJson) (names : List (List UInt8)) (pos : Nat)
    (size : buf.length = cmdBufferSize) :
    (¬ AliyunLegible license names pos ∧ aliyunLoop license names buf pos = none) ∨
    (AliyunLegible license names pos ∧ (∀ values, ¬ Values license names values) ∧
      aliyunLoop license names buf pos = some none) ∨
    (AliyunLegible license names pos ∧ ∃ values buf', Values license names values ∧
      aliyunLoop license names buf pos = some (some (buf', pos + (encodeFields values).length)) ∧
      buf'.take (pos + (encodeFields values).length) = buf.take pos ++ encodeFields values) := by
  induction names generalizing buf pos with
  | nil =>
    refine .inr (.inr ⟨trivial, [], buf, .nil, rfl, ?_⟩)
    rw [encodeFields, List.map_nil, List.flatten_nil, List.append_nil]
    rfl
  | cons name names ih =>
    cases found : license.getObjectItem name with
    | none =>
      refine .inr (.inl ⟨?_, ?_, ?_⟩)
      · intro item there
        rw [found] at there
        cases there
      · rintro _ (_ | ⟨⟨item, text, there, -⟩, -⟩)
        rw [found] at there
        cases there
      · rw [aliyunLoop, found]
    | some item =>
      cases text : item.valuestring with
      | none =>
        refine .inl ⟨fun legible => ?_, ?_⟩
        · rcases legible item found with ⟨value, there, -⟩
          rw [text] at there
          cases there
        · rw [aliyunLoop, found]
          dsimp only
          rw [text]
          rfl
      | some value =>
        rcases aliyunLoop_cons names pos found text size with ⟨legible, loop⟩
        rw [legible]
        by_cases room : pos + 1 + value.strlen ≤ cmdBufferSize
        · rw [if_pos room] at loop
          rcases loop with ⟨buf', size', front, loop⟩
          have total (values : List (List UInt8)) :
              pos + 1 + value.strlen + (encodeFields values).length =
                pos + (encodeFields (value.1 :: values)).length := by
            rw [encodeFields_cons, List.length_append, prefixed, List.length_cons, CString.strlen]
            omega
          rcases ih (pos + 1 + value.strlen) size' with
            ⟨illegible, out⟩ | ⟨rest, missing, out⟩ | ⟨rest, values, buf'', there, out, record⟩
          · exact .inl ⟨fun both => illegible both.2, loop.trans out⟩
          · refine .inr (.inl ⟨⟨room, rest⟩, ?_, loop.trans out⟩)
            rintro _ (_ | ⟨-, later⟩)
            exact missing _ later
          · refine .inr (.inr ⟨⟨room, rest⟩, value.1 :: values, buf'',
              .cons ⟨item, value, found, text, rfl⟩ there, ?_, ?_⟩)
            · rw [loop, out, total]
            · rw [← total, record, front, encodeFields_cons, List.append_assoc]
        · rw [if_neg room] at loop
          exact .inl ⟨fun both => room both.1, loop⟩

theorem Values.unique {values values' : List (List UInt8)} (one : Values license names values)
    (other : Values license names values') : values = values' := by
  induction one generalizing values' with
  | nil => cases other; rfl
  | cons first _ ih =>
    cases other with
    | cons first' rest' =>
      rcases first with ⟨item, text, found, string, rfl⟩
      rcases first' with ⟨item', text', found', string', rfl⟩
      rw [found] at found'
      cases found'
      rw [string] at string'
      cases string'
      rw [ih rest']

/-- Parts whose record fits the buffer. -/
theorem Values.legible {values : List (List UInt8)} (there : Values license names values)
    (room : pos + (encodeFields values).length ≤ cmdBufferSize) :
    AliyunLegible license names pos := by
  induction there generalizing pos with
  | nil => trivial
  | @cons name value names values first _ ih =>
    rcases first with ⟨item, text, found, string, rfl⟩
    rw [encodeFields_cons, List.length_append, prefixed, List.length_cons] at room
    intro item' found'
    cases found.symm.trans found'
    refine ⟨text, string, ?_, ih ?_⟩
    · rw [CString.strlen]
      omega
    · rw [CString.strlen]
      omega

/-- Fields within their limits pass the length checks. -/
theorem FieldsAt.aliyunFits {fields : List (List UInt8)} {limits : List Nat} {index dataLen : Nat}
    (there : FieldsAt buf index fields)
    (within : List.Forall₂ (fun field limit => field.length ≤ limit) fields limits)
    (small : ∀ limit ∈ limits, limit < 256) :
    Tr6260.aliyunFits buf dataLen limits index = true := by
  induction within generalizing index with
  | nil => rfl
  | @cons field limit fields limits bound _ ih =>
    rw [Tr6260.aliyunFits, there.len (Nat.lt_of_le_of_lt bound (small limit List.mem_cons_self))]
    split
    · rw [if_neg (Nat.not_lt.mpr bound)]
      exact ih there.next fun limit' later => small limit' (List.mem_cons_of_mem _ later)
    · rfl

/-- A licence is stored when there is memory, up to the result of `ya_hal_flash_write`. -/
theorem yaWriteAliyunCert_encode (board : Board) (licence : AliyunLicence) (m : ByteMem) :
    (∃ m', (yaWriteAliyunCert board licence.encode licence.encode.length).run m = (some 0, m')) ↔
      (board.memoryAlloc (recordAllocLen licence.encode.length + 4)).isSome ∧
        board.flashWriteResult = 0 := by
  have lengths := licence.length_encode
  have bufLen : aliyunBufLen = 1024 := rfl
  have maxLen : maxDataLen = 4096 := rfl
  have fits : aliyunFits licence.encode licence.encode.length [20, 32, 64] 0 = true :=
    FieldsAt.aliyunFits ⟨[], [], (List.append_nil _).symm, rfl⟩ licence.within aliyunLimits_small
  have passes : ¬ (aliyunFits licence.encode licence.encode.length [20, 32, 64] 0 = false ∨
      licence.encode.length > maxDataLen - 10) := by
    rw [fits]
    rintro (wrong | long)
    · cases wrong
    · omega
  obtain ⟨ret, m1, wrote, run⟩ := yaWriteAliyunCert_run board passes m
  have zero : (∃ m', (yaWriteAliyunCert board licence.encode licence.encode.length).run m =
      (some 0, m')) ↔ ret = 0 := by
    rw [run]
    split
    next failed => exact iff_of_false (by rintro ⟨m', same⟩; cases same) failed
    next done => exact iff_of_true ⟨m1, rfl⟩ (not_not.mp done)
  rw [zero]
  rw [List.take_length] at wrote
  have one : maxDataLen * (1 : UInt8).toNat - 10 = maxDataLen - 10 := by decide
  by_cases memory : (board.memoryAlloc (recordAllocLen licence.encode.length + 4)).isSome
  · rcases yaWriteFlash_memory (by decide : yaLicenseAliyuun % spiflashSectorSize = 0)
      (by decide : (1 : UInt8) ≠ 0) (by omega) (by omega) (by omega) memory m with ⟨m', done, -⟩
    rw [wrote] at done
    have same : ret = board.flashWriteResult := Option.some.inj (Prod.mk.inj done).1
    rw [same]
    exact ⟨fun zero => ⟨memory, zero⟩, And.right⟩
  · have none_ := Option.not_isSome_iff_eq_none.mp memory
    refine iff_of_false ?_ fun both => memory both.1
    unfold yaWriteFlash at wrote
    rw [if_neg (by decide), if_neg (by omega), none_] at wrote
    cases wrote
    decide

/-- The three parts were written exactly when they can be. -/
theorem aliyunWritten_iff {heap : Heap} {m : ByteMem} {values : List (List UInt8)}
    (there : Values license aliyunNames values) :
    AliyunWritten heap license m ↔ AliyunStorable heap values := by
  constructor
  · rintro ⟨licence, m', fields, done, -⟩
    cases fields.unique there
    have stored := (yaWriteAliyunCert_encode (heap 0) licence m).mp ⟨m', done⟩
    exact ⟨licence.within, stored.1, stored.2⟩
  · rintro ⟨within, memory, zero⟩
    rcases (yaWriteAliyunCert_encode (heap 0) ⟨values, within⟩ m).mpr ⟨memory, zero⟩ with ⟨m', done⟩
    refine ⟨⟨values, within⟩, m', there, done, ?_⟩
    by_cases passes : aliyunFits (AliyunLicence.encode ⟨values, within⟩)
        (AliyunLicence.encode ⟨values, within⟩).length [20, 32, 64] 0 = false ∨
        (AliyunLicence.encode ⟨values, within⟩).length > maxDataLen - 10
    · rw [yaWriteAliyunCert, if_pos passes] at done
      cases done
    · obtain ⟨ret, m1, wrote, run⟩ := yaWriteAliyunCert_run (heap 0) passes m
      rw [run] at done
      split at done
      · cases done
      next zero =>
        cases done
        rw [List.take_length, not_not.mp zero] at wrote
        exact (yaWriteFlash_accepted wrote).2.2.2.2

/-- The answer to an Aliyun licence does not depend on the flash. -/
theorem writeAliyunParts_run (heap : Heap) (m : ByteMem) (size : buf.length = cmdBufferSize) :
    ((writeAliyunParts heap license buf).run m).1 = none ∧ ¬ AliyunLegible license aliyunNames 0 ∨
    ((writeAliyunParts heap license buf).run m).1 = some .err ∧
      AliyunLegible license aliyunNames 0 ∧ (∀ values, ¬ Values license aliyunNames values) ∨
    ((writeAliyunParts heap license buf).run m).1 = some .ok ∧
      AliyunLegible license aliyunNames 0 ∧ ∃ values, Values license aliyunNames values := by
  rw [writeAliyunParts]
  rcases aliyunLoop_spec license aliyunNames 0 size with
    ⟨illegible, loop⟩ | ⟨legible, missing, loop⟩ | ⟨legible, values, buf', there, loop, -⟩
  · rw [loop]
    exact .inl ⟨rfl, illegible⟩
  · rw [loop]
    exact .inr (.inl ⟨rfl, legible, missing⟩)
  · rw [loop]
    rcases yaWriteAliyunCert_ends (heap 0) buf' (0 + (encodeFields values).length) m with
      ⟨ret, m', done⟩
    refine .inr (.inr ⟨?_, legible, values, there⟩)
    dsimp only
    rw [run_bind, done]
    rfl

end Aliyun

/-! ## The AWS licence -/

section Aws

variable {cert : CertEnv} {license : CJson} {heap : Heap} {m : ByteMem}

/-- A writer called with a text comes to an end. -/
theorem AwsField.write_ends (field : AwsField) (cert : CertEnv) (board : Board) {value : CString}
    (short : value.strlen < 2 ^ 16) (addr : Nat) (m : ByteMem) :
    ∃ ret buf m', (field.write cert board (value.1 ++ [0]) (UInt16.ofNat value.strlen) addr).run m =
      (some (ret, buf), m') := by
  have dataLen : (UInt16.ofNat value.strlen).toNat = value.1.length :=
    UInt16.toNat_ofNat_of_lt' short
  have plain : ∀ buf : List UInt8, buf.length = value.1.length + 1 → ∃ ret buf' m',
      (writeAwsPara board buf (UInt16.ofNat value.strlen) addr).run m = (some (ret, buf'), m') := by
    intro buf len
    unfold writeAwsPara
    split
    · exact ⟨_, _, _, rfl⟩
    · have inside : 0 + value.1.length ≤ buf.length := by omega
      rw [dataLen, Block.read_of_le inside]
      have piece : ((buf.drop 0).take value.1.length).length < 65532 := by
        have maxLen : maxDataLen = 4096 := rfl
        rw [List.length_take]
        omega
      rcases yaWriteFlash_inside board addr 1 piece m with ⟨ret, m', done⟩
      refine ⟨if ret ≠ 0 then -1 else 0, buf, m', ?_⟩
      dsimp only
      rw [run_bind, done]
      rfl
  have parsed : ∀ kind : CertKind, ∃ ret buf' m', (writeParsedAwsPara cert kind board
      (value.1 ++ [0]) (UInt16.ofNat value.strlen) addr).run m = (some (ret, buf'), m') := by
    intro kind
    have room : value.1.length + [(0 : UInt8)].length ≤ (value.1 ++ [0]).length :=
      List.length_append.ge
    rcases Block.exists_write room with ⟨block, terminated, len⟩
    unfold writeParsedAwsPara
    rw [dataLen, terminated]
    dsimp only
    split
    · exact ⟨_, _, _, rfl⟩
    · exact plain block (by rw [len, List.length_append, List.length_singleton])
  cases field with
  | deviceCert => exact parsed .cert
  | rsaPrivateKey => exact parsed .key
  | deviceId | thingType =>
    exact plain _ (by rw [List.length_append, List.length_singleton])

/-- The parts are written one after the other up to the first one that is missing or refused. -/
theorem writeAwsParts_run {parts : List (List UInt8 × AwsField)}
    (short : ∀ name item value, license.getObjectItem name = some item →
      item.valuestring = some value → value.strlen < 2 ^ 16) :
    ((writeAwsParts cert license heap parts).run m).1 = none ∧
      ¬ AwsLegible cert license heap parts m ∨
    ((writeAwsParts cert license heap parts).run m).1 = some .err ∧
      AwsLegible cert license heap parts m ∧ ¬ AwsWritten cert license heap parts m ∨
    ((writeAwsParts cert license heap parts).run m).1 = some .ok ∧
      AwsLegible cert license heap parts m ∧ AwsWritten cert license heap parts m := by
  induction parts generalizing heap m with
  | nil => exact .inr (.inr ⟨rfl, trivial, trivial⟩)
  | cons part parts ih =>
    rcases part with ⟨name, field⟩
    rw [writeAwsParts]
    cases found : license.getObjectItem name with
    | none =>
      refine .inr (.inl ⟨rfl, ?_, ?_⟩)
      · intro item there
        rw [found] at there
        cases there
      · rintro ⟨item, -, -, -, there, -⟩
        rw [found] at there
        cases there
    | some item =>
      dsimp only
      cases text : item.valuestring with
      | none =>
        refine .inl ⟨rfl, fun legible => ?_⟩
        rcases legible item found with ⟨value, there, -⟩
        rw [text] at there
        cases there
      | some value =>
        have size := short name item value found text
        rcases AwsField.write_ends field cert (heap 0) size field.addr m with ⟨ret, buf, m', done⟩
        dsimp only
        rw [run_bind, done]
        dsimp only
        by_cases accepted : ret = 0
        · subst accepted
          rw [if_neg (not_not.mpr rfl)]
          have record : RecordAt m' field.addr value.1 := by
            have stored := (AwsField.write_accepted done).2.2.2
            rw [UInt16.toNat_ofNat_of_lt' size, CString.strlen, List.take_left] at stored
            exact stored
          have legible : AwsLegible cert license heap ((name, field) :: parts) m ↔
              AwsLegible cert license (heap.skip 1) parts m' := by
            constructor
            · intro all
              rcases all item found with ⟨value', there, rest⟩
              rw [text] at there
              cases there
              exact rest buf m' done
            · intro rest item' there
              rw [found] at there
              cases there
              refine ⟨value, text, fun buf' m'' same => ?_⟩
              rw [done] at same
              cases same
              exact rest
          have written : AwsWritten cert license heap ((name, field) :: parts) m ↔
              AwsWritten cert license (heap.skip 1) parts m' := by
            constructor
            · rintro ⟨item', value', buf', m'', there, text', same, -, rest⟩
              rw [found] at there
              cases there
              rw [text] at text'
              cases text'
              rw [done] at same
              cases same
              exact rest
            · intro rest
              exact ⟨item, value, buf, m', found, text, done, record, rest⟩
          rw [legible, written]
          exact ih
        · rw [if_pos accepted]
          refine .inr (.inl ⟨rfl, ?_, ?_⟩)
          · intro item' there
            rw [found] at there
            cases there
            refine ⟨value, text, fun buf' m'' same => ?_⟩
            rw [done] at same
            cases same
            exact absurd rfl accepted
          · rintro ⟨item', value', buf', m'', there, text', same, -, -⟩
            rw [found] at there
            cases there
            rw [text] at text'
            cases text'
            rw [done] at same
            cases same
            exact accepted rfl

end Aws

/-! ## The whole licence -/

section Licence

variable {env : Env} {heap : Heap} {m : ByteMem} {json : CString}

theorem cn_ne_us : cn ≠ us := by decide

theorem Asks.unique {server server' : List UInt8} {license license' : CJson}
    (one : Asks env json server license) (other : Asks env json server' license') :
    server = server' ∧ license = license' := by
  rcases one with ⟨root, item, text, parsed, found, string, rfl, there⟩
  rcases other with ⟨root', item', text', parsed', found', string', rfl, there'⟩
  cases parsed.symm.trans parsed'
  cases found.symm.trans found'
  cases string.symm.trans string'
  cases there.symm.trans there'
  exact ⟨rfl, rfl⟩

/-- An Aliyun licence whose parts are there has not always been written. -/
theorem completed_iff_written :
    (Completed env heap m json ↔ Written env heap m json) ↔ Storable env heap json := by
  constructor
  · intro same license values asks there
    rcases same.mp (.inl ⟨license, values, asks, there⟩) with
      ⟨license', asks', written⟩ | ⟨license', asks', -⟩
    · cases (asks.unique asks').2
      exact (aliyunWritten_iff there).mp written
    · exact absurd (asks.unique asks').1 cn_ne_us
  · intro storable
    constructor
    · rintro (⟨license, values, asks, there⟩ | written)
      · have stored := storable license values asks there
        exact .inl ⟨license, asks, (aliyunWritten_iff there).mpr stored⟩
      · exact .inr written
    · rintro (⟨license, asks, licence, -, there, -⟩ | written)
      · exact .inl ⟨license, licence.fields, asks, there⟩
      · exact .inr written

/-- The answer to a licence. -/
theorem wrcertLicense_run (env : Env) (heap : Heap) (m : ByteMem) (json : CString)
    {buf : List UInt8} {len : Nat} (size : buf.length = cmdBufferSize)
    (room : len + 1 ≤ cmdBufferSize) (short : json.strlen < 2 ^ 16) :
    ((wrcertLicense env heap buf len json).run m).1 = none ∧ ¬ Legible env heap m json ∨
    ((wrcertLicense env heap buf len json).run m).1 = some .err ∧
      Legible env heap m json ∧ ¬ Completed env heap m json ∨
    ((wrcertLicense env heap buf len json).run m).1 = some .ok ∧
      Legible env heap m json ∧ Completed env heap m json := by
  have nothing : (∀ server license, Asks env json server license → server ≠ cn ∧ server ≠ us) →
      (∀ root item, env.parse json = some root → root.getObjectItem serverName = some item →
        item.valuestring.isSome) →
      Legible env heap m json ∧ ¬ Completed env heap m json := by
    intro other string
    refine ⟨⟨string, ?_, ?_⟩, ?_⟩
    · exact fun license asks => absurd rfl (other cn license asks).1
    · exact fun license asks => absurd rfl (other us license asks).2
    · rintro (⟨license, -, asks, -⟩ | ⟨license, asks, -⟩)
      · exact (other cn license asks).1 rfl
      · exact (other us license asks).2 rfl
  rw [wrcertLicense]
  cases parsed : env.parse json with
  | none =>
    refine .inr (.inl ⟨rfl, nothing ?_ ?_⟩)
    · rintro server license ⟨root, item, text, there, -⟩
      cases parsed.symm.trans there
    · intro root item there
      cases parsed.symm.trans there
  | some root =>
  dsimp only
  cases found : root.getObjectItem serverName with
  | none =>
    refine .inr (.inl ⟨rfl, nothing ?_ ?_⟩)
    · rintro server license ⟨root', item, text, there, found', -⟩
      cases parsed.symm.trans there
      cases found.symm.trans found'
    · intro root' item there found'
      cases parsed.symm.trans there
      cases found.symm.trans found'
  | some item =>
  dsimp only
  cases string : item.valuestring with
  | none =>
    refine .inl ⟨rfl, fun legible => ?_⟩
    have text := legible.server root item parsed found
    rw [string] at text
    cases text
  | some server =>
  have isText : ∀ root item, env.parse json = some root →
      root.getObjectItem serverName = some item → item.valuestring.isSome := by
    intro root' item' there found'
    cases parsed.symm.trans there
    cases found.symm.trans found'
    rw [string]
    rfl
  have asked : ∀ server' license', Asks env json server' license' →
      server' = server.1 ∧ root.getObjectItem licenseName = some license' := by
    rintro server' license' ⟨root', item', text, parsed', found', string', rfl, there⟩
    cases parsed.symm.trans parsed'
    cases found.symm.trans found'
    cases string.symm.trans string'
    exact ⟨rfl, there⟩
  have missing (there : root.getObjectItem licenseName = none) :
      Legible env heap m json ∧ ¬ Completed env heap m json := by
    refine nothing (fun server' license' asks => ?_) isText
    cases there.symm.trans (asked server' license' asks).2
  dsimp only
  split
  · next isCn =>
    cases there : root.getObjectItem licenseName with
    | none => exact .inr (.inl ⟨rfl, missing there⟩)
    | some license =>
      have asks : Asks env json cn license :=
        ⟨root, item, server, parsed, found, string, isCn, there⟩
      have fits : 0 + (List.replicate (len + 1) (0 : UInt8)).length ≤ buf.length := by
        rw [List.length_replicate, size]
        omega
      rcases Block.exists_write fits with ⟨cleared, clear, same⟩
      have legible : Legible env heap m json ↔ AliyunLegible license aliyunNames 0 := by
        constructor
        · intro all
          exact all.aliyun license asks
        · intro one
          refine ⟨isText, fun license' asks' => ?_, fun license' asks' => ?_⟩
          · cases (asks.unique asks').2
            exact one
          · exact absurd (asks.unique asks').1 cn_ne_us
      have completed : Completed env heap m json ↔ ∃ values, Values license aliyunNames values := by
        constructor
        · rintro (⟨license', values, asks', values'⟩ | ⟨license', asks', -⟩)
          · cases (asks.unique asks').2
            exact ⟨values, values'⟩
          · exact absurd (asks.unique asks').1 cn_ne_us
        · rintro ⟨values, values'⟩
          exact .inl ⟨license, values, asks, values'⟩
      rw [legible, completed, not_exists]
      dsimp only
      rw [clear]
      exact writeAliyunParts_run heap m (same.trans size)
  · next notCn =>
    split
    · next isUs =>
      cases there : root.getObjectItem licenseName with
      | none => exact .inr (.inl ⟨rfl, missing there⟩)
      | some license =>
        have asks : Asks env json us license :=
          ⟨root, item, server, parsed, found, string, isUs, there⟩
        have legible : Legible env heap m json ↔
            AwsLegible env.cert license heap awsParts m := by
          constructor
          · intro all
            exact all.aws license asks
          · intro one
            refine ⟨isText, fun license' asks' => ?_, fun license' asks' => ?_⟩
            · exact absurd (asks'.unique asks).1 cn_ne_us
            · cases (asks.unique asks').2
              exact one
        have completed : Completed env heap m json ↔
            AwsWritten env.cert license heap awsParts m := by
          constructor
          · rintro (⟨license', values, asks', -⟩ | ⟨license', asks', written⟩)
            · exact absurd (asks'.unique asks).1 cn_ne_us
            · cases (asks.unique asks').2
              exact written
          · intro written
            exact .inr ⟨license, asks, written⟩
        rw [legible, completed]
        apply writeAwsParts_run
        intro name part value part_ text
        exact Nat.lt_of_le_of_lt (env.parse_short parsed there part_ text) short
    · next notUs =>
      refine .inr (.inl ⟨rfl, nothing (fun server' license' asks => ?_) isText⟩)
      rw [(asked server' license' asks).1]
      exact ⟨notCn, notUs⟩

end Licence

end AtCmd

end Tr6260
