import Tr6260.Softap.Datagram

/-!
# The configuration of the router

`ya_softap_apconfig_cmd` checks four members and stores them, the last conversion without a look at
what it returns.
-/

namespace Tr6260

namespace Softap

/-- Twelve hexadecimal digits. -/
def BssidDigits (bssid : CString) : Prop :=
  bssid.strlen = 12 ∧ ∀ c ∈ bssid.1, (hexValue c).isSome = true

instance (bssid : CString) : Decidable (BssidDigits bssid) :=
  inferInstanceAs (Decidable (_ ∧ _))

/-- The bytes that pairs of digits stand for. -/
def hexBytes : List UInt8 → List UInt8
  | high :: low :: digits =>
    (16 * (hexValue high).getD 0 + (hexValue low).getD 0) :: hexBytes digits
  | _ => []

/-- A request with everything that a configuration needs. -/
structure ValidRequest (object : CJson) (ssid password bssid random : CString) : Prop where
  hasSsid : object.getObjectItem (CString.ascii ['S', 's', 'i', 'd']) = some (.string ssid)
  ssid_le : ssid.strlen ≤ 32
  hasPassword : object.getObjectItem (CString.ascii ['P', 'a', 's', 's', 'w', 'o', 'r', 'd']) =
    some (.string password)
  password_le : password.strlen ≤ 64
  hasBssid : object.getObjectItem (CString.ascii ['B', 's', 's', 'i', 'd']) = some (.string bssid)
  digits : BssidDigits bssid
  hasRandom : object.getObjectItem (CString.ascii ['R', 'a', 'n', 'd', 'o', 'm']) =
    some (.string random)
  random_le : random.strlen ≤ 32

/-- The parameters are the values, and the cloud is that of before. -/
structure RouterPara.Holds (para before : RouterPara) (ssid password bssid random : CString) :
    Prop where
  ssid : CString.ofBytes para.routerSsid.1 = ssid
  password : CString.ofBytes para.routerPwd.1 = password
  bssid : para.routerBssid.1 = hexBytes bssid.1
  random : CString.ofBytes para.random.1 = random
  cloudType : para.cloudType = before.cloudType

/-- The answer with a code. -/
def codeReply (code : CString) : Reply := ⟨0x8003, CJson.printObject (codeMembers code)⟩

/-- All or nothing. -/
def AllOrNothing (object : CJson) (before : RouterPara) (result : CmdResult) : Prop :=
  (∃ ssid password bssid random, ValidRequest object ssid password bssid random ∧
      result.reply = some (codeReply (.lit ['0'])) ∧ result.finish = some result.routerPara ∧
      result.routerPara.Holds before ssid password bssid random) ∨
    (¬ ∃ ssid password bssid random, ValidRequest object ssid password bssid random) ∧
      result.reply = some (codeReply (.lit ['1'])) ∧ result.finish = none ∧
      result.routerPara = before

/-- There is memory for an answer with one member. -/
structure ReplyMemory.Full (memory : ReplyMemory) : Prop where
  object : memory.object = true
  item : memory.item 0 = true
  strings : memory.strings = true
  text : memory.text = true
  cipher : memory.cipher = true

/-! ## Answers -/

section Answers

variable {env : SoftapEnv} {memory : ReplyMemory} {s : SoftapState}

theorem softapFeedbackEncryptPack_value (cmd : UInt16) {text : List UInt8}
    (cipher : memory.cipher = true) (short : text.length + 41 ≤ softapBufSize) :
    (softapFeedbackEncryptPack env memory s cmd text).value = some ⟨cmd, text⟩ := by
  have bufSize : softapBufSize = 2048 := rfl
  have blockSize : aesBlockSize = 16 := rfl
  have whole : text.take (text.length % 2 ^ 16) = text := by
    rw [Nat.mod_eq_of_lt (by omega), List.take_length]
  have padded := paddedLength_le text.length
  unfold softapFeedbackEncryptPack
  dsimp only
  rw [whole, cipher, Traced.value_bind, Traced.value_touch, Option.bind_some, Traced.value_bind,
    Traced.value_ofOption, aesCbcPkcs5PaddingEncrypt_eq _ _ _ (by omega), Option.bind_some]
  rfl

theorem softapFeedbackEncryptPack_reply {cmd : UInt16} {text : List UInt8} {reply : Reply}
    (packed : (softapFeedbackEncryptPack env memory s cmd text).value = some reply) :
    memory.cipher = true ∧ reply = ⟨cmd, text⟩ := by
  unfold softapFeedbackEncryptPack at packed
  dsimp only at packed
  rw [Traced.value_bind, Traced.value_touch, Option.bind_some, Traced.value_bind,
    Traced.value_ofOption] at packed
  rcases Option.bind_eq_some_iff.mp packed with ⟨⟨n, ciphertext⟩, encrypted, rest⟩
  refine ⟨?_, (Option.some.inj rest).symm⟩
  by_contra none
  unfold aesCbcPkcs5PaddingEncrypt at encrypted
  dsimp only at encrypted
  rw [if_pos (.inl ((Bool.not_eq_true _).mp none))] at encrypted
  cases encrypted

theorem answer_code (code : CString) (one : code.strlen ≤ 1) (full : memory.Full) :
    (answer env memory s 0x8003 (codeMembers code)).value = some (some (codeReply code)) := by
  have text : replyText memory (codeMembers code) =
      some (some (CJson.printObject (codeMembers code))) := by
    unfold replyText codeMembers
    simp [full.object, full.item, full.strings, full.text]
  have short := codeMembers_bound one
  have le := length_replyText_le text
  unfold answer
  rw [Traced.value_bind, Traced.value_ofOption, text, Option.bind_some]
  dsimp only
  rw [Traced.value_bind, softapFeedbackEncryptPack_value _ full.cipher (by omega)]
  rfl

/-- Without the memory there is no answer with a code. -/
theorem answer_code_full {code code' : CString}
    (answered : (answer env memory s 0x8003 (codeMembers code)).value =
      some (some (codeReply code'))) : memory.Full := by
  unfold answer at answered
  rw [Traced.value_bind, Traced.value_ofOption] at answered
  rcases Option.bind_eq_some_iff.mp answered with ⟨text, printed, rest⟩
  cases text with
  | none => cases rest
  | some text =>
    dsimp only at rest
    rw [Traced.value_bind] at rest
    rcases Option.bind_eq_some_iff.mp rest with ⟨reply, packed, same⟩
    rcases softapFeedbackEncryptPack_reply packed with ⟨cipher, rfl⟩
    have sent : text = CJson.printObject (codeMembers code') :=
      congrArg Reply.text (Option.some.inj (Option.some.inj same))
    unfold replyText codeMembers at printed
    dsimp only at printed
    split at printed
    · cases printed
    next object =>
    split at printed
    · cases printed
    next strings =>
    split at printed
    · cases printed
    next texts =>
    have item : memory.item 0 = true := by
      by_contra none
      have empty : ([(CString.lit ['C', 'o', 'd', 'e'], code)].zipIdx.filter fun member =>
          memory.item member.2) = [] := by
        simp [none]
      rw [empty] at printed
      cases printed
      -- a closing brace where the name would start
      have second : some (0x7D : UInt8) = some 0x22 := congrArg (fun text => text[1]?) sent
      exact absurd second (by decide)
    have added : ([(CString.lit ['C', 'o', 'd', 'e'], code)].zipIdx.filter fun member =>
        memory.item member.2).map Prod.fst ≠ [] := by
      simp [item]
    exact ⟨(Bool.not_eq_false _).mp object, item,
      (Bool.not_eq_false _).mp fun none => strings ⟨added, none⟩, (Bool.not_eq_false _).mp texts,
      cipher⟩

end Answers

/-! ## Stored values -/

section Stored

/-- A text that fits is what the array holds afterwards. -/
theorem strcpyInto_fits {n : Nat} (block : Block n) {src : CString} (fits : src.strlen < n) :
    ∃ copied, strcpyInto block src = some copied ∧ CString.ofBytes copied.1 = src := by
  have copied : CString.strcpy block.1 src =
      some (src.1 ++ 0 :: block.1.drop (src.strlen + 1)) := if_pos (block.2.symm ▸ fits)
  unfold strcpyInto
  split
  case h_1 none =>
    rw [copied] at none
    cases none
  case h_2 bytes taken =>
    cases copied.symm.trans taken
    exact ⟨_, rfl, CString.ofBytes_append src _⟩

theorem shift_eq_mul (v : UInt8) : v <<< 4 = 16 * v := by
  have shift : (v <<< 4).toNat = v.toNat <<< 4 % 2 ^ 8 := UInt8.toNat_shiftLeft v 4
  refine UInt8.toNat_inj.mp ?_
  rw [shift, Nat.shiftLeft_eq, UInt8.toNat_mul, Nat.mul_comm]
  rfl

theorem set_append_cons (front old : List UInt8) (o b : UInt8) :
    (front ++ o :: old).set front.length b = front ++ b :: old := by
  rw [List.set_append_right _ _ (Nat.le_refl _), Nat.sub_self, List.set_cons_zero]

/-- The loop over the rest of the digits, with the bytes in `front` stored. -/
theorem hexLoop_pairs {digits old : List UInt8} (front : List UInt8)
    (length : digits.length = 2 * old.length)
    (hex : ∀ c ∈ digits, (hexValue c).isSome = true) :
    hexLoop (front ++ old) digits (2 * front.length) front.length =
      (((front.length + old.length : Nat) : Int), front ++ hexBytes digits) := by
  induction old generalizing digits front with
  | nil =>
    obtain rfl := List.length_eq_zero_iff.mp length
    rw [hexLoop]
    rfl
  | cons o old ih =>
    rcases digits with _ | ⟨high, _ | ⟨low, digits⟩⟩
    · cases length
    · simp only [List.length_cons, List.length_nil] at length
      omega
    rcases Option.isSome_iff_exists.mp (hex high (.head _)) with ⟨v, highValue⟩
    rcases Option.isSome_iff_exists.mp (hex low (.tail _ (.head _))) with ⟨w, lowValue⟩
    have even : 2 * front.length % 2 = 0 := Nat.mul_mod_right _ _
    have odd : ¬ (2 * front.length + 1) % 2 = 0 := by omega
    have stored : (front ++ v <<< 4 :: old).getD front.length 0 = v <<< 4 := by
      rw [List.getD_eq_getElem?_getD, List.getElem?_append_right (Nat.le_refl _), Nat.sub_self]
      rfl
    have fewer : digits.length = 2 * old.length := by
      simp only [List.length_cons] at length
      omega
    have count : front.length + (old.length + 1) = front.length + 1 + old.length := by omega
    have rest := ih (front ++ [v <<< 4 + w]) fewer
      fun c mem => hex c (.tail _ (.tail _ mem))
    rw [List.length_append, List.length_singleton, List.append_assoc, List.append_assoc,
      Nat.mul_succ] at rest
    rw [hexLoop, highValue]
    dsimp only
    rw [if_pos even, set_append_cons, hexLoop, lowValue]
    dsimp only
    rw [if_neg odd, stored, set_append_cons, hexBytes, highValue, lowValue, Option.getD_some,
      Option.getD_some, ← shift_eq_mul, List.length_cons, count]
    exact rest

theorem hexInto_digits (block : Block 6) {bssid : CString} (digits : BssidDigits bssid) :
    (hexInto block bssid).1 = hexBytes bssid.1 := by
  rcases digits with ⟨twelve, hex⟩
  have length : bssid.1.length = 2 * block.1.length := twelve.trans (by rw [block.2])
  have pairs := hexLoop_pairs [] length hex
  have total : bssid.strlen % 65536 = 12 := by rw [twelve]
  change (if 2 * block.1.length < bssid.strlen % 65536 then (-1, block.1)
    else hexLoop block.1 (bssid.1.take (bssid.strlen % 65536)) 0 0).2 = _
  rw [total, block.2, if_neg (by decide), List.take_of_length_le (Nat.le_of_eq twelve)]
  exact congrArg Prod.snd pairs

theorem storeRouterPara_fits (para : RouterPara) {ssid password bssid random : CString}
    (ssidFits : ssid.strlen ≤ 32) (passwordFits : password.strlen ≤ 64)
    (randomFits : random.strlen ≤ 32) :
    ∃ stored, storeRouterPara para ssid password bssid random = some stored ∧
      (BssidDigits bssid → stored.Holds para ssid password bssid random) := by
  rcases strcpyInto_fits para.routerSsid (Nat.lt_succ_of_le ssidFits) with
    ⟨routerSsid, ssidCopied, ssidHeld⟩
  rcases strcpyInto_fits para.routerPwd (Nat.lt_succ_of_le passwordFits) with
    ⟨routerPwd, passwordCopied, passwordHeld⟩
  rcases strcpyInto_fits para.random (Nat.lt_succ_of_le randomFits) with
    ⟨stored, randomCopied, randomHeld⟩
  refine ⟨⟨routerSsid, routerPwd, hexInto para.routerBssid bssid, stored, para.cloudType⟩, ?_,
    fun digits => ⟨ssidHeld, passwordHeld, hexInto_digits _ digits, randomHeld, rfl⟩⟩
  rw [storeRouterPara, ssidCopied, passwordCopied, randomCopied]
  rfl

theorem textMember_iff {object : CJson} {name : List UInt8} {limit : Nat} {text : CString} :
    textMember object name limit = some text ↔
      object.getObjectItem name = some (.string text) ∧ text.strlen ≤ limit := by
  unfold textMember
  split
  case h_1 item found =>
    rw [found]
    split
    case isTrue long =>
      refine iff_of_false nofun ?_
      rintro ⟨same, short⟩
      cases same
      exact absurd short (Nat.not_le.mpr long)
    case isFalse short =>
      constructor
      · rintro ⟨⟩
        exact ⟨rfl, Nat.not_lt.mp short⟩
      · rintro ⟨same, -⟩
        cases same
        rfl
  case h_2 other => exact iff_of_false nofun fun ⟨found, _⟩ => other _ found

theorem apconfigFields_iff {object : CJson} {ssid password bssid random : CString} :
    apconfigFields object = some (ssid, password, bssid, random) ↔
      textMember object (CString.ascii ['S', 's', 'i', 'd']) 32 = some ssid ∧
      textMember object (CString.ascii ['P', 'a', 's', 's', 'w', 'o', 'r', 'd']) 64 =
        some password ∧
      textMember object (CString.ascii ['B', 's', 's', 'i', 'd']) 12 = some bssid ∧
      textMember object (CString.ascii ['R', 'a', 'n', 'd', 'o', 'm']) 32 = some random := by
  unfold apconfigFields
  simp only [Option.bind_eq_bind, Option.bind_eq_some_iff, Option.some.injEq, Prod.mk.injEq]
  constructor
  · rintro ⟨_, first, _, second, _, third, _, fourth, rfl, rfl, rfl, rfl⟩
    exact ⟨first, second, third, fourth⟩
  · rintro ⟨first, second, third, fourth⟩
    exact ⟨_, first, _, second, _, third, _, fourth, rfl, rfl, rfl, rfl⟩

/-- A valid request is one that passes the checks and has an address. -/
theorem validRequest_iff {object : CJson} {ssid password bssid random : CString} :
    ValidRequest object ssid password bssid random ↔
      apconfigFields object = some (ssid, password, bssid, random) ∧ BssidDigits bssid := by
  rw [apconfigFields_iff, textMember_iff, textMember_iff, textMember_iff, textMember_iff]
  constructor
  · intro valid
    exact ⟨⟨⟨valid.hasSsid, valid.ssid_le⟩, ⟨valid.hasPassword, valid.password_le⟩,
      ⟨valid.hasBssid, valid.digits.1.le⟩, ⟨valid.hasRandom, valid.random_le⟩⟩, valid.digits⟩
  · rintro ⟨⟨⟨hasSsid, ssid_le⟩, ⟨hasPassword, password_le⟩, ⟨hasBssid, -⟩, hasRandom, random_le⟩,
      digits⟩
    exact ⟨hasSsid, ssid_le, hasPassword, password_le, hasBssid, digits, hasRandom, random_le⟩

end Stored

section Apconfig

variable {env : SoftapEnv} {memory : ReplyMemory} {s : SoftapState} {object : CJson}

/-- The command with the fields it asks for. -/
theorem yaSoftapApconfigCmd_some (env : SoftapEnv) (memory : ReplyMemory) (s : SoftapState)
    {ssid password bssid random : CString}
    (fields : apconfigFields object = some (ssid, password, bssid, random)) :
    ∃ stored, (BssidDigits bssid → stored.Holds s.routerPara ssid password bssid random) ∧
      (yaSoftapApconfigCmd env memory s object).value =
        (answer env memory s 0x8003 (codeMembers (.lit ['0']))).value.map fun reply =>
          if reply.isSome then ⟨1, stored, reply, some stored⟩ else ⟨-1, stored, reply, none⟩ := by
  rcases apconfigFields_iff.mp fields with ⟨ssid', password', -, random'⟩
  rcases storeRouterPara_fits s.routerPara (textMember_iff.mp ssid').2
    (textMember_iff.mp password').2 (textMember_iff.mp random').2 with ⟨stored, copied, holds⟩
  refine ⟨stored, holds, ?_⟩
  unfold yaSoftapApconfigCmd
  rw [fields]
  dsimp only
  rw [copied, Traced.value_bind, Traced.value_ofOption, Option.bind_some, Traced.value_bind]
  cases (answer env memory s 0x8003 (codeMembers (.lit ['0']))).value with
  | none => rfl
  | some reply => rfl

/-- The command without one of them. -/
theorem yaSoftapApconfigCmd_none (fields : apconfigFields object = none) :
    (yaSoftapApconfigCmd env memory s object).value =
      (answer env memory s 0x8003 (codeMembers (.lit ['1']))).value.map fun reply =>
        ⟨-1, s.routerPara, reply, none⟩ := by
  unfold yaSoftapApconfigCmd
  rw [fields]
  dsimp only
  rw [Traced.value_bind]
  cases (answer env memory s 0x8003 (codeMembers (.lit ['1']))).value <;> rfl

theorem codeReply_ne : codeReply (.lit ['0']) ≠ codeReply (.lit ['1']) := by decide

/-- The configuration is all or nothing exactly where there is memory for the answer and an address
that passes the checks has twelve digits. -/
theorem allOrNothing_iff (env : SoftapEnv) (memory : ReplyMemory) (s : SoftapState)
    (object : CJson) :
    (∃ result, (yaSoftapApconfigCmd env memory s object).value = some result ∧
        AllOrNothing object s.routerPara result) ↔
      memory.Full ∧ ∀ ssid password bssid random,
        apconfigFields object = some (ssid, password, bssid, random) → BssidDigits bssid := by
  cases fields : apconfigFields object with
  | none =>
    have invalid : ¬ ∃ ssid password bssid random,
        ValidRequest object ssid password bssid random := by
      rintro ⟨ssid, password, bssid, random, valid⟩
      have some_ := (validRequest_iff.mp valid).1
      rw [fields] at some_
      cases some_
    rw [yaSoftapApconfigCmd_none fields]
    constructor
    · rintro ⟨result, ran, ⟨ssid, password, bssid, random, valid, -⟩ | ⟨-, replied, -⟩⟩
      · exact absurd ⟨ssid, password, bssid, random, valid⟩ invalid
      · rcases Option.map_eq_some_iff.mp ran with ⟨reply, answered, rfl⟩
        obtain rfl : reply = some (codeReply (.lit ['1'])) := replied
        exact ⟨answer_code_full answered, nofun⟩
    · rintro ⟨full, -⟩
      rw [answer_code _ (by decide) full]
      exact ⟨_, rfl, .inr ⟨invalid, rfl, rfl, rfl⟩⟩
  | some values =>
    obtain ⟨ssid, password, bssid, random⟩ := values
    rcases yaSoftapApconfigCmd_some env memory s fields with ⟨stored, holds, ran⟩
    rw [ran]
    have answered {result : CmdResult} {code : CString}
        (here : ((answer env memory s 0x8003 (codeMembers (.lit ['0']))).value.map fun reply =>
          if reply.isSome then (⟨1, stored, reply, some stored⟩ : CmdResult)
          else ⟨-1, stored, reply, none⟩) = some result)
        (replied : result.reply = some (codeReply code)) :
        (answer env memory s 0x8003 (codeMembers (.lit ['0']))).value =
          some (some (codeReply code)) := by
      rcases Option.map_eq_some_iff.mp here with ⟨reply, answered, rfl⟩
      rw [answered]
      split at replied <;> exact congrArg some replied
    constructor
    · rintro ⟨result, here, ⟨ssid', password', bssid', random', valid, replied, -⟩ |
        ⟨invalid, replied, -⟩⟩
      · refine ⟨answer_code_full (answered here replied), fun _ _ _ _ same => ?_⟩
        rcases validRequest_iff.mp valid with ⟨fields', digits⟩
        cases same
        cases fields.symm.trans fields'
        exact digits
      · have one := answered here replied
        rw [answer_code _ (by decide) (answer_code_full one)] at one
        exact absurd (Option.some.inj (Option.some.inj one)) codeReply_ne
    · rintro ⟨full, digits⟩
      have digits := digits _ _ _ _ rfl
      rw [answer_code _ (by decide) full]
      exact ⟨_, rfl, .inl ⟨ssid, password, bssid, random, validRequest_iff.mpr ⟨fields, digits⟩,
        rfl, rfl, holds digits⟩⟩

end Apconfig

/-- A request with the address `bssid`. -/
def apconfigOf (bssid : List Char) : CJson := .object [
  (.lit ['S', 's', 'i', 'd'], .string (.lit ['n', 'e', 't'])),
  (.lit ['P', 'a', 's', 's', 'w', 'o', 'r', 'd'], .string (.lit ['p'])),
  (.lit ['B', 's', 's', 'i', 'd'], .string (.lit bssid)),
  (.lit ['R', 'a', 'n', 'd', 'o', 'm'], .string (.lit ['r']))]

/-- Half of an address is stored, and the configuration is taken. -/
theorem allOrNothing_half : ¬ ∃ result,
    (yaSoftapApconfigCmd plainSoftap fullMemory.reply newSoftap
        (apconfigOf ['A', 'B', 'x'])).value = some result ∧
      AllOrNothing (apconfigOf ['A', 'B', 'x']) newSoftap.routerPara result := by
  rintro ⟨result, ran, ⟨ssid, password, bssid, random, valid, -⟩ | ⟨-, -, finish, -⟩⟩
  · have three : (apconfigOf ['A', 'B', 'x']).getObjectItem
        (CString.ascii ['B', 's', 's', 'i', 'd']) = some (.string (.lit ['A', 'B', 'x'])) := rfl
    have same := three.symm.trans valid.hasBssid
    cases same
    exact absurd valid.digits (by decide)
  · have called : (yaSoftapApconfigCmd plainSoftap fullMemory.reply newSoftap
        (apconfigOf ['A', 'B', 'x'])).value.map (fun result => result.finish.isSome) =
        some true := by decide +kernel
    rw [ran, Option.map_some, finish] at called
    cases called

end Softap

end Tr6260
