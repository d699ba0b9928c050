import Tr6260.CJson
import Tr6260.CJsonPrint
import Tr6260.Softap.Padding
import Tr6260.Traced

/-!
# Configuration over the access point of the device

`ya_softap_update.c`: the phone sends encrypted JSON in datagrams, and the device answers each with
encrypted JSON from the buffer that it decoded the request into.
-/

namespace Tr6260

namespace Softap

/-! ## State -/

/-- An array of bytes. -/
abbrev Block (n : Nat) := { bytes : List UInt8 // bytes.length = n }

/-- A text in an array that leaves room for it. -/
abbrev TextUpTo (n : Nat) := { s : CString // s.strlen ≤ n }

/-- `strcpy` into an array, which must be large enough. -/
def strcpyInto {n : Nat} (block : Block n) (src : CString) : Option (Block n) :=
  match copied : CString.strcpy block.1 src with
  | none => none
  | some bytes => some ⟨bytes, (CString.length_strcpy copied).trans block.2⟩

/-- `ya_ap_router_para_t`. -/
structure RouterPara where
  routerSsid : Block 33
  routerPwd : Block 65
  routerBssid : Block 6
  random : Block 33
  cloudType : UInt8
  deriving DecidableEq

/-- What a configuration has. The texts are those of the license and of the program. -/
structure SoftapState where
  routerPara : RouterPara
  /-- `init_aes_key_and_iv_flag`. -/
  keyFlag : Bool
  randomData : Vector UInt8 32
  apSsid : CString
  cloudSupportType : UInt8
  alyThingName : Option (TextUpTo 127)
  alyClientId : Option (TextUpTo 127)
  awsThingType : Option (TextUpTo 127)
  awsClientId : Option (TextUpTo 127)
  /-- `ya_int_to_string` of the supported clouds. -/
  wifiCloud : TextUpTo 11
  version : TextUpTo 32

/-- What the code calls: the cipher of a key, the digest, and the parser. -/
structure SoftapEnv where
  aes : AesBlock → AesCbc
  md5 : List UInt8 → AesBlock
  cJsonParse : CString → Option CJson

/-- Which allocations of a reply succeed: the object, its members, their texts, the printed text,
and the text with its padding. -/
structure ReplyMemory where
  object : Bool
  item : Nat → Bool
  strings : Bool
  text : Bool
  cipher : Bool

/-- An access to `ya_softap_rece_buf` or to `ya_softap_decode_buf`. -/
inductive Access
  | readReceived (pos n : Nat)
  | writeDecode (pos n : Nat)

/-- `SOFTAP_BUF_SIZE`. -/
def softapBufSize : Nat := 2 * 1024

/-- `SOFTAP_CONFIG_DATA_POS`. -/
def softapConfigDataPos : Nat := 9

/-! ## Replies -/

/-- `create_aes_key_and_iv`: the key and the vector. -/
def createAesKeyAndIv (env : SoftapEnv) (s : SoftapState) : AesBlock × AesBlock :=
  if s.keyFlag then
    (.ofFn fun i => s.randomData[16 + i.val], .ofFn fun i => s.randomData[i.val])
  else
    let key := env.md5 (s.apSsid.1 ++ CString.ascii ['n', 'm', '1', '2', '3', '#', '#', '&'])
    (key, key)

/-- An answer: the command and the text that is encrypted. -/
structure Reply where
  cmd : UInt16
  text : List UInt8
  deriving DecidableEq

/-- The JSON text of an answer. There is none without memory for the object or for the text, and a
text that is `NULL` cannot be printed. -/
def replyText (memory : ReplyMemory) (members : List (CString × CString)) :
    Option (Option (List UInt8)) :=
  let added := (members.zipIdx.filter fun member => memory.item member.2).map Prod.fst
  if memory.object = false then some none
  else if added ≠ [] ∧ memory.strings = false then none
  else if memory.text = false then some none
  else some (some (CJson.printObject added))

/-- `softap_feedback_encrypt_pack`, and the `sendto` after it. -/
def softapFeedbackEncryptPack (env : SoftapEnv) (memory : ReplyMemory) (s : SoftapState)
    (cmd : UInt16) (text : List UInt8) : Traced Access Reply := do
  .touch (.writeDecode 3 2)
  let (key, iv) := createAesKeyAndIv env s
  let (encryptDataLen, _) ← .ofOption
    (aesCbcPkcs5PaddingEncrypt (env.aes key) memory.cipher iv (text.take (text.length % 2 ^ 16)))
  .touch (.writeDecode softapConfigDataPos encryptDataLen)
  .touch (.writeDecode 7 2)
  .touch (.writeDecode (softapConfigDataPos + encryptDataLen) 16)
  pure ⟨cmd, text⟩

/-- The answer with some members, if there is memory. -/
def answer (env : SoftapEnv) (memory : ReplyMemory) (s : SoftapState) (cmd : UInt16)
    (members : List (CString × CString)) : Traced Access (Option Reply) := do
  let text ← .ofOption (replyText memory members)
  match text with
  | none => pure none
  | some text => do
    let reply ← softapFeedbackEncryptPack env memory s cmd text
    pure (some reply)

/-- What a command leaves: the value it returns, the parameters, the answer, and what
`p_softap_config_cb` is called with. -/
structure CmdResult where
  ret : Int
  routerPara : RouterPara
  reply : Option Reply
  finish : Option RouterPara

/-! ## Commands -/

/-- Two digits of `HexArrayToString`. -/
def hexPair (b : UInt8) : List UInt8 :=
  let digit (n : UInt8) : UInt8 := if n < 10 then 0x30 + n else 0x37 + n
  [digit (b >>> 4), digit (b &&& 0x0F)]

/-- `ya_softap_random_cmd`. -/
def yaSoftapRandomCmd (env : SoftapEnv) (memory : ReplyMemory) (s : SoftapState) :
    Traced Access CmdResult := do
  let reply ← answer env memory s 0x8001
    [(.lit ['R', 'a', 'n', 'd', 'o', 'm'], .ofBytes (s.randomData.toList.flatMap hexPair))]
  pure ⟨if reply.isSome then 0 else -1, s.routerPara, reply, none⟩

/-- What `ya_softap_get_cmd` finds: 0 with product key, client and cloud, 1, or 2. -/
inductive GetOutcome
  | found (productKey clientId : TextUpTo 127) (cloudType : UInt8)
  | failed (ret : Int)

/-- The checks of `ya_softap_get_cmd`. -/
def getOutcome (s : SoftapState) : CJson → GetOutcome
  | .string text =>
    let cloudType := text.atoi
    if cloudType ≥ 3 then
      .failed 2
    else if s.cloudSupportType = 0 ∧ cloudType ≠ 0 ∨ s.cloudSupportType = 1 ∧ cloudType = 0 then
      .failed 1
    else
      match if cloudType = 0 then (s.alyThingName, s.alyClientId)
        else (s.awsThingType, s.awsClientId) with
      | (some productKey, some clientId) =>
        if productKey.1.strlen = 0 ∨ clientId.1.strlen = 0 then .failed 1
        else .found productKey clientId (toU8 cloudType)
      | _ => .failed 1
  | _ => .failed 2

/-- The members of the answer of `ya_softap_get_cmd`. -/
def getMembers (s : SoftapState) (deviceId productKey code : CString) : List (CString × CString) :=
  [(.lit ['C', 'o', 'm', 'm', 'a', 'n', 'd'], .lit ['R', 'e', 't', 'u', 'r', 'n']),
    (.lit ['D', 'e', 'v', 'i', 'c', 'e', 'I', 'd'], deviceId),
    (.lit ['P', 'r', 'o', 'd', 'u', 'c', 't', 'K', 'e', 'y'], productKey),
    (.lit ['C', 'o', 'd', 'e'], code),
    (.lit ['W', 'i', 'F', 'i', 'C', 'l', 'o', 'u', 'd'], s.wifiCloud.1),
    (.lit ['V', 'e', 'r', 's', 'i', 'o', 'n'], s.version.1)]

/-- `ya_softap_get_cmd`. -/
def yaSoftapGetCmd (env : SoftapEnv) (memory : ReplyMemory) (s : SoftapState) (object : CJson) :
    Traced Access CmdResult := do
  let cloudType ← .ofOption
    (object.getObjectItem (CString.ascii ['C', 'l', 'o', 'u', 'd', 'T', 'y', 'p', 'e']))
  match getOutcome s cloudType with
  | .found productKey clientId cloudType => do
    let reply ← answer env memory s 0x8002 (getMembers s clientId.1 productKey.1 (.lit ['0']))
    pure ⟨if reply.isSome then 0 else -1, { s.routerPara with cloudType }, reply, none⟩
  | .failed ret => do
    let code := if ret = 1 then CString.lit ['1'] else .lit ['2']
    let reply ← answer env memory s 0x8002 (getMembers s (.lit []) (.lit []) code)
    pure ⟨-1, s.routerPara, reply, none⟩

/-- A member that is a text of at most `limit` bytes. -/
def textMember (object : CJson) (name : List UInt8) (limit : Nat) : Option CString :=
  match object.getObjectItem name with
  | some (.string text) => if text.strlen > limit then none else some text
  | _ => none

/-- One digit of `StringToHexArray`. -/
def hexValue (c : UInt8) : Option UInt8 :=
  if 0x61 ≤ c ∧ c ≤ 0x66 then some (c - 0x61 + 10)
  else if 0x41 ≤ c ∧ c ≤ 0x46 then some (c - 0x41 + 10)
  else if 0x30 ≤ c ∧ c ≤ 0x39 then some (c - 0x30)
  else none

/-- The loop of `StringToHexArray`: what it returns, and the array. -/
def hexLoop (array : List UInt8) : (string : List UInt8) → (index arrayIndex : Nat) →
    Int × List UInt8
  | [], _, arrayIndex => (arrayIndex, array)
  | c :: string, index, arrayIndex =>
    match hexValue c with
    | none => (-1, array)
    | some value =>
      if index % 2 = 0 then
        hexLoop (array.set arrayIndex (value <<< 4)) string (index + 1) arrayIndex
      else
        hexLoop (array.set arrayIndex (array.getD arrayIndex 0 + value)) string (index + 1)
          (arrayIndex + 1)

/-- `StringToHexArray`. -/
def stringToHexArray (array : List UInt8) (string : CString) : Int × List UInt8 :=
  let totalLen := string.strlen % 2 ^ 16
  if 2 * array.length < totalLen then (-1, array) else hexLoop array (string.1.take totalLen) 0 0

theorem length_hexLoop (array string : List UInt8) (index arrayIndex : Nat) :
    (hexLoop array string index arrayIndex).2.length = array.length := by
  induction string generalizing array index arrayIndex with
  | nil => rfl
  | cons c string ih =>
    rw [hexLoop]
    split
    · rfl
    split
    · exact (ih ..).trans List.length_set
    · exact (ih ..).trans List.length_set

theorem length_stringToHexArray (array : List UInt8) (string : CString) :
    (stringToHexArray array string).2.length = array.length := by
  unfold stringToHexArray
  dsimp only
  split
  · rfl
  · exact length_hexLoop ..

/-- The array of an address after `StringToHexArray`, whatever it returns. -/
def hexInto {n : Nat} (block : Block n) (string : CString) : Block n :=
  ⟨(stringToHexArray block.1 string).2, (length_stringToHexArray ..).trans block.2⟩

/-- The copies of `ya_softap_apconfig_cmd`; `none` where one does not fit. -/
def storeRouterPara (para : RouterPara) (ssid password bssid random : CString) :
    Option RouterPara := do
  let routerSsid ← strcpyInto para.routerSsid ssid
  let routerPwd ← strcpyInto para.routerPwd password
  let routerBssid := hexInto para.routerBssid bssid
  let random ← strcpyInto para.random random
  some { para with routerSsid, routerPwd, routerBssid, random }

/-- The fields of `ya_softap_apconfig_cmd`, and `none` for `code = 1`. -/
def apconfigFields (object : CJson) : Option (CString × CString × CString × CString) := do
  let ssid ← textMember object (CString.ascii ['S', 's', 'i', 'd']) 32
  let password ← textMember object (CString.ascii ['P', 'a', 's', 's', 'w', 'o', 'r', 'd']) 64
  let bssid ← textMember object (CString.ascii ['B', 's', 's', 'i', 'd']) 12
  let random ← textMember object (CString.ascii ['R', 'a', 'n', 'd', 'o', 'm']) 32
  some (ssid, password, bssid, random)

/-- The answer of `ya_softap_apconfig_cmd`. -/
def codeMembers (code : CString) : List (CString × CString) := [(.lit ['C', 'o', 'd', 'e'], code)]

/-- `ya_softap_apconfig_cmd`. -/
def yaSoftapApconfigCmd (env : SoftapEnv) (memory : ReplyMemory) (s : SoftapState)
    (object : CJson) : Traced Access CmdResult := do
  match apconfigFields object with
  | some (ssid, password, bssid, random) => do
    let routerPara ← .ofOption (storeRouterPara s.routerPara ssid password bssid random)
    let reply ← answer env memory s 0x8003 (codeMembers (.lit ['0']))
    pure (if reply.isSome then ⟨1, routerPara, reply, some routerPara⟩
      else ⟨-1, routerPara, reply, none⟩)
  | none => do
    let reply ← answer env memory s 0x8003 (codeMembers (.lit ['1']))
    pure ⟨-1, s.routerPara, reply, none⟩

/-! ## Datagrams -/

/-- The memory of a datagram: whether `dec_s` is there and what it holds, and that of the reply. -/
structure DatagramMemory where
  decrypt : Bool
  heap : Nat → UInt8
  reply : ReplyMemory

/-- The command of a request; `none` for a text that is none of them. -/
def command (env : SoftapEnv) (memory : ReplyMemory) (s : SoftapState) (object : CJson)
    (name : CString) : Option (Traced Access CmdResult) :=
  if (CString.ascii ['R', 'a', 'n', 'd', 'o', 'm']).isPrefixOf name.1 then
    some (yaSoftapRandomCmd env memory s)
  else if (CString.ascii ['G', 'e', 't']).isPrefixOf name.1 then
    some (yaSoftapGetCmd env memory s object)
  else if (CString.ascii ['A', 'p', 'c', 'o', 'n', 'f', 'i', 'g']).isPrefixOf name.1 then
    some (yaSoftapApconfigCmd env memory s object)
  else
    none

/-- `ya_softap_comm_parse` from the text of the request on. -/
def softapRequest (env : SoftapEnv) (memory : ReplyMemory) (s : SoftapState) (text : CString) :
    Traced Access (Int × SoftapState) := do
  match env.cJsonParse text with
  | none => pure (-1, s)
  | some object =>
    match object.getObjectItem (CString.ascii ['C', 'o', 'm', 'm', 'a', 'n', 'd']) with
    | none => pure (0, s)
    | some item => do
      let name ← .ofOption item.valuestring
      match command env memory s object name with
      | none => pure (0, s)
      | some run => do
        let result ← run
        pure (result.ret, { s with routerPara := result.routerPara })

/-- Some bytes of a buffer. -/
def bufferBytes (buffer : Nat → UInt8) (pos n : Nat) : List UInt8 :=
  (List.range n).map fun i => buffer (pos + i)

/-- A field of two bytes. -/
def bufferLe16 (buffer : Nat → UInt8) (pos : Nat) : Nat :=
  (buffer (pos + 1)).toNat * 256 + (buffer pos).toNat

/-- `ya_softap_comm_parse`. -/
def yaSoftapCommParse (env : SoftapEnv) (memory : DatagramMemory) (s : SoftapState)
    (buffer : Nat → UInt8) : Traced Access (Int × SoftapState) := do
  .touch (.readReceived 0 2)
  if buffer 1 ≠ 0x5A ∨ buffer 0 ≠ 0x5A then
    pure (-1, s)
  else
    .touch (.writeDecode 0 softapBufSize)
    .touch (.readReceived 3 2)
    let s : SoftapState := { s with keyFlag := bufferLe16 buffer 3 ≠ 1 }
    let (key, iv) := createAesKeyAndIv env s
    .touch (.readReceived 7 2)
    let cipherDataLen := bufferLe16 buffer 7
    .touch (.readReceived 0 softapConfigDataPos)
    .touch (.writeDecode 0 softapConfigDataPos)
    .touch (.readReceived softapConfigDataPos cipherDataLen)
    .touch (.writeDecode softapConfigDataPos cipherDataLen)
    let (decryptDataLen, plaintext) ← .ofOption
      (aesCbcPkcs5PaddingDecrypt (env.aes key) memory.decrypt memory.heap (buffer 8) iv
        (bufferBytes buffer softapConfigDataPos cipherDataLen))
    if decryptDataLen = 0 then
      .touch (.readReceived 0 ((cipherDataLen + 25) % 2 ^ 16))
      pure (-1, s)
    else
      let dataDecryptMd5 := env.md5 (plaintext.take decryptDataLen)
      let md5Pos := (softapConfigDataPos + cipherDataLen) % 2 ^ 16
      .touch (.readReceived md5Pos 16)
      if bufferBytes buffer md5Pos 16 = dataDecryptMd5.toList then
        .touch (.writeDecode (softapConfigDataPos + decryptDataLen) 1)
        softapRequest env memory.reply s (.ofBytes (plaintext.take decryptDataLen))
      else
        pure (-1, s)

/-- `ya_softap_rece_buf` with a datagram; `stray` is the memory behind it. -/
def receBuf (received : List UInt8) (stray : Nat → UInt8) (i : Nat) : UInt8 :=
  if i < softapBufSize then received.getD i 0 else stray i

/-- What `ya_softap_update` does with a datagram: `none` where it is ignored or is none of the
protocol. -/
def yaSoftapUpdateStep (env : SoftapEnv) (memory : DatagramMemory) (s : SoftapState)
    (stray : Nat → UInt8) (received : List UInt8) :
    Option (Traced Access (Int × SoftapState)) :=
  let buffer := receBuf received stray
  if received.length > 25 ∧ buffer 1 = 0x5A ∧ buffer 0 = 0x5A then
    let packageDataLen := bufferLe16 buffer 7
    if received.length ≥ packageDataLen then some (yaSoftapCommParse env memory s buffer) else none
  else
    none

end Softap

end Tr6260
