import Tr6260.Softap.Model

/-!
# Datagrams stay in their buffers

A datagram is parsed when it is at least as long as the text it announces. The parser also reads the
header and a digest, 25 bytes more.
-/

namespace Tr6260

namespace Softap

/-- The access is to bytes that were received, or inside the decode buffer. -/
def Access.Inside (received : Nat) : Access → Prop
  | .readReceived pos n => pos + n ≤ received
  | .writeDecode pos n => pos + n ≤ softapBufSize

/-- The length of the text that a datagram announces. -/
def announced (received : List UInt8) : Nat :=
  (received.getD 8 0).toNat * 256 + (received.getD 7 0).toNat

section Replies

variable {env : SoftapEnv} {memory : ReplyMemory} {s : SoftapState} {received : Nat}

theorem encrypt_length_le {aes : AesCbc} {enough : Bool} {iv : AesBlock}
    {plaintext ciphertext : List UInt8} {n : Nat}
    (encrypted : aesCbcPkcs5PaddingEncrypt aes enough iv plaintext = some (n, ciphertext)) :
    n ≤ plaintext.length + aesBlockSize := by
  unfold aesCbcPkcs5PaddingEncrypt at encrypted
  dsimp only at encrypted
  split at encrypted
  · cases encrypted
  rcases Option.map_eq_some_iff.mp encrypted with ⟨bytes, -, same⟩
  cases same
  exact (Nat.mod_le _ _).trans (paddedLength_le plaintext.length)

theorem decrypt_length_le {aes : AesCbc} {enough : Bool} {heap : Nat → UInt8} {before : UInt8}
    {iv : AesBlock} {ciphertext plaintext : List UInt8} {n : Nat}
    (decrypted : aesCbcPkcs5PaddingDecrypt aes enough heap before iv ciphertext =
      some (n, plaintext)) : n ≤ ciphertext.length := by
  unfold aesCbcPkcs5PaddingDecrypt at decrypted
  dsimp only at decrypted
  split at decrypted <;> cases decrypted
  split
  · exact Nat.sub_le _ _
  · exact Nat.zero_le _

/-- The text of an answer, its padding, the header and the digest fit into the buffer. -/
theorem softapFeedbackEncryptPack_inside (cmd : UInt16) {text : List UInt8}
    (short : text.length + 41 ≤ softapBufSize) :
    (softapFeedbackEncryptPack env memory s cmd text).Only (Access.Inside received) := by
  have bufSize : softapBufSize = 2048 := rfl
  have dataPos : softapConfigDataPos = 9 := rfl
  have blockSize : aesBlockSize = 16 := rfl
  refine Traced.only_touch_bind (show 3 + 2 ≤ softapBufSize by omega) ?_
  refine (Traced.only_ofOption _).bind fun ⟨n, ciphertext⟩ encrypted => ?_
  have le := encrypt_length_le encrypted
  rw [List.length_take] at le
  refine Traced.only_touch_bind (show softapConfigDataPos + n ≤ softapBufSize by omega) ?_
  refine Traced.only_touch_bind (show 7 + 2 ≤ softapBufSize by omega) ?_
  refine Traced.only_touch_bind (show softapConfigDataPos + n + 16 ≤ softapBufSize by omega) ?_
  exact Traced.only_pure _

theorem length_replyText_le {members : List (CString × CString)} {text : List UInt8}
    (reply : replyText memory members = some (some text)) :
    text.length ≤ (members.map CJson.memberBound).sum + 2 := by
  unfold replyText at reply
  dsimp only at reply
  split at reply
  · cases reply
  split at reply
  · cases reply
  split at reply
  · cases reply
  cases reply
  refine (CJson.length_printObject_le _).trans (Nat.add_le_add_right ?_ 2)
  refine CJson.memberBound_sublist ?_
  have sub := (List.filter_sublist (p := fun member => memory.item member.2)
    (l := members.zipIdx)).map Prod.fst
  rwa [List.zipIdx_map_fst] at sub

theorem answer_inside (cmd : UInt16) {members : List (CString × CString)}
    (short : (members.map CJson.memberBound).sum + 43 ≤ softapBufSize) :
    (answer env memory s cmd members).Only (Access.Inside received) := by
  refine (Traced.only_ofOption _).bind fun text reply => ?_
  cases text with
  | none => exact Traced.only_pure _
  | some text =>
    have le := length_replyText_le reply
    exact (softapFeedbackEncryptPack_inside cmd (by omega)).bind fun _ _ => Traced.only_pure _

theorem strlen_ofBytes_le (bytes : List UInt8) : (CString.ofBytes bytes).strlen ≤ bytes.length :=
  (List.takeWhile_sublist _).length_le

theorem length_flatMap_hexPair (bytes : List UInt8) :
    (bytes.flatMap hexPair).length = 2 * bytes.length := by
  induction bytes with
  | nil => rfl
  | cons b bytes ih =>
    rw [List.flatMap_cons, List.length_append, ih, List.length_cons]
    exact (Nat.add_comm _ _).trans (Nat.mul_succ _ _).symm

theorem yaSoftapRandomCmd_inside :
    (yaSoftapRandomCmd env memory s).Only (Access.Inside received) := by
  refine (answer_inside _ ?_).bind fun _ _ => Traced.only_pure _
  have digits := strlen_ofBytes_le (s.randomData.toList.flatMap hexPair)
  rw [length_flatMap_hexPair, Vector.length_toList] at digits
  have name : (CJson.printStringPtr (.lit ['R', 'a', 'n', 'd', 'o', 'm'])).length = 8 := by decide
  have bufSize : softapBufSize = 2048 := rfl
  simp only [List.map_cons, List.map_nil, List.sum_cons, List.sum_nil, CJson.memberBound, name]
  omega

/-- The longest answer, with names and a version that are all to be escaped. -/
theorem getMembers_bound {deviceId productKey code : CString} (device : deviceId.strlen ≤ 127)
    (product : productKey.strlen ≤ 127) (one : code.strlen ≤ 1) :
    ((getMembers s deviceId productKey code).map CJson.memberBound).sum + 43 ≤ softapBufSize := by
  have names : ((getMembers s deviceId productKey code).map fun member =>
      (CJson.printStringPtr member.1).length) = [9, 10, 12, 6, 11, 9] := by rfl
  simp only [getMembers, List.map_cons, List.map_nil, List.cons.injEq] at names
  rcases names with ⟨name1, name2, name3, name4, name5, name6, -⟩
  have word : (CString.lit ['R', 'e', 't', 'u', 'r', 'n']).strlen = 6 := by decide
  have cloud := s.wifiCloud.2
  have version := s.version.2
  have bufSize : softapBufSize = 2048 := rfl
  simp only [getMembers, List.map_cons, List.map_nil, List.sum_cons, List.sum_nil,
    CJson.memberBound]
  omega

theorem yaSoftapGetCmd_inside (object : CJson) :
    (yaSoftapGetCmd env memory s object).Only (Access.Inside received) := by
  refine (Traced.only_ofOption _).bind fun cloudType _ => ?_
  cases getOutcome s cloudType with
  | found productKey clientId cloudType =>
    have bound := getMembers_bound (s := s) clientId.2 productKey.2
      (by decide : (CString.lit ['0']).strlen ≤ 1)
    exact (answer_inside _ bound).bind fun _ _ => Traced.only_pure _
  | failed ret =>
    have one : (if ret = 1 then CString.lit ['1'] else .lit ['2']).strlen ≤ 1 := by
      split <;> decide
    have bound := getMembers_bound (s := s) (by decide : (CString.lit []).strlen ≤ 127)
      (by decide : (CString.lit []).strlen ≤ 127) one
    exact (answer_inside _ bound).bind fun _ _ => Traced.only_pure _

theorem codeMembers_bound {code : CString} (one : code.strlen ≤ 1) :
    ((codeMembers code).map CJson.memberBound).sum + 43 ≤ softapBufSize := by
  have name : (CJson.printStringPtr (.lit ['C', 'o', 'd', 'e'])).length = 6 := by decide
  have bufSize : softapBufSize = 2048 := rfl
  simp only [codeMembers, List.map_cons, List.map_nil, List.sum_cons, List.sum_nil,
    CJson.memberBound, name]
  omega

theorem yaSoftapApconfigCmd_inside (object : CJson) :
    (yaSoftapApconfigCmd env memory s object).Only (Access.Inside received) := by
  unfold yaSoftapApconfigCmd
  cases apconfigFields object with
  | some fields =>
    refine (Traced.only_ofOption _).bind fun _ _ => ?_
    exact (answer_inside _ (codeMembers_bound (by decide))).bind fun _ _ => Traced.only_pure _
  | none =>
    exact (answer_inside _ (codeMembers_bound (by decide))).bind fun _ _ => Traced.only_pure _

theorem softapRequest_inside (text : CString) :
    (softapRequest env memory s text).Only (Access.Inside received) := by
  unfold softapRequest
  cases env.cJsonParse text with
  | none => exact Traced.only_pure _
  | some object =>
    dsimp only
    cases object.getObjectItem _ with
    | none => exact Traced.only_pure _
    | some item =>
      refine (Traced.only_ofOption _).bind fun name _ => ?_
      cases run : command env memory s object name with
      | none => exact Traced.only_pure _
      | some run' =>
        refine Traced.Only.bind ?_ fun _ _ => Traced.only_pure _
        unfold command at run
        split at run
        · cases run
          exact yaSoftapRandomCmd_inside
        split at run
        · cases run
          exact yaSoftapGetCmd_inside object
        split at run <;> cases run
        exact yaSoftapApconfigCmd_inside object

end Replies

section Datagrams

variable {env : SoftapEnv} {memory : DatagramMemory} {s : SoftapState} {received : List UInt8}
  {stray : Nat → UInt8}

/-- A datagram that is as long as it says is read inside. -/
theorem yaSoftapCommParse_inside {buffer : Nat → UInt8} {n : Nat} (most : n < softapBufSize)
    (whole : 25 + bufferLe16 buffer 7 ≤ n) :
    (yaSoftapCommParse env memory s buffer).Only (Access.Inside n) := by
  have bufSize : softapBufSize = 2048 := rfl
  have dataPos : softapConfigDataPos = 9 := rfl
  unfold yaSoftapCommParse
  refine Traced.only_touch_bind (show 0 + 2 ≤ n by omega) ?_
  split
  · exact Traced.only_pure _
  refine Traced.only_touch_bind (show 0 + softapBufSize ≤ softapBufSize by omega) ?_
  refine Traced.only_touch_bind (show 3 + 2 ≤ n by omega) ?_
  refine Traced.only_touch_bind (show 7 + 2 ≤ n by omega) ?_
  refine Traced.only_touch_bind (show 0 + softapConfigDataPos ≤ n by omega) ?_
  refine Traced.only_touch_bind (show 0 + softapConfigDataPos ≤ softapBufSize by omega) ?_
  refine Traced.only_touch_bind
    (show softapConfigDataPos + bufferLe16 buffer 7 ≤ n by omega) ?_
  refine Traced.only_touch_bind
    (show softapConfigDataPos + bufferLe16 buffer 7 ≤ softapBufSize by omega) ?_
  refine (Traced.only_ofOption _).bind fun ⟨decryptDataLen, plaintext⟩ decrypted => ?_
  have le := decrypt_length_le decrypted
  rw [bufferBytes, List.length_map, List.length_range] at le
  dsimp only
  split
  · have small : (bufferLe16 buffer 7 + 25) % 2 ^ 16 ≤ bufferLe16 buffer 7 + 25 := Nat.mod_le _ _
    exact Traced.only_touch_bind (show 0 + (bufferLe16 buffer 7 + 25) % 2 ^ 16 ≤ n by omega)
      (Traced.only_pure _)
  have small : (softapConfigDataPos + bufferLe16 buffer 7) % 2 ^ 16 ≤
      softapConfigDataPos + bufferLe16 buffer 7 := Nat.mod_le _ _
  refine Traced.only_touch_bind
    (show (softapConfigDataPos + bufferLe16 buffer 7) % 2 ^ 16 + 16 ≤ n by omega) ?_
  split
  · refine Traced.only_touch_bind
      (show softapConfigDataPos + decryptDataLen + 1 ≤ softapBufSize by omega) ?_
    exact softapRequest_inside _
  · exact Traced.only_pure _

theorem receBuf_inside {i : Nat} (inside : i < softapBufSize) :
    receBuf received stray i = received.getD i 0 := if_pos inside

theorem bufferLe16_announced : bufferLe16 (receBuf received stray) 7 = announced received := by
  rw [bufferLe16, receBuf_inside (by decide), receBuf_inside (by decide)]
  rfl

/-- A datagram that stays in its buffers, and one that is too short for what it says is ignored. -/
structure DatagramSafe (env : SoftapEnv) (memory : DatagramMemory) (s : SoftapState)
    (stray : Nat → UInt8) (received : List UInt8) : Prop where
  inside : ∀ run, yaSoftapUpdateStep env memory s stray received = some run →
    run.Only (Access.Inside received.length)
  ignored : received.length < 25 + announced received →
    yaSoftapUpdateStep env memory s stray received = none

/-- A datagram of the protocol is handled as it should be unless it is as long as the text it
announces, but not as long as that with header and digest. -/
theorem datagramSafe_iff (env : SoftapEnv) (memory : DatagramMemory) (s : SoftapState)
    (stray : Nat → UInt8) {received : List UInt8} (least : 26 ≤ received.length)
    (most : received.length ≤ softapBufSize - 1)
    (header : received.getD 0 0 = 0x5A ∧ received.getD 1 0 = 0x5A) :
    DatagramSafe env memory s stray received ↔
      received.length < announced received ∨ 25 + announced received ≤ received.length := by
  have bufSize : softapBufSize = 2048 := rfl
  have gate : received.length > 25 ∧ receBuf received stray 1 = 0x5A ∧
      receBuf received stray 0 = 0x5A := by
    rw [receBuf_inside (by decide), receBuf_inside (by decide)]
    exact ⟨least, header.2, header.1⟩
  have step : yaSoftapUpdateStep env memory s stray received =
      if received.length ≥ announced received then
        some (yaSoftapCommParse env memory s (receBuf received stray)) else none := by
    unfold yaSoftapUpdateStep
    dsimp only
    rw [if_pos gate, bufferLe16_announced]
  by_cases taken : received.length ≥ announced received
  · rw [if_pos taken] at step
    rw [or_iff_right (Nat.not_lt.mpr taken)]
    constructor
    · intro safe
      by_contra short
      have ignored := safe.ignored (Nat.not_le.mp short)
      rw [step] at ignored
      cases ignored
    · intro whole
      refine ⟨fun run taken => ?_, fun short => absurd whole (Nat.not_le.mpr short)⟩
      cases step.symm.trans taken
      exact yaSoftapCommParse_inside (by omega) (bufferLe16_announced ▸ whole)
  · rw [if_neg taken] at step
    refine iff_of_true ⟨fun run here => ?_, fun _ => step⟩ (.inl (Nat.not_le.mp taken))
    rw [step] at here
    cases here

end Datagrams

/-- A device with a cipher that only chains blocks. -/
def plainSoftap : SoftapEnv := ⟨fun _ => plainCbc, fun _ => .replicate 16 0, fun _ => none⟩

def fullMemory : DatagramMemory := ⟨true, fun _ => 0, ⟨true, fun _ => true, true, true, true⟩⟩

def newSoftap : SoftapState where
  routerPara := ⟨⟨List.replicate 33 0, rfl⟩, ⟨List.replicate 65 0, rfl⟩, ⟨List.replicate 6 0, rfl⟩,
    ⟨List.replicate 33 0, rfl⟩, 0⟩
  keyFlag := false
  randomData := .replicate 32 0
  apSsid := .lit ['A']
  cloudSupportType := 0
  alyThingName := none
  alyClientId := none
  awsThingType := none
  awsClientId := none
  wifiCloud := ⟨.lit ['0'], by decide⟩
  version := ⟨.lit ['1'], by decide⟩

/-- A datagram that announces sixteen bytes and has `n` of them, with the digest. -/
def datagramOf (n : Nat) : List UInt8 :=
  [0x5A, 0x5A, 0, 1, 0, 0, 0, 16, 0] ++ List.replicate (n + 16) 0

theorem datagramSafe_whole :
    DatagramSafe plainSoftap fullMemory newSoftap (fun _ => 0) (datagramOf 16) :=
  (datagramSafe_iff plainSoftap fullMemory newSoftap (fun _ => 0) (by decide) (by decide)
    (by decide)).mpr (.inr (by decide))

/-- Two bytes and a digest for sixteen are not ignored. -/
theorem datagramSafe_short :
    ¬ DatagramSafe plainSoftap fullMemory newSoftap (fun _ => 0) (datagramOf 2) := by
  intro safe
  have ignored := safe.ignored (by decide)
  have taken : (yaSoftapUpdateStep plainSoftap fullMemory newSoftap (fun _ => 0)
      (datagramOf 2)).isSome = true := by decide
  rw [ignored] at taken
  cases taken

end Softap

end Tr6260
