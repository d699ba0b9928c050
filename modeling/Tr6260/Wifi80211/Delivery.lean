import Tr6260.Wifi80211.Sniffer

/-!
# The bytes of a frame and the session

A frame that is handled without a fault has in the session the effect of the parser it is handed to.
-/

namespace Tr6260

namespace Wifi80211

/-- An address of a frame that is long enough for it. -/
def macOf (frame : List UInt8) (pos : Nat) : Mac := .ofFn fun i => frame.getD (pos + i) 0

/-- What a session sees of the bytes. -/
def wifiFrame (frame : List UInt8) : WifiFrame where
  frameControl := frameControl frame
  addr1 := macOf frame addr1
  addr2 := macOf frame addr2
  addr3 := macOf frame addr3
  addr4 := macOf frame addr4
  userdata := frame
  aplist := (aplistEntry frame).join

/-- The parser runs. -/
def Handover.deliver (now : Nat) (s : SmartState) : Handover → Option SmartState
  | .nothing => some s
  | .broadcast false bssid saMac len =>
    (yaParseBroadcast s.routers now bssid saMac len s.info s.toDs).map
      fun (info, toDs) => { s with info, toDs }
  | .broadcast true bssid saMac len =>
    (yaParseBroadcast s.routers now bssid saMac len s.info s.fromDs).map
      fun (info, fromDs) => { s with info, fromDs }
  | .multicast bssid dsMac saMac len =>
    match yaParseMulticast now bssid dsMac saMac len s.info s.mul with
    | (info, mul) => some { s with info, mul }

section Frames

variable {frame : List UInt8} {fc : UInt16} {routers : List RouterInfo}

theorem macAt_eq {pos : Nat} {mac : Mac} (read : macAt frame pos = some mac) :
    macOf frame pos = mac := by
  unfold macAt at read
  split at read <;> cases read
  rfl

theorem frameControl_eq (header : le16 frame 0 = some fc) : frameControl frame = fc := by
  rcases Option.bind_eq_some_iff.mp header with ⟨low, first, rest⟩
  rcases Option.bind_eq_some_iff.mp rest with ⟨high, second, same⟩
  cases same
  rw [frameControl, List.getD_eq_getElem?_getD, List.getD_eq_getElem?_getD, first, second]
  rfl

theorem getDa_wifiFrame (control : frameControl frame = fc) :
    (wifiFrame frame).getDa = macOf frame (wifi80211GetDA fc) := by
  have tods : (wifiFrame frame).hasTods = wifi80211HasTods fc := congrArg wifi80211HasTods control
  rw [WifiFrame.getDa, tods, wifi80211GetDA]
  split <;> rfl

theorem getSa_wifiFrame (control : frameControl frame = fc) :
    (wifiFrame frame).getSa = macOf frame (wifi80211GetSA fc) := by
  have tods : (wifiFrame frame).hasTods = wifi80211HasTods fc := congrArg wifi80211HasTods control
  have fromds : (wifiFrame frame).hasFromds = wifi80211HasFromds fc :=
    congrArg wifi80211HasFromds control
  rw [WifiFrame.getSa, tods, fromds, wifi80211GetSA, hasA4_eq]
  split
  · rfl
  split <;> rfl

theorem getBssid_wifiFrame (control : frameControl frame = fc) :
    (wifiFrame frame).getBssid = (wifi80211GetBSSID fc).map (macOf frame) := by
  have tods : (wifiFrame frame).hasTods = wifi80211HasTods fc := congrArg wifi80211HasTods control
  have fromds : (wifiFrame frame).hasFromds = wifi80211HasFromds fc :=
    congrArg wifi80211HasFromds control
  rw [WifiFrame.getBssid, tods, fromds, wifi80211GetBSSID]
  cases wifi80211HasTods fc <;> cases wifi80211HasFromds fc <;> rfl

theorem hdrlen_wifiFrame (control : frameControl frame = fc)
    (exact_ : wifi80211IsDataExact fc = true) :
    (wifiFrame frame).hdrlen = wifi80211Hdrlen fc := by
  have tods : (wifiFrame frame).hasTods = wifi80211HasTods fc := congrArg wifi80211HasTods control
  have fromds : (wifiFrame frame).hasFromds = wifi80211HasFromds fc :=
    congrArg wifi80211HasFromds control
  have order : (wifiFrame frame).hasOrder = wifi80211HasOrder fc :=
    congrArg wifi80211HasOrder control
  have bits : (wifiFrame frame).frameControl = fc := control
  rw [WifiFrame.hdrlen, tods, fromds, order, bits, wifi80211Hdrlen,
    if_pos (isDataExact_isData exact_), hasA4_eq, wifi80211IsDataQos]
  simp only [decide_eq_true_eq]

theorem guessEncry_wifiFrame (control : frameControl frame = fc)
    (exact_ : wifi80211IsDataExact fc = true) {encry : Option UInt8}
    (guessed : guessCipher fc frame (wifi80211Hdrlen fc) = some encry) :
    guessEncry (wifiFrame frame) = encry := by
  have hdrlen := hdrlen_wifiFrame control exact_
  have protected_ : (wifiFrame frame).hasProtected = wifi80211HasProtected fc :=
    congrArg wifi80211HasProtected control
  have data : (wifiFrame frame).data = frame.drop (wifi80211Hdrlen fc) := by
    rw [← hdrlen]
    rfl
  have byte (i : Nat) : (frame.drop (wifi80211Hdrlen fc)).getD i 0 =
      frame.getD (wifi80211Hdrlen fc + i) 0 := by
    rw [List.getD_eq_getElem?_getD, List.getElem?_drop, List.getD_eq_getElem?_getD]
  unfold guessEncry
  unfold guessCipher at guessed
  rw [data, protected_]
  dsimp only
  simp only [byte, List.length_drop]
  split at guessed
  case isTrue open_ =>
    cases guessed
    exact if_pos open_
  case isFalse closed =>
  rw [if_neg closed]
  split at guessed
  case isTrue short =>
    cases guessed
    exact if_pos short
  case isFalse long =>
  rw [if_neg long]
  have inside (i : Nat) (small : i < 8) : frame[wifi80211Hdrlen fc + i]? =
      some (frame.getD (wifi80211Hdrlen fc + i) 0) := getElem?_getD (by omega)
  rw [getElem?_getD (by omega : 3 < frame.length), inside 3 (by decide), inside 2 (by decide),
    inside 1 (by decide), getElem?_getD (by omega : wifi80211Hdrlen fc < frame.length)] at guessed
  simp only [Option.bind_eq_bind, Option.bind_some] at guessed
  have keyId : (wifiFrame frame).userdata = frame := rfl
  rw [keyId]
  split at guessed
  case isTrue wep =>
    cases guessed
    exact if_pos wep
  case isFalse notWep =>
  rw [if_neg notWep]
  split at guessed
  case isFalse plain =>
    cases guessed
    exact if_neg plain
  case isTrue extended =>
  rw [if_pos extended]
  split at guessed
  case isTrue aes =>
    cases guessed
    exact if_pos aes
  case isFalse notAes =>
  rw [if_neg notAes]
  split at guessed
  case isTrue tkip =>
    cases guessed
    exact if_pos tkip
  case isFalse notTkip =>
    cases guessed
    exact if_neg notTkip

theorem frameEncry_wifiFrame (control : frameControl frame = fc)
    (exact_ : wifi80211IsDataExact fc = true) {mac : Mac} {encry : Option UInt8}
    (cipher : cipherOf routers mac fc frame (wifi80211Hdrlen fc) = some encry) :
    frameEncry routers mac (wifiFrame frame) = encry := by
  have tods : (wifiFrame frame).hasTods = wifi80211HasTods fc := congrArg wifi80211HasTods control
  unfold frameEncry
  unfold cipherOf listedCipher at cipher
  rw [tods]
  cases found : getApInfo routers mac with
  | none =>
    rw [found] at cipher
    exact guessEncry_wifiFrame control exact_ cipher
  | some apInfo =>
    rw [found] at cipher
    dsimp only at cipher ⊢
    generalize (if wifi80211HasTods fc then apInfo.encry.2 else apInfo.encry.1) = c at cipher ⊢
    split
    case isTrue set =>
      rw [if_pos set] at cipher
      exact Option.some.inj cipher
    case isFalse unset =>
      rw [if_neg unset] at cipher
      exact guessEncry_wifiFrame control exact_ cipher

theorem lenFixedOffset_eq (stray : UInt8) {encry : UInt8} {offset : Nat}
    (indexed : lenFixedOffset? encry = some offset) : lenFixedOffset stray encry = offset := by
  have small : encry.toNat < 5 := (List.getElem?_eq_some_iff.mp indexed).1
  unfold lenFixedOffset? at indexed
  unfold lenFixedOffset
  generalize encry.toNat = n at small indexed ⊢
  match n with
  | 0 | 1 | 2 | 3 | 4 => exact Option.some.inj indexed
  | n + 5 => omega

theorem handOver_deliver {now : Nat} {s : SmartState} {bssid daMac : Mac}
    {len : Int} {handed : Handover} (control : frameControl frame = fc)
    (da : (wifiFrame frame).getDa = daMac)
    (passed : handOver fc frame bssid daMac len = some handed) :
    (if (wifiFrame frame).getDa = broadcastMac then
        if (wifiFrame frame).hasTods then
          (yaParseBroadcast s.routers now bssid (wifiFrame frame).getSa len s.info s.toDs).map
            fun (info, toDs) => { s with info, toDs }
        else if (wifiFrame frame).hasFromds then
          (yaParseBroadcast s.routers now bssid (wifiFrame frame).getSa len s.info s.fromDs).map
            fun (info, fromDs) => { s with info, fromDs }
        else
          some s
      else if isMulticastMac (wifiFrame frame).getDa then
        match yaParseMulticast now bssid (.ofMac (wifiFrame frame).getDa) (wifiFrame frame).getSa
            len s.info s.mul with
        | (info, mul) => some { s with info, mul }
      else
        some s) = handed.deliver now s := by
  have tods : (wifiFrame frame).hasTods = wifi80211HasTods fc := congrArg wifi80211HasTods control
  have fromds : (wifiFrame frame).hasFromds = wifi80211HasFromds fc :=
    congrArg wifi80211HasFromds control
  have sa {mac : Mac} (read : macAt frame (wifi80211GetSA fc) = some mac) :
      (wifiFrame frame).getSa = mac := (getSa_wifiFrame control).trans (macAt_eq read)
  rw [da, tods, fromds]
  unfold handOver at passed
  split at passed
  case isTrue broadcast =>
    rw [if_pos broadcast]
    split at passed
    case isTrue up =>
      rcases Option.map_eq_some_iff.mp passed with ⟨saMac, read, rfl⟩
      rw [if_pos up, sa read]
      rfl
    case isFalse notUp =>
    rw [if_neg notUp]
    split at passed
    case isTrue down =>
      rcases Option.map_eq_some_iff.mp passed with ⟨saMac, read, rfl⟩
      rw [if_pos down, sa read]
      rfl
    case isFalse notDown =>
      cases passed
      exact if_neg notDown
  case isFalse other =>
  rw [if_neg other]
  split at passed
  case isTrue multicast =>
    rcases Option.map_eq_some_iff.mp passed with ⟨saMac, read, rfl⟩
    rw [if_pos multicast, sa read]
    rfl
  case isFalse unicast =>
    cases passed
    exact if_neg unicast

/-- A frame without a fault does to the session what the parser does that it is handed to. -/
theorem easyjoinCallback_wifiFrame (env : SmartEnv) (now : Nat) {s : SmartState}
    {handed : Handover} (ran : sniff s.routers s.info.findPhone frame = some (routers, handed)) :
    easyjoinCallback env now (wifiFrame frame) s = handed.deliver now { s with routers } := by
  rcases Option.bind_eq_some_iff.mp ran with ⟨fc, header, ran⟩
  have control := frameControl_eq header
  have frags : (wifiFrame frame).hasFrags = wifi80211HasFrags fc :=
    congrArg wifi80211HasFrags control
  have beacon : ((wifiFrame frame).isBeacon || (wifiFrame frame).isProbeResp) =
      (wifi80211IsBeacon fc || wifi80211IsProbeResp fc) :=
    congrArg (fun fc => wifi80211IsBeacon fc || wifi80211IsProbeResp fc) control
  have exact_ : (wifiFrame frame).isDataExact = wifi80211IsDataExact fc :=
    congrArg wifi80211IsDataExact control
  have retry : (wifiFrame frame).isRetry = wifi80211IsRetry fc := congrArg wifi80211IsRetry control
  unfold easyjoinCallback
  rw [frags, beacon, exact_, retry]
  split at ran
  case isTrue dropped =>
    cases ran
    exact if_pos dropped
  case isFalse noFrags =>
  rw [if_neg noFrags]
  rcases Option.bind_eq_some_iff.mp ran with ⟨built, list, ran⟩
  dsimp only
  generalize listed :
    (if (wifi80211IsBeacon fc || wifi80211IsProbeResp fc) = true then _ else s) = s₁
  have same : s₁ = { s with routers := built } := by
    rw [← listed]
    unfold easyjoinList at list
    split at list
    case isTrue is =>
      rcases Option.bind_eq_some_iff.mp list with ⟨entry, read, saved⟩
      have same : (wifiFrame frame).aplist = entry := congrArg Option.join read
      rw [if_pos is, same]
      cases entry <;> cases saved <;> rfl
    case isFalse other =>
      cases list
      exact if_neg other
  rw [same]
  dsimp only
  split at ran
  case isTrue found =>
    cases ran
    exact if_pos found
  case isFalse searching =>
  rw [if_neg searching]
  split at ran
  case isTrue other =>
    cases ran
    exact if_pos other
  case isFalse data =>
  rw [if_neg data]
  have isData : wifi80211IsDataExact fc = true := (Bool.not_eq_false _).mp data
  have hdrlen := hdrlen_wifiFrame control isData
  have body : (wifiFrame frame).data.length = frame.length - wifi80211Hdrlen fc := by
    rw [WifiFrame.data, List.length_drop, hdrlen]
    rfl
  have userdata : (wifiFrame frame).userdata.length = frame.length := rfl
  rw [hdrlen, userdata, getBssid_wifiFrame control, body]
  split at ran
  case isTrue short =>
    cases ran
    exact if_pos short
  case isFalse whole =>
  rw [if_neg whole]
  rcases Option.map_eq_some_iff.mp ran with ⟨handed', ran, same⟩
  cases same
  rcases Option.bind_eq_some_iff.mp ran with ⟨at_, there, ran⟩
  rcases Option.bind_eq_some_iff.mp ran with ⟨mac, read, ran⟩
  rcases Option.bind_eq_some_iff.mp ran with ⟨encry, cipher, ran⟩
  rw [there, Option.map_some]
  dsimp only
  rw [macAt_eq read, frameEncry_wifiFrame control isData cipher]
  cases encry with
  | none =>
    cases ran
    rfl
  | some encry =>
    rcases Option.bind_eq_some_iff.mp ran with ⟨offset, indexed, ran⟩
    dsimp only
    rw [lenFixedOffset_eq env.stray indexed]
    split at ran
    case isTrue again =>
      cases ran
      exact if_pos again
    case isFalse first =>
    rw [if_neg first]
    rcases Option.bind_eq_some_iff.mp ran with ⟨daMac, daRead, ran⟩
    exact handOver_deliver control
      ((getDa_wifiFrame control).trans (macAt_eq daRead)) ran

end Frames

end Wifi80211

end Tr6260
