import Tr6260.Smartconfig.Session
import Tr6260.Wifi80211.Elements

/-!
# Beacons and probe responses

What `wifi_80211_aplist_process` takes from a beacon or a probe response for the list of access
points. The frame is a list of bytes, and a read outside of it has no result.
-/

namespace Tr6260

namespace Wifi80211

/-! ## Reads -/

/-- `os_get_unaligned_le16`. -/
def le16 (frame : List UInt8) (pos : Nat) : Option UInt16 := do
  let low ← frame[pos]?
  let high ← frame[pos + 1]?
  some (low.toUInt16 ||| high.toUInt16 <<< 8)

/-- Some bytes of the frame. -/
def bytesAt (frame : List UInt8) (pos n : Nat) : Option (List UInt8) :=
  if pos + n ≤ frame.length then some ((frame.drop pos).take n) else none

/-- An address in the frame. -/
def macAt (frame : List UInt8) (pos : Nat) : Option Mac :=
  if pos + 6 ≤ frame.length then some (.ofFn fun i => frame.getD (pos + i) 0) else none

/-! ## The header -/

def hasBit (fc mask : UInt16) : Bool := fc &&& mask ≠ 0

/-- Type and subtype. -/
def isType (fc value : UInt16) : Bool := fc &&& 0x00fc = value

def wifi80211IsCtl (fc : UInt16) : Bool := fc &&& 0x000c = 0x0004
def wifi80211IsData (fc : UInt16) : Bool := fc &&& 0x000c = 0x0008
def wifi80211HasTods (fc : UInt16) : Bool := hasBit fc 0x0100
def wifi80211IsRetry (fc : UInt16) : Bool := hasBit fc 0x0800
def wifi80211HasFromds (fc : UInt16) : Bool := hasBit fc 0x0200
def wifi80211HasA4 (fc : UInt16) : Bool := fc &&& 0x0300 = 0x0300
def wifi80211HasOrder (fc : UInt16) : Bool := hasBit fc 0x8000
def wifi80211HasProtected (fc : UInt16) : Bool := hasBit fc 0x4000
def wifi80211IsDataQos (fc : UInt16) : Bool := fc &&& 0x008c = 0x0088
def wifi80211IsDataExact (fc : UInt16) : Bool := isType fc 0x0008 || isType fc 0x0088
def wifi80211IsBeacon (fc : UInt16) : Bool := isType fc 0x0080
def wifi80211IsProbeResp (fc : UInt16) : Bool := isType fc 0x0050
def wifi80211HasFrags (fc : UInt16) : Bool := hasBit fc 0x8400

def addr1 : Nat := 4
def addr2 : Nat := 10
def addr3 : Nat := 16
def addr4 : Nat := 24

/-- `wifi_80211_get_SA`, as a place in the frame. -/
def wifi80211GetSA (fc : UInt16) : Nat :=
  if wifi80211HasA4 fc then addr4 else if wifi80211HasFromds fc then addr3 else addr2

/-- `wifi_80211_get_DA`. -/
def wifi80211GetDA (fc : UInt16) : Nat := if wifi80211HasTods fc then addr3 else addr1

/-- `wifi_80211_get_BSSID`; `none` is the `NULL`. -/
def wifi80211GetBSSID (fc : UInt16) : Option Nat :=
  if wifi80211HasTods fc then
    if wifi80211HasFromds fc = false then some addr1 else none
  else if wifi80211HasFromds fc then some addr2
  else some addr3

/-- `wifi_80211_get_bssid`: the address, or -1. -/
def wifi80211GetBssid (frame : List UInt8) : Option (Option Mac) := do
  let fc ← le16 frame 0
  match wifi80211GetBSSID fc with
  | none => some none
  | some bssid => (macAt frame bssid).map some

/-- `wifi_80211_hdrlen`. -/
def wifi80211Hdrlen (fc : UInt16) : Nat :=
  if wifi80211IsData fc then
    (if wifi80211HasA4 fc then 30 else 24) +
      (if wifi80211IsDataQos fc then 2 + (if wifi80211HasOrder fc then 4 else 0) else 0)
  else if wifi80211IsCtl fc then
    if fc &&& 0x00E0 = 0x00C0 then 10 else 16
  else
    24

/-! ## Name and channel -/

/-- Where the elements of a beacon or a probe response start. -/
def ieoffset : Nat := 36

/-- `wifi_80211_get_ssid`: the name, or -1. -/
def wifi80211GetSsid (frame : List UInt8) (frameLen : UInt16) : Option (Option (List UInt8)) := do
  let ptr ← wifi80211FindIe 0 frame ieoffset (frameLen.toNat - ieoffset)
  match ptr with
  | none => some none
  | some ptr =>
    let ssidLen ← frame[ptr + 1]?
    if ssidLen.toNat ≤ 32 then (bytesAt frame (ptr + 2) ssidLen.toNat).map some else some none

/-- The channel of the HT operation element, 0 without one. -/
def htChannel (frame : List UInt8) (ielen : UInt16) : Option UInt8 := do
  let tmp ← wifi80211FindIe 61 frame ieoffset ielen.toNat
  match tmp with
  | none => some 0
  | some tmp =>
    let length ← frame[tmp + 1]?
    if 22 ≤ length.toNat then frame[tmp + 2]? else some 0

/-- `wifi_80211_get_bss_channel`. -/
def wifi80211GetBssChannel (frame : List UInt8) (frameLen : UInt16) : Option UInt8 := do
  let ielen := frameLen - 36
  let tmp ← wifi80211FindIe 3 frame ieoffset ielen.toNat
  match tmp with
  | none => htChannel frame ielen
  | some tmp =>
    let length ← frame[tmp + 1]?
    if length = 1 then frame[tmp + 2]? else htChannel frame ielen

/-! ## Ciphers -/

/-- `WPA_CIPHER_NONE` and the ones after it. -/
def wpaCipherNone : UInt8 := 1
def wpaCipherWep40 : UInt8 := 2
def wpaCipherWep104 : UInt8 := 4
def wpaCipherTkip : UInt8 := 8
def wpaCipherCcmp : UInt8 := 16

/-- `map_cipher_to_encry`. -/
def mapCipherToEncry (cipher : UInt8) : UInt8 :=
  if cipher = wpaCipherCcmp then encTypeAes
  else if cipher = wpaCipherTkip then encTypeTkip
  else if cipher = wpaCipherWep40 ∨ cipher = wpaCipherWep104 then encTypeWep
  else if cipher = wpaCipherNone then encTypeNone
  else if cipher = wpaCipherTkip ||| wpaCipherCcmp then encTypeTkipaes
  else encTypeInvalid

/-- `get_wpa2_cipher_suite`. -/
def getWpa2CipherSuite (frame : List UInt8) (pos : Nat) : Option UInt8 :=
  (bytesAt frame pos 4).map fun s =>
    if s = [0x00, 0x0f, 0xac, 0x00] then wpaCipherNone
    else if s = [0x00, 0x0f, 0xac, 0x01] then wpaCipherWep40
    else if s = [0x00, 0x0f, 0xac, 0x02] then wpaCipherTkip
    else if s = [0x00, 0x0f, 0xac, 0x04] then wpaCipherCcmp
    else if s = [0x00, 0x0f, 0xac, 0x05] then wpaCipherWep104
    else 0

/-- What `cfg80211_parse_wpa2_info` sets. -/
structure Wpa2Info where
  groupCipher : UInt8
  pairwiseCipher : UInt8
  is8021x : Bool

/-- The end of `cfg80211_parse_wpa2_info`, where the key management is looked at. -/
def parseKeyMgmt (frame : List UInt8) (pos : Nat) (left : Int) (info : Wpa2Info) :
    Option (Int × Wpa2Info) :=
  if left ≥ 6 then
    (bytesAt frame (pos + 2) 4).map fun s =>
      (0, if s = [0x00, 0x0f, 0xac, 0x01] then { info with is8021x := true } else info)
  else
    some (0, info)

/-- The loop over the pairwise ciphers. -/
def pairwiseLoop (frame : List UInt8) : (count : Nat) → (pos : Nat) → UInt8 → Option UInt8
  | 0, _, pairwise => some pairwise
  | count + 1, pos, pairwise => do
    let suite ← getWpa2CipherSuite frame pos
    pairwiseLoop frame count (pos + 4) (pairwise ||| suite)

/-- `cfg80211_parse_wpa2_info` from the pairwise ciphers on. -/
def parsePairwise (frame : List UInt8) (pos : Nat) (left : Int) (info : Wpa2Info) :
    Option (Int × Wpa2Info) :=
  if left ≥ 2 then do
    let count ← le16 frame pos
    if count = 0 ∨ left - 2 < count.toNat * 4 then
      some (-1, info)
    else
      let pairwise ← pairwiseLoop frame count.toNat (pos + 2) info.pairwiseCipher
      parseKeyMgmt frame (pos + 2 + count.toNat * 4) (left - 2 - count.toNat * 4)
        { info with pairwiseCipher := pairwise }
  else if left = 1 then
    some (-1, info)
  else
    parseKeyMgmt frame pos left info

/-- `cfg80211_parse_wpa2_info`: 0 or -1, and what it has set by then. -/
def cfg80211ParseWpa2Info (frame : List UInt8) (rsnIe rsnIeLen : Nat) :
    Option (Int × Wpa2Info) := do
  let info : Wpa2Info := ⟨0, 0, false⟩
  if rsnIeLen = 0 then
    some (-1, info)
  else
    let id ← frame[rsnIe]?
    let length ← frame[rsnIe + 1]?
    -- the length of the element without its two first bytes, in eight bits
    if id ≠ 48 ∨ length ≠ UInt8.ofNat (rsnIeLen + 254) then
      some (-1, info)
    else
      let pos := rsnIe + 4
      let left : Int := rsnIeLen - 4
      if left ≥ 4 then
        let suite ← getWpa2CipherSuite frame pos
        parsePairwise frame (pos + 4) (left - 4) { info with groupCipher := suite }
      else if left > 0 then
        some (-1, info)
      else
        parsePairwise frame pos left info

/-- What `wifi_80211_get_cipher_info` returns and sets. -/
structure CipherInfo where
  ret : Int
  authType : UInt8
  pairwiseCipherType : UInt8
  groupCipherType : UInt8

/-- The ciphers of a frame without an RSN element. -/
def CipherInfo.ofPrivacy (isPrivacy : Bool) : CipherInfo :=
  if isPrivacy then ⟨0, 1, encTypeWep, encTypeWep⟩ else ⟨0, 0, encTypeNone, encTypeNone⟩

/-- `wifi_80211_get_cipher_info`. -/
def wifi80211GetCipherInfo (frame : List UInt8) (frameLen : UInt16) : Option CipherInfo := do
  let capabInfo ← le16 frame 34
  let isPrivacy := hasBit capabInfo 0x0010
  let ielen := frameLen - 36
  let tmp ← wifi80211FindIe 48 frame ieoffset ielen.toNat
  match tmp with
  | none => some (.ofPrivacy isPrivacy)
  | some tmp =>
    let length ← frame[tmp + 1]?
    if length = 0 then
      some (.ofPrivacy isPrivacy)
    else
      let (ret, info) ← cfg80211ParseWpa2Info frame tmp (length.toNat + 2)
      some ⟨ret, if info.is8021x then 5 else 4, mapCipherToEncry info.pairwiseCipher,
        mapCipherToEncry info.groupCipher⟩

/-! ## The list of access points -/

/-- What `wifi_80211_aplist_process` reads, without the `save_aplist`. -/
def aplistEntry (frame : List UInt8) : Option (Option RouterInfo) := do
  let bssid ← wifi80211GetBssid frame
  match bssid with
  | none => some none
  | some bssid =>
    let frameLen := UInt16.ofNat frame.length
    let ssid ← wifi80211GetSsid frame frameLen
    match ssid with
    | none => some none
    | some ssid =>
      let channel ← wifi80211GetBssChannel frame frameLen
      let cipher ← wifi80211GetCipherInfo frame frameLen
      some (some ⟨cipher.authType, channel, (cipher.groupCipherType, cipher.pairwiseCipherType),
        bssid, .ofBytes ssid⟩)

/-- `wifi_80211_aplist_process`. -/
def wifi80211AplistProcess (routers : List RouterInfo) (frame : List UInt8) :
    Option (List RouterInfo) := do
  let entry ← aplistEntry frame
  match entry with
  | none => some routers
  | some entry => some (saveAplist routers entry)

/-! ## Reads stay inside -/

section Inside

variable {frame : List UInt8} {pos n : Nat} {frameLen : UInt16}

theorem le16_inside (inside : pos + 2 ≤ frame.length) : ∃ v, le16 frame pos = some v := by
  rcases read_inside (by omega : pos < frame.length) with ⟨low, first⟩
  rcases read_inside (by omega : pos + 1 < frame.length) with ⟨high, second⟩
  refine ⟨low.toUInt16 ||| high.toUInt16 <<< 8, ?_⟩
  rw [le16, first, second]
  rfl

theorem bytesAt_inside (inside : pos + n ≤ frame.length) :
    ∃ bytes, bytesAt frame pos n = some bytes :=
  ⟨_, if_pos inside⟩

theorem macAt_iff : (∃ mac, macAt frame pos = some mac) ↔ pos + 6 ≤ frame.length := by
  unfold macAt
  split
  case isTrue inside => exact ⟨fun _ => inside, fun _ => ⟨_, rfl⟩⟩
  case isFalse outside => exact ⟨nofun, fun inside => absurd inside outside⟩

theorem getWpa2CipherSuite_inside (inside : pos + 4 ≤ frame.length) :
    ∃ cipher, getWpa2CipherSuite frame pos = some cipher := by
  rcases bytesAt_inside inside with ⟨s, read⟩
  rw [getWpa2CipherSuite, read]
  exact ⟨_, rfl⟩

/-- A frame of at least two bytes has its address where the header says, or none. -/
theorem wifi80211GetBssid_iff {fc : UInt16} (header : le16 frame 0 = some fc) :
    (∃ r, wifi80211GetBssid frame = some r) ↔
      ∀ at_, wifi80211GetBSSID fc = some at_ → at_ + 6 ≤ frame.length := by
  rw [wifi80211GetBssid, header, Option.bind_eq_bind, Option.bind_some]
  cases wifi80211GetBSSID fc with
  | none => exact ⟨fun _ => nofun, fun _ => ⟨none, rfl⟩⟩
  | some at_ =>
    constructor
    · rintro ⟨r, read⟩ at' same
      cases same
      rcases Option.map_eq_some_iff.mp read with ⟨mac, whole, -⟩
      exact macAt_iff.mp ⟨mac, whole⟩
    · intro inside
      rcases macAt_iff.mpr (inside at_ rfl) with ⟨mac, whole⟩
      refine ⟨some mac, ?_⟩
      dsimp only
      rw [whole]
      rfl

/-- A name is only found where there are elements. -/
theorem wifi80211GetSsid_inside (inside : frameLen.toNat ≤ frame.length) :
    ∃ r, wifi80211GetSsid frame frameLen = some r ∧
      ∀ ssid, r = some ssid → ieoffset + 2 ≤ frameLen.toNat := by
  rcases wifi80211FindIe_whole 0 ieoffset inside with ⟨r, found, whole⟩
  rw [wifi80211GetSsid, found, Option.bind_eq_bind, Option.bind_some]
  cases r with
  | none => exact ⟨none, rfl, nofun⟩
  | some ptr =>
    rcases whole ptr rfl with ⟨behind, ssidLen, length, fits⟩
    dsimp only
    rw [length, Option.bind_eq_bind, Option.bind_some]
    split
    · rcases bytesAt_inside (by omega : ptr + 2 + ssidLen.toNat ≤ frame.length) with ⟨ssid, read⟩
      exact ⟨some ssid, by rw [read]; rfl, fun _ _ => by omega⟩
    · exact ⟨none, rfl, nofun⟩

/-- The elements of a frame that has some. -/
theorem findIe_elements (eid : UInt8) (room : ieoffset ≤ frameLen.toNat)
    (inside : frameLen.toNat ≤ frame.length) :
    ∃ r, wifi80211FindIe eid frame ieoffset (frameLen - 36).toNat = some r ∧
      ∀ p, r = some p → ∃ n, frame[p + 1]? = some n ∧ p + 2 + n.toNat ≤ frame.length := by
  have room' : (36 : UInt16) ≤ frameLen := UInt16.le_iff_toNat_le.mpr room
  have ielen : ((frameLen - 36).toNat : Int) = frameLen.toNat - ieoffset := by
    rw [UInt16.toNat_sub_of_le _ _ room']
    exact Int.natCast_sub room
  rcases wifi80211FindIe_whole eid ieoffset inside with ⟨r, found, whole⟩
  rw [ielen]
  refine ⟨r, found, fun p there => ?_⟩
  rcases whole p there with ⟨-, n, length, fits⟩
  exact ⟨n, length, fits.trans inside⟩

theorem htChannel_inside (room : ieoffset ≤ frameLen.toNat)
    (inside : frameLen.toNat ≤ frame.length) :
    ∃ channel, htChannel frame (frameLen - 36) = some channel := by
  rcases findIe_elements 61 room inside with ⟨r, found, whole⟩
  rw [htChannel, found, Option.bind_eq_bind, Option.bind_some]
  cases r with
  | none => exact ⟨0, rfl⟩
  | some tmp =>
    rcases whole tmp rfl with ⟨n, length, fits⟩
    dsimp only
    rw [length, Option.bind_eq_bind, Option.bind_some]
    split
    · exact read_inside (by omega)
    · exact ⟨0, rfl⟩

theorem wifi80211GetBssChannel_inside (room : ieoffset ≤ frameLen.toNat)
    (inside : frameLen.toNat ≤ frame.length) :
    ∃ channel, wifi80211GetBssChannel frame frameLen = some channel := by
  rcases findIe_elements 3 room inside with ⟨r, found, whole⟩
  rw [wifi80211GetBssChannel, found, Option.bind_eq_bind, Option.bind_some]
  cases r with
  | none => exact htChannel_inside room inside
  | some tmp =>
    rcases whole tmp rfl with ⟨n, length, fits⟩
    dsimp only
    rw [length, Option.bind_eq_bind, Option.bind_some]
    split
    case isTrue one =>
      rw [one] at fits
      exact read_inside (Nat.lt_of_lt_of_le (Nat.lt_succ_self _) fits)
    case isFalse => exact htChannel_inside room inside

/-! The walk through an RSN element has `left` bytes before it. -/

variable {left : Int} {info : Wpa2Info}

theorem parseKeyMgmt_inside (inside : pos + left ≤ frame.length) :
    ∃ r, parseKeyMgmt frame pos left info = some r := by
  unfold parseKeyMgmt
  split
  · rcases bytesAt_inside (by omega : pos + 2 + 4 ≤ frame.length) with ⟨s, read⟩
    rw [read]
    exact ⟨_, rfl⟩
  · exact ⟨_, rfl⟩

theorem pairwiseLoop_inside {count : Nat} (pairwise : UInt8)
    (inside : pos + count * 4 ≤ frame.length) :
    ∃ r, pairwiseLoop frame count pos pairwise = some r := by
  induction count generalizing pos pairwise with
  | zero => exact ⟨pairwise, rfl⟩
  | succ count ih =>
    rcases getWpa2CipherSuite_inside (by omega : pos + 4 ≤ frame.length) with ⟨suite, read⟩
    rw [pairwiseLoop, read, Option.bind_eq_bind, Option.bind_some]
    exact ih _ (by omega)

theorem parsePairwise_inside (inside : pos + left ≤ frame.length) :
    ∃ r, parsePairwise frame pos left info = some r := by
  unfold parsePairwise
  split
  · rcases le16_inside (by omega : pos + 2 ≤ frame.length) with ⟨count, read⟩
    rw [read, Option.bind_eq_bind, Option.bind_some]
    split
    · exact ⟨_, rfl⟩
    case isFalse enough =>
      rcases not_or.mp enough with ⟨-, enough⟩
      have ciphers : pos + 2 + count.toNat * 4 ≤ frame.length := by omega
      rcases pairwiseLoop_inside info.pairwiseCipher ciphers with ⟨pairwise, ran⟩
      rw [ran, Option.bind_eq_bind, Option.bind_some]
      exact parseKeyMgmt_inside (by omega)
  split
  · exact ⟨_, rfl⟩
  · exact parseKeyMgmt_inside inside

theorem cfg80211ParseWpa2Info_inside (inside : pos + n ≤ frame.length) (two : 2 ≤ n) :
    ∃ r, cfg80211ParseWpa2Info frame pos n = some r := by
  rcases read_inside (by omega : pos < frame.length) with ⟨id, first⟩
  rcases read_inside (by omega : pos + 1 < frame.length) with ⟨length, second⟩
  unfold cfg80211ParseWpa2Info
  dsimp only
  rw [if_neg (by omega), first, second, Option.bind_eq_bind, Option.bind_some,
    Option.bind_some]
  split
  · exact ⟨_, rfl⟩
  split
  · rcases getWpa2CipherSuite_inside (by omega : pos + 4 + 4 ≤ frame.length) with ⟨suite, read⟩
    rw [read, Option.bind_some]
    exact parsePairwise_inside (by omega)
  split
  · exact ⟨_, rfl⟩
  · exact parsePairwise_inside (by omega)

theorem wifi80211GetCipherInfo_inside (room : ieoffset ≤ frameLen.toNat)
    (inside : frameLen.toNat ≤ frame.length) :
    ∃ cipher, wifi80211GetCipherInfo frame frameLen = some cipher := by
  have capab : 34 + 2 ≤ frame.length := room.trans inside
  rcases le16_inside capab with ⟨capabInfo, read⟩
  rcases findIe_elements 48 room inside with ⟨r, found, whole⟩
  rw [wifi80211GetCipherInfo, read, Option.bind_eq_bind, Option.bind_some]
  dsimp only
  rw [found, Option.bind_eq_bind, Option.bind_some]
  cases r with
  | none => exact ⟨_, rfl⟩
  | some tmp =>
    rcases whole tmp rfl with ⟨n, length, fits⟩
    dsimp only
    rw [length, Option.bind_eq_bind, Option.bind_some]
    split
    · exact ⟨_, rfl⟩
    · rcases cfg80211ParseWpa2Info_inside (by omega : tmp + (n.toNat + 2) ≤ frame.length)
        (by omega) with ⟨⟨ret, info⟩, parsed⟩
      rw [parsed, Option.bind_eq_bind, Option.bind_some]
      exact ⟨_, rfl⟩

/-- Only the address of the access point can lie outside the frame. -/
theorem aplistEntry_iff {fc : UInt16} (header : le16 frame 0 = some fc) :
    (∃ r, aplistEntry frame = some r) ↔
      ∀ at_, wifi80211GetBSSID fc = some at_ → at_ + 6 ≤ frame.length := by
  rw [← wifi80211GetBssid_iff header]
  constructor
  · rintro ⟨r, entry⟩
    rcases Option.bind_eq_some_iff.mp entry with ⟨bssid, read, -⟩
    exact ⟨bssid, read⟩
  rintro ⟨bssid, read⟩
  rw [aplistEntry, read, Option.bind_eq_bind, Option.bind_some]
  cases bssid with
  | none => exact ⟨none, rfl⟩
  | some bssid =>
    dsimp only
    generalize lengthIs : UInt16.ofNat frame.length = frameLen
    have inside : frameLen.toNat ≤ frame.length := by
      rw [← lengthIs, UInt16.toNat_ofNat']
      exact Nat.mod_le _ _
    rcases wifi80211GetSsid_inside inside with ⟨r, named, elements⟩
    rw [named, Option.bind_eq_bind, Option.bind_some]
    cases r with
    | none => exact ⟨none, rfl⟩
    | some ssid =>
      have room : ieoffset ≤ frameLen.toNat := (Nat.le_add_right _ _).trans (elements ssid rfl)
      rcases wifi80211GetBssChannel_inside room inside with ⟨channel, tuned⟩
      rcases wifi80211GetCipherInfo_inside room inside with ⟨cipher, ciphers⟩
      dsimp only
      rw [tuned, ciphers, Option.bind_eq_bind, Option.bind_some, Option.bind_eq_bind,
        Option.bind_some]
      exact ⟨_, rfl⟩

theorem wifi80211AplistProcess_iff (routers : List RouterInfo) :
    (∃ r, wifi80211AplistProcess routers frame = some r) ↔ ∃ r, aplistEntry frame = some r := by
  unfold wifi80211AplistProcess
  cases aplistEntry frame with
  | none => exact ⟨nofun, nofun⟩
  | some entry => cases entry <;> exact ⟨fun _ => ⟨_, rfl⟩, fun _ => ⟨_, rfl⟩⟩

end Inside

end Wifi80211

end Tr6260
