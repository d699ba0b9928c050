import Mathlib.Data.Nat.Bitwise
import Tr6260.Wifi80211.Beacon

/-!
# Frames that the monitor hands over

`easyjoin_callback` on the bytes of a frame, up to the call of a parser. It has no result where the
frame is read outside of its bytes, where `len_fixed_offset` is read behind its end, and where an
address is compared through a `NULL`.
-/

namespace Tr6260

namespace Wifi80211

/-! ## The callback -/

/-- The call of a parser, or none. -/
inductive Handover
  | nothing
  | broadcast (fromDs : Bool) (bssid saMac : Mac) (len : Int)
  | multicast (bssid : Mac) (dsMac : DsMac) (saMac : Mac) (len : Int)

/-- The cipher guessed from a frame with a header of `hdrlen` bytes; `some none` for a frame that is
left. -/
def guessCipher (fc : UInt16) (frame : List UInt8) (hdrlen : Nat) : Option (Option UInt8) :=
  if wifi80211HasProtected fc = false then
    some (some encTypeNone)
  else if frame.length - hdrlen < 8 then
    some none
  else do
    let keyId ← frame[3]?
    if keyId &&& 0x3F = 0 then
      some (some encTypeWep)
    else
      let flags ← frame[hdrlen + 3]?
      if flags &&& 0x20 ≠ 0 then
        let tsc1 ← frame[hdrlen]?
        let seed ← frame[hdrlen + 1]?
        let reserved ← frame[hdrlen + 2]?
        if reserved = 0 ∧ flags &&& 0x0F = 0 then some (some encTypeAes)
        else if seed = (tsc1 ||| 0x20) &&& 0x7F then some (some encTypeTkip)
        else some (some encTypeInvalid)
      else
        some (some encTypeInvalid)

/-- The cipher the list has for the direction of a frame. -/
def listedCipher (routers : List RouterInfo) (bssid : Mac) (fc : UInt16) : Option UInt8 :=
  match getApInfo routers bssid with
  | none => none
  | some apInfo =>
    let encry := if wifi80211HasTods fc then apInfo.encry.2 else apInfo.encry.1
    if encry ≠ encTypeInvalid then some encry else none

/-- `encry`, from the list or from the frame. -/
def cipherOf (routers : List RouterInfo) (bssid : Mac) (fc : UInt16) (frame : List UInt8)
    (hdrlen : Nat) : Option (Option UInt8) :=
  match listedCipher routers bssid fc with
  | some encry => some (some encry)
  | none => guessCipher fc frame hdrlen

/-- `len_fixed_offset[encry][0]`. -/
def lenFixedOffset? (encry : UInt8) : Option Nat := [36, 44, 56, 52, 56][encry.toNat]?

/-- The call for a frame to the broadcast or to a multicast address. -/
def handOver (fc : UInt16) (frame : List UInt8) (bssidMac daMac : Mac) (len : Int) :
    Option Handover :=
  if daMac = broadcastMac then
    if wifi80211HasTods fc then
      (macAt frame (wifi80211GetSA fc)).map fun saMac => .broadcast false bssidMac saMac len
    else if wifi80211HasFromds fc then
      (macAt frame (wifi80211GetSA fc)).map fun saMac => .broadcast true bssidMac saMac len
    else
      some .nothing
  else if isMulticastMac daMac then
    (macAt frame (wifi80211GetSA fc)).map fun saMac =>
      .multicast bssidMac (.ofMac daMac) saMac len
  else
    some .nothing

/-- `easyjoin_callback` of a data frame. -/
def easyjoinData (routers : List RouterInfo) (fc : UInt16) (frame : List UInt8) :
    Option Handover := do
  let hdrlen := wifi80211Hdrlen fc
  let bssid ← wifi80211GetBSSID fc
  let bssidMac ← macAt frame bssid
  let encry ← cipherOf routers bssidMac fc frame hdrlen
  match encry with
  | none => some .nothing
  | some encry =>
    let offset ← lenFixedOffset? encry
    let len : Int := (frame.length - hdrlen : Nat) - offset
    if wifi80211IsRetry fc then
      some .nothing
    else
      let daMac ← macAt frame (wifi80211GetDA fc)
      handOver fc frame bssidMac daMac len

/-- The list behind a frame. -/
def easyjoinList (routers : List RouterInfo) (fc : UInt16) (frame : List UInt8) :
    Option (List RouterInfo) :=
  if wifi80211IsBeacon fc || wifi80211IsProbeResp fc then wifi80211AplistProcess routers frame
  else some routers

/-- `easyjoin_callback`: the list of access points, and the call of a parser. -/
def sniff (routers : List RouterInfo) (findPhone : FindPhone) (frame : List UInt8) :
    Option (List RouterInfo × Handover) := do
  let fc ← le16 frame 0
  if wifi80211HasFrags fc then
    some (routers, .nothing)
  else
    let routers ← easyjoinList routers fc frame
    if findPhone ≠ .notActive then
      some (routers, .nothing)
    else if wifi80211IsDataExact fc = false then
      some (routers, .nothing)
    else if wifi80211Hdrlen fc > frame.length then
      some (routers, .nothing)
    else
      (easyjoinData routers fc frame).map fun handed => (routers, handed)

/-! ## Bits of the header -/

section Header

variable {fc : UInt16}

theorem hasA4_eq (fc : UInt16) :
    wifi80211HasA4 fc = (wifi80211HasTods fc && wifi80211HasFromds fc) := by
  have toNat (mask : UInt16) : (fc &&& mask).toNat = fc.toNat &&& mask.toNat :=
    UInt16.toNat_and fc mask
  have tods : (fc &&& 0x0100).toNat = (fc.toNat.testBit 8).toNat * 2 ^ 8 :=
    (toNat 0x0100).trans (Nat.and_two_pow fc.toNat 8)
  have fromds : (fc &&& 0x0200).toNat = (fc.toNat.testBit 9).toNat * 2 ^ 9 :=
    (toNat 0x0200).trans (Nat.and_two_pow fc.toNat 9)
  have both : (fc &&& 0x0300).toNat =
      (fc.toNat.testBit 8).toNat * 2 ^ 8 ||| (fc.toNat.testBit 9).toNat * 2 ^ 9 := by
    rw [toNat, ← Nat.and_two_pow, ← Nat.and_two_pow, ← Nat.and_or_distrib_left]
    rfl
  unfold wifi80211HasA4 wifi80211HasTods wifi80211HasFromds hasBit
  simp only [← UInt16.toNat_inj, ne_eq, tods, fromds, both]
  cases fc.toNat.testBit 8 <;> cases fc.toNat.testBit 9 <;> rfl

theorem isDataExact_isData (exact_ : wifi80211IsDataExact fc = true) :
    wifi80211IsData fc = true := by
  have narrow : fc &&& 0x000c = (fc &&& 0x00fc) &&& 0x000c := by rw [UInt16.and_assoc]; rfl
  unfold wifi80211IsData
  rw [narrow]
  simp only [wifi80211IsDataExact, isType, Bool.or_eq_true, decide_eq_true_eq] at exact_
  rcases exact_ with type | type <;> rw [type] <;> rfl

theorem isDataExact_not_beacon (exact_ : wifi80211IsDataExact fc = true) :
    (wifi80211IsBeacon fc || wifi80211IsProbeResp fc) = false := by
  simp only [wifi80211IsDataExact, isType, Bool.or_eq_true, decide_eq_true_eq] at exact_
  unfold wifi80211IsBeacon wifi80211IsProbeResp isType
  rcases exact_ with type | type <;> rw [type] <;> rfl

/-- The addresses of a data frame lie in its header. -/
theorem hdrlen_addresses (exact_ : wifi80211IsDataExact fc = true) : 24 ≤ wifi80211Hdrlen fc := by
  rw [wifi80211Hdrlen, if_pos (isDataExact_isData exact_)]
  split <;> omega

end Header

/-! ## Lists that frames build -/

/-- The lists that frames build. The first entry is memory from the heap, of which only the link is
set. -/
inductive Listed (head : RouterInfo) : List RouterInfo → Prop
  | init : Listed head [head]
  | frame {routers routers' : List RouterInfo} {findPhone : FindPhone} {frame : List UInt8}
    {handed : Handover} (listed : Listed head routers)
    (ran : sniff routers findPhone frame = some (routers', handed)) : Listed head routers'

/-- A value of `ENC_TYPE_`. -/
def IsCipher (encry : UInt8) : Prop := encry ≤ encTypeTkipaes ∨ encry = encTypeInvalid

/-- The head, and entries with ciphers that are known or marked as not known. -/
def WithCiphers (head : RouterInfo) (routers : List RouterInfo) : Prop :=
  ∃ rest, routers = head :: rest ∧ ∀ info ∈ rest, IsCipher info.encry.1 ∧ IsCipher info.encry.2

section Lists

variable {head : RouterInfo} {routers routers' : List RouterInfo}

theorem isCipher_known (cipher : UInt8) :
    IsCipher (if cipher > encTypeTkipaes then encTypeInvalid else cipher) := by
  split
  case isTrue => exact .inr rfl
  case isFalse small => exact .inl (UInt8.not_lt.mp small)

theorem IsCipher.tods {cipher : UInt8} (known : IsCipher cipher) :
    IsCipher (if cipher = encTypeTkipaes then encTypeAes else cipher) := by
  split
  · exact .inl (by decide)
  · exact known

theorem WithCiphers.saveAplist (ciphers : WithCiphers head routers) (entry : RouterInfo) :
    WithCiphers head (saveAplist routers entry) := by
  rcases ciphers with ⟨rest, rfl, each⟩
  unfold Tr6260.saveAplist
  dsimp only
  split
  · exact ⟨rest, rfl, each⟩
  · refine ⟨rest ++ [_], rfl, fun info mem => ?_⟩
    rcases List.mem_append.mp mem with old | new
    · exact each info old
    · cases List.mem_singleton.mp new
      exact ⟨isCipher_known entry.encry.1, (isCipher_known entry.encry.2).tods⟩

theorem WithCiphers.easyjoinList (ciphers : WithCiphers head routers) {fc : UInt16}
    {frame : List UInt8} (ran : easyjoinList routers fc frame = some routers') :
    WithCiphers head routers' := by
  unfold Wifi80211.easyjoinList at ran
  split at ran
  · rcases Option.bind_eq_some_iff.mp ran with ⟨entry, -, saved⟩
    cases entry with
    | none =>
      cases saved
      exact ciphers
    | some entry =>
      cases saved
      exact ciphers.saveAplist entry
  · cases ran
    exact ciphers

/-- A frame changes the list as `easyjoinList` does, or not at all. -/
theorem sniff_list {findPhone : FindPhone} {frame : List UInt8} {handed : Handover}
    (ran : sniff routers findPhone frame = some (routers', handed)) :
    routers' = routers ∨ ∃ fc, easyjoinList routers fc frame = some routers' := by
  rcases Option.bind_eq_some_iff.mp ran with ⟨fc, -, ran⟩
  split at ran
  · cases ran
    exact .inl rfl
  rcases Option.bind_eq_some_iff.mp ran with ⟨built, listed, ran⟩
  refine .inr ⟨fc, ?_⟩
  split at ran
  · cases ran
    exact listed
  split at ran
  · cases ran
    exact listed
  split at ran
  · cases ran
    exact listed
  rcases Option.map_eq_some_iff.mp ran with ⟨handed, -, same⟩
  cases same
  exact listed

theorem Listed.withCiphers (listed : Listed head routers) : WithCiphers head routers := by
  induction listed with
  | init => exact ⟨[], rfl, nofun⟩
  | frame listed ran ih =>
    rcases sniff_list ran with rfl | ⟨fc, built⟩
    · exact ih
    · exact ih.easyjoinList built

end Lists

/-! ## Frames without a fault -/

/-- The first two bytes. -/
def frameControl (frame : List UInt8) : UInt16 :=
  (frame.getD 0 0).toUInt16 ||| (frame.getD 1 0).toUInt16 <<< 8

/-- The guess finds a cipher, or leaves the frame. -/
def Guessable (fc : UInt16) (frame : List UInt8) (hdrlen : Nat) : Prop :=
  wifi80211HasProtected fc = false ∨ frame.length < hdrlen + 8 ∨ frame.getD 3 0 &&& 0x3F = 0 ∨
    frame.getD (hdrlen + 3) 0 &&& 0x20 ≠ 0 ∧
      (frame.getD (hdrlen + 2) 0 = 0 ∧ frame.getD (hdrlen + 3) 0 &&& 0x0F = 0 ∨
        frame.getD (hdrlen + 1) 0 = (frame.getD hdrlen 0 ||| 0x20) &&& 0x7F)

/-- A data frame with one address of an access point, which is not the one that the unset first
entry happens to have with a stray cipher, and whose cipher is listed or can be guessed. -/
structure DataSound (head : RouterInfo) (routers : List RouterInfo) (fc : UInt16)
    (frame : List UInt8) : Prop where
  notA4 : wifi80211HasA4 fc = false
  headQuiet : ∀ bssid, wifi80211GetBSSID fc = some bssid → macAt frame bssid = some head.bssid →
    IsCipher (if wifi80211HasTods fc then head.encry.2 else head.encry.1)
  told : ∀ bssid mac, wifi80211GetBSSID fc = some bssid → macAt frame bssid = some mac →
    listedCipher routers mac fc = none → Guessable fc frame (wifi80211Hdrlen fc)

/-- A frame that is handled without a fault. -/
structure FrameSound (head : RouterInfo) (routers : List RouterInfo) (findPhone : FindPhone)
    (frame : List UInt8) : Prop where
  bssid : wifi80211HasFrags (frameControl frame) = false →
    (wifi80211IsBeacon (frameControl frame) || wifi80211IsProbeResp (frameControl frame)) = true →
    ∀ at_, wifi80211GetBSSID (frameControl frame) = some at_ → at_ + 6 ≤ frame.length
  data : wifi80211HasFrags (frameControl frame) = false → findPhone = .notActive →
    wifi80211IsDataExact (frameControl frame) = true →
    wifi80211Hdrlen (frameControl frame) ≤ frame.length →
    DataSound head routers (frameControl frame) frame

section Sound

variable {head : RouterInfo} {routers : List RouterInfo} {fc : UInt16} {frame : List UInt8}
  {hdrlen : Nat}

theorem getElem?_getD {i : Nat} (inside : i < frame.length) :
    frame[i]? = some (frame.getD i 0) := by
  rw [List.getD_eq_getElem?_getD, List.getElem?_eq_getElem inside, Option.getD_some]

theorem le16_frameControl (two : 2 ≤ frame.length) : le16 frame 0 = some (frameControl frame) := by
  rw [le16, getElem?_getD (by omega), getElem?_getD (by omega)]
  rfl

theorem lenFixedOffset?_iff {encry : UInt8} :
    (∃ offset, lenFixedOffset? encry = some offset) ↔ encry ≤ encTypeTkipaes := by
  have small : encry ≤ encTypeTkipaes ↔ encry.toNat < [36, 44, 56, 52, 56].length :=
    UInt8.le_iff_toNat_le.trans Nat.lt_succ_iff.symm
  rw [small, lenFixedOffset?]
  constructor
  · rintro ⟨offset, read⟩
    exact (List.getElem?_eq_some_iff.mp read).1
  · exact fun inside => ⟨_, List.getElem?_eq_getElem inside⟩

/-- The cipher, if the frame has one, is in the table. -/
def InTable (encry : Option UInt8) : Prop := ∀ c, encry = some c → c ≤ encTypeTkipaes

theorem guessCipher_spec (fc : UInt16) (header : 4 ≤ hdrlen) (whole : hdrlen ≤ frame.length) :
    ∃ encry, guessCipher fc frame hdrlen = some encry ∧
      (InTable encry ↔ Guessable fc frame hdrlen) := by
  have known {c : UInt8} (small : c ≤ encTypeTkipaes) : InTable (some c) := by
    rintro _ ⟨⟩
    exact small
  have unknown : ¬ InTable (some encTypeInvalid) := fun all => absurd (all _ rfl) (by decide)
  unfold guessCipher Guessable
  by_cases protected_ : wifi80211HasProtected fc = false
  · rw [if_pos protected_]
    exact ⟨_, rfl, iff_of_true (known (by decide)) (.inl protected_)⟩
  rw [if_neg protected_]
  by_cases short : frame.length - hdrlen < 8
  · rw [if_pos short]
    exact ⟨_, rfl, iff_of_true nofun (.inr (.inl (by omega)))⟩
  rw [if_neg short, getElem?_getD (by omega : 3 < frame.length), Option.bind_eq_bind,
    Option.bind_some]
  by_cases wep : frame.getD 3 0 &&& 0x3F = 0
  · rw [if_pos wep]
    exact ⟨_, rfl, iff_of_true (known (by decide)) (.inr (.inr (.inl wep)))⟩
  rw [if_neg wep, getElem?_getD (by omega : hdrlen + 3 < frame.length), Option.bind_some]
  have rest (told : Prop) : (wifi80211HasProtected fc = false ∨ frame.length < hdrlen + 8 ∨
      frame.getD 3 0 &&& 0x3F = 0 ∨ told) ↔ told := by
    rw [or_iff_right protected_, or_iff_right (by omega), or_iff_right wep]
  rw [rest]
  by_cases extended : frame.getD (hdrlen + 3) 0 &&& 0x20 ≠ 0
  · rw [if_pos extended, getElem?_getD (by omega : hdrlen < frame.length),
      getElem?_getD (by omega : hdrlen + 1 < frame.length),
      getElem?_getD (by omega : hdrlen + 2 < frame.length), Option.bind_some, Option.bind_some,
      Option.bind_some, and_iff_right extended]
    split
    case isTrue aes => exact ⟨_, rfl, iff_of_true (known (by decide)) (.inl aes)⟩
    case isFalse notAes =>
    split
    case isTrue tkip => exact ⟨_, rfl, iff_of_true (known (by decide)) (.inr tkip)⟩
    case isFalse notTkip =>
      exact ⟨_, rfl, iff_of_false unknown fun told => told.elim notAes notTkip⟩
  · rw [if_neg extended]
    exact ⟨_, rfl, iff_of_false unknown fun told => extended told.1⟩

/-- What the list has is in the table, unless it comes from the first entry. -/
theorem listedCipher_known (ciphers : WithCiphers head routers) {mac : Mac} {c : UInt8}
    (listed : listedCipher routers mac fc = some c) :
    c ≤ encTypeTkipaes ∨ head.bssid = mac ∧
      c = (if wifi80211HasTods fc then head.encry.2 else head.encry.1) ∧ c ≠ encTypeInvalid := by
  rcases ciphers with ⟨rest, rfl, each⟩
  unfold listedCipher at listed
  split at listed
  · cases listed
  next apInfo found =>
  dsimp only at listed
  by_cases set : (if wifi80211HasTods fc then apInfo.encry.2 else apInfo.encry.1) = encTypeInvalid
  · rw [if_neg (not_not.mpr set)] at listed
    cases listed
  rw [if_pos set] at listed
  cases listed
  unfold getApInfo at found
  have meets := List.find?_some found
  have same : apInfo.bssid = mac := of_decide_eq_true meets
  rcases List.mem_cons.mp (List.mem_of_find?_eq_some found) with rfl | mem
  · exact .inr ⟨same, rfl, set⟩
  left
  rcases each apInfo mem with ⟨group, pairwise⟩
  by_cases tods : wifi80211HasTods fc = true
  · rw [if_pos tods] at set ⊢
    exact pairwise.resolve_right set
  · rw [if_neg tods] at set ⊢
    exact group.resolve_right set

/-- The first entry is the one that is found for its own address. -/
theorem listedCipher_head (ciphers : WithCiphers head routers)
    (set : (if wifi80211HasTods fc then head.encry.2 else head.encry.1) ≠ encTypeInvalid) :
    listedCipher routers head.bssid fc =
      some (if wifi80211HasTods fc then head.encry.2 else head.encry.1) := by
  rcases ciphers with ⟨rest, rfl, -⟩
  have first : getApInfo (head :: rest) head.bssid = some head :=
    List.find?_cons_of_pos (decide_eq_true rfl)
  unfold listedCipher
  rw [first]
  exact if_pos set

theorem cipherOf_spec (fc : UInt16) (ciphers : WithCiphers head routers) (mac : Mac)
    (header : 4 ≤ hdrlen) (whole : hdrlen ≤ frame.length) :
    ∃ encry, cipherOf routers mac fc frame hdrlen = some encry ∧
      (InTable encry ↔
        (mac = head.bssid → IsCipher (if wifi80211HasTods fc then head.encry.2 else head.encry.1)) ∧
          (listedCipher routers mac fc = none → Guessable fc frame hdrlen)) := by
  unfold cipherOf
  cases listed : listedCipher routers mac fc with
  | some c =>
    refine ⟨some c, rfl, fun inTable => ⟨?_, nofun⟩, fun sound => ?_⟩
    · rintro rfl
      by_cases set : (if wifi80211HasTods fc then head.encry.2 else head.encry.1) = encTypeInvalid
      · exact .inr set
      · rw [listedCipher_head ciphers set] at listed
        exact .inl (inTable _ listed.symm)
    · rintro _ ⟨⟩
      rcases listedCipher_known ciphers listed with known | ⟨same, here, set⟩
      · exact known
      · rw [here]
        exact (sound.1 same.symm).resolve_right (here ▸ set)
  | none =>
    rcases guessCipher_spec fc header whole with ⟨encry, guessed, inTable⟩
    refine ⟨encry, guessed, inTable.trans ⟨fun guessable => ⟨?_, fun _ => guessable⟩, ?_⟩⟩
    · rintro rfl
      by_contra stray
      rw [listedCipher_head ciphers fun invalid => stray (.inr invalid)] at listed
      cases listed
    · exact fun sound => sound.2 rfl

/-- The places of the addresses. -/
theorem wifi80211GetBSSID_le {at_ : Nat} (there : wifi80211GetBSSID fc = some at_) : at_ ≤ 16 := by
  unfold wifi80211GetBSSID at there
  split at there
  · split at there <;> cases there
    decide
  split at there <;> cases there <;> decide

theorem wifi80211GetDA_le (fc : UInt16) : wifi80211GetDA fc ≤ 16 := by
  unfold wifi80211GetDA
  split <;> decide

theorem wifi80211GetSA_le (notA4 : wifi80211HasA4 fc = false) : wifi80211GetSA fc ≤ 16 := by
  rw [wifi80211GetSA, if_neg (by rw [notA4]; decide)]
  split <;> decide

/-- Only a frame with both bits has no address of an access point. -/
theorem wifi80211GetBSSID_iff : (∃ at_, wifi80211GetBSSID fc = some at_) ↔
    wifi80211HasA4 fc = false := by
  rw [hasA4_eq]
  unfold wifi80211GetBSSID
  cases wifi80211HasTods fc <;> cases wifi80211HasFromds fc <;>
    simp only [Bool.and_true, Bool.and_false, Bool.false_eq_true, if_false, if_true, reduceCtorEq,
      exists_false, exists_eq', Option.some.injEq]

theorem handOver_inside (notA4 : wifi80211HasA4 fc = false) (whole : 24 ≤ frame.length)
    (bssidMac daMac : Mac) (len : Int) :
    ∃ handed, handOver fc frame bssidMac daMac len = some handed := by
  have place := wifi80211GetSA_le notA4
  rcases macAt_iff.mpr (by omega : wifi80211GetSA fc + 6 ≤ frame.length) with ⟨saMac, read⟩
  unfold handOver
  rw [read]
  split
  · split
    · exact ⟨_, rfl⟩
    split <;> exact ⟨_, rfl⟩
  split <;> exact ⟨_, rfl⟩

theorem easyjoinData_iff (ciphers : WithCiphers head routers)
    (exact_ : wifi80211IsDataExact fc = true) (whole : wifi80211Hdrlen fc ≤ frame.length) :
    (∃ handed, easyjoinData routers fc frame = some handed) ↔ DataSound head routers fc frame := by
  have header := hdrlen_addresses exact_
  have long : 24 ≤ frame.length := header.trans whole
  by_cases a4 : wifi80211HasA4 fc = false
  case neg =>
    refine iff_of_false ?_ fun sound => a4 sound.notA4
    rintro ⟨handed, ran⟩
    rcases Option.bind_eq_some_iff.mp ran with ⟨at_, there, -⟩
    exact a4 (wifi80211GetBSSID_iff.mp ⟨at_, there⟩)
  rcases wifi80211GetBSSID_iff.mpr a4 with ⟨at_, there⟩
  have place := wifi80211GetBSSID_le there
  rcases macAt_iff.mpr (by omega : at_ + 6 ≤ frame.length) with ⟨mac, read⟩
  rcases cipherOf_spec fc ciphers mac (by omega : 4 ≤ wifi80211Hdrlen fc) whole with
    ⟨encry, cipher, inTable⟩
  have sound : DataSound head routers fc frame ↔ InTable encry := by
    rw [inTable]
    constructor
    · intro sound
      refine ⟨fun same => sound.headQuiet at_ there (same ▸ read), sound.told at_ mac there read⟩
    · rintro ⟨quiet, told⟩
      refine ⟨a4, fun at' here mine => quiet ?_, fun at' mac' here mine => ?_⟩
      · cases there.symm.trans here
        exact Option.some.inj (read.symm.trans mine)
      · cases there.symm.trans here
        cases read.symm.trans mine
        exact told
  rw [sound, easyjoinData, there, Option.bind_eq_bind, Option.bind_some, read, Option.bind_eq_bind,
    Option.bind_some, cipher, Option.bind_eq_bind, Option.bind_some]
  cases encry with
  | none => exact iff_of_true ⟨_, rfl⟩ nofun
  | some c =>
    dsimp only
    constructor
    · rintro ⟨handed, ran⟩ _ ⟨⟩
      rcases Option.bind_eq_some_iff.mp ran with ⟨offset, indexed, -⟩
      exact lenFixedOffset?_iff.mp ⟨offset, indexed⟩
    · intro known
      rcases lenFixedOffset?_iff.mpr (known c rfl) with ⟨offset, indexed⟩
      rw [indexed, Option.bind_some]
      split
      · exact ⟨_, rfl⟩
      have daPlace := wifi80211GetDA_le fc
      rcases macAt_iff.mpr (by omega : wifi80211GetDA fc + 6 ≤ frame.length) with ⟨daMac, daRead⟩
      rw [daRead, Option.bind_some]
      exact handOver_inside a4 long mac daMac _

theorem easyjoinList_iff (header : le16 frame 0 = some fc) :
    (∃ routers', easyjoinList routers fc frame = some routers') ↔
      ((wifi80211IsBeacon fc || wifi80211IsProbeResp fc) = true →
        ∀ at_, wifi80211GetBSSID fc = some at_ → at_ + 6 ≤ frame.length) := by
  unfold easyjoinList
  split
  case isTrue beacon =>
    rw [wifi80211AplistProcess_iff, aplistEntry_iff header, forall_prop_of_true beacon]
  case isFalse other => exact iff_of_true ⟨_, rfl⟩ fun beacon => absurd beacon other

/-- A frame is handled without a fault exactly when it is a sound one, with every list that frames
have built. -/
theorem sniff_sound_iff (listed : Listed head routers) (findPhone : FindPhone)
    (two : 2 ≤ frame.length) :
    (∃ r, sniff routers findPhone frame = some r) ↔ FrameSound head routers findPhone frame := by
  have header := le16_frameControl two
  generalize control : frameControl frame = fc at header
  have fields : FrameSound head routers findPhone frame ↔
      (wifi80211HasFrags fc = false →
        (∃ routers', easyjoinList routers fc frame = some routers') ∧
          (findPhone = .notActive → wifi80211IsDataExact fc = true →
            wifi80211Hdrlen fc ≤ frame.length → DataSound head routers fc frame)) := by
    rw [easyjoinList_iff header, ← control]
    exact ⟨fun sound noFrags => ⟨sound.bssid noFrags, sound.data noFrags⟩,
      fun sound => ⟨fun noFrags => (sound noFrags).1, fun noFrags => (sound noFrags).2⟩⟩
  rw [fields, sniff, header, Option.bind_eq_bind, Option.bind_some]
  split
  case isTrue frags =>
    refine iff_of_true ⟨_, rfl⟩ fun noFrags => ?_
    rw [frags] at noFrags
    cases noFrags
  case isFalse noFrags =>
  rw [forall_prop_of_true (Bool.eq_false_iff.mpr noFrags)]
  cases built : easyjoinList routers fc frame with
  | none => exact iff_of_false nofun fun sound => nomatch sound.1
  | some routers' =>
    rw [Option.bind_eq_bind, Option.bind_some, and_iff_right ⟨routers', rfl⟩]
    split
    case isTrue found => exact iff_of_true ⟨_, rfl⟩ fun searching => absurd searching found
    case isFalse searching =>
    split
    case isTrue other =>
      refine iff_of_true ⟨_, rfl⟩ fun _ exact_ => ?_
      rw [other] at exact_
      cases exact_
    case isFalse data =>
    split
    case isTrue short =>
      exact iff_of_true ⟨_, rfl⟩ fun _ _ whole => absurd whole (Nat.not_le.mpr short)
    case isFalse whole =>
      have exact_ : wifi80211IsDataExact fc = true := Bool.not_eq_false _ ▸ data
      have same : routers' = routers := by
        rw [easyjoinList, isDataExact_not_beacon exact_] at built
        exact (Option.some.inj built).symm
      rw [same, forall_prop_of_true (not_not.mp searching), forall_prop_of_true exact_,
        forall_prop_of_true (Nat.not_lt.mp whole),
        ← easyjoinData_iff listed.withCiphers exact_ (Nat.not_lt.mp whole)]
      cases easyjoinData routers fc frame with
      | none => exact iff_of_false nofun nofun
      | some handed => exact iff_of_true ⟨_, rfl⟩ ⟨_, rfl⟩

end Sound

/-- An access point that the heap left. -/
def strayRouter : RouterInfo := ⟨0, 0, (0xff, 0xff), #v[1, 2, 3, 4, 5, 6], .ofBytes []⟩

/-- An open frame of an access point, with an empty body. -/
def openFrame : List UInt8 := [0x08, 0x02] ++ List.replicate 22 0

theorem sniff_sound_openFrame : ∃ r, sniff [strayRouter] .notActive openFrame = some r := by
  refine (sniff_sound_iff .init .notActive (by decide)).mpr ⟨?_, fun _ _ _ _ => ⟨by decide, ?_, ?_⟩⟩
  · exact fun _ beacon => absurd beacon (by decide)
  · exact fun _ _ _ => .inr rfl
  · exact fun _ _ _ _ _ => .inl (by decide)

/-- A frame with a cipher that is not told: the extended vector is not there, and the key is not the
first. -/
def protectedFrame : List UInt8 := [0x08, 0x42, 0, 1] ++ List.replicate 28 0

theorem sniff_protectedFrame : ¬ ∀ head routers, Listed head routers →
    ∀ findPhone frame, 2 ≤ frame.length → ∃ r, sniff routers findPhone frame = some r := by
  intro all
  rcases all strayRouter _ .init .notActive protectedFrame (by decide) with ⟨r, ran⟩
  have fault : sniff [strayRouter] .notActive protectedFrame = none := by decide
  rw [fault] at ran
  cases ran

end Wifi80211

end Tr6260
