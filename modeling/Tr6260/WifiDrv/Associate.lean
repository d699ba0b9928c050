import Tr6260.Tlv
import Tr6260.WifiDrv.Convert

/-!
# The association request

`wpa_driver_nrc_sta_associate` puts the elements of the request one behind the other into a buffer
of 512 bytes. The rates are copied from the beacon of the access point by the lengths they have
there, and no sum of lengths is looked at. A write behind the buffer has no result.
-/

namespace Tr6260

namespace WifiDrv

open Tlv

/-! ## The request -/

/-- `RC_FORMAT_11BGN_MIX_NV` and other values of `g_rc_format_nv`. -/
def rcFormat11bgnMix : Nat := 0
def rcFormat11bOnly : Nat := 1
def rcFormat11nOnly : Nat := 3

/-- `struct wpa_driver_associate_params`, with elements for the pointers to them. -/
structure AssocParams where
  bssid : Mac
  ssid : List UInt8
  ssid_le : ssid.length ≤ 32
  wpaIe : Option Element
  pairwiseSuite : Nat
  groupSuite : Nat
  keyMgmtSuite : Nat
  bssRateIe : Option Element
  bssExtRateIe : Option Element
  bssHtCapIe : Option Element
  htcaps : Option (Vector UInt8 26)

/-- `g_rc_format_nv` and `nv_rate_set`. -/
structure RateNv where
  format : Nat
  rateSet : UInt8

/-- `wpa_driver_is_privacy`, with `WPA_CIPHER_NONE` and `WPA_KEY_MGMT_NONE`. -/
def wpaDriverIsPrivacy (p : AssocParams) : Bool :=
  ¬ (p.wpaIe = none ∧ p.pairwiseSuite = 1 ∧ p.groupSuite = 1 ∧ p.keyMgmtSuite = 4)

/-- `wpa_driver_eid_ssid`. -/
def wpaDriverEidSsid (ssid : List UInt8) : List UInt8 := 0 :: .ofNat ssid.length :: ssid

/-- The `mcs_set` of `wpa_driver_update_rate_set`. -/
def updatedMcsSet (bssHtCapIe : Option Element) (nv : RateNv) : UInt8 :=
  match bssHtCapIe with
  | none => 0xff
  | some ie => if ie.body.length > 6 then ie.body.getD 3 0 &&& nv.rateSet else 0xff

/-- `wpa_driver_eid_supp_rates`. -/
def wpaDriverEidSuppRates (nv : RateNv) (rate : Element) (ext : Option Element) : List UInt8 :=
  let l1 := 2 + rate.body.length
  if nv.format = rcFormat11bOnly then
    if l1 > 6 then [rate.id, 4, 0x82, 0x84, 0x8B, 0x96] else rate.encode
  else
    rate.encode ++ ext.elim [] Element.encode

/-- `wpa_driver_wmm_elem`. -/
def wpaDriverWmmElem : List UInt8 := [221, 7, 0x00, 0x50, 0xf2, 2, 0, 1, 0]

/-- The HT capabilities with what the driver sets. -/
def drivenHtcap (htcap : Vector UInt8 26) (rateSet : UInt8) : Vector UInt8 26 :=
  (htcap.set 2 0x17).set 3 rateSet

/-- The request up to its elements, with `WLAN_CAPABILITY_ESS` and `WLAN_CAPABILITY_PRIVACY`;
duration and sequence number are what the heap shows. -/
def assocFixed (heap : ByteMem) (addr : Mac) (p : AssocParams) : List UInt8 :=
  let capabInfo : UInt8 := if wpaDriverIsPrivacy p then 0x11 else 0x01
  [0, 0] ++ heap.load 2 2 ++ p.bssid.toList ++ addr.toList ++ p.bssid.toList ++ heap.load 22 2 ++
    [capabInfo, 0, 100, 0]

/-- The next bytes of the buffer. -/
def putIe (frame bytes : List UInt8) : Option (List UInt8) :=
  if frame.length + bytes.length ≤ 512 then some (frame ++ bytes) else none

def putRates (nv : RateNv) (p : AssocParams) (frame : List UInt8) : Option (List UInt8) :=
  match p.bssRateIe with
  | none => some frame
  | some rate => putIe frame (wpaDriverEidSuppRates nv rate p.bssExtRateIe)

def putWpaIe (p : AssocParams) (frame : List UInt8) : Option (List UInt8) :=
  match p.wpaIe with
  | none => some frame
  | some wpaIe => putIe frame wpaIe.encode

def putHtcap (nv : RateNv) (p : AssocParams) (rateSet : UInt8) (frame : List UInt8) :
    Option (List UInt8) :=
  match p.htcaps with
  | none => some frame
  | some htcap =>
    if nv.format = rcFormat11bgnMix ∨ nv.format = rcFormat11nOnly then do
      let frame ← putIe frame [45, 26]
      putIe frame (drivenHtcap htcap rateSet).toList
    else
      some frame

/-- `wpa_driver_nrc_sta_associate`: what it hands to `nrc_transmit`, with the interface's own
address. -/
def wpaDriverNrcStaAssociate (heap : ByteMem) (nv : RateNv) (addr : Mac) (p : AssocParams) :
    Option (List UInt8) := do
  let frame ← putIe (assocFixed heap addr p) (wpaDriverEidSsid p.ssid)
  let rateSet := updatedMcsSet p.bssHtCapIe nv
  let frame ← putRates nv p frame
  let frame ← putWpaIe p frame
  let frame ← putHtcap nv p rateSet frame
  putIe frame wpaDriverWmmElem

/-! ## Its elements -/

def AssocParams.ssidElement (p : AssocParams) : Element :=
  ⟨0, p.ssid, Nat.lt_of_le_of_lt p.ssid_le (by decide)⟩

/-- The rates of the access point, or those of 802.11b. -/
def ratesChosen (nv : RateNv) (p : AssocParams) : List Element :=
  match p.bssRateIe with
  | none => []
  | some rate =>
    if nv.format = rcFormat11bOnly then
      if rate.body.length > 4 then [⟨rate.id, [0x82, 0x84, 0x8B, 0x96], by decide⟩] else [rate]
    else
      rate :: p.bssExtRateIe.toList

/-- The HT capabilities, when they are sent. -/
def htElements (nv : RateNv) (p : AssocParams) : List Element :=
  match p.htcaps with
  | none => []
  | some htcap =>
    if nv.format = rcFormat11bgnMix ∨ nv.format = rcFormat11nOnly then
      [⟨45, (drivenHtcap htcap (updatedMcsSet p.bssHtCapIe nv)).toList, by
        rw [Vector.length_toList]
        decide⟩]
    else
      []

def wmmElement : Element := ⟨221, [0x00, 0x50, 0xf2, 2, 0, 1, 0], by decide⟩

/-- The elements that the request should have. -/
def assocElements (nv : RateNv) (p : AssocParams) : List Element :=
  p.ssidElement :: (ratesChosen nv p ++ p.wpaIe.toList ++ htElements nv p ++ [wmmElement])

/-- The length of the request. -/
def assocLength (nv : RateNv) (p : AssocParams) : Nat :=
  let rates := match p.bssRateIe with
    | none => 0
    | some rate =>
      if nv.format = rcFormat11bOnly then min 6 (2 + rate.body.length)
      else 2 + rate.body.length + p.bssExtRateIe.elim 0 fun ext => 2 + ext.body.length
  let ht := if p.htcaps.isSome ∧ (nv.format = rcFormat11bgnMix ∨ nv.format = rcFormat11nOnly) then
    2 + 26 else 0
  28 + (2 + p.ssid.length) + rates + p.wpaIe.elim 0 (fun ie => 2 + ie.body.length) + ht + 9

/-! ## Putting bytes behind one another -/

/-- A step that puts these bytes behind what was put before. -/
def Puts (step : List UInt8 → Option (List UInt8)) (bytes : List UInt8) : Prop :=
  ∀ frame before, (putIe frame before).bind step = putIe frame (before ++ bytes)

theorem puts_none : Puts some [] := by
  intro frame before
  rw [Option.bind_fun_some, List.append_nil]

theorem puts_putIe (bytes : List UInt8) : Puts (putIe · bytes) bytes := by
  intro frame before
  unfold putIe
  by_cases first : frame.length + before.length ≤ 512
  · rw [if_pos first, Option.bind_some, List.length_append, List.length_append, Nat.add_assoc,
      List.append_assoc]
  · rw [if_neg first, Option.bind_none, List.length_append, if_neg (by omega)]

theorem Puts.bind {step step' : List UInt8 → Option (List UInt8)} {bytes bytes' : List UInt8}
    (puts : Puts step bytes) (puts' : Puts step' bytes') :
    Puts (fun frame => (step frame).bind step') (bytes ++ bytes') := by
  intro frame before
  rw [← Option.bind_assoc, puts, puts', List.append_assoc]

section Request

variable (heap : ByteMem) (nv : RateNv) (addr : Mac) (p : AssocParams)

theorem length_assocFixed : (assocFixed heap addr p).length = 28 := by
  simp [assocFixed]

/-- The rates are put as the elements that are chosen. -/
theorem puts_rates : Puts (putRates nv p) (encode (ratesChosen nv p)) := by
  unfold putRates ratesChosen
  cases p.bssRateIe with
  | none => exact puts_none
  | some rate =>
    have same : wpaDriverEidSuppRates nv rate p.bssExtRateIe = encode
        (if nv.format = rcFormat11bOnly then
          if rate.body.length > 4 then [⟨rate.id, [0x82, 0x84, 0x8B, 0x96], by decide⟩] else [rate]
        else rate :: p.bssExtRateIe.toList) := by
      unfold wpaDriverEidSuppRates
      dsimp only
      split
      · by_cases more : rate.body.length > 4
        · rw [if_pos (by omega), if_pos more]
          rfl
        · rw [if_neg (by omega), if_neg more, encode_singleton]
      · cases p.bssExtRateIe with
        | none => rfl
        | some ext =>
          rw [Option.toList_some, encode_cons, encode_singleton]
          rfl
    dsimp only
    rw [← same]
    exact puts_putIe _

theorem puts_wpaIe : Puts (putWpaIe p) (encode p.wpaIe.toList) := by
  unfold putWpaIe
  cases p.wpaIe with
  | none => exact puts_none
  | some ie =>
    rw [Option.toList_some, encode_singleton]
    exact puts_putIe _

theorem puts_htcap : Puts (putHtcap nv p (updatedMcsSet p.bssHtCapIe nv))
    (encode (htElements nv p)) := by
  unfold putHtcap htElements
  cases p.htcaps with
  | none => exact puts_none
  | some htcap =>
    dsimp only
    split
    · have bytes : encode [⟨45, (drivenHtcap htcap (updatedMcsSet p.bssHtCapIe nv)).toList, by
          rw [Vector.length_toList]
          decide⟩] = [45, 26] ++ (drivenHtcap htcap (updatedMcsSet p.bssHtCapIe nv)).toList := by
        rw [encode_singleton, Element.encode]
        dsimp only
        rw [Vector.length_toList]
        rfl
      rw [bytes]
      exact (puts_putIe [45, 26]).bind (puts_putIe _)
    · exact puts_none

/-- All bytes are those of the elements. -/
theorem wpaDriverNrcStaAssociate_eq : wpaDriverNrcStaAssociate heap nv addr p =
    putIe (assocFixed heap addr p) (encode (assocElements nv p)) := by
  have rates := puts_rates nv p
  have wpaIe := puts_wpaIe p
  have htcap := puts_htcap nv p
  have wmm : wpaDriverWmmElem = encode [wmmElement] := rfl
  have ssid : wpaDriverEidSsid p.ssid = p.ssidElement.encode := rfl
  rw [wpaDriverNrcStaAssociate, assocElements, encode_cons, encode_append, encode_append,
    encode_append, ssid, wmm, List.append_assoc, List.append_assoc]
  exact (rates.bind (wpaIe.bind (htcap.bind (puts_putIe _)))) (assocFixed heap addr p)
    p.ssidElement.encode

theorem length_rates : (encode (ratesChosen nv p)).length = match p.bssRateIe with
    | none => 0
    | some rate =>
      if nv.format = rcFormat11bOnly then min 6 (2 + rate.body.length)
      else 2 + rate.body.length + p.bssExtRateIe.elim 0 fun ext => 2 + ext.body.length := by
  unfold ratesChosen
  cases p.bssRateIe with
  | none => rfl
  | some rate =>
    dsimp only
    split
    · by_cases more : rate.body.length > 4
      · rw [if_pos more, Nat.min_eq_left (by omega)]
        rfl
      · rw [if_neg more, Nat.min_eq_right (by omega), encode_singleton, Element.length_encode]
    · cases p.bssExtRateIe with
      | none =>
        rw [Option.toList_none, encode_singleton, Element.length_encode]
        rfl
      | some ext =>
        rw [Option.toList_some, encode_cons, encode_singleton, List.length_append,
          Element.length_encode, Element.length_encode]
        rfl

theorem length_htElements : (encode (htElements nv p)).length =
    if p.htcaps.isSome ∧ (nv.format = rcFormat11bgnMix ∨ nv.format = rcFormat11nOnly) then 2 + 26
    else 0 := by
  unfold htElements
  cases p.htcaps with
  | none => rfl
  | some htcap =>
    dsimp only
    by_cases sent : nv.format = rcFormat11bgnMix ∨ nv.format = rcFormat11nOnly
    · rw [if_pos sent, if_pos ⟨rfl, sent⟩, encode_singleton, Element.length_encode,
        Vector.length_toList]
    · rw [if_neg sent, if_neg fun both => sent both.2]
      rfl

theorem length_assoc : 28 + (encode (assocElements nv p)).length = assocLength nv p := by
  have wpaIe : (encode p.wpaIe.toList).length =
      p.wpaIe.elim 0 fun ie => 2 + ie.body.length := by
    cases p.wpaIe with
    | none => rfl
    | some ie =>
      rw [Option.toList_some, encode_singleton, Element.length_encode]
      rfl
  have ssid : p.ssidElement.encode.length = 2 + p.ssid.length := Element.length_encode _
  have wmm : (encode [wmmElement]).length = 9 := rfl
  rw [assocElements, encode_cons, encode_append, encode_append, encode_append, List.length_append,
    List.length_append, List.length_append, List.length_append, ssid, length_rates, wpaIe,
    length_htElements, wmm]
  unfold assocLength
  dsimp only
  omega

/-- The request stays in its buffer, and its elements are the chosen ones, if all of them are not
longer than the buffer. -/
theorem wpaDriverNrcStaAssociate_fits_iff :
    (∃ frame, wpaDriverNrcStaAssociate heap nv addr p = some frame ∧ frame.length ≤ 512 ∧
      elements (frame.drop 28) = some (assocElements nv p)) ↔ assocLength nv p ≤ 512 := by
  have fixed := length_assocFixed heap addr p
  have length := length_assoc nv p
  rw [wpaDriverNrcStaAssociate_eq, putIe, fixed, length]
  constructor
  · intro ⟨frame, returns, _⟩
    by_contra long
    rw [if_neg long] at returns
    cases returns
  · intro fits
    refine ⟨_, if_pos fits, ?_, ?_⟩
    · rw [List.length_append, fixed, length]
      exact fits
    · rw [List.drop_left' fixed]
      exact elements_encode _

end Request

/-- An element with as many rates as it can hold. -/
def fullRates (id : UInt8) : Element :=
  ⟨id, .replicate 255 0x8c, by
    rw [List.length_replicate]
    decide⟩

theorem length_fullRates (id : UInt8) : (fullRates id).body.length = 255 := List.length_replicate

/-- A request to an access point that advertises two of them. -/
def manyRates : AssocParams where
  bssid := .replicate 6 2
  ssid := .replicate 32 65
  ssid_le := by decide
  wpaIe := none
  pairwiseSuite := 1
  groupSuite := 1
  keyMgmtSuite := 4
  bssRateIe := some (fullRates 1)
  bssExtRateIe := some (fullRates 50)
  bssHtCapIe := none
  htcaps := none

/-- It is 73 bytes longer than its buffer. -/
theorem manyRates_overflows : assocLength ⟨0, 0xff⟩ manyRates = 585 ∧
    wpaDriverNrcStaAssociate (fun _ => 0) ⟨0, 0xff⟩ (.replicate 6 4) manyRates = none := by
  have long : assocLength ⟨0, 0xff⟩ manyRates = 585 := by
    have ssid : manyRates.ssid.length = 32 := List.length_replicate
    have rate : manyRates.bssRateIe = some (fullRates 1) := rfl
    have ext : manyRates.bssExtRateIe = some (fullRates 50) := rfl
    have wpaIe : manyRates.wpaIe = none := rfl
    have htcaps : manyRates.htcaps = none := rfl
    simp [assocLength, ssid, rate, ext, wpaIe, htcaps, length_fullRates, rcFormat11bOnly]
  refine ⟨long, ?_⟩
  rw [wpaDriverNrcStaAssociate_eq, putIe, length_assocFixed, length_assoc, long]
  rfl

end WifiDrv

end Tr6260
