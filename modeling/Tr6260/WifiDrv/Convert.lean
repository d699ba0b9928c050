import Tr6260.WifiDrv.Layout

/-!
# From 802.11 back to Ethernet

`nrc_wpa_to_8023` undoes what `nrc_transmit_from_8023_mb` does: the receiver finds out from the frame
control field and from its own keys how long the headers are.
-/

namespace Tr6260

namespace WifiDrv

/-! ## Receiving -/

/-- `struct nrc_wpa_rx_data`; `len` and `offset8023` are `uint16_t`. -/
structure RxData where
  frame : List UInt8
  len : Nat
  is8023 : Bool
  offset8023 : Nat

/-- The frame control field. -/
def frameControl (frame : List UInt8) : Nat :=
  (frame.getD 0 0).toNat + 2 ^ 8 * (frame.getD 1 0).toNat

/-- Where the LLC header is looked for. -/
def rxPayload (intf : WpaIf) (frame : List UInt8) : Nat :=
  let fc := frameControl frame
  24 + (if fc &&& (8 <<< 4) ≠ 0 then 2 else 0) +
    (if fc &&& wlanFcIswep ≠ 0 then
      nrcGetSecHdrLen ((nrcWpaGetKey intf (some (macAt frame 10))).bind intf.keyAt) else 0)

/-- `nrc_wpa_to_8023`: its result and what it leaves. A frame that ends in front of its LLC header
has no result. -/
def nrcWpaTo8023 (intf : WpaIf) (rx : RxData) : Option (Int × RxData) :=
  let fc := frameControl rx.frame
  let payload := rxPayload intf rx.frame
  let toDs := fc &&& wlanFcTods ≠ 0
  let fromDs := fc &&& wlanFcFromds ≠ 0
  if toDs ∧ fromDs then some (-1, rx)
  else if toDs ∧ ¬ fromDs ∧ intf.isAp = false then some (-1, rx)
  else if rx.frame.length < payload + 8 then none
  else
    let dest := if toDs then macAt rx.frame 16 else macAt rx.frame 4
    let src := if toDs then macAt rx.frame 10 else macAt rx.frame 16
    let llc := (rx.frame.drop payload).take 6
    let type := (rx.frame.drop (payload + 6)).take 2
    let host := (type.getD 0 0).toNat <<< 8 ||| (type.getD 1 0).toNat
    let known := (llc = rfc1042Header ∧ (host ≠ ethPAarp ∨ host ≠ ethPIpx)) ∨
      llc = bridgeTunnelHeader
    let offset := if known then payload - hlen8023 + 8 else payload - hlen8023
    let type := if known then type else [0, 0]
    let ehdr := dest.toList ++ src.toList ++ type
    some (0,
      { frame := rx.frame.take offset ++ ehdr ++ rx.frame.drop (offset + hlen8023)
        len := (rx.len + 2 ^ 16 - offset) % 2 ^ 16
        is8023 := true
        offset8023 := offset })

/-! ## Addresses in a frame -/

/-- An address that was written is read. -/
theorem macAt_middle (front behind : List UInt8) (mac : Mac) {offset : Nat}
    (place : front.length = offset) : macAt (front ++ mac.toList ++ behind) offset = mac := by
  apply Vector.ext
  intro i low
  unfold macAt
  rw [Vector.getElem_ofFn]
  rw [List.append_assoc, List.getD_append_right _ _ _ _ (by omega), place, Nat.add_sub_cancel_left,
    List.getD_append _ _ _ _ (by rw [Vector.length_toList]; exact low)]
  rw [List.getD_eq_getElem _ _ (by rw [Vector.length_toList]; exact low)]
  exact Vector.getElem_toList ..

/-- An address that is read is the bytes there. -/
theorem toList_macAt {bytes : List UInt8} {offset : Nat} (long : offset + 6 ≤ bytes.length) :
    (macAt bytes offset).toList = (bytes.drop offset).take 6 := by
  apply List.ext_getElem
  · rw [Vector.length_toList, List.length_take, List.length_drop]
    omega
  · intro i low high
    rw [Vector.length_toList] at low
    rw [Vector.getElem_toList, List.getElem_take, List.getElem_drop]
    unfold macAt
    rw [Vector.getElem_ofFn, List.getD_eq_getElem _ _ (by omega)]

/-! ## Keys of one cipher -/

/-- All keys of an interface have one cipher. -/
structure UsesCipher (intf : WpaIf) (cipher : Cipher) : Prop where
  group : intf.bss.broadcastKey.cipher = cipher
  own : intf.sta.key.cipher = cipher
  pairwise : ∀ i sta, intf.apSta i = some sta → sta.key.cipher = cipher

theorem staAt_of_findSta {intf : WpaIf} {addr : Mac} {ref : StaRef}
    (found : nrcWpaFindSta intf addr = some ref) : ∃ sta, intf.staAt ref = some sta := by
  cases ref with
  | sta => exact ⟨_, rfl⟩
  | ap i =>
    rw [nrcWpaFindSta] at found
    split at found
    · cases found
    · split at found
      · cases found
      · rcases Option.map_eq_some_iff.mp found with ⟨j, first, same⟩
        cases same
        have there := List.find?_some first
        change ∃ sta, intf.apSta i = some sta
        cases slot : intf.apSta i with
        | none =>
          rw [slot] at there
          cases there
        | some sta => exact ⟨sta, rfl⟩

/-- The key for a peer that is known. -/
theorem getKey_cipher {intf : WpaIf} {cipher : Cipher} (uses : UsesCipher intf cipher) {addr : Mac}
    (known : intf.isAp = true → (nrcWpaFindSta intf addr).isSome) :
    ∃ key, (nrcWpaGetKey intf (some addr)).bind intf.keyAt = some key ∧ key.cipher = cipher := by
  rw [nrcWpaGetKey]
  split
  · exact ⟨_, rfl, uses.group⟩
  · split
    · exact ⟨_, rfl, uses.group⟩
    · split
      · exact ⟨_, rfl, uses.own⟩
      · rename_i ap
        rcases Option.isSome_iff_exists.mp (known (eq_true_of_ne_false ap)) with
          ⟨ref, found⟩
        rcases staAt_of_findSta found with ⟨sta, there⟩
        rw [found]
        refine ⟨sta.key, ?_, ?_⟩
        · change (intf.staAt ref).map (·.key) = _
          rw [there]
          rfl
        · cases ref with
          | sta =>
            cases there
            exact uses.own
          | ap i => exact uses.pairwise i sta there

theorem nrcGetSecHdrLen_cipher {key other : WpaKey} (same : key.cipher = other.cipher) :
    nrcGetSecHdrLen (some key) = nrcGetSecHdrLen (some other) := by
  unfold nrcGetSecHdrLen
  dsimp only
  rw [same]

/-! ## What the receiver reads -/

/-- The frame control field of a header. -/
def hdrControl (ap wep qos : Bool) : Nat :=
  let fc := if qos then fcQosData else fcData
  let fc := if ap then fc ||| wlanFcFromds else fc ||| wlanFcTods
  if wep then fc ||| wlanFcIswep else fc

/-- Its bits are found again in its two bytes. -/
theorem hdrControl_bits : ∀ ap wep qos : Bool,
    let fc := frameControl [.ofNat (hdrControl ap wep qos), .ofNat (hdrControl ap wep qos >>> 8)]
    (fc &&& (8 <<< 4) ≠ 0 ↔ qos = true) ∧ (fc &&& wlanFcIswep ≠ 0 ↔ wep = true) ∧
      (fc &&& wlanFcTods ≠ 0 ↔ ap = false) ∧ (fc &&& wlanFcFromds ≠ 0 ↔ ap = true) := by
  decide

theorem nrcGet80211Hdr_eq (intf : WpaIf) (dest src : Mac) (key : Option WpaKey) (qos : Bool) :
    nrcGet80211Hdr intf dest src key qos =
      [.ofNat (hdrControl intf.isAp (key.any (·.cipher ≠ .none)) qos),
        .ofNat (hdrControl intf.isAp (key.any (·.cipher ≠ .none)) qos >>> 8), 0, 0] ++
      (if intf.isAp then dest.toList ++ intf.bss.bssid.toList ++ src.toList
        else intf.bss.bssid.toList ++ src.toList ++ dest.toList) ++ [0, 0] := rfl

theorem frameControl_hdr (intf : WpaIf) (dest src : Mac) (key : Option WpaKey) (qos : Bool)
    (behind : List UInt8) :
    let fc := frameControl (nrcGet80211Hdr intf dest src key qos ++ behind)
    (fc &&& (8 <<< 4) ≠ 0 ↔ qos = true) ∧
      (fc &&& wlanFcIswep ≠ 0 ↔ key.any (·.cipher ≠ .none) = true) ∧
      (fc &&& wlanFcTods ≠ 0 ↔ intf.isAp = false) ∧
      (fc &&& wlanFcFromds ≠ 0 ↔ intf.isAp = true) := by
  intro fc
  have bits := hdrControl_bits intf.isAp (key.any (·.cipher ≠ .none)) qos
  have written : fc = frameControl
      [.ofNat (hdrControl intf.isAp (key.any (·.cipher ≠ .none)) qos),
        .ofNat (hdrControl intf.isAp (key.any (·.cipher ≠ .none)) qos >>> 8)] := by
    change frameControl (nrcGet80211Hdr intf dest src key qos ++ behind) = _
    rw [nrcGet80211Hdr_eq]
    generalize hdrControl intf.isAp (key.any (·.cipher ≠ .none)) qos = control
    rfl
  rw [written]
  exact bits

/-- The addresses of a header. -/
theorem macAt_hdr (intf : WpaIf) (dest src : Mac) (key : Option WpaKey) (qos : Bool)
    (behind : List UInt8) :
    let frame := nrcGet80211Hdr intf dest src key qos ++ behind
    macAt frame 4 = (if intf.isAp then dest else intf.bss.bssid) ∧
      macAt frame 10 = (if intf.isAp then intf.bss.bssid else src) ∧
      macAt frame 16 = if intf.isAp then src else dest := by
  intro frame
  have fields : ∀ (front : List UInt8) (a1 a2 a3 : Mac), front.length = 4 →
      macAt (front ++ (a1.toList ++ a2.toList ++ a3.toList) ++ [0, 0] ++ behind) 4 = a1 ∧
      macAt (front ++ (a1.toList ++ a2.toList ++ a3.toList) ++ [0, 0] ++ behind) 10 = a2 ∧
      macAt (front ++ (a1.toList ++ a2.toList ++ a3.toList) ++ [0, 0] ++ behind) 16 = a3 := by
    intro front a1 a2 a3 length
    refine ⟨?_, ?_, ?_⟩
    · have whole := macAt_middle front (a2.toList ++ a3.toList ++ [0, 0] ++ behind) a1 length
      simpa only [List.append_assoc] using whole
    · have place : (front ++ a1.toList).length = 10 := by
        rw [List.length_append, Vector.length_toList, length]
      have whole := macAt_middle (front ++ a1.toList) (a3.toList ++ [0, 0] ++ behind) a2 place
      simpa only [List.append_assoc] using whole
    · have place : (front ++ a1.toList ++ a2.toList).length = 16 := by
        rw [List.length_append, List.length_append, Vector.length_toList, Vector.length_toList,
          length]
      have whole := macAt_middle (front ++ a1.toList ++ a2.toList) ([0, 0] ++ behind) a3 place
      simpa only [List.append_assoc] using whole
  have written : frame = _ ++ _ ++ _ ++ behind :=
    congrArg (· ++ behind) (nrcGet80211Hdr_eq intf dest src key qos)
  rw [written]
  cases intf.isAp with
  | false => exact fields _ intf.bss.bssid src dest rfl
  | true => exact fields _ dest intf.bss.bssid src rfl

/-- The receiver takes the two ends of the way from the header. -/
theorem rxAddrs_hdr (intf : WpaIf) (dest src : Mac) (key : Option WpaKey) (qos : Bool)
    (behind : List UInt8) :
    let frame := nrcGet80211Hdr intf dest src key qos ++ behind
    (if frameControl frame &&& wlanFcTods ≠ 0 then macAt frame 16 else macAt frame 4) = dest ∧
      (if frameControl frame &&& wlanFcTods ≠ 0 then macAt frame 10 else macAt frame 16) = src := by
  intro frame
  have toDs := (frameControl_hdr intf dest src key qos behind).2.2.1
  rcases macAt_hdr intf dest src key qos behind with ⟨addr1, addr2, addr3⟩
  cases ap : intf.isAp with
  | false =>
    rw [ap] at addr2 addr3
    rw [if_pos (toDs.mpr ap), if_pos (toDs.mpr ap)]
    exact ⟨addr3, addr2⟩
  | true =>
    have not : ¬ frameControl frame &&& wlanFcTods ≠ 0 := by
      intro set
      cases (toDs.mp set).symm.trans ap
    rw [ap] at addr1 addr3
    rw [if_neg not, if_neg not]
    exact ⟨addr1, addr3⟩

/-- What is in front of the LLC header. -/
def macFront (tx : WpaIf) (dest src : Mac) (key : WpaKey) (qos : Bool) : List UInt8 :=
  nrcGet80211Hdr tx dest src (some key) qos ++ (if qos then nrcAddQos else []) ++ secHdr (some key)

/-- The receiver counts the headers as the sender has written them. -/
theorem rxPayload_eq {tx rx : WpaIf} {dest src : Mac} {key : WpaKey} (qos : Bool)
    (uses : UsesCipher rx key.cipher) (apart : tx.isAp ≠ rx.isAp)
    (known : rx.isAp = true → (nrcWpaFindSta rx src).isSome) (behind : List UInt8) :
    rxPayload rx (macFront tx dest src key qos ++ behind) =
      (macFront tx dest src key qos).length := by
  have split : macFront tx dest src key qos ++ behind =
      nrcGet80211Hdr tx dest src (some key) qos ++
        ((if qos then nrcAddQos else []) ++ secHdr (some key) ++ behind) := by
    simp only [macFront, List.append_assoc]
  rcases frameControl_hdr tx dest src (some key) qos
    ((if qos then nrcAddQos else []) ++ secHdr (some key) ++ behind) with ⟨hasQos, hasKey, -, -⟩
  rcases macAt_hdr tx dest src (some key) qos
    ((if qos then nrcAddQos else []) ++ secHdr (some key) ++ behind) with ⟨-, addr2, -⟩
  rw [← split] at hasQos hasKey addr2
  have peer : rx.isAp = true →
      (nrcWpaFindSta rx (if tx.isAp then tx.bss.bssid else src)).isSome := by
    intro ap
    have sta : tx.isAp = false := by
      cases here : tx.isAp with
      | false => rfl
      | true => exact absurd (here.trans ap.symm) apart
    rw [sta]
    exact known ap
  rcases getKey_cipher uses peer with ⟨other, found, same⟩
  have sec : (if frameControl (macFront tx dest src key qos ++ behind) &&& wlanFcIswep ≠ 0 then
      nrcGetSecHdrLen ((nrcWpaGetKey rx
        (some (macAt (macFront tx dest src key qos ++ behind) 10))).bind rx.keyAt) else 0) =
      nrcGetSecHdrLen (some key) := by
    rw [addr2, found, nrcGetSecHdrLen_cipher same]
    by_cases none : key.cipher = .none
    · rw [if_neg]
      · unfold nrcGetSecHdrLen
        dsimp only
        rw [none]
      · rw [hasKey]
        simp [none]
    · rw [if_pos]
      rw [hasKey]
      simp [none]
  have count : (if qos then nrcAddQos else []).length = if qos then 2 else 0 := by
    cases qos with
    | false => rfl
    | true => rfl
  rw [rxPayload, sec, macFront, List.length_append, List.length_append, length_nrcGet80211Hdr, length_secHdr,
    count]
  congr 2
  exact if_congr hasQos rfl rfl

/-- The LLC header of an ethertype. -/
theorem nrcAddLlc_eq {type : Nat} (high : ethP8023Min ≤ type) :
    ∃ llc : List UInt8, llc.length = 6 ∧ (llc = rfc1042Header ∨ llc = bridgeTunnelHeader) ∧
      nrcAddLlc type = llc ++ [.ofNat (type >>> 8), .ofNat (type &&& 0xFF)] := by
  rw [nrcAddLlc, if_neg (Nat.not_lt_of_le high)]
  split
  · exact ⟨_, rfl, .inr rfl, rfl⟩
  · exact ⟨_, rfl, .inl rfl, rfl⟩

/-- A frame that was laid out is taken apart again. -/
theorem to8023_laidOut {tx rx : WpaIf} {dest src : Mac} {key : WpaKey} {qos : Bool} {type : Nat}
    {data : List UInt8} (uses : UsesCipher rx key.cipher) (apart : tx.isAp ≠ rx.isAp)
    (known : rx.isAp = true → (nrcWpaFindSta rx src).isSome) (high : ethP8023Min ≤ type)
    {frame : List UInt8} (laid : frame = macFront tx dest src key qos ++ nrcAddLlc type ++ data)
    (short : frame.length < 2 ^ 16) :
    ∃ out, nrcWpaTo8023 rx ⟨frame, frame.length, false, 0⟩ = some (0, out) ∧
      out.frame.drop out.offset8023 = dest.toList ++ src.toList ++
        [.ofNat (type >>> 8), .ofNat (type &&& 0xFF)] ++ data ∧
      out.len = 14 + data.length ∧ out.is8023 = true := by
  rcases nrcAddLlc_eq high with ⟨llc, six, either, written⟩
  have front : 24 ≤ (macFront tx dest src key qos).length := by
    rw [macFront, List.length_append, List.length_append, length_nrcGet80211Hdr]
    omega
  have payload : rxPayload rx frame = (macFront tx dest src key qos).length := by
    rw [laid, List.append_assoc]
    exact rxPayload_eq qos uses apart known _
  have hdr : frame = nrcGet80211Hdr tx dest src (some key) qos ++
      ((if qos then nrcAddQos else []) ++ secHdr (some key) ++ nrcAddLlc type ++ data) := by
    rw [laid]
    simp only [macFront, List.append_assoc]
  rcases frameControl_hdr tx dest src (some key) qos
    ((if qos then nrcAddQos else []) ++ secHdr (some key) ++ nrcAddLlc type ++ data) with
    ⟨-, -, toDs, fromDs⟩
  rcases rxAddrs_hdr tx dest src (some key) qos
    ((if qos then nrcAddQos else []) ++ secHdr (some key) ++ nrcAddLlc type ++ data) with
    ⟨there, here⟩
  rw [← hdr] at toDs fromDs there here
  rw [written] at laid
  clear hdr
  generalize macFront tx dest src key qos = hdrs at *
  generalize hbytes : [UInt8.ofNat (type >>> 8), UInt8.ofNat (type &&& 0xFF)] = bytes at *
  have two : bytes.length = 2 := by
    rw [← hbytes]
    rfl
  have length : frame.length = hdrs.length + 8 + data.length := by
    rw [laid]
    simp only [List.length_append]
    omega
  have atLlc : (frame.drop hdrs.length).take 6 = llc := by
    rw [laid, List.append_assoc, List.drop_left, List.append_assoc, ← six, List.take_left]
  have atType : (frame.drop (hdrs.length + 6)).take 2 = bytes := by
    rw [laid, List.append_assoc, ← List.drop_drop, List.drop_left, List.append_assoc, ← six,
      List.drop_left, ← two, List.take_left]
  have atData : frame.drop (hdrs.length + 8) = data := by
    have place : (hdrs ++ (llc ++ bytes)).length = hdrs.length + 8 := by
      rw [List.length_append, List.length_append, six, two]
    rw [laid, ← place, List.drop_left]
  have offset : hdrs.length - hlen8023 + 8 + hlen8023 = hdrs.length + 8 := by
    change hdrs.length - 14 + 8 + 14 = _
    omega
  have known' : (llc = rfc1042Header ∧ (((bytes.getD 0 0).toNat <<< 8 ||| (bytes.getD 1 0).toNat) ≠
      ethPAarp ∨ ((bytes.getD 0 0).toNat <<< 8 ||| (bytes.getD 1 0).toNat) ≠ ethPIpx)) ∨
      llc = bridgeTunnelHeader := by
    refine either.imp (fun same => ⟨same, ?_⟩) id
    -- an ethertype cannot be both
    by_contra both
    rw [not_or, not_not, not_not] at both
    exact absurd (both.1.symm.trans both.2) (by decide)
  have one : ¬ (frameControl frame &&& wlanFcTods ≠ 0 ∧ frameControl frame &&& wlanFcFromds ≠ 0) := by
    rw [toDs, fromDs]
    rintro ⟨no, yes⟩
    exact Bool.false_ne_true (no.symm.trans yes)
  have ap : ¬ (frameControl frame &&& wlanFcTods ≠ 0 ∧ ¬ frameControl frame &&& wlanFcFromds ≠ 0 ∧
      rx.isAp = false) := by
    rw [toDs]
    rintro ⟨no, -, no'⟩
    exact apart (no.trans no'.symm)
  rw [nrcWpaTo8023]
  dsimp only
  rw [if_neg one, if_neg ap, payload, if_neg (by omega)]
  refine ⟨_, rfl, ?_, ?_, rfl⟩
  · dsimp only
    rw [atLlc, atType, if_pos known', if_pos known', there, here, offset, atData]
    rw [List.append_assoc, List.drop_left']
    rw [List.length_take]
    change min (hdrs.length - 14 + 8) frame.length = hdrs.length - 14 + 8
    omega
  · dsimp only
    rw [atLlc, atType, if_pos known', length]
    change (hdrs.length + 8 + data.length + 2 ^ 16 - (hdrs.length - 14 + 8)) % 2 ^ 16 = _
    omega

/-! ## There and back -/

/-- The two bytes of an ethertype. -/
theorem ethertype_bytes (a b : UInt8) :
    [UInt8.ofNat ((a.toNat <<< 8 ||| b.toNat) >>> 8),
      UInt8.ofNat ((a.toNat <<< 8 ||| b.toNat) &&& 0xFF)] = [a, b] := by
  have high := a.toNat_lt
  have low := b.toNat_lt
  have sum : a.toNat <<< 8 ||| b.toNat = a.toNat * 2 ^ 8 + b.toNat := by
    rw [← Nat.shiftLeft_add_eq_or_of_lt low, Nat.shiftLeft_eq]
  have first : (a.toNat * 2 ^ 8 + b.toNat) >>> 8 = a.toNat := by
    rw [Nat.shiftRight_eq_div_pow]
    omega
  have second : (a.toNat * 2 ^ 8 + b.toNat) &&& 0xFF = b.toNat := by
    change _ &&& (2 ^ 8 - 1) = _
    rw [Nat.and_two_pow_sub_one_eq_mod]
    omega
  rw [sum, first, second, UInt8.ofNat_toNat, UInt8.ofNat_toNat]

/-- The Ethernet header, field by field. -/
theorem take_ether {first : List UInt8} (header : hlen8023 ≤ first.length) :
    (etherDest first).toList ++ (etherSrc first).toList ++
      [.ofNat (ethertype first >>> 8), .ofNat (ethertype first &&& 0xFF)] = first.take hlen8023 := by
  change 14 ≤ first.length at header
  have dest : (etherDest first).toList = first.take 6 := by
    rw [etherDest, toList_macAt (by omega), List.drop_zero]
  have src : (etherSrc first).toList = (first.drop 6).take 6 := toList_macAt (by omega)
  have type : [UInt8.ofNat (ethertype first >>> 8), UInt8.ofNat (ethertype first &&& 0xFF)] =
      ((first.drop 6).drop 6).take 2 := by
    rw [ethertype, ethertype_bytes, List.drop_drop, List.drop_eq_getElem_cons (by omega),
      List.take_succ_cons, List.drop_eq_getElem_cons (by omega), List.take_succ_cons,
      List.take_zero, List.getD_eq_getElem _ _ (by omega), List.getD_eq_getElem _ _ (by omega)]
  have front : first.take hlen8023 = first.take (6 + (6 + 2)) := rfl
  rw [dest, src, type, front, List.take_add, List.take_add, List.append_assoc]

/-- An Ethernet frame for which there are buffers is sent, and it comes out of the 802.11 frame it
was sent as. -/
theorem conversions_inverse {pool : Pool} {tx rx : WpaIf} {cipher : Cipher}
    {first : List UInt8} {others : List (List UInt8)}
    (direction : tx.isAp ≠ rx.isAp) (sender : UsesCipher tx cipher)
    (receiver : UsesCipher rx cipher) (header : hlen8023 ≤ first.length)
    (high : ethP8023Min ≤ ethertype first)
    (known : rx.isAp = true → (nrcWpaFindSta rx (etherSrc first)).isSome) :
    (∀ plan chain, txPlan tx first (first :: others).flatten.length = some plan →
      4 + (plan.head ++ (first :: others).flatten.drop hlen8023).length < 2 ^ 16 →
      pool.alloc plan.hifLen = some chain →
      ∃ request tx', nrcTransmitFrom8023Mb pool tx (first :: others) = some (some request, tx')) ∧
    ∀ request tx', nrcTransmitFrom8023Mb pool tx (first :: others) = some (some request, tx') →
      ∃ out, nrcWpaTo8023 rx ⟨gather request.chain, (gather request.chain).length, false, 0⟩ =
          some (0, out) ∧
        out.frame.drop out.offset8023 = (first :: others).flatten ∧
        out.len = (first :: others).flatten.length ∧ out.is8023 = true := by
  constructor
  · intro plan chain made short allocated
    rcases (transmit_scattered header made short allocated).sent with ⟨request, tx', sent, -⟩
    exact ⟨request, tx', sent⟩
  intro request tx' sent
  rcases transmit_stored sent with ⟨ref, dsta, found, -, stored, short⟩
  have peer : tx.isAp = true →
      (nrcWpaFindSta tx (if tx.isAp then etherDest first else tx.bss.bssid)).isSome := by
    intro ap
    rw [if_pos ap, found]
    rfl
  rcases getKey_cipher sender peer with ⟨key, looked, same⟩
  have laid : gather request.chain = macFront tx (etherDest first) (etherSrc first) key
      (dsta.qos && ethertype first ≠ ethPEapol) ++ nrcAddLlc (ethertype first) ++
      (first :: others).flatten.drop hlen8023 := by
    rw [stored, macFront, ← looked]
    rfl
  rw [← stored] at short
  rw [← same] at receiver
  rcases to8023_laidOut receiver direction known high laid short with ⟨out, run, bytes, len, done⟩
  have whole : (first :: others).flatten.take hlen8023 = first.take hlen8023 := by
    rw [List.flatten_cons, List.take_append_of_le_length header]
  refine ⟨out, run, ?_, ?_, done⟩
  · rw [bytes, take_ether header, ← whole, List.take_append_drop]
  · have long : 14 ≤ (first :: others).flatten.length := by
      change 14 ≤ first.length at header
      rw [List.flatten_cons, List.length_append]
      omega
    rw [len, List.length_drop]
    change 14 + (_ - 14) = _
    omega

/-- An interface with a CCMP key everywhere, and with one station if it is an access point. -/
def ccmpIf (ap : Bool) : WpaIf :=
  let key := { wpaClearKey with cipher := .ccmp }
  ⟨ap, true, ⟨key, .replicate 6 4, true, fun _ => false⟩, ⟨.replicate 6 6, key⟩,
    fun i => if ap ∧ i = 0 then some ⟨key, .replicate 6 4, true, fun _ => false⟩ else none, 1⟩

theorem ccmpIf_usesCipher (ap : Bool) : UsesCipher (ccmpIf ap) .ccmp := by
  refine ⟨rfl, rfl, ?_⟩
  intro i sta there
  change (if ap ∧ i = 0 then _ else none) = some sta at there
  split at there
  · cases there
    rfl
  · cases there

/-- A payload of 600 bytes in two segments, which takes two buffers. -/
def longPayload : List (List UInt8) := [.replicate 350 1, .replicate 250 2]

theorem conversions_inverse_ccmp :
    ∃ request tx' out, nrcTransmitFrom8023Mb freshPool (ccmpIf false) (ipHeader :: longPayload) =
        some (some request, tx') ∧ request.chain.length = 2 ∧
      nrcWpaTo8023 (ccmpIf true)
        ⟨gather request.chain, (gather request.chain).length, false, 0⟩ = some (0, out) ∧
      out.frame.drop out.offset8023 = ipHeader ++ longPayload.flatten ∧ out.len = 614 := by
  rcases @conversions_inverse freshPool _ _ .ccmp ipHeader longPayload (by decide)
    (ccmpIf_usesCipher false) (ccmpIf_usesCipher true) (by decide) (by decide)
    (fun _ => by decide) with ⟨succeeds, back⟩
  rcases succeeds _ _ rfl (by decide +kernel) rfl with ⟨request, tx', sent⟩
  have spans : ((nrcTransmitFrom8023Mb freshPool (ccmpIf false) (ipHeader :: longPayload)).bind
      Prod.fst).map (·.chain.length) = some 2 := by decide +kernel
  rw [sent] at spans
  rcases back request tx' sent with ⟨out, run, bytes, len, -⟩
  have whole : (ipHeader :: longPayload).flatten.length = 614 := by decide +kernel
  exact ⟨request, tx', out, sent, Option.some_inj.mp spans, run, bytes, len.trans whole⟩

end WifiDrv

end Tr6260
