import Tr6260.WifiDrv.Convert

/-!
# Block acknowledgement

The handlers of block-ack action frames keep an entry per station and access category, which
`nrc_transmit_from_8023_mb` looks at. The handler of a request does not ask whether the sender is
known, and `get_ac` gives the TID of a QoS frame as its access category. A frame is taken apart to
its sender, its TID and its status; whether memory is there for an answer or for a new station is
part of a step.
-/

namespace Tr6260

namespace WifiDrv

/-! ## Handlers -/

/-- `TID_TO_AC`, with 0 to 3 for `ACI_BK`, `ACI_BE`, `ACI_VI` and `ACI_VO`. -/
def tidToAc (tid : Nat) : Nat :=
  if tid = 0 ∨ tid = 3 then 1 else if tid < 3 then 0 else if tid < 6 then 2 else 3

/-- `WLAN_STATUS_SUCCESS` and `WLAN_STATUS_REQUEST_DECLINED`. -/
def wlanStatusSuccess : Nat := 0
def wlanStatusRequestDeclined : Nat := 37

/-- The interface, and `system_modem_api_get_aggregation`. -/
structure Driver where
  intf : WpaIf
  aggregation : Nat → Bool

/-- What a step leaves: the station it has dereferenced, the status it answers with and the frame it
hands over, if any. -/
structure Handled where
  driver : Driver
  used : Option StaRef
  status : Option Nat
  request : Option TxRequest

def WpaSta.setBlockAck (ac : Nat) (set : Bool) (sta : WpaSta) : WpaSta :=
  { sta with blockAck := Function.update sta.blockAck ac set }

def Driver.setBlockAck (d : Driver) (ref : StaRef) (ac : Nat) (set : Bool) : Driver :=
  { d with intf := d.intf.modifySta (WpaSta.setBlockAck ac set) ref }

def Driver.setAggregation (d : Driver) (ac : Nat) (set : Bool) : Driver :=
  { d with aggregation := Function.update d.aggregation ac set }

/-- `nrc_addba_req_handler`; `packet` is whether `alloc_sys_buf_try` had one. There is no result when
a station that was not found is dereferenced. -/
def nrcAddbaReqHandler (d : Driver) (sa : Mac) (tid : Nat) (packet : Bool) : Option Handled :=
  let ac := tidToAc tid
  if packet = false then some ⟨d, none, none, none⟩
  else if d.intf.isAp then do
    let ref ← nrcWpaFindSta d.intf sa
    let sta ← d.intf.staAt ref
    if sta.blockAck ac then some ⟨d, some ref, some wlanStatusRequestDeclined, none⟩
    else some ⟨d.setBlockAck ref ac true, some ref, some wlanStatusSuccess, none⟩
  else if d.aggregation ac then some ⟨d, none, some wlanStatusRequestDeclined, none⟩
  else some ⟨d.setAggregation ac true, none, some wlanStatusSuccess, none⟩

/-- What `nrc_addba_resp_handler` and `nrc_delba_req_handler` share. -/
def recordBlockAck (d : Driver) (sa : Mac) (ac : Nat) (set : Bool) : Handled :=
  if d.intf.isAp then
    match nrcWpaFindSta d.intf sa with
    | none => ⟨d, none, none, none⟩
    | some ref => ⟨d.setBlockAck ref ac set, some ref, none, none⟩
  else ⟨d.setAggregation ac set, none, none, none⟩

/-- `nrc_addba_resp_handler`. -/
def nrcAddbaRespHandler (d : Driver) (sa : Mac) (tid status : Nat) : Handled :=
  if status ≠ wlanStatusSuccess then ⟨d, none, none, none⟩
  else recordBlockAck d sa (tidToAc tid) true

/-- `nrc_delba_req_handler`. -/
def nrcDelbaReqHandler (d : Driver) (sa : Mac) (tid : Nat) : Handled :=
  recordBlockAck d sa (tidToAc tid) false

/-! ## Stations -/

/-- The first place of `ap_sta` with an address. -/
def slotOf (intf : WpaIf) (addr : Mac) : Option Nat :=
  (List.range nrcWpaSoftapMaxSta).find? fun i => (intf.apSta i).any (·.addr = addr)

/-- The first place of `ap_sta` that is free. -/
def freeSlot (intf : WpaIf) : Option Nat :=
  (List.range nrcWpaSoftapMaxSta).find? fun i => (intf.apSta i).isNone

/-- `wpa_driver_nrc_sta_add`; `memory` is whether `os_zalloc` had some, which is not asked. -/
def wpaDriverNrcStaAdd (intf : WpaIf) (addr : Mac) (wmm memory : Bool) : Option (Int × WpaIf) :=
  match freeSlot intf with
  | none => some (-1, intf)
  | some i =>
    if memory = false then none
    else some (0,
      { intf with
        apSta := Function.update intf.apSta i (some ⟨wpaClearKey, addr, wmm, fun _ => false⟩)
        numApSta := intf.numApSta + 1 })

/-- `wpa_driver_nrc_sta_remove`. -/
def wpaDriverNrcStaRemove (intf : WpaIf) (addr : Mac) : WpaIf :=
  if intf.numApSta = 0 then intf
  else match slotOf intf addr with
    | none => intf
    | some i =>
      { intf with apSta := Function.update intf.apSta i none, numApSta := intf.numApSta - 1 }

/-! ## Runs -/

/-- What happens to the entries. -/
inductive BaOp
  | addbaReq (sa : Mac) (tid : Nat) (packet : Bool)
  | addbaResp (sa : Mac) (tid status : Nat)
  | delba (sa : Mac) (tid : Nat)
  | staAdd (addr : Mac) (wmm memory : Bool)
  | staRemove (addr : Mac)
  | transmit (pool : Pool) (frames : List (List UInt8))

def baStep (d : Driver) : BaOp → Option Handled
  | .addbaReq sa tid packet => nrcAddbaReqHandler d sa tid packet
  | .addbaResp sa tid status => some (nrcAddbaRespHandler d sa tid status)
  | .delba sa tid => some (nrcDelbaReqHandler d sa tid)
  | .staAdd addr wmm memory => (wpaDriverNrcStaAdd d.intf addr wmm memory).map fun r =>
      ⟨{ d with intf := r.2 }, none, none, none⟩
  | .staRemove addr => some ⟨{ d with intf := wpaDriverNrcStaRemove d.intf addr }, none, none, none⟩
  | .transmit pool frames => (nrcTransmitFrom8023Mb pool d.intf frames).map fun r =>
      ⟨{ d with intf := r.2 }, none, none, r.1⟩

/-- A station of this address is connected. -/
def Driver.Known (d : Driver) (addr : Mac) : Prop := (slotOf d.intf addr).isSome

instance (d : Driver) (addr : Mac) : Decidable (d.Known addr) :=
  inferInstanceAs (Decidable ((slotOf d.intf addr).isSome = true))

/-- What the last action frame of an address has said for an access category. -/
def said (agreed : Mac → Nat → Bool) (sa : Mac) (ac : Nat) (set : Bool) : Mac → Nat → Bool :=
  fun mac c => if mac = sa ∧ c = ac then set else agreed mac c

/-- The agreements behind a step. A frame has an effect when it comes from a station, and a station
that is added has none yet. -/
def agree (d : Driver) (op : BaOp) (agreed : Mac → Nat → Bool) : Mac → Nat → Bool :=
  match op with
  | .addbaReq sa tid packet =>
    if packet = true ∧ d.Known sa then said agreed sa (tidToAc tid) true else agreed
  | .addbaResp sa tid status =>
    if status = wlanStatusSuccess ∧ d.Known sa then said agreed sa (tidToAc tid) true else agreed
  | .delba sa tid => if d.Known sa then said agreed sa (tidToAc tid) false else agreed
  | .staAdd addr _ _ =>
    if (freeSlot d.intf).isSome then fun mac ac => if mac = addr then false else agreed mac ac
    else agreed
  | .staRemove _ => agreed
  | .transmit _ _ => agreed

/-- The states of runs whose steps meet a condition, with the agreements so far. -/
inductive BaReach (met : Driver → BaOp → Prop) (start : Driver) :
    Driver → (Mac → Nat → Bool) → Prop
  | start : BaReach met start start fun _ _ => false
  | step {d : Driver} {agreed : Mac → Nat → Bool} {op : BaOp} {r : Handled} :
    BaReach met start d agreed → met d op → baStep d op = some r →
    BaReach met start r.driver (agree d op agreed)

/-- The TID of a frame that has one. -/
def frameTid (frame : List UInt8) : Option Nat :=
  let fc := frame.getD 0 0
  if (fc >>> 2) &&& 3 = 2 ∧ fc >>> 4 = 8 then some (frame.getD 24 0 &&& 0xf).toNat else none

/-- The access category of a frame. -/
def frameAc (frame : List UInt8) : Nat := (frameTid frame).elim 1 tidToAc

/-- An action frame is handled without a station that is not in the table, and a frame that is sent
asks for aggregation as the entry of its destination says. -/
structure OpRight (d : Driver) (op : BaOp) : Prop where
  handled : match op with
    | .addbaReq _ _ _ | .addbaResp _ _ _ | .delba _ _ => (baStep d op).isSome
    | .staAdd _ _ _ | .staRemove _ | .transmit _ _ => True
  used : ∀ r ref, baStep d op = some r → r.used = some ref →
    ∃ i sta, ref = .ap i ∧ i < nrcWpaSoftapMaxSta ∧ d.intf.apSta i = some sta
  aggregated : ∀ pool first others r request, op = .transmit pool (first :: others) →
    baStep d op = some r → r.request = some request →
    ∃ ref sta, nrcWpaFindSta d.intf (etherDest first) = some ref ∧ d.intf.staAt ref = some sta ∧
      request.ampdu = sta.blockAck (frameAc (gather request.chain))

/-- The entries of the stations are the agreements. -/
def Agrees (d : Driver) (agreed : Mac → Nat → Bool) : Prop :=
  ∀ i sta, i < nrcWpaSoftapMaxSta → d.intf.apSta i = some sta →
    ∀ ac, sta.blockAck ac = agreed sta.addr ac

/-- The steps that go well: action frames come from single addresses and requests from stations that
are connected, a station that is added is not connected yet, and the two entries that are mixed up
for a QoS frame are the same. -/
def BaOp.Met (d : Driver) : BaOp → Prop
  | .addbaReq sa _ packet => packet = true → isMulticastEtherAddr sa = false ∧ d.Known sa
  | .addbaResp sa _ status => status = wlanStatusSuccess → isMulticastEtherAddr sa = false
  | .delba sa _ => isMulticastEtherAddr sa = false
  | .staAdd addr _ _ => ¬ d.Known addr
  | .staRemove _ => True
  | .transmit _ [] => True
  | .transmit _ (first :: _) => ∀ ref sta, nrcWpaFindSta d.intf (etherDest first) = some ref →
      d.intf.staAt ref = some sta → sta.qos = true → ethertype first ≠ ethPEapol →
      sta.blockAck 0 = sta.blockAck 1

/-! ## The table -/

/-- The stations have different addresses and the entries that were agreed on. -/
structure BaInv (d : Driver) (agreed : Mac → Nat → Bool) : Prop where
  ap : d.intf.isAp = true
  distinct : ∀ i j a b, i < nrcWpaSoftapMaxSta → j < nrcWpaSoftapMaxSta →
    d.intf.apSta i = some a → d.intf.apSta j = some b → a.addr = b.addr → i = j
  agrees : Agrees d agreed

theorem slotOf_some {intf : WpaIf} {addr : Mac} {i : Nat} (found : slotOf intf addr = some i) :
    i < nrcWpaSoftapMaxSta ∧ ∃ sta, intf.apSta i = some sta ∧ sta.addr = addr := by
  have inside := List.mem_range.mp (List.mem_of_find?_eq_some found)
  have there := List.find?_some found
  cases slot : intf.apSta i with
  | none =>
    rw [slot] at there
    cases there
  | some sta =>
    rw [slot] at there
    exact ⟨inside, sta, rfl, of_decide_eq_true there⟩

theorem known_of_apSta {d : Driver} {i : Nat} {sta : WpaSta} (low : i < nrcWpaSoftapMaxSta)
    (there : d.intf.apSta i = some sta) : d.Known sta.addr := by
  refine List.find?_isSome.mpr ⟨i, List.mem_range.mpr low, ?_⟩
  rw [there]
  exact decide_eq_true rfl

theorem findSta_unicast {intf : WpaIf} (ap : intf.isAp = true) {addr : Mac}
    (single : isMulticastEtherAddr addr = false) :
    nrcWpaFindSta intf addr = (slotOf intf addr).map .ap := by
  rw [nrcWpaFindSta, if_neg (by rw [ap]; decide), if_neg (by rw [single]; decide)]
  rfl

/-- Only the addresses and the entries matter. -/
theorem BaInv.of_same {d d' : Driver} {agreed : Mac → Nat → Bool} (inv : BaInv d agreed)
    (ap : d'.intf.isAp = d.intf.isAp)
    (same : ∀ i sta', d'.intf.apSta i = some sta' →
      ∃ sta, d.intf.apSta i = some sta ∧ sta.addr = sta'.addr ∧ sta.blockAck = sta'.blockAck) :
    BaInv d' agreed := by
  refine ⟨ap.trans inv.ap, ?_, ?_⟩
  · intro i j a b low low' hereA hereB addr
    rcases same i a hereA with ⟨a0, there, addrA, -⟩
    rcases same j b hereB with ⟨b0, there', addrB, -⟩
    exact inv.distinct i j a0 b0 low low' there there' (addrA.trans (addr.trans addrB.symm))
  · intro i sta low here ac
    rcases same i sta here with ⟨sta0, there, addr, entries⟩
    rw [← addr, ← entries]
    exact inv.agrees i sta0 low there ac

/-- An entry is set as it was said. -/
theorem BaInv.setBlockAck {d : Driver} {agreed : Mac → Nat → Bool} (inv : BaInv d agreed)
    {sa : Mac} {i : Nat} (found : slotOf d.intf sa = some i) (ac : Nat) (set : Bool) :
    BaInv (d.setBlockAck (.ap i) ac set) (said agreed sa ac set) := by
  rcases slotOf_some found with ⟨low, sta, there, addr⟩
  have here : (d.setBlockAck (.ap i) ac set).intf.apSta i = some (sta.setBlockAck ac set) := by
    change Function.update d.intf.apSta i ((d.intf.apSta i).map _) i = _
    rw [Function.update_self, there]
    rfl
  have elsewhere : ∀ j, j ≠ i →
      (d.setBlockAck (.ap i) ac set).intf.apSta j = d.intf.apSta j := by
    intro j apart
    exact Function.update_of_ne apart ..
  refine ⟨inv.ap, ?_, ?_⟩
  · -- addresses are kept
    have kept : ∀ j a, (d.setBlockAck (.ap i) ac set).intf.apSta j = some a →
        ∃ b, d.intf.apSta j = some b ∧ b.addr = a.addr := by
      intro j a at_
      by_cases same : j = i
      · subst same
        rw [here] at at_
        cases at_
        exact ⟨sta, there, rfl⟩
      · rw [elsewhere j same] at at_
        exact ⟨a, at_, rfl⟩
    intro j k a b lowJ lowK atJ atK equal
    rcases kept j a atJ with ⟨a0, thereA, addrA⟩
    rcases kept k b atK with ⟨b0, thereB, addrB⟩
    exact inv.distinct j k a0 b0 lowJ lowK thereA thereB (addrA.trans (equal.trans addrB.symm))
  · intro j b lowJ atJ c
    by_cases same : j = i
    · subst same
      rw [here] at atJ
      cases atJ
      change Function.update sta.blockAck ac set c = if sta.addr = sa ∧ c = ac then set else _
      by_cases this : c = ac
      · subst this
        rw [Function.update_self, if_pos ⟨addr, rfl⟩]
      · rw [Function.update_of_ne this, if_neg (fun both => this both.2)]
        exact inv.agrees j sta lowJ there c
    · rw [elsewhere j same] at atJ
      have other : b.addr ≠ sa := by
        intro equal
        exact same (inv.distinct j i b sta lowJ low atJ there (equal.trans addr.symm))
      rw [said, if_neg (fun both => other both.1)]
      exact inv.agrees j b lowJ atJ c

/-- What is set already is said again. -/
theorem BaInv.said_same {d : Driver} {agreed : Mac → Nat → Bool} (inv : BaInv d agreed)
    {sa : Mac} {i : Nat} {sta : WpaSta} (low : i < nrcWpaSoftapMaxSta)
    (there : d.intf.apSta i = some sta) (addr : sta.addr = sa) {ac : Nat} {set : Bool}
    (already : sta.blockAck ac = set) : BaInv d (said agreed sa ac set) := by
  have unchanged : said agreed sa ac set = agreed := by
    funext mac c
    rw [said]
    split
    · rename_i both
      rw [both.1, both.2, ← addr, ← inv.agrees i sta low there ac, already]
    · rfl
  rw [unchanged]
  exact inv

/-- A station is added. -/
theorem BaInv.add {d : Driver} {agreed : Mac → Nat → Bool} (inv : BaInv d agreed) {addr : Mac}
    (fresh : ¬ d.Known addr) {i : Nat} (wmm : Bool) :
    BaInv ⟨{ d.intf with
        apSta := Function.update d.intf.apSta i (some ⟨wpaClearKey, addr, wmm, fun _ => false⟩)
        numApSta := d.intf.numApSta + 1 }, d.aggregation⟩
      (fun mac ac => if mac = addr then false else agreed mac ac) := by
  have cases_ : ∀ j a, Function.update d.intf.apSta i
      (some ⟨wpaClearKey, addr, wmm, fun _ => false⟩) j = some a →
      (j = i ∧ a = ⟨wpaClearKey, addr, wmm, fun _ => false⟩) ∨
        (j ≠ i ∧ d.intf.apSta j = some a) := by
    intro j a at_
    by_cases same : j = i
    · subst same
      rw [Function.update_self] at at_
      exact .inl ⟨rfl, (Option.some_inj.mp at_).symm⟩
    · rw [Function.update_of_ne same] at at_
      exact .inr ⟨same, at_⟩
  have other : ∀ j a, j < nrcWpaSoftapMaxSta → d.intf.apSta j = some a → a.addr ≠ addr := by
    intro j a low at_ equal
    exact fresh (equal ▸ known_of_apSta low at_)
  refine ⟨inv.ap, ?_, ?_⟩
  · intro j k a b lowJ lowK atJ atK equal
    rcases cases_ j a atJ with ⟨newJ, isA⟩ | ⟨-, oldJ⟩
    · rcases cases_ k b atK with ⟨newK, -⟩ | ⟨-, oldK⟩
      · exact newJ.trans newK.symm
      · rw [isA] at equal
        exact absurd equal.symm (other k b lowK oldK)
    · rcases cases_ k b atK with ⟨-, isB⟩ | ⟨-, oldK⟩
      · rw [isB] at equal
        exact absurd equal (other j a lowJ oldJ)
      · exact inv.distinct j k a b lowJ lowK oldJ oldK equal
  · intro j a low at_ ac
    rcases cases_ j a at_ with ⟨-, rfl⟩ | ⟨-, old⟩
    · exact (if_pos rfl).symm
    · dsimp only
      rw [if_neg (other j a low old)]
      exact inv.agrees j a low old ac

/-- A station is removed. -/
theorem BaInv.remove {d : Driver} {agreed : Mac → Nat → Bool} (inv : BaInv d agreed)
    (addr : Mac) : BaInv ⟨wpaDriverNrcStaRemove d.intf addr, d.aggregation⟩ agreed := by
  rw [wpaDriverNrcStaRemove]
  split
  · exact inv
  · split
    · exact inv
    · rename_i i _
      refine inv.of_same rfl ?_
      intro j sta at_
      change Function.update d.intf.apSta i none j = some sta at at_
      by_cases same : j = i
      · subst same
        rw [Function.update_self] at at_
        cases at_
      · rw [Function.update_of_ne same] at at_
        exact ⟨sta, at_, rfl, rfl⟩

/-- A key changes. -/
theorem BaInv.modifyKey {d : Driver} {agreed : Mac → Nat → Bool} (inv : BaInv d agreed)
    (f : WpaKey → WpaKey) (ref : KeyRef) :
    BaInv ⟨d.intf.modifyKey f ref, d.aggregation⟩ agreed := by
  cases ref with
  | broadcast => exact inv.of_same rfl fun i sta at_ => ⟨sta, at_, rfl, rfl⟩
  | of ref =>
    cases ref with
    | sta => exact inv.of_same rfl fun i sta at_ => ⟨sta, at_, rfl, rfl⟩
    | ap i =>
      refine inv.of_same rfl ?_
      intro j sta at_
      change Function.update d.intf.apSta i ((d.intf.apSta i).map _) j = some sta at at_
      by_cases same : j = i
      · subst same
        rw [Function.update_self] at at_
        rcases Option.map_eq_some_iff.mp at_ with ⟨old, there, rfl⟩
        exact ⟨old, there, rfl, rfl⟩
      · rw [Function.update_of_ne same] at at_
        exact ⟨sta, at_, rfl, rfl⟩

/-! ## Transmissions -/

/-- A frame that is not sent leaves the interface. -/
theorem transmit_none {pool : Pool} {intf intf' : WpaIf} {frames : List (List UInt8)}
    (run : nrcTransmitFrom8023Mb pool intf frames = some (none, intf')) : intf' = intf := by
  cases frames with
  | nil =>
    cases run
    rfl
  | cons first others =>
    rw [nrcTransmitFrom8023Mb] at run
    split at run
    · cases run
    · split at run
      · cases run
        rfl
      · split at run
        · cases run
          rfl
        · cases run
        · rcases Option.bind_eq_some_iff.mp run with ⟨cur, -, run⟩
          rcases Option.bind_eq_some_iff.mp run with ⟨c, -, run⟩
          rcases Option.bind_eq_some_iff.mp run with ⟨c', -, run⟩
          rcases Option.bind_eq_some_iff.mp run with ⟨request, -, run⟩
          cases run

theorem BaInv.transmit {d : Driver} {agreed : Mac → Nat → Bool} (inv : BaInv d agreed)
    {pool : Pool} {frames : List (List UInt8)} {request : Option TxRequest} {intf' : WpaIf}
    (run : nrcTransmitFrom8023Mb pool d.intf frames = some (request, intf')) :
    BaInv ⟨intf', d.aggregation⟩ agreed := by
  cases request with
  | none =>
    rw [transmit_none run]
    exact inv
  | some request =>
    cases frames with
    | nil => cases run
    | cons first others =>
      rcases transmit_sent run with ⟨ref, dsta, buffer, rest, -, -, -, -, -, same⟩
      rw [same, countedIf]
      split
      · exact inv
      · exact inv.modifyKey _ _

/-- The bytes of a buffer that were written. -/
theorem ram_stored (buf : SysBuf) (pos : Nat) {bytes : List UInt8} {k : Nat}
    (low : k < bytes.length) : (buf.stored pos bytes).ram (pos + k) = bytes.getD k 0 := by
  change buf.ram.store pos bytes (pos + k) = _
  rw [ByteMem.store, if_pos (by omega), Nat.add_sub_cancel_left]

/-- The first byte of a header. -/
theorem hdrControl_low : ∀ ap wep qos : Bool,
    UInt8.ofNat (hdrControl ap wep qos) = if qos then 0x88 else 0x08 := by
  decide

theorem getAc_of_bytes {buf : SysBuf} {qos : Bool}
    (first : buf.ram payload = if qos then 0x88 else 0x08)
    (tid : qos = true → buf.ram (payload + 24) = 0) : getAc buf = if qos then 0 else 1 := by
  rw [getAc, first]
  cases qos with
  | false => rfl
  | true =>
    rw [tid rfl]
    decide

theorem frameAc_of_bytes {frame : List UInt8} {qos : Bool}
    (first : frame.getD 0 0 = if qos then 0x88 else 0x08)
    (tid : qos = true → frame.getD 24 0 = 0) : frameAc frame = 1 := by
  rw [frameAc, frameTid, first]
  cases qos with
  | false => rfl
  | true =>
    rw [tid rfl]
    decide

/-- The bytes of a frame that say what its access category is. -/
theorem head_bytes (intf : WpaIf) (ether : List UInt8) (total : Nat) (dsta : WpaSta)
    (behind : List UInt8) :
    let plan := txPlanFor intf ether total dsta
    (plan.head ++ behind).getD 0 0 = (if plan.qos then 0x88 else 0x08) ∧
      (plan.qos = true → (plan.head ++ behind).getD 24 0 = 0 ∧ 26 ≤ plan.head.length) := by
  intro plan
  have written : plan.head = nrcGet80211Hdr intf (etherDest ether) (etherSrc ether) plan.key
    plan.qos ++ (if plan.qos then nrcAddQos else []) ++ secHdr plan.key ++
    nrcAddLlc (ethertype ether) := rfl
  have length := length_nrcGet80211Hdr intf (etherDest ether) (etherSrc ether) plan.key plan.qos
  constructor
  · rw [written, nrcGet80211Hdr_eq, ← hdrControl_low intf.isAp
      (plan.key.any (·.cipher ≠ .none)) plan.qos]
    rfl
  · intro qos
    rw [written, if_pos qos]
    constructor
    · rw [List.append_assoc, List.append_assoc, List.append_assoc,
        List.getD_append_right _ _ _ _ (by omega), length]
      rfl
    · rw [List.length_append, List.length_append, List.length_append, length]
      change 26 ≤ 24 + 2 + _ + _
      omega

/-- What a frame asks for. -/
theorem transmit_ac {pool : Pool} {intf intf' : WpaIf} {first : List UInt8}
    {others : List (List UInt8)} {request : TxRequest}
    (sent : nrcTransmitFrom8023Mb pool intf (first :: others) = some (some request, intf')) :
    ∃ ref dsta, nrcWpaFindSta intf (etherDest first) = some ref ∧ intf.staAt ref = some dsta ∧
      request.ampdu = (intf.isAp &&
        dsta.blockAck (if dsta.qos && ethertype first ≠ ethPEapol then 0 else 1)) ∧
      frameAc (gather request.chain) = 1 := by
  rcases transmit_sent sent with
    ⟨ref, dsta, buffer, rest, found, there, lengths, short, asked, -⟩
  refine ⟨ref, dsta, found, there, ?_⟩
  rcases head_bytes intf first (first :: others).flatten.length dsta
    ((first :: others).flatten.drop hlen8023) with ⟨control, tid⟩
  have long := (txPlanFor_lengths intf first (first :: others).flatten.length dsta).2.1
  generalize (first :: others).flatten.drop hlen8023 = data at *
  generalize planned : txPlanFor intf first (first :: others).flatten.length dsta = plan at *
  have qos : plan.qos = (dsta.qos && ethertype first ≠ ethPEapol) := by
    rw [← planned]
    rfl
  have dst : plan.dsta = dsta := by
    rw [← planned]
    rfl
  have whole : gather request.chain = plan.head ++ data := by
    rw [← Option.some_inj.mp asked]
    exact gather_scatter (chainRoom_of_lengths lengths).symm
  have room : buffer.room - sizeofPhyTxvector = min 444 (plan.head ++ data).length := by
    rcases chain_of_lengths lengths with ⟨_, _, same, length, -⟩
    cases same
    change buffer.length - 36 - 12 = _
    omega
  have first_ : ∀ k, k < 26 → k < plan.head.length →
      (buffer.stored payload ((plan.head ++ data).take (buffer.room - sizeofPhyTxvector))).ram
        (payload + k) = (plan.head ++ data).getD k 0 := by
    intro k low inside
    have enough : k < ((plan.head ++ data).take (buffer.room - sizeofPhyTxvector)).length := by
      rw [List.length_take, room, List.length_append]
      omega
    rw [ram_stored _ _ enough, List.getD_eq_getElem?_getD, List.getElem?_take, if_pos,
      List.getD_eq_getElem?_getD]
    rw [room, List.length_append]
    omega
  have ac : getAc (buffer.stored payload
      ((plan.head ++ data).take (buffer.room - sizeofPhyTxvector))) =
      if plan.qos then 0 else 1 := by
    refine getAc_of_bytes ?_ ?_
    · exact (first_ 0 (by decide) (by omega)).trans control
    · intro set
      rcases tid set with ⟨zero, more⟩
      rw [first_ 24 (by decide) (by omega), zero]
  refine ⟨?_, ?_⟩
  · rw [← Option.some_inj.mp asked]
    change (intf.isAp && plan.dsta.blockAck (getAc (buffer.stored payload
      ((plan.head ++ data).take (buffer.room - sizeofPhyTxvector))))) = _
    rw [ac, dst, qos]
  · rw [whole]
    exact frameAc_of_bytes control fun set => (tid set).1

/-! ## Steps -/

theorem recordBlockAck_inv {d : Driver} {agreed : Mac → Nat → Bool} (inv : BaInv d agreed)
    {sa : Mac} (single : isMulticastEtherAddr sa = false) (ac : Nat) (set : Bool) :
    BaInv (recordBlockAck d sa ac set).driver
      (if d.Known sa then said agreed sa ac set else agreed) := by
  rw [recordBlockAck, if_pos inv.ap, findSta_unicast inv.ap single]
  rcases Option.eq_none_or_eq_some (slotOf d.intf sa) with found | ⟨i, found⟩
  · have unknown : ¬ d.Known sa := by
      rw [Driver.Known, found]
      decide
    rw [if_neg unknown, found]
    exact inv
  · have known : d.Known sa := Option.isSome_of_eq_some found
    rw [if_pos known, found]
    exact inv.setBlockAck found ac set

theorem recordBlockAck_used {d : Driver} {sa : Mac} (ap : d.intf.isAp = true)
    (single : isMulticastEtherAddr sa = false) {ac : Nat} {set : Bool} {ref : StaRef}
    (used : (recordBlockAck d sa ac set).used = some ref) :
    ∃ i sta, ref = .ap i ∧ i < nrcWpaSoftapMaxSta ∧ d.intf.apSta i = some sta := by
  rw [recordBlockAck, if_pos ap, findSta_unicast ap single] at used
  cases found : slotOf d.intf sa with
  | none =>
    rw [found] at used
    cases used
  | some i =>
    rw [found] at used
    rcases slotOf_some found with ⟨low, sta, there, -⟩
    exact ⟨i, sta, (Option.some_inj.mp used).symm, low, there⟩

/-- A request from a station that is known. -/
theorem addbaReq_known {d : Driver} {agreed : Mac → Nat → Bool} (inv : BaInv d agreed) {sa : Mac}
    (single : isMulticastEtherAddr sa = false) (known : d.Known sa) (tid : Nat) :
    ∃ r i sta, nrcAddbaReqHandler d sa tid true = some r ∧ r.used = some (.ap i) ∧
      i < nrcWpaSoftapMaxSta ∧ d.intf.apSta i = some sta ∧
      BaInv r.driver (said agreed sa (tidToAc tid) true) := by
  rcases Option.isSome_iff_exists.mp known with ⟨i, found⟩
  rcases slotOf_some found with ⟨low, sta, there, addr⟩
  have looked : nrcWpaFindSta d.intf sa = some (.ap i) := by
    rw [findSta_unicast inv.ap single, found]
    rfl
  have at_ : d.intf.staAt (.ap i) = some sta := there
  rw [nrcAddbaReqHandler, if_neg (by decide), if_pos inv.ap, looked, Option.bind_eq_bind, Option.bind_some, at_,
    Option.bind_eq_bind, Option.bind_some]
  cases already : sta.blockAck (tidToAc tid) with
  | true => exact ⟨_, i, sta, rfl, rfl, low, there, inv.said_same low there addr already⟩
  | false => exact ⟨_, i, sta, rfl, rfl, low, there, inv.setBlockAck found _ _⟩

theorem baStep_inv {d : Driver} {agreed : Mac → Nat → Bool} (inv : BaInv d agreed) {op : BaOp}
    {r : Handled} (met : op.Met d) (run : baStep d op = some r) :
    BaInv r.driver (agree d op agreed) := by
  cases op with
  | addbaReq sa tid packet =>
    cases packet with
    | false =>
      cases run
      exact inv
    | true =>
      rcases met rfl with ⟨single, known⟩
      rcases addbaReq_known inv single known tid with ⟨r', i, sta, run', -, -, -, kept⟩
      cases run.symm.trans run'
      rw [agree, if_pos ⟨rfl, known⟩]
      exact kept
  | addbaResp sa tid status =>
    cases run
    rw [nrcAddbaRespHandler, agree]
    by_cases good : status = wlanStatusSuccess
    · rw [if_neg (not_not.mpr good)]
      have kept := recordBlockAck_inv inv (met good) (tidToAc tid) true
      simp only [good, true_and]
      exact kept
    · rw [if_pos good, if_neg (fun both => good both.1)]
      exact inv
  | delba sa tid =>
    cases run
    exact recordBlockAck_inv inv met (tidToAc tid) false
  | staAdd addr wmm memory =>
    rcases Option.map_eq_some_iff.mp run with ⟨result, added, rfl⟩
    rw [wpaDriverNrcStaAdd] at added
    rw [agree]
    cases free : freeSlot d.intf with
    | none =>
      rw [free] at added
      cases added
      exact inv
    | some i =>
      rw [free] at added
      cases memory with
      | false => cases added
      | true =>
        cases added
        exact inv.add met wmm
  | staRemove addr =>
    cases run
    exact inv.remove addr
  | transmit pool frames =>
    rcases Option.map_eq_some_iff.mp run with ⟨result, sent, rfl⟩
    exact inv.transmit sent

theorem opRight_of_inv {d : Driver} {agreed : Mac → Nat → Bool} (inv : BaInv d agreed) {op : BaOp}
    (met : op.Met d) : OpRight d op := by
  cases op with
  | addbaReq sa tid packet =>
    cases packet with
    | false =>
      refine ⟨rfl, ?_, ?_⟩
      · intro r ref run used
        cases run
        cases used
      · intro pool first others r request is
        cases is
    | true =>
      rcases met rfl with ⟨single, known⟩
      rcases addbaReq_known inv single known tid with ⟨r', i, sta, run', used', low, there, -⟩
      refine ⟨Option.isSome_of_eq_some run', ?_, ?_⟩
      · intro r ref run used
        cases run.symm.trans run'
        exact ⟨i, sta, Option.some_inj.mp (used.symm.trans used'), low, there⟩
      · intro pool first others r request is
        cases is
  | addbaResp sa tid status =>
    refine ⟨rfl, ?_, ?_⟩
    · intro r ref run used
      cases run
      rw [nrcAddbaRespHandler] at used
      split at used
      · cases used
      · rename_i good
        exact recordBlockAck_used inv.ap (met (not_not.mp good)) used
    · intro pool first others r request is
      cases is
  | delba sa tid =>
    refine ⟨rfl, ?_, ?_⟩
    · intro r ref run used
      cases run
      exact recordBlockAck_used inv.ap met used
    · intro pool first others r request is
      cases is
  | staAdd addr wmm memory =>
    refine ⟨trivial, ?_, ?_⟩
    · intro r ref run used
      rcases Option.map_eq_some_iff.mp run with ⟨result, -, rfl⟩
      cases used
    · intro pool first others r request is
      cases is
  | staRemove addr =>
    refine ⟨trivial, ?_, ?_⟩
    · intro r ref run used
      cases run
      cases used
    · intro pool first others r request is
      cases is
  | transmit pool frames =>
    refine ⟨trivial, ?_, ?_⟩
    · intro r ref run used
      rcases Option.map_eq_some_iff.mp run with ⟨result, -, rfl⟩
      cases used
    · intro pool' first others r request is run asked
      cases is
      rcases Option.map_eq_some_iff.mp run with ⟨⟨request', intf'⟩, sent, rfl⟩
      cases asked
      rcases transmit_ac sent with ⟨ref, sta, found, there, ampdu, category⟩
      refine ⟨ref, sta, found, there, ?_⟩
      rw [ampdu, category, inv.ap, Bool.true_and]
      split
      · rename_i qos
        rcases Bool.and_eq_true_iff.mp qos with ⟨wmm, type⟩
        exact met ref sta found there wmm (of_decide_eq_true type)
      · rfl

/-! ## Every run -/

/-- An access point without stations. -/
structure FreshAp (d : Driver) : Prop where
  ap : d.intf.isAp = true
  empty : ∀ i, d.intf.apSta i = none

theorem BaReach.inv {start d : Driver} {agreed : Mac → Nat → Bool} (fresh : FreshAp start)
    (reach : BaReach (fun d op => op.Met d) start d agreed) : BaInv d agreed := by
  induction reach with
  | start =>
    refine ⟨fresh.ap, ?_, ?_⟩
    · intro i j a b _ _ here
      rw [fresh.empty i] at here
      cases here
    · intro i sta _ here
      rw [fresh.empty i] at here
      cases here
  | step _ met run ih => exact baStep_inv ih met run

/-- Runs whose steps go well keep the entries as they were agreed on, and use them so. -/
theorem blockAck_consistent {start d : Driver} {agreed : Mac → Nat → Bool} (fresh : FreshAp start)
    (reach : BaReach (fun d op => op.Met d) start d agreed) :
    Agrees d agreed ∧ ∀ op : BaOp, op.Met d → OpRight d op :=
  ⟨(reach.inv fresh).agrees, fun _ met => opRight_of_inv (reach.inv fresh) met⟩

/-- An access point before anything has happened. -/
def emptyAp : Driver :=
  ⟨⟨true, false, ⟨wpaClearKey, .replicate 6 0, false, fun _ => false⟩,
    ⟨.replicate 6 6, wpaClearKey⟩, fun _ => none, 0⟩, fun _ => false⟩

theorem emptyAp_fresh : FreshAp emptyAp := ⟨rfl, fun _ => rfl⟩

/-- A frame of 60 bytes for a station, from the access point. -/
def toStation : List (List UInt8) :=
  [.replicate 6 2 ++ .replicate 6 6 ++ [8, 0], .replicate 46 7]

theorem transmit_met_of_noQos {d : Driver} {pool : Pool} {first : List UInt8}
    {rest : List (List UInt8)} (plain : ((nrcWpaFindSta d.intf (etherDest first)).bind
      d.intf.staAt).map (·.qos) = some false) : (BaOp.transmit pool (first :: rest)).Met d := by
  intro ref sta found there qos
  simp [found, there, qos] at plain

/-- A station is connected and agrees on best effort, and a frame is sent to it. -/
theorem blockAck_consistent_station : ∃ d agreed, BaReach (fun d op => op.Met d) emptyAp d agreed ∧
    agreed (.replicate 6 2) 1 = true ∧ Agrees d agreed ∧
    ((baStep d (.transmit freshPool toStation)).bind Handled.request).map TxRequest.ampdu =
      some true ∧
    OpRight d (.transmit freshPool toStation) := by
  have unknown : (BaOp.staAdd (.replicate 6 2) false true).Met emptyAp :=
    (by decide : ¬ emptyAp.Known (.replicate 6 2))
  have added : BaReach (fun d op => op.Met d) emptyAp _ _ := .step .start unknown rfl
  have asks : ∀ {d : Driver}, d.Known (.replicate 6 2) →
      (BaOp.addbaReq (.replicate 6 2) 0 true).Met d := fun known _ => ⟨by decide, known⟩
  have asked : BaReach (fun d op => op.Met d) emptyAp _ _ := .step added (asks (by decide)) rfl
  rcases blockAck_consistent emptyAp_fresh asked with ⟨agrees, right⟩
  exact ⟨_, _, asked, by decide +kernel, agrees, by decide +kernel,
    right _ (transmit_met_of_noQos (by decide +kernel))⟩

/-- A request from a sender that is not connected. -/
theorem blockAck_unknown_sender : ¬ ∀ (start d : Driver) (agreed : Mac → Nat → Bool),
    FreshAp start → BaReach (fun _ _ => True) start d agreed →
    Agrees d agreed ∧ ∀ op : BaOp, OpRight d op := by
  intro all
  have handled := ((all emptyAp emptyAp _ emptyAp_fresh .start).2
    (.addbaReq (.replicate 6 2) 0 true)).handled
  cases handled

end WifiDrv

end Tr6260
