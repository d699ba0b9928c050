import Tr6260.WifiDrv.Convert

/-!
# Frames that an access point forwards

`nrc_wpa_ap_process` rewrites the header of a frame for the distribution system in place, hands the
frame to `nrc_raw_transmit` and puts the header back where the frame goes on to the local stack. The
frame is in its buffer, with whatever lies behind it.
-/

namespace Tr6260

namespace WifiDrv

/-! ## The header in its buffer -/

/-- An address of the header. -/
def macIn (m : ByteMem) (offset : Nat) : Mac := .ofFn fun i => m (offset + i)

/-- `hdr->frame_control`. -/
def frameControlIn (m : ByteMem) : Nat := (m 0).toNat + 2 ^ 8 * (m 1).toNat

def setFrameControl (m : ByteMem) (fc : Nat) : ByteMem :=
  m.store 0 [.ofNat fc, .ofNat (fc >>> 8)]

/-- `ACI_BE`. -/
def aciBe : Nat := 1

/-- What `nrc_raw_transmit` hands to `hal_lmac_uplink_request_sysbuf`. -/
structure RawRequest where
  chain : List SysBuf
  cipher : Cipher
  ac : Nat

/-- `nrc_raw_transmit`: what is sent, if anything, the frame in its buffer and the interface
afterwards. -/
def nrcRawTransmit (pool : Pool) (intf : WpaIf) (frm : ByteMem) (len ac : Nat) :
    Option (Option RawRequest × ByteMem × WpaIf) :=
  match pool.alloc (sizeofFrameHdr + len) with
  | none => some (none, frm, intf)
  | some buffer => do
    let fc := frameControlIn frm
    let keyRef := nrcWpaGetKey intf (some (macIn frm 4))
    let key := keyRef.bind intf.keyAt
    let pos := 24 + if fc &&& (8 <<< 4) ≠ 0 then 2 else 0
    let wep := fc &&& wlanFcIswep ≠ 0
    let cipher := if wep then key.elim .none (·.cipher) else .none
    let frm := if wep then frm.store pos (secHdr key) else frm
    let intf := if wep then match keyRef with
        | none => intf
        | some ref => intf.modifyKey (fun key => (nrcAddSecHdr key).2) ref
      else intf
    let chain ← copyToSysbuf buffer (frm.load 0 len)
    some (some ⟨chain, cipher, ac⟩, frm, intf)

/-- What `nrc_wpa_ap_process` leaves, with its result. -/
structure ApOut where
  ret : Int
  sent : Option RawRequest
  frame : ByteMem
  intf : WpaIf

/-- The header of the frame from the distribution system. -/
def forwardHeader (frame : ByteMem) : ByteMem :=
  let fc := frameControlIn frame &&& (0xffff ^^^ wlanFcTods)
  let fc := fc ||| wlanFcFromds
  let frame := setFrameControl frame fc
  let saddr := macIn frame 10
  let frame := frame.store 10 (macIn frame 4).toList
  let frame := frame.store 4 (macIn frame 16).toList
  frame.store 16 saddr.toList

/-- `nrc_wpa_ap_process`, with the interface's own address. -/
def nrcWpaApProcess (pool : Pool) (intf : WpaIf) (addr : Mac) (frame : ByteMem) (len : Nat) :
    Option ApOut :=
  let fc := frameControlIn frame
  if intf.isAp = false then some ⟨0, none, frame, intf⟩
  else if fc &&& wlanFcTods = 0 then some ⟨-1, none, frame, intf⟩
  else if fc &&& wlanFcTods ≠ 0 ∧ fc &&& wlanFcFromds ≠ 0 then some ⟨-1, none, frame, intf⟩
  else if macIn frame 16 = addr then some ⟨0, none, frame, intf⟩
  else do
    let ret : Int :=
      if isMulticastEtherAddr (macIn frame 16) then 0
      else match nrcWpaFindSta intf (macIn frame 16) with
        | none => -1
        | some _ => 0
    let forwardHdr := frame.load 0 24
    let (sent, frame, intf) ← nrcRawTransmit pool intf (forwardHeader frame) len aciBe
    let frame := if ret = 0 then frame.store 0 forwardHdr else frame
    some ⟨ret, sent, frame, intf⟩

section Header

variable {m m' : ByteMem} {offset offset' : Nat}

theorem macIn_congr (agree : ByteMem.AgreeOn m m' offset 6) : macIn m offset = macIn m' offset := by
  apply Vector.ext
  intro i low
  unfold macIn
  rw [Vector.getElem_ofFn, Vector.getElem_ofFn]
  exact agree _ (Nat.le_add_right _ _) (Nat.add_lt_add_left low _)

theorem macIn_store_self (m : ByteMem) (offset : Nat) (mac : Mac) :
    macIn (m.store offset mac.toList) offset = mac := by
  apply Vector.ext
  intro i low
  have long : mac.toList.length = 6 := Vector.length_toList
  have byte := (ByteMem.store_holds m offset mac.toList).apply (long.symm ▸ low)
  rw [List.getD_eq_getElem _ _ (long.symm ▸ low), Vector.getElem_toList] at byte
  unfold macIn
  rw [Vector.getElem_ofFn]
  exact byte

theorem macIn_store_apart (m : ByteMem) (bytes : List UInt8)
    (apart : offset + 6 ≤ offset' ∨ offset' + bytes.length ≤ offset) :
    macIn (m.store offset' bytes) offset = macIn m offset :=
  (macIn_congr (ByteMem.store_frame m offset' bytes apart)).symm

/-- An address is read from the bytes as from the buffer. -/
theorem macAt_load {len : Nat} (inside : offset + 6 ≤ len) :
    macAt (m.load 0 len) offset = macIn m offset := by
  apply Vector.ext
  intro i low
  unfold macAt macIn
  rw [Vector.getElem_ofFn, Vector.getElem_ofFn, List.getD_eq_getElem?_getD,
    ByteMem.getElem?_load, if_pos (by omega), Option.getD_some, Nat.zero_add]

theorem frameControl_load {len : Nat} (inside : 2 ≤ len) :
    frameControl (m.load 0 len) = frameControlIn m := by
  unfold frameControl frameControlIn
  rw [List.getD_eq_getElem?_getD, List.getD_eq_getElem?_getD, ByteMem.getElem?_load,
    ByteMem.getElem?_load, if_pos (by omega), if_pos (by omega)]
  rfl

theorem frameControlIn_set {fc : Nat} (small : fc < 2 ^ 16) :
    frameControlIn (setFrameControl m fc) = fc := by
  have held := ByteMem.store_holds m 0 [.ofNat fc, .ofNat (fc >>> 8)]
  have low : setFrameControl m fc 0 = .ofNat fc := held.apply Nat.zero_lt_two
  have high : setFrameControl m fc 1 = .ofNat (fc >>> 8) := held.apply Nat.one_lt_two
  unfold frameControlIn
  rw [low, high, UInt8.toNat_ofNat', UInt8.toNat_ofNat', Nat.shiftRight_eq_div_pow]
  omega

theorem frameControlIn_store (m : ByteMem) (bytes : List UInt8) (behind : 2 ≤ offset) :
    frameControlIn (m.store offset bytes) = frameControlIn m := by
  have agree := @ByteMem.store_frame m offset bytes 0 2 (.inl behind)
  unfold frameControlIn
  rw [← agree 0 (by decide) (by decide), ← agree 1 (by decide) (by decide)]

/-- The addresses go round: to the station, from the BSS, of the sender. -/
theorem forwardHeader_addrs (frame : ByteMem) :
    macIn (forwardHeader frame) 4 = macIn frame 16 ∧
      macIn (forwardHeader frame) 10 = macIn frame 4 ∧
      macIn (forwardHeader frame) 16 = macIn frame 10 := by
  have long (mac : Mac) : mac.toList.length = 6 := Vector.length_toList
  have keep (offset : Nat) (behind : 2 ≤ offset) (fc : Nat) :
      macIn (setFrameControl frame fc) offset = macIn frame offset :=
    macIn_store_apart frame _ (.inr behind)
  unfold forwardHeader
  dsimp only
  refine ⟨?_, ?_, ?_⟩
  · rw [macIn_store_apart _ _ (.inl (by decide)), macIn_store_self,
      macIn_store_apart _ _ (.inr (Nat.le_of_eq (congrArg (_ + ·) (long _)))), keep 16 (by decide)]
  · rw [macIn_store_apart _ _ (.inl (by decide)),
      macIn_store_apart _ _ (.inr (Nat.le_of_eq (congrArg (_ + ·) (long _)))),
      macIn_store_self, keep 4 (by decide)]
  · rw [macIn_store_self, keep 10 (by decide)]

/-- FromDS in the place of ToDS. -/
theorem forwardHeader_control (frame : ByteMem) :
    frameControlIn (forwardHeader frame) &&& wlanFcTods = 0 ∧
      frameControlIn (forwardHeader frame) &&& wlanFcFromds ≠ 0 := by
  have masks : (0xffff ^^^ wlanFcTods) &&& wlanFcTods = 0 ∧ wlanFcFromds &&& wlanFcTods = 0 ∧
      wlanFcFromds &&& wlanFcFromds = wlanFcFromds := by decide
  have small : frameControlIn frame &&& (0xffff ^^^ wlanFcTods) ||| wlanFcFromds < 2 ^ 16 :=
    Nat.or_lt_two_pow (Nat.and_lt_two_pow _ (by decide)) (by decide)
  unfold forwardHeader
  dsimp only
  rw [frameControlIn_store _ _ (by decide), frameControlIn_store _ _ (by decide),
    frameControlIn_store _ _ (by decide), frameControlIn_set small, Nat.and_or_distrib_right,
    Nat.and_or_distrib_right, Nat.and_assoc, masks.1, masks.2.1, masks.2.2]
  refine ⟨by rw [Nat.and_zero, Nat.or_zero], ?_⟩
  intro zero
  exact absurd (Nat.or_eq_zero_iff.mp zero).2 (by decide)

end Header

/-! ## Sending -/

/-- The frame is sent if there are buffers; its header stays as it is. -/
theorem nrcRawTransmit_spec (pool : Pool) (intf : WpaIf) (frm : ByteMem) (len ac : Nat) :
    ∃ sent frm' intf', nrcRawTransmit pool intf frm len ac = some (sent, frm', intf') ∧
      (sent.isSome ↔ (pool.alloc (sizeofFrameHdr + len)).isSome) ∧
      ByteMem.AgreeOn frm frm' 0 24 ∧
      ∀ request, sent = some request → gather request.chain = frm'.load 0 len := by
  unfold nrcRawTransmit
  cases allocated : pool.alloc (sizeofFrameHdr + len) with
  | none => exact ⟨none, frm, intf, rfl, Iff.rfl, fun _ _ _ => rfl, nofun⟩
  | some buffer =>
    have lengths := pool.lengths _ _ allocated
    have copied (m : ByteMem) : copyToSysbuf buffer (m.load 0 len) =
        some (scatter buffer (m.load 0 len)) :=
      (raw_scatter (by rwa [ByteMem.length_load])).2
    have whole (m : ByteMem) : gather (scatter buffer (m.load 0 len)) = m.load 0 len :=
      gather_scatter (by rw [ByteMem.length_load]; exact (chainRoom_of_lengths lengths).symm)
    dsimp only
    rw [copied]
    refine ⟨_, _, _, rfl, Iff.rfl, ?_, ?_⟩
    · split
      · exact ByteMem.store_frame _ _ _ (.inl (Nat.le_add_right 24 _))
      · exact fun _ _ _ => rfl
    · intro request is
      cases is
      exact whole _

/-! ## The policy -/

/-- The address of a station of the table. -/
def Connected (intf : WpaIf) (addr : Mac) : Prop :=
  ∃ i < nrcWpaSoftapMaxSta, (intf.apSta i).any (·.addr = addr) = true

instance (intf : WpaIf) (addr : Mac) : Decidable (Connected intf addr) :=
  inferInstanceAs (Decidable (∃ i, i < _ ∧ _))

/-- What a frame for the distribution system should lead to: it is sent on to stations and groups,
and handed on (0) if it is for the access point or a group. -/
structure ForwardPolicy (intf : WpaIf) (addr : Mac) (frame : ByteMem) (len : Nat) (out : ApOut) :
    Prop where
  sent : out.sent.isSome ↔
    isMulticastEtherAddr (macIn frame 16) = true ∨ Connected intf (macIn frame 16)
  consumed : out.ret = 0 ↔
    macIn frame 16 = addr ∨ isMulticastEtherAddr (macIn frame 16) = true
  length : ∀ request, out.sent = some request → (gather request.chain).length = len
  control : ∀ request, out.sent = some request →
    frameControl (gather request.chain) &&& wlanFcTods = 0 ∧
      frameControl (gather request.chain) &&& wlanFcFromds ≠ 0
  addrs : ∀ request, out.sent = some request →
    macAt (gather request.chain) 4 = macIn frame 16 ∧
      macAt (gather request.chain) 10 = macIn frame 4 ∧
      macAt (gather request.chain) 16 = macIn frame 10
  restored : out.ret = 0 → out.frame.load 0 24 = frame.load 0 24

/-- The frames whose destination is treated so: those for the access point alone and those for
groups; those for nobody if nothing can be sent, or if FromDS is set as well. -/
def ForwardRight (pool : Pool) (intf : WpaIf) (addr : Mac) (frame : ByteMem) (len : Nat) : Prop :=
  let dest := macIn frame 16
  let fromDs := frameControlIn frame &&& wlanFcFromds ≠ 0
  let room := (pool.alloc (sizeofFrameHdr + len)).isSome = true
  if isMulticastEtherAddr dest then ¬ fromDs ∧ dest ≠ addr ∧ room
  else ¬ Connected intf dest ∧ if dest = addr then ¬ fromDs else fromDs ∨ ¬ room

section Policy

variable {pool : Pool} {intf : WpaIf} {addr : Mac} {frame : ByteMem} {len : Nat}

theorem findSta_iff (ap : intf.isAp = true) {dest : Mac}
    (unicast : ¬ isMulticastEtherAddr dest = true) :
    (nrcWpaFindSta intf dest).isSome ↔ Connected intf dest := by
  rw [nrcWpaFindSta, if_neg (by rw [ap]; decide), if_neg unicast, Option.isSome_map,
    List.find?_isSome]
  unfold Connected
  simp only [List.mem_range]

/-- A frame that is neither sent nor touched. -/
theorem forwardPolicy_unsent {ret : Int} :
    ForwardPolicy intf addr frame len ⟨ret, none, frame, intf⟩ ↔
    ¬ isMulticastEtherAddr (macIn frame 16) = true ∧ ¬ Connected intf (macIn frame 16) ∧
      (ret = 0 ↔ macIn frame 16 = addr) := by
  constructor
  · intro policy
    have none_ := mt policy.sent.mpr Bool.false_ne_true
    have unicast := not_or.mp none_
    refine ⟨unicast.1, unicast.2, policy.consumed.trans (or_iff_left unicast.1)⟩
  · intro ⟨unicast, unknown, own⟩
    refine ⟨?_, own.trans (or_iff_left unicast).symm, nofun, nofun, nofun, fun _ => rfl⟩
    exact iff_of_false Bool.false_ne_true (not_or.mpr ⟨unicast, unknown⟩)

/-- What `nrc_wpa_ap_process` does with a frame that is not for the access point. -/
theorem nrcWpaApProcess_forwards (ap : intf.isAp = true)
    (toDs : frameControlIn frame &&& wlanFcTods ≠ 0)
    (fromDs : ¬ frameControlIn frame &&& wlanFcFromds ≠ 0) (other : macIn frame 16 ≠ addr)
    (long : 24 ≤ len) :
    ∃ out, nrcWpaApProcess pool intf addr frame len = some out ∧
      (out.sent.isSome ↔ (pool.alloc (sizeofFrameHdr + len)).isSome) ∧
      (out.ret = 0 ↔ isMulticastEtherAddr (macIn frame 16) = true ∨
        Connected intf (macIn frame 16)) ∧
      (out.ret = 0 → out.frame.load 0 24 = frame.load 0 24) ∧
      ∀ request, out.sent = some request → (gather request.chain).length = len ∧
        (frameControl (gather request.chain) &&& wlanFcTods = 0 ∧
          frameControl (gather request.chain) &&& wlanFcFromds ≠ 0) ∧
        macAt (gather request.chain) 4 = macIn frame 16 ∧
          macAt (gather request.chain) 10 = macIn frame 4 ∧
          macAt (gather request.chain) 16 = macIn frame 10 := by
  obtain ⟨sent, frm, intf', run, room, header, bytes⟩ :=
    nrcRawTransmit_spec pool intf (forwardHeader frame) len aciBe
  have passes : ¬ (frameControlIn frame &&& wlanFcTods ≠ 0 ∧
      frameControlIn frame &&& wlanFcFromds ≠ 0) := fun both => fromDs both.2
  unfold nrcWpaApProcess
  dsimp only
  rw [if_neg (by rw [ap]; decide), if_neg toDs, if_neg passes, if_neg other, run]
  refine ⟨_, rfl, room, ?_, ?_, ?_⟩
  · dsimp only
    by_cases group : isMulticastEtherAddr (macIn frame 16) = true
    · rw [if_pos group]
      exact iff_of_true rfl (.inl group)
    · have found := findSta_iff ap group
      rw [if_neg group, or_iff_right group, ← found]
      cases nrcWpaFindSta intf (macIn frame 16) with
      | none => decide
      | some ref => exact iff_of_true rfl rfl
  · intro zero
    dsimp only at zero ⊢
    rw [if_pos zero]
    have held := (ByteMem.store_holds frm 0 (frame.load 0 24)).load
    rwa [ByteMem.length_load] at held
  · intro request is
    have control := forwardHeader_control frame
    have addrs := forwardHeader_addrs frame
    have same : frameControlIn frm = frameControlIn (forwardHeader frame) := by
      unfold frameControlIn
      rw [header 0 (by decide) (by decide), header 1 (by decide) (by decide)]
    have place (offset : Nat) (inside : offset + 6 ≤ 24) :
        macIn frm offset = macIn (forwardHeader frame) offset :=
      (macIn_congr fun a low high => header a (Nat.zero_le _) (by omega)).symm
    rw [bytes request is, ByteMem.length_load, frameControl_load (by omega),
      macAt_load (by omega), macAt_load (by omega), macAt_load (by omega), same,
      place 4 (by decide), place 10 (by decide), place 16 (by decide)]
    exact ⟨rfl, control, addrs⟩

/-- With both DS bits nothing is done, which is right for a frame for nobody. -/
theorem policy_bothDs (fromDs : frameControlIn frame &&& wlanFcFromds ≠ 0) :
    ForwardPolicy intf addr frame len ⟨-1, none, frame, intf⟩ ↔
      ForwardRight pool intf addr frame len := by
  rw [forwardPolicy_unsent]
  unfold ForwardRight
  by_cases group : isMulticastEtherAddr (macIn frame 16) = true
  · rw [if_pos group]
    exact iff_of_false (fun all => all.1 group) (fun all => all.1 fromDs)
  · rw [if_neg group]
    by_cases own : macIn frame 16 = addr
    · rw [if_pos own]
      refine iff_of_false (fun all => ?_) (fun all => all.2 fromDs)
      exact absurd (all.2.2.mpr own) (by decide)
    · rw [if_neg own]
      refine ⟨fun all => ⟨all.2.1, .inl fromDs⟩, fun all => ⟨group, all.1, ?_⟩⟩
      exact iff_of_false (by decide) own

/-- A frame for the access point is handed on, and not sent. -/
theorem policy_own (fromDs : ¬ frameControlIn frame &&& wlanFcFromds ≠ 0)
    (own : macIn frame 16 = addr) :
    ForwardPolicy intf addr frame len ⟨0, none, frame, intf⟩ ↔
      ForwardRight pool intf addr frame len := by
  rw [forwardPolicy_unsent]
  unfold ForwardRight
  by_cases group : isMulticastEtherAddr (macIn frame 16) = true
  · rw [if_pos group]
    exact iff_of_false (fun all => all.1 group) (fun all => all.2.1 own)
  · rw [if_neg group, if_pos own]
    exact ⟨fun all => ⟨all.2.1, fromDs⟩, fun all => ⟨group, all.1, iff_of_true rfl own⟩⟩

/-- A frame for others is sent, whether they are there or not, and handed on if they are. -/
theorem policy_others (ap : intf.isAp = true) (toDs : frameControlIn frame &&& wlanFcTods ≠ 0)
    (fromDs : ¬ frameControlIn frame &&& wlanFcFromds ≠ 0) (other : macIn frame 16 ≠ addr)
    (long : 24 ≤ len) :
    ∃ out, nrcWpaApProcess pool intf addr frame len = some out ∧
      (ForwardPolicy intf addr frame len out ↔ ForwardRight pool intf addr frame len) := by
  obtain ⟨out, run, room, ret, restored, header⟩ :=
    @nrcWpaApProcess_forwards pool intf addr frame len ap toDs fromDs other long
  refine ⟨out, run, ?_⟩
  unfold ForwardRight
  by_cases group : isMulticastEtherAddr (macIn frame 16) = true
  · rw [if_pos group]
    constructor
    · intro policy
      exact ⟨fromDs, other, room.mp (policy.sent.mpr (.inl group))⟩
    · intro ⟨_, _, free⟩
      exact ⟨iff_of_true (room.mpr free) (.inl group),
        iff_of_true (ret.mpr (.inl group)) (.inr group), fun r is => (header r is).1,
        fun r is => (header r is).2.1, fun r is => (header r is).2.2, restored⟩
  · rw [if_neg group, if_neg other]
    constructor
    · intro policy
      have unknown : ¬ Connected intf (macIn frame 16) := fun known =>
        (policy.consumed.mp (ret.mpr (.inr known))).elim other group
      refine ⟨unknown, .inr fun free => ?_⟩
      exact (policy.sent.mp (room.mpr free)).elim group unknown
    · intro ⟨unknown, full⟩
      have none_ := full.resolve_left fromDs
      exact ⟨iff_of_false (mt room.mp none_) (not_or.mpr ⟨group, unknown⟩),
        iff_of_false (mt ret.mp (not_or.mpr ⟨group, unknown⟩)) (not_or.mpr ⟨other, group⟩),
        fun r is => (header r is).1, fun r is => (header r is).2.1,
        fun r is => (header r is).2.2, restored⟩

/-- The policy holds of the frames that `ForwardRight` says, and of no others. -/
theorem nrcWpaApProcess_policy_iff (pool : Pool) (addr : Mac) (ap : intf.isAp = true)
    (toDs : frameControlIn frame &&& wlanFcTods ≠ 0) (long : 24 ≤ len) :
    ∃ out, nrcWpaApProcess pool intf addr frame len = some out ∧
      (ForwardPolicy intf addr frame len out ↔ ForwardRight pool intf addr frame len) := by
  have station : ¬ intf.isAp = false := by
    rw [ap]
    decide
  by_cases fromDs : frameControlIn frame &&& wlanFcFromds ≠ 0
  · refine ⟨⟨-1, none, frame, intf⟩, ?_, policy_bothDs fromDs⟩
    unfold nrcWpaApProcess
    dsimp only
    rw [if_neg station, if_neg toDs, if_pos ⟨toDs, fromDs⟩]
  · by_cases own : macIn frame 16 = addr
    · refine ⟨⟨0, none, frame, intf⟩, ?_, policy_own fromDs own⟩
      unfold nrcWpaApProcess
      dsimp only
      rw [if_neg station, if_neg toDs, if_neg fun both => fromDs both.2, if_pos own]
    · exact policy_others ap toDs fromDs own long

end Policy

/-- An access point with one station, and frames for the distribution system from that station. -/
def oneStation : WpaIf := ccmpIf true

def frameTo (dest : Mac) : ByteMem :=
  ByteMem.store (fun _ => 0) 0
    ([8, 1, 0, 0] ++ .replicate 6 6 ++ .replicate 6 4 ++ dest.toList)

/-- A frame for everybody is sent on and handed on. -/
theorem nrcWpaApProcess_broadcast : ∃ out,
    nrcWpaApProcess freshPool oneStation (.replicate 6 6) (frameTo (.replicate 6 0xff)) 60 =
      some out ∧
    ForwardPolicy oneStation (.replicate 6 6) (frameTo (.replicate 6 0xff)) 60 out := by
  obtain ⟨out, run, policy⟩ := @nrcWpaApProcess_policy_iff oneStation
    (frameTo (.replicate 6 0xff)) 60 freshPool (.replicate 6 6) rfl (by decide) (by decide)
  refine ⟨out, run, policy.mpr ?_⟩
  unfold ForwardRight
  decide

/-- A frame for the connected station is also handed on to the local stack. -/
theorem nrcWpaApProcess_unicast :
    Connected oneStation (macIn (frameTo (.replicate 6 4)) 16) ∧
      ∃ out, nrcWpaApProcess freshPool oneStation (.replicate 6 6) (frameTo (.replicate 6 4)) 60 =
        some out ∧ out.ret = 0 ∧
        ¬ ForwardPolicy oneStation (.replicate 6 6) (frameTo (.replicate 6 4)) 60 out := by
  have ret : (nrcWpaApProcess freshPool oneStation (.replicate 6 6) (frameTo (.replicate 6 4))
      60).map (·.ret) = some 0 := by decide
  obtain ⟨out, run, zero⟩ := Option.map_eq_some_iff.mp ret
  refine ⟨by decide, out, run, zero, ?_⟩
  intro policy
  exact (policy.consumed.mp zero).elim (by decide) (by decide)

end WifiDrv

end Tr6260
