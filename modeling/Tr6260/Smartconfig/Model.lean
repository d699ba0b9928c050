import Mathlib.Logic.Function.Basic
import Tr6260.CString

/-!
# Parsers of the network configuration

A phone that knows the name and password of an access point sends them to a
device that is in no network yet, encoded in what every listener can see of an
encrypted frame: its length, and the destination address of multicast frames.
`ya_smartconfig.c` has two parsers, one for frames to the broadcast address,
which takes a length as a marker or as the value that a marker announces, and
one for multicast frames, which finds three bytes in the address and checks
them against the length.

Both wait for a sender first (`switchChannel`), follow that sender until they
have a key with the right checksum, and then set `findPhone`.
-/

namespace Tr6260

/-! ## What the parsers share -/

/-- A hardware address. -/
abbrev Mac := Vector UInt8 6

/-- `ROUTER_INFO`, without the link. -/
structure RouterInfo where
  auth : UInt8
  channel : UInt8
  /-- `encry[0]` and `encry[1]`. -/
  encry : UInt8 × UInt8
  bssid : Mac
  ssid : CString

/-- `get_ap_info`, over the list from `info_head` on. -/
def getApInfo (routers : List RouterInfo) (bssid : Mac) : Option RouterInfo :=
  routers.find? fun info => info.bssid = bssid

/-- The values of `switchChannel`. -/
inductive SwitchChannel
  | searchStart
  | searchEnd
  deriving DecidableEq

/-- The values of `findPhone`. -/
inductive FindPhone
  | notActive
  | okKey
  deriving DecidableEq

/-- `SCONFIG_INFO`, with `channel_lock_time`. -/
structure SconfigInfo where
  switchChannel : SwitchChannel
  findPhone : FindPhone
  bssid : Mac
  srcmac : Mac
  channelLockTime : Nat

/-- The frame is not from the sender that the channel is locked on. -/
def SconfigInfo.Other (info : SconfigInfo) (bssid saMac : Mac) : Prop :=
  saMac ≠ info.srcmac ∨ info.bssid ≠ bssid

instance (info : SconfigInfo) (bssid saMac : Mac) : Decidable (info.Other bssid saMac) :=
  inferInstanceAs (Decidable (_ ∨ _))

/-- The channel is locked on the sender `saMac` at the access point `bssid`. -/
structure SconfigInfo.LockedOn (info : SconfigInfo) (bssid saMac : Mac) : Prop where
  locked : info.switchChannel = .searchEnd
  bssid : info.bssid = bssid
  saMac : info.srcmac = saMac

theorem SconfigInfo.LockedOn.other_iff {info : SconfigInfo} {bssid saMac : Mac}
    (locked : info.LockedOn bssid saMac) (bssid' saMac' : Mac) :
    info.Other bssid' saMac' ↔ ¬ (bssid' = bssid ∧ saMac' = saMac) := by
  rw [SconfigInfo.Other, locked.bssid, locked.saMac, not_and_or, or_comm, ne_comm]

/-- The loop over the key: `check_cacul`, or nothing where a byte is missing. -/
def checkCacul (key keyFlag : Nat → UInt8) : (left index : Nat) → UInt8 → Option UInt8
  | 0, _, sum => some sum
  | left + 1, index, sum =>
    if keyFlag index = 0 then
      none
    else
      checkCacul key keyFlag left (index + 1) (sum + key index)

/-- The first bytes of a key. -/
def keyBytes (key : Nat → UInt8) (size : Nat) : List UInt8 := (List.range size).map key

/-- The loop ends behind the key exactly when all its bytes are flagged, with their sum. -/
theorem checkCacul_eq_some {key keyFlag : Nat → UInt8} {left index : Nat} {sum result : UInt8} :
    checkCacul key keyFlag left index sum = some result ↔
      (∀ i, index ≤ i → i < index + left → keyFlag i ≠ 0) ∧
        sum + ((List.range' index left).map key).sum = result := by
  induction left generalizing index sum with
  | zero =>
    constructor
    · intro ends
      cases ends
      exact ⟨fun i low high => absurd high (by omega), UInt8.add_zero _⟩
    · rintro ⟨-, rfl⟩
      exact congrArg some (UInt8.add_zero _).symm
  | succ left ih =>
    rw [checkCacul, List.range'_succ, List.map_cons, List.sum_cons, ← UInt8.add_assoc]
    split
    next missing =>
      exact ⟨nofun, fun ⟨flags, _⟩ => absurd missing (flags index (Nat.le_refl _) (by omega))⟩
    next flagged =>
      rw [ih]
      refine and_congr_left fun _ => ⟨fun flags i low high => ?_, fun flags i low high => ?_⟩
      · rcases Nat.eq_or_lt_of_le low with rfl | above
        · exact flagged
        · exact flags i above (by omega)
      · exact flags i (by omega) (by omega)

/-- From the start of the key. -/
theorem checkCacul_start {key keyFlag : Nat → UInt8} {size : Nat} {sum : UInt8} :
    checkCacul key keyFlag size 0 0 = some sum ↔
      (∀ i < size, keyFlag i ≠ 0) ∧ (keyBytes key size).sum = sum := by
  rw [checkCacul_eq_some, UInt8.zero_add, ← List.range_eq_range', Nat.zero_add]
  exact and_congr_left fun _ => ⟨fun flags i => flags i (Nat.zero_le i), fun flags i _ => flags i⟩

/-- Flagged places hold the bytes sent. -/
def Carries (key keyFlag : Nat → UInt8) (sent : List UInt8) : Prop :=
  ∀ i < sent.length, keyFlag i ≠ 0 → sent.getD i 0 = key i

/-- A key with all its places flagged is the one sent. -/
theorem Carries.keyBytes_eq {key keyFlag : Nat → UInt8} {sent : List UInt8}
    (carries : Carries key keyFlag sent) (flags : ∀ i < sent.length, keyFlag i ≠ 0) :
    keyBytes key sent.length = sent := by
  refine List.ext_getElem (by simp [keyBytes]) fun i low high => ?_
  have held := carries i high (flags i high)
  rw [List.getD_eq_getElem?_getD, List.getElem?_eq_getElem high, Option.getD_some] at held
  simp [keyBytes, held]

/-- With the length or none and the checksum or none, the parsers find a whole key exactly when
nothing of it is missing. -/
theorem Carries.whole_iff {key keyFlag : Nat → UInt8} {sent : List UInt8} {keyLen keyChecksum : UInt8}
    {checksumFlag hasLength hasChecksum : Prop} (carries : Carries key keyFlag sent)
    (nonempty : sent.length ≠ 0)
    (len : (keyLen.toNat = sent.length ∧ hasLength) ∨ (keyLen = 0 ∧ ¬ hasLength))
    (flag_iff : checksumFlag ↔ hasChecksum) (checksum : checksumFlag → keyChecksum = sent.sum) :
    ((checksumFlag ∧ keyLen ≠ 0) ∧
        checkCacul key keyFlag keyLen.toNat 0 0 = some keyChecksum) ↔
      hasLength ∧ hasChecksum ∧ ∀ i < sent.length, keyFlag i ≠ 0 := by
  rw [checkCacul_start]
  rcases len with ⟨len, hasLen⟩ | ⟨zero, missing⟩
  · have lenSet : keyLen ≠ 0 := by
      intro zero
      rw [zero] at len
      exact nonempty len.symm
    rw [len]
    constructor
    · rintro ⟨⟨flagged, -⟩, flags, -⟩
      exact ⟨hasLen, flag_iff.mp flagged, flags⟩
    · rintro ⟨-, hasSum, flags⟩
      have flagged := flag_iff.mpr hasSum
      rw [carries.keyBytes_eq flags, checksum flagged]
      exact ⟨⟨flagged, lenSet⟩, flags, rfl⟩
  · exact iff_of_false (fun found => found.1.2 zero) fun all => missing all.1

/-- A store of the byte sent for its place. -/
theorem Carries.store {key keyFlag : Nat → UInt8} {sent : List UInt8}
    (carries : Carries key keyFlag sent) {index : Nat} {byte flag : UInt8}
    (right : index < sent.length → sent.getD index 0 = byte) :
    Carries (Function.update key index byte) (Function.update keyFlag index flag) sent := by
  intro i inside flagged
  by_cases here : i = index
  · subst here
    rw [Function.update_self]
    exact right inside
  · rw [Function.update_of_ne here] at flagged ⊢
    exact carries i inside flagged

/-! ## Broadcast -/

/-- `SCONFIG_STATUS`. -/
inductive SconfigStatus
  | idle
  | len
  | index
  | key
  | chk
  | ok
  deriving DecidableEq

/-- `ya_parse_para_broadcast_t`; `key` and `keyFlag` have 80 places. -/
structure ParseBroadcast where
  key : Nat → UInt8
  keyFlag : Nat → UInt8
  keyLen : UInt8
  keyCurIndex : UInt8
  keyChecksum : UInt8
  keyChecksumFlag : Bool
  countNum : UInt8
  finish : Bool
  status : SconfigStatus

/-- The parameters after `memset`. -/
def ParseBroadcast.zero : ParseBroadcast where
  key := fun _ => 0
  keyFlag := fun _ => 0
  keyLen := 0
  keyCurIndex := 0
  keyChecksum := 0
  keyChecksumFlag := false
  countNum := 0
  finish := false
  status := .idle

/-- `key[index] = byte; key_flag[index] = 1`. The byte behind `key` is `key_flag[0]`, and the one
behind `key_flag` is `key_len`. -/
def ParseBroadcast.storeKey (p : ParseBroadcast) (index : Nat) (byte : UInt8) :
    Option ParseBroadcast :=
  if index < 80 then
    some { p with
      key := Function.update p.key index byte
      keyFlag := Function.update p.keyFlag index 1 }
  else if index = 80 then
    some { p with keyFlag := Function.update p.keyFlag 0 byte, keyLen := 1 }
  else
    none

/-- The search for a sender in `ya_parse_broadcast`. -/
def broadcastLock (bssid saMac : Mac) (len : Int) (info : SconfigInfo) (p : ParseBroadcast) :
    SconfigInfo × ParseBroadcast :=
  if len = 3 then
    if p.countNum + 1 > 3 then
      ({ info with switchChannel := .searchEnd, srcmac := saMac, bssid }, .zero)
    else
      (info, { p with countNum := p.countNum + 1 })
  else
    (info, { p with countNum := 0 })

/-- The three markers. -/
def broadcastMarker (len : Int) : Option SconfigStatus :=
  if len = 1 then some .len
  else if len = 3 then some .index
  else if len = 5 then some .chk
  else none

/-- The `switch` over the status: whether the parser goes on to look for a whole key, and the
parameters. `none`: a byte behind the parameters is written. -/
def broadcastValue (len : Int) (p : ParseBroadcast) : Option (Bool × ParseBroadcast) :=
  match p.status with
  | .len =>
    if len < 6 ∨ len > 80 then
      some (false, p)
    else
      some (true, { p with keyLen := toU8 len, keyCurIndex := 0xff, status := .idle })
  | .index =>
    if len < 7 ∨ len > 87 then
      some (false, p)
    else
      some (true, { p with keyCurIndex := toU8 (len - 7), status := .key })
  | .key =>
    if len < 100 ∨ len > 255 + 100 then
      some (false, p)
    else
      (p.storeKey p.keyCurIndex.toNat (toU8 (len - 100))).map fun p =>
        (true, { p with status := .idle })
  | .chk =>
    if len < 100 ∨ len > 255 + 100 then
      some (false, p)
    else
      some (true, { p with
        keyChecksum := toU8 (len - 100), keyChecksumFlag := true, status := .idle })
  | .idle | .ok => some (true, p)

/-- The look for a whole key. `none`: the access point is not in the list, and its name is read
through a `NULL`. -/
def broadcastFinish (routers : List RouterInfo) (info : SconfigInfo) (p : ParseBroadcast) :
    Option (SconfigInfo × ParseBroadcast) :=
  if p.keyChecksumFlag = true ∧ p.keyLen ≠ 0 then
    if checkCacul p.key p.keyFlag p.keyLen.toNat 0 0 = some p.keyChecksum then
      match getApInfo routers info.bssid with
      | none => none
      | some apInfo =>
        if apInfo.ssid.strlen ≠ 0 then
          some ({ info with findPhone := .okKey }, { p with finish := true })
        else
          some (info, p)
    else
      some (info, p)
  else
    some (info, p)

/-- `ya_parse_broadcast` at the time `now`. -/
def yaParseBroadcast (routers : List RouterInfo) (now : Nat) (bssid saMac : Mac) (len : Int)
    (info : SconfigInfo) (p : ParseBroadcast) : Option (SconfigInfo × ParseBroadcast) :=
  if info.findPhone = .okKey then
    some (info, p)
  else
    match info.switchChannel with
    | .searchStart => some (broadcastLock bssid saMac len info p)
    | .searchEnd =>
      if info.Other bssid saMac then
        some (info, p)
      else
        match broadcastMarker len with
        | some status =>
          some ({ info with channelLockTime := now }, { p with status, keyCurIndex := 0xff })
        | none =>
          match broadcastValue len p with
          | none => none
          | some (false, p) => some (info, p)
          | some (true, p) => broadcastFinish routers info p

/-! ## Multicast -/

/-- `ya_parse_para_multicast_t`; `key` and `keyFlag` have 128 places. -/
structure ParseMulticast where
  key : Nat → UInt8
  keyFlag : Nat → UInt8
  keyLen : UInt8
  keyChecksum : UInt8
  keyChecksumFlag : Bool
  countNum : UInt8
  finish : Bool

/-- The parameters after `memset`. -/
def ParseMulticast.zero : ParseMulticast where
  key := fun _ => 0
  keyFlag := fun _ => 0
  keyLen := 0
  keyChecksum := 0
  keyChecksumFlag := false
  countNum := 0
  finish := false

/-- The last three bytes of a multicast address. -/
structure DsMac where
  d0 : UInt8
  d1 : UInt8
  d2 : UInt8
  deriving DecidableEq

/-- `da_mac + 3`. -/
def DsMac.ofMac (daMac : Mac) : DsMac := ⟨daMac[3], daMac[4], daMac[5]⟩

/-- `ds_mac[0] & 0x7F`. -/
def DsMac.masked (ds : DsMac) : DsMac := { ds with d0 := ds.d0 &&& 0x7F }

/-- `tmp_len_check`. -/
def DsMac.lenCheck (ds : DsMac) : Nat := (ds.d0 + ds.d1 + ds.d2).toNat + 1

/-- The search for a sender in `ya_parse_multicast`. -/
def multicastLock (bssid : Mac) (ds : DsMac) (saMac : Mac) (len : Int) (info : SconfigInfo)
    (p : ParseMulticast) : SconfigInfo × ParseMulticast :=
  let p := { p with countNum := if len = ds.lenCheck then p.countNum + 1 else 0 }
  if p.countNum > 1 then
    ({ info with switchChannel := .searchEnd, srcmac := saMac, bssid }, p)
  else
    (info, p)

/-- The frame's three bytes taken as length, pair or checksum; `none` for what is none of them. -/
def multicastValue (ds : DsMac) (p : ParseMulticast) : Option ParseMulticast :=
  if ds.d0 = 0x20 ∧ ds.d1 = ds.d2 then
    if ds.d1 ≥ 8 ∧ ds.d1 ≤ 128 then
      some { p with keyLen := ds.d1 }
    else
      none
  else if ds.d0 &&& 0x40 ≠ 0 then
    let tmp := (ds.d0 &&& 0x3F).toNat
    some { p with
      key := Function.update (Function.update p.key (tmp * 2) ds.d1) (tmp * 2 + 1) ds.d2
      keyFlag := Function.update (Function.update p.keyFlag (tmp * 2) 1) (tmp * 2 + 1) 1 }
  else if ds.d0 = 0x01 ∧ ds.d1 = ds.d2 then
    some { p with keyChecksum := ds.d1, keyChecksumFlag := true }
  else
    none

/-- The frame's three bytes are of one of the kinds; the time of the lock is set before the bounds
of a length are checked. -/
def DsMac.Known (ds : DsMac) : Prop :=
  (ds.d0 = 0x20 ∧ ds.d1 = ds.d2) ∨ ds.d0 &&& 0x40 ≠ 0 ∨ (ds.d0 = 0x01 ∧ ds.d1 = ds.d2)

instance (ds : DsMac) : Decidable ds.Known := inferInstanceAs (Decidable (_ ∨ _ ∨ _))

/-- The look for a whole key. -/
def multicastFinish (info : SconfigInfo) (p : ParseMulticast) : SconfigInfo × ParseMulticast :=
  if (p.keyChecksumFlag = true ∧ p.keyLen ≠ 0) ∧
      checkCacul p.key p.keyFlag p.keyLen.toNat 0 0 = some p.keyChecksum then
    ({ info with findPhone := .okKey }, { p with finish := true })
  else
    (info, p)

/-- `ya_parse_multicast` at the time `now`. -/
def yaParseMulticast (now : Nat) (bssid : Mac) (dsMac : DsMac) (saMac : Mac) (len : Int)
    (info : SconfigInfo) (p : ParseMulticast) : SconfigInfo × ParseMulticast :=
  let ds := dsMac.masked
  match info.switchChannel with
  | .searchStart => multicastLock bssid ds saMac len info p
  | .searchEnd =>
    if info.Other bssid saMac then
      (info, p)
    else if len ≠ ds.lenCheck then
      (info, p)
    else
      let info := if ds.Known then { info with channelLockTime := now } else info
      match multicastValue ds p with
      | none => (info, p)
      | some p => multicastFinish info p

end Tr6260
