import Mathlib.Algebra.GroupWithZero.Nat
import Mathlib.Data.UInt
import Mathlib.Logic.Function.Basic
import Mathlib.Tactic.Common

/-!
# The WiFi driver's interfaces

`struct nrc_wpa_if` with its stations and keys. A pointer to a station or to a key is the place it
is in: the interface's own station, an entry of `ap_sta`, or the broadcast key of the BSS. Names,
timers and what is only shown to the supplicant are left out.
-/

namespace Tr6260

namespace WifiDrv

/-! ## Addresses -/

/-- `uint8_t addr[ETH_ALEN]`. -/
abbrev Mac := Vector UInt8 6

/-- `is_multicast_ether_addr`. -/
def isMulticastEtherAddr (addr : Mac) : Bool := addr.get 0 &&& 1 ≠ 0

/-! ## Keys -/

/-- `enum wim_cipher_type`. -/
inductive Cipher
  | wep40
  | wep104
  | tkip
  | ccmp
  | wapi
  | none
  | invalid
  deriving DecidableEq

/-- `is_wep`. -/
def isWep (cipher : Cipher) : Bool := cipher = .wep40 ∨ cipher = .wep104

/-- `struct nrc_wpa_key`; `tsc` is a `uint64_t`, `ix` and `keyLen` are `uint16_t`. -/
structure WpaKey where
  tsc : Nat
  ix : Nat
  cipher : Cipher
  addr : Mac
  key : List UInt8
  keyLen : Nat
  isSet : Bool

/-- `wpa_clear_key`: what the key is afterwards. -/
def wpaClearKey : WpaKey := ⟨0, 0, .none, .replicate 6 0, .replicate 32 0, 0, false⟩

/-- `is_key_wep`. -/
def isKeyWep (key : WpaKey) : Bool := isWep key.cipher

/-! ## Stations -/

/-- `struct nrc_wpa_sta`; `block_ack` has an entry for each access category. -/
structure WpaSta where
  key : WpaKey
  addr : Mac
  qos : Bool
  blockAck : Nat → Bool

/-- `struct nrc_wpa_bss`. -/
structure WpaBss where
  bssid : Mac
  broadcastKey : WpaKey

/-- `struct nrc_wpa_if`. -/
structure WpaIf where
  isAp : Bool
  associated : Bool
  sta : WpaSta
  bss : WpaBss
  apSta : Nat → Option WpaSta
  numApSta : Nat

/-- `NRC_WPA_SOFTAP_MAX_STA`. -/
def nrcWpaSoftapMaxSta : Nat := 4

/-- A `struct nrc_wpa_sta *`. -/
inductive StaRef
  | sta
  | ap (i : Nat)
  deriving DecidableEq

/-- A `struct nrc_wpa_key *`. -/
inductive KeyRef
  | broadcast
  | of (ref : StaRef)
  deriving DecidableEq

namespace WpaIf

def staAt (s : WpaIf) : StaRef → Option WpaSta
  | .sta => some s.sta
  | .ap i => s.apSta i

def modifySta (s : WpaIf) (f : WpaSta → WpaSta) : StaRef → WpaIf
  | .sta => { s with sta := f s.sta }
  | .ap i => { s with apSta := Function.update s.apSta i ((s.apSta i).map f) }

def keyAt (s : WpaIf) : KeyRef → Option WpaKey
  | .broadcast => some s.bss.broadcastKey
  | .of ref => (s.staAt ref).map (·.key)

def modifyKey (s : WpaIf) (f : WpaKey → WpaKey) : KeyRef → WpaIf
  | .broadcast => { s with bss := { s.bss with broadcastKey := f s.bss.broadcastKey } }
  | .of ref => s.modifySta (fun sta => { sta with key := f sta.key }) ref

theorem staAt_modifySta_self (s : WpaIf) (f : WpaSta → WpaSta) (ref : StaRef) :
    (s.modifySta f ref).staAt ref = (s.staAt ref).map f := by
  cases ref with
  | sta => rfl
  | ap i => exact Function.update_self ..

theorem staAt_modifySta_of_ne (s : WpaIf) (f : WpaSta → WpaSta) {ref other : StaRef}
    (ne : other ≠ ref) : (s.modifySta f ref).staAt other = s.staAt other := by
  cases ref with
  | sta =>
    cases other with
    | sta => exact absurd rfl ne
    | ap j => rfl
  | ap i =>
    cases other with
    | sta => rfl
    | ap j =>
      have apart : j ≠ i := fun same => ne (congrArg StaRef.ap same)
      exact Function.update_of_ne apart ..

theorem keyAt_modifyKey_self (s : WpaIf) (f : WpaKey → WpaKey) (ref : KeyRef) :
    (s.modifyKey f ref).keyAt ref = (s.keyAt ref).map f := by
  cases ref with
  | broadcast => rfl
  | of ref =>
    rw [modifyKey, keyAt, staAt_modifySta_self, keyAt, Option.map_map, Option.map_map]
    rfl

theorem keyAt_modifyKey_of_ne (s : WpaIf) (f : WpaKey → WpaKey) {ref other : KeyRef}
    (ne : other ≠ ref) : (s.modifyKey f ref).keyAt other = s.keyAt other := by
  cases ref with
  | broadcast =>
    cases other with
    | broadcast => exact absurd rfl ne
    | of other =>
      cases other with
      | sta => rfl
      | ap i => rfl
  | of ref =>
    cases other with
    | broadcast =>
      cases ref with
      | sta => rfl
      | ap i => rfl
    | of other =>
      have apart : other ≠ ref := fun same => ne (congrArg KeyRef.of same)
      rw [modifyKey, keyAt, staAt_modifySta_of_ne s _ apart, keyAt]

end WpaIf

/-! ## Finding stations and keys -/

/-- `nrc_wpa_find_sta`. -/
def nrcWpaFindSta (intf : WpaIf) (addr : Mac) : Option StaRef :=
  if intf.isAp = false then some .sta
  else if isMulticastEtherAddr addr then some .sta
  else ((List.range nrcWpaSoftapMaxSta).find? fun i =>
    (intf.apSta i).any (·.addr = addr)).map .ap

/-- `nrc_wpa_get_key`. -/
def nrcWpaGetKey (intf : WpaIf) (addr : Option Mac) : Option KeyRef :=
  match addr with
  | none => some .broadcast
  | some addr =>
    if isMulticastEtherAddr addr then some .broadcast
    else if intf.isAp ∧ isKeyWep intf.bss.broadcastKey then some .broadcast
    else if intf.isAp = false then some (.of .sta)
    else (nrcWpaFindSta intf addr).map .of

end WifiDrv

end Tr6260
