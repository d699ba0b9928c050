import Tr6260.CString

/-!
# The cached network

The station's network is kept in `wifi_nv_info` and under five keys of the NV: name, password,
address and channel of the access point, and the PMK derived from name and password. The record is
memory: a password of 64 characters fills `sta_pwd`, and its end lies in `sta_bssid`.
-/

namespace Tr6260

namespace WifiNv

/-! ## Blocks of memory -/

/-- A block of `n` bytes. -/
abbrev Bytes (n : Nat) := { bytes : List UInt8 // bytes.length = n }

namespace Bytes

variable {n : Nat}

/-- The block after `memset` with zero. -/
def zero (n : Nat) : Bytes n := ⟨.replicate n 0, List.length_replicate⟩

/-- The block after a copy to its start; what lies behind the block is not copied. -/
def write (b : Bytes n) (src : List UInt8) : Bytes n :=
  ⟨(src ++ b.1.drop src.length).take n, by
    rw [List.length_take, List.length_append, List.length_drop, b.2]
    omega⟩

/-- The text in the block, with what follows the block in memory. -/
def text (b : Bytes n) (behind : List UInt8) : CString := .ofBytes (b.1 ++ behind)

end Bytes

/-! ## The store -/

/-- The keys of the NV that hold the network. -/
inductive NvKey
  | staSsid
  | staPwd
  | staBssid
  | staChannel
  | staPmk
  | autoConn
  deriving DecidableEq, Repr

/-- The NV. -/
abbrev Nv := NvKey → Option (List UInt8)

/-- A write of one key. -/
abbrev NvWrite := NvKey × List UInt8

/-- `ef_set_env_blob`, which always succeeds. -/
def efSetEnvBlob (nv : Nv) (w : NvWrite) : Nv := fun key => if key = w.1 then some w.2 else nv key

/-- `ef_get_env_blob`: the bytes that it copies. -/
def efGetEnvBlob (nv : Nv) (key : NvKey) (size : Nat) : List UInt8 := ((nv key).getD []).take size

/-! ## The record -/

/-- `WIFI_SSID_MAX_LEN`. -/
def wifiSsidMaxLen : Nat := 33

/-- `WIFI_PWD_MAX_LEN`. -/
def wifiPwdMaxLen : Nat := 64

/-- `wifi_nv_info_t`, whose fields follow each other without gaps. -/
structure WifiNvInfo where
  sync : Bool
  staSsid : Bytes wifiSsidMaxLen
  staPwd : Bytes wifiPwdMaxLen
  staBssid : Bytes 6
  channel : UInt8
  staPmk : Bytes 32
  autoConn : UInt8
  deriving DecidableEq

namespace WifiNvInfo

/-- The record after `memset`. -/
def zero : WifiNvInfo where
  sync := false
  staSsid := .zero _
  staPwd := .zero _
  staBssid := .zero _
  channel := 0
  staPmk := .zero _
  autoConn := 0

/-- The text at `sta_ssid`. -/
def ssid (info : WifiNvInfo) : CString := info.staSsid.text []

/-- The text at `sta_pwd`, which runs on into the fields behind it when it has no end there. -/
def pwd (info : WifiNvInfo) : CString :=
  info.staPwd.text (info.staBssid.1 ++ info.channel :: info.staPmk.1 ++ [info.autoConn])

/-- `strlen (sta_pmk) != 0`. -/
def HasPmk (info : WifiNvInfo) : Prop := (info.staPmk.text []).strlen ≠ 0

instance (info : WifiNvInfo) : Decidable info.HasPmk := inferInstanceAs (Decidable (_ ≠ _))

end WifiNvInfo

/-! ## Load and save -/

/-- The record as the keys give it. -/
def readInfo (nv : Nv) : WifiNvInfo where
  sync := true
  staSsid := (Bytes.zero _).write (efGetEnvBlob nv .staSsid (wifiSsidMaxLen - 1))
  staPwd := (Bytes.zero _).write (efGetEnvBlob nv .staPwd (wifiPwdMaxLen - 1))
  staBssid := (Bytes.zero _).write (efGetEnvBlob nv .staBssid 6)
  channel := (efGetEnvBlob nv .staChannel 1).headD 0
  staPmk := (Bytes.zero _).write (efGetEnvBlob nv .staPmk 32)
  autoConn := (efGetEnvBlob nv .autoConn 1).headD 0

/-- `wifi_load_nv_info`. -/
def wifiLoadNvInfo (nv : Nv) : WifiNvInfo :=
  if (efGetEnvBlob nv .staSsid (wifiSsidMaxLen - 1)).length ≤ 0 then .zero else readInfo nv

/-- The writes of a save, in their order. -/
def saveWrites (info : WifiNvInfo) : List NvWrite :=
  [(.staSsid, info.ssid.1), (.staPwd, info.pwd.1), (.staBssid, info.staBssid.1),
    (.staChannel, [info.channel]), (.staPmk, info.staPmk.1)]

/-- `wifi_save_nv_info`: the record and the writes. No write fails, so none is rolled back. -/
def wifiSaveNvInfo (info : WifiNvInfo) : WifiNvInfo × List NvWrite :=
  if info.staSsid.1.headD 0 = 0 then (info, []) else ({ info with sync := true }, saveWrites info)

/-! ## Events of a connection -/

/-- The name is taken over when it differs. -/
def updateSsid (info : WifiNvInfo) (ssid : CString) : WifiNvInfo :=
  if info.ssid ≠ ssid then
    -- strlcpy
    { info with sync := false, staSsid := info.staSsid.write (ssid.1.take (wifiSsidMaxLen - 1) ++ [0]) }
  else
    info

/-- The password is taken over when it differs. -/
def updatePwd (info : WifiNvInfo) (pwd : Option CString) : WifiNvInfo :=
  match pwd with
  | none =>
    if info.pwd.strlen ≠ 0 then { info with sync := false, staPwd := .zero _ } else info
  | some pwd =>
    if info.pwd ≠ pwd then
      -- strcpy has no bound: what does not fit goes on into sta_bssid
      { info with
        sync := false
        staPwd := info.staPwd.write (pwd.1 ++ [0])
        staBssid := info.staBssid.write ((pwd.1 ++ [0]).drop wifiPwdMaxLen) }
    else
      info

/-- The PMK is replaced when the record is not in the NV. -/
def updatePmk (info : WifiNvInfo) (pmk : Option (Bytes 32)) : WifiNvInfo :=
  if info.sync then info else { info with staPmk := pmk.getD (.zero _) }

/-- `wifi_update_nv_sta_start`. -/
def wifiUpdateNvStaStart (info : WifiNvInfo) (ssid pwd : Option CString)
    (pmk : Option (Bytes 32)) : WifiNvInfo :=
  match ssid with
  | none => info
  | some ssid => updatePmk (updatePwd (updateSsid info ssid) pwd) pmk

/-- `IS_ZERO_MAC`. -/
def isZeroMac (mac : Bytes 6) : Bool := mac.1.all (· = 0)

/-- `IS_MULTCAST_MAC`. -/
def isMultcastMac (mac : Bytes 6) : Bool := mac.1.headD 0 &&& 1 ≠ 0

/-- The address is taken over when it is one and differs. -/
def updateBssid (info : WifiNvInfo) (bssid : Bytes 6) : WifiNvInfo :=
  if ¬ (isZeroMac bssid ∨ isMultcastMac bssid) ∧ bssid ≠ info.staBssid then
    { info with sync := false, staBssid := bssid }
  else
    info

/-- The channel is taken over when it differs. -/
def updateChannel (info : WifiNvInfo) (channel : UInt8) : WifiNvInfo :=
  if info.channel ≠ channel then { info with sync := false, channel := channel } else info

/-- `wifi_update_nv_sta_connected`: the record and the writes. -/
def wifiUpdateNvStaConnected (info : WifiNvInfo) (ssid : CString) (bssid : Bytes 6)
    (channel : UInt8) : WifiNvInfo × List NvWrite :=
  if ssid ≠ info.ssid then
    (info, [])
  else
    let info := updateChannel (updateBssid info bssid) channel
    if info.sync then (info, []) else wifiSaveNvInfo info

/-- `wifi_use_nv_pmk`: the PMK when it returns 1. -/
def wifiUseNvPmk (info : WifiNvInfo) (ssid pwd : Option CString) : Option (Bytes 32) :=
  match ssid with
  | none => none
  | some ssid =>
    if info.ssid ≠ ssid then
      none
    else
      match pwd with
      | none => if info.pwd.strlen ≠ 0 then none else pmkOf
      | some pwd => if info.pwd ≠ pwd then none else pmkOf
where
  pmkOf : Option (Bytes 32) := if info.HasPmk then some info.staPmk else none

/-! ## Runs -/

/-- The NV and the record. -/
structure Device where
  nv : Nv
  info : WifiNvInfo

/-- What happens to the cached network. -/
inductive Event
  | start (ssid pwd : Option CString) (pmk : Option (Bytes 32))
  | connected (ssid : CString) (bssid : Bytes 6) (channel : UInt8)
  /-- Power is lost in a `connected` when this many of its writes were done. -/
  | powerLoss (ssid : CString) (bssid : Bytes 6) (channel : UInt8) (done : Nat)
  | use (ssid pwd : Option CString)
  | restart
  deriving DecidableEq

/-- The device that starts on an NV. -/
def Device.boot (nv : Nv) : Device := ⟨nv, wifiLoadNvInfo nv⟩

/-- The device after an event. -/
def Device.step (d : Device) : Event → Device
  | .start ssid pwd pmk => { d with info := wifiUpdateNvStaStart d.info ssid pwd pmk }
  | .connected ssid bssid channel =>
    let saved := wifiUpdateNvStaConnected d.info ssid bssid channel
    ⟨saved.2.foldl efSetEnvBlob d.nv, saved.1⟩
  | .powerLoss ssid bssid channel done =>
    let saved := wifiUpdateNvStaConnected d.info ssid bssid channel
    .boot ((saved.2.take done).foldl efSetEnvBlob d.nv)
  | .use _ _ => d
  | .restart => .boot d.nv

/-- The device after events on an empty NV. -/
def run (events : List Event) : Device := events.foldl Device.step (.boot fun _ => none)

theorem run_append (events : List Event) (e : Event) :
    run (events ++ [e]) = (run events).step e := by
  rw [run, List.foldl_append]
  rfl

end WifiNv

end Tr6260
