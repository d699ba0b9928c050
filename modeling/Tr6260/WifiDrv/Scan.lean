import Tr6260.WifiDrv.Interface
import Tr6260.LittleEndian

/-!
# The scan list

`driver_wifi_scan.c`. A frame is kept when no entry has its BSSID, and the entry is given its source
address: the two are the same in the frames of an access point, but nothing asks for it.

The element parser, `scan_is_preferred` and `ieee80211_freq_to_chan` are arbitrary functions, and
allocation succeeds. `Traced` is a scan list with what the code does not keep: the frames the entries
came from, and the limit that was in force for the last of them.
-/

namespace Tr6260

namespace WifiDrv

/-! ## Frames -/

/-- A management frame; its length is a `uint16_t`. -/
structure Frame where
  bytes : List UInt8
  short : bytes.length < 65536

/-- `offsetof(struct ieee80211_mgmt, u.beacon.variable)`. -/
def ieOffset : Nat := 36

namespace Frame

def macAt (frame : Frame) (offset : Nat) : Mac := .ofFn fun i => frame.bytes.getD (offset + i) 0

/-- The fields of `struct ieee80211_mgmt`. -/
def sa (frame : Frame) : Mac := frame.macAt 10
def bssid (frame : Frame) : Mac := frame.macAt 16
def timestamp (frame : Frame) : List UInt8 := (frame.bytes.drop 24).take 8
def beaconInt (frame : Frame) : Nat := ByteMem.leNat ((frame.bytes.drop 32).take 2)
def capabInfo (frame : Frame) : Nat := ByteMem.leNat ((frame.bytes.drop 34).take 2)
def variable_ (frame : Frame) : List UInt8 := frame.bytes.drop ieOffset

end Frame

/-- The fields of `struct ieee802_11_elems` that are looked at. -/
structure Elems where
  ssid : Option (List UInt8)
  suppRates : Option (List UInt8)
  dsParams : Option UInt8

/-- What the scan list takes from outside. -/
structure ScanEnv where
  parseElems : List UInt8 → Elems
  scanIsPreferred : Elems → Frame → Bool
  freqToChan : Nat → UInt8

/-! ## The list -/

/-- `struct wpa_scan_res` with the elements behind it. -/
structure ScanRes where
  bssid : Mac
  freq : Nat
  beaconInt : Nat
  caps : Nat
  qual : Int
  noise : Int
  tsf : List UInt8
  level : Nat
  ies : List UInt8

/-- `struct nrc_scan_info`; `maxNum` is the field of `params` that is used. -/
structure ScanInfo where
  isScanning : Bool
  scanList : List ScanRes
  maxNum : UInt8

/-- `scan_init`. -/
def scanInit : ScanInfo := ⟨false, [], 0⟩

/-- `scan_flush`. -/
def scanFlush (scan : ScanInfo) : ScanInfo := { scan with scanList := [], maxNum := 0 }

/-- `scan_start`. -/
def scanStart (scan : ScanInfo) : ScanInfo := scanFlush { scan with isScanning := true }

/-- `scan_stop`. -/
def scanStop (scan : ScanInfo) : ScanInfo := { scan with isScanning := false }

/-- `scan_add_entry`. -/
def scanAddEntry (scan : ScanInfo) (freq rssi : Nat) (frame : Frame) : ScanInfo :=
  { scan with scanList :=
    ⟨frame.sa, freq, frame.beaconInt, frame.capabInfo, 0, 0, frame.timestamp, rssi,
      frame.variable_⟩ :: scan.scanList }

/-- `scan_is_valid`. -/
def scanIsValid (scan : ScanInfo) (ch : UInt8) (elems : Elems) : Bool :=
  if scan.scanList.length ≥ scan.maxNum.toNat then false
  else if elems.dsParams.any (· ≠ ch) then false
  else elems.ssid.isSome && elems.suppRates.isSome

/-- `scan_is_duplicated`. -/
def scanIsDuplicated (scan : ScanInfo) (bssid : Mac) : Bool :=
  scan.scanList.any (·.bssid = bssid)

/-- `scan_add`. -/
def scanAdd (env : ScanEnv) (scan : ScanInfo) (freq rssi : Nat) (frame : Option Frame) :
    Bool × ScanInfo :=
  match frame with
  | none => (false, scan)
  | some frame =>
    if scan.isScanning = false then (false, scan)
    else if frame.bytes.length < ieOffset then (false, scan)
    else if scanIsDuplicated scan frame.bssid then (false, scan)
    else
      let elems := env.parseElems frame.variable_
      if scanIsValid scan (env.freqToChan freq) elems = false then (false, scan)
      else if env.scanIsPreferred elems frame = false then (false, scan)
      else (true, scanAddEntry scan freq rssi frame)

/-- `scan_config`. -/
def scanConfig (scan : ScanInfo) (maxNum : Option UInt8) : ScanInfo :=
  match maxNum with
  | none => scan
  | some maxNum => { scan with maxNum }

/-- The loop of `get_scan_results`: each entry is moved from the list to the results. -/
def takeResults : (entries : List ScanRes) → List ScanRes × ScanInfo → List ScanRes × ScanInfo
  | [], state => state
  | res :: entries, (results, scan) =>
    takeResults entries (results ++ [res], { scan with scanList := scan.scanList.tail })

/-- `get_scan_results`. -/
def getScanResults (scan : ScanInfo) : List ScanRes × ScanInfo :=
  if scan.scanList.length = 0 then ([], scan) else takeResults scan.scanList ([], scan)

/-! ## Runs -/

/-- The calls on a scan list. -/
inductive ScanOp
  | start
  | config (maxNum : Option UInt8)
  | add (freq rssi : Nat) (frame : Option Frame)
  | stop
  | getResults

/-- A scan list with its history. -/
structure Traced where
  scan : ScanInfo
  frames : List Frame
  limit : Nat

def traceStep (env : ScanEnv) (t : Traced) : ScanOp → Traced
  | .start => ⟨scanStart t.scan, [], t.limit⟩
  | .config maxNum => { t with scan := scanConfig t.scan maxNum }
  | .add freq rssi frame =>
    let added := scanAdd env t.scan freq rssi frame
    if added.1 then ⟨added.2, frame.toList ++ t.frames, t.scan.maxNum.toNat⟩
    else { t with scan := added.2 }
  | .stop => { t with scan := scanStop t.scan }
  | .getResults => ⟨(getScanResults t.scan).2, [], t.limit⟩

/-- A list just created. -/
def traceInit : Traced := ⟨scanInit, [], 0⟩

/-! ## What is wanted -/

/-- An entry has what a frame says. -/
def Carries (res : ScanRes) (frame : Frame) : Prop :=
  res.beaconInt = frame.beaconInt ∧ res.caps = frame.capabInfo ∧
    res.ies = frame.bytes.drop ieOffset

structure ScanRight (env : ScanEnv) (t : Traced) : Prop where
  distinct : (t.scan.scanList.map (·.bssid)).Nodup
  limited : t.scan.scanList.length ≤ t.limit
  carried : List.Forall₂ Carries t.scan.scanList t.frames
  ignored : ∀ freq rssi frame, t.scan.isScanning = false ∨ frame.bytes.length < ieOffset →
    scanAdd env t.scan freq rssi (some frame) = (false, t.scan)
  returned : getScanResults t.scan = (t.scan.scanList, { t.scan with scanList := [] })

/-- The address an entry is given is the one it was looked up by, or no entry has it. -/
def AddressNew (t : Traced) : ScanOp → Prop
  | .add _ _ (some frame) => frame.sa = frame.bssid ∨ ∀ res ∈ t.scan.scanList, res.bssid ≠ frame.sa
  | _ => True

/-- The states of a run in which every frame has such an address. -/
inductive ScanRun (env : ScanEnv) : Traced → Prop
  | init : ScanRun env traceInit
  | step {t : Traced} (op : ScanOp) : ScanRun env t → AddressNew t op →
      ScanRun env (traceStep env t op)

/-! ## One call -/

/-- The outcomes of `scan_add`. -/
theorem scanAdd_cases (env : ScanEnv) (scan : ScanInfo) (freq rssi : Nat) (frame : Option Frame) :
    scanAdd env scan freq rssi frame = (false, scan) ∨
      ∃ given, frame = some given ∧ scan.isScanning = true ∧ ieOffset ≤ given.bytes.length ∧
        (∀ res ∈ scan.scanList, res.bssid ≠ given.bssid) ∧
        scan.scanList.length < scan.maxNum.toNat ∧
        scanAdd env scan freq rssi frame = (true, scanAddEntry scan freq rssi given) := by
  cases frame with
  | none => exact .inl rfl
  | some given =>
    unfold scanAdd
    dsimp only
    split
    · exact .inl rfl
    · next scanning =>
      split
      · exact .inl rfl
      · next long =>
        split
        · exact .inl rfl
        · next fresh =>
          split
          · exact .inl rfl
          · next valid =>
            split
            · exact .inl rfl
            · refine .inr ⟨given, rfl, by simpa using scanning, by omega, ?_, ?_, rfl⟩
              · intro res inside same
                apply fresh
                rw [scanIsDuplicated, List.any_eq_true]
                exact ⟨res, inside, decide_eq_true same⟩
              · by_contra full
                apply valid
                rw [scanIsValid, if_pos (Nat.le_of_not_lt full)]

theorem takeResults_eq (entries results : List ScanRes) (scan : ScanInfo) :
    takeResults entries (results, { scan with scanList := entries }) =
      (results ++ entries, { scan with scanList := [] }) := by
  induction entries generalizing results with
  | nil => rw [takeResults, List.append_nil]
  | cons res entries ih =>
    rw [takeResults]
    exact (ih (results ++ [res])).trans (by rw [List.append_assoc]; rfl)

/-- The results are the entries, and none is left. -/
theorem getScanResults_eq (scan : ScanInfo) :
    getScanResults scan = (scan.scanList, { scan with scanList := [] }) := by
  unfold getScanResults
  split
  · next none_ =>
    have empty := List.length_eq_zero_iff.mp none_
    rw [empty, ← empty]
  · exact takeResults_eq scan.scanList [] scan

/-- A frame that comes while nothing is scanned, or is too short, changes nothing. -/
theorem scanAdd_ignored (env : ScanEnv) (scan : ScanInfo) (freq rssi : Nat) (frame : Frame)
    (ignored : scan.isScanning = false ∨ frame.bytes.length < ieOffset) :
    scanAdd env scan freq rssi (some frame) = (false, scan) := by
  rcases scanAdd_cases env scan freq rssi (some frame) with same | ⟨given, same, scanning, long, -⟩
  · exact same
  · cases same
    rcases ignored with idle | short
    · cases idle.symm.trans scanning
    · exact absurd short (Nat.not_lt_of_le long)

/-! ## Every run -/

/-- What a run keeps. -/
structure ScanKept (t : Traced) : Prop where
  distinct : (t.scan.scanList.map (·.bssid)).Nodup
  limited : t.scan.scanList.length ≤ t.limit
  carried : List.Forall₂ Carries t.scan.scanList t.frames

theorem ScanKept.empty {t : Traced} (list : t.scan.scanList = []) (frames : t.frames = []) :
    ScanKept t := by
  refine ⟨?_, ?_, ?_⟩
  · rw [list]
    exact List.nodup_nil
  · rw [list]
    exact Nat.zero_le _
  · rw [list, frames]
    exact .nil

theorem ScanKept.step {env : ScanEnv} {t : Traced} (kept : ScanKept t) (op : ScanOp)
    (new : AddressNew t op) : ScanKept (traceStep env t op) := by
  cases op with
  | start => exact .empty rfl rfl
  | config maxNum =>
    cases maxNum with
    | none => exact kept
    | some maxNum => exact ⟨kept.distinct, kept.limited, kept.carried⟩
  | stop => exact ⟨kept.distinct, kept.limited, kept.carried⟩
  | getResults =>
    apply ScanKept.empty
    · rw [traceStep, getScanResults_eq]
    · rfl
  | add freq rssi frame =>
    rw [traceStep]
    rcases scanAdd_cases env t.scan freq rssi frame with same | ⟨given, rfl, -, -, fresh, room, same⟩
    · rw [same]
      exact kept
    · rw [same]
      refine ⟨?_, room, .cons ⟨rfl, rfl, rfl⟩ kept.carried⟩
      refine List.nodup_cons.mpr ⟨?_, kept.distinct⟩
      intro inside
      rcases List.mem_map.mp inside with ⟨res, there, address⟩
      rcases new with same | other
      · exact fresh res there (address.trans same)
      · exact other res there address

/-- In a run whose frames have such addresses the list is as it should be. -/
theorem scanList_right {env : ScanEnv} {t : Traced} (run : ScanRun env t) : ScanRight env t := by
  have kept : ScanKept t := by
    induction run with
    | init => exact .empty rfl rfl
    | step op _ new ih => exact ih.step op new
  exact ⟨kept.distinct, kept.limited, kept.carried, scanAdd_ignored env t.scan,
    getScanResults_eq t.scan⟩

/-- A beacon with a source address and a BSSID. -/
def beacon (sa bssid : UInt8) : Frame :=
  ⟨.replicate 10 0 ++ .replicate 6 sa ++ .replicate 6 bssid ++ .replicate 14 0, by simp⟩

/-- Every frame has the elements and is preferred. -/
def openEnv : ScanEnv := ⟨fun _ => ⟨some [], some [], none⟩, fun _ _ => true, fun _ => 1⟩

/-- Three sources, one of which is heard twice, and a limit of two. -/
theorem scanList_right_beacons :
    let t := [.start, .config (some 2), .add 2412 0 (some (beacon 1 1)),
      .add 2417 0 (some (beacon 2 2)), .add 2412 0 (some (beacon 1 1)),
      .add 2422 0 (some (beacon 3 3))].foldl (traceStep openEnv) traceInit
    t.scan.scanList.map ScanRes.freq = [2417, 2412] ∧ ScanRight openEnv t := by
  have heard {t : Traced} (run : ScanRun openEnv t) (freq : Nat) (n : UInt8) :
      ScanRun openEnv (traceStep openEnv t (.add freq 0 (some (beacon n n)))) :=
    .step _ run (.inl rfl)
  have ready : ScanRun openEnv
      (traceStep openEnv (traceStep openEnv traceInit .start) (.config (some 2))) :=
    .step _ (.step _ .init trivial) trivial
  exact ⟨by decide +kernel,
    scanList_right (heard (heard (heard (heard ready 2412 1) 2417 2) 2412 1) 2422 3)⟩

/-- Two beacons of one source with different BSSIDs are two entries with one address. -/
theorem scanList_duplicate : ¬ ∀ (env : ScanEnv) (ops : List ScanOp),
    ScanRight env (ops.foldl (traceStep env) traceInit) := by
  intro right
  have distinct := (right openEnv [.start, .config (some 5), .add 2412 0 (some (beacon 1 2)),
    .add 2412 0 (some (beacon 1 3))]).distinct
  revert distinct
  decide +kernel

end WifiDrv

end Tr6260
