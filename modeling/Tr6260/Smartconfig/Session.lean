import Tr6260.Smartconfig.Broadcast

/-!
# A session of the network configuration

`smartconfig_task` starts the monitor, clears the three parameter blocks and
then looks every 10 ms whether a parser has set `findPhone`: if so it decodes
the key, and starts the search anew when that fails; a lock that brings nothing
for eight seconds is given up. `easyjoin_callback` hands every frame the radio
sees to at most one parser, until there is a key.

The blocks come from the heap as they are, and the monitor runs before they are
cleared. A frame in that time can complete a key that the clearing then takes
away, with `findPhone` left behind: the decoder then finds no parser that has
finished.
-/

namespace Tr6260

/-! ## Frames of the radio -/

/-- A frame as the monitor delivers it. -/
structure WifiFrame where
  frameControl : UInt16
  addr1 : Mac
  addr2 : Mac
  addr3 : Mac
  addr4 : Mac
  userdata : List UInt8
  /-- What `wifi_80211_aplist_process` reads from a beacon or a probe response. -/
  aplist : Option RouterInfo

namespace WifiFrame

variable (frame : WifiFrame)

/-- One of the bits is set. -/
def hasBit (mask : UInt16) : Bool := frame.frameControl &&& mask ≠ 0

/-- Type and subtype. -/
def isType (value : UInt16) : Bool := frame.frameControl &&& 0x00fc = value

def hasFrags : Bool := frame.hasBit 0x8400
def isBeacon : Bool := frame.isType 0x0080
def isProbeResp : Bool := frame.isType 0x0050
def isDataExact : Bool := frame.isType 0x0008 || frame.isType 0x0088
def hasTods : Bool := frame.hasBit 0x0100
def hasFromds : Bool := frame.hasBit 0x0200
def isRetry : Bool := frame.hasBit 0x0800
def hasProtected : Bool := frame.hasBit 0x4000
def hasOrder : Bool := frame.hasBit 0x8000

/-- `wifi_80211_hdrlen` of a data frame. -/
def hdrlen : Nat :=
  (if frame.hasTods && frame.hasFromds then 30 else 24) +
    (if frame.frameControl &&& 0x008c = 0x0088 then 2 + (if frame.hasOrder then 4 else 0) else 0)

/-- `wifi_80211_get_SA`. -/
def getSa : Mac :=
  if frame.hasTods && frame.hasFromds then frame.addr4
  else if frame.hasFromds then frame.addr3
  else frame.addr2

/-- `wifi_80211_get_DA`. -/
def getDa : Mac := if frame.hasTods then frame.addr3 else frame.addr1

/-- `wifi_80211_get_BSSID`. -/
def getBssid : Option Mac :=
  if frame.hasTods then
    if frame.hasFromds then none else some frame.addr1
  else if frame.hasFromds then some frame.addr2
  else some frame.addr3

/-- The bytes behind the header. -/
def data : List UInt8 := frame.userdata.drop frame.hdrlen

end WifiFrame

def encTypeNone : UInt8 := 0
def encTypeWep : UInt8 := 1
def encTypeTkip : UInt8 := 2
def encTypeAes : UInt8 := 3
def encTypeTkipaes : UInt8 := 4
def encTypeInvalid : UInt8 := 0xff
def authTypeMax : UInt8 := 6
def authTypeInvalid : UInt8 := 0xff

/-- `save_aplist`. -/
def saveAplist (routers : List RouterInfo) (entry : RouterInfo) : List RouterInfo :=
  let known (cipher : UInt8) : UInt8 := if cipher > encTypeTkipaes then encTypeInvalid else cipher
  let pairwise := known entry.encry.2
  if (getApInfo routers entry.bssid).isSome then
    routers
  else
    routers ++ [{ entry with
      auth := if entry.auth > authTypeMax then authTypeInvalid else entry.auth
      encry := (known entry.encry.1, if pairwise = encTypeTkipaes then encTypeAes else pairwise)
      ssid := .ofBytes (entry.ssid.1.take 32) }]

/-- The cipher guessed from a frame whose access point is not known; `none` for a frame too
short to tell. -/
def guessEncry (frame : WifiFrame) : Option UInt8 :=
  let data := frame.data
  if frame.hasProtected = false then
    some encTypeNone
  else if data.length < 8 then
    none
  else if frame.userdata.getD 3 0 &&& 0x3F = 0 then
    some encTypeWep
  else if data.getD 3 0 &&& 0x20 ≠ 0 then
    if data.getD 2 0 = 0 ∧ data.getD 3 0 &&& 0x0F = 0 then
      some encTypeAes
    else if data.getD 1 0 = (data.getD 0 0 ||| 0x20) &&& 0x7F then
      some encTypeTkip
    else
      some encTypeInvalid
  else
    some encTypeInvalid

/-- The cipher of a frame. -/
def frameEncry (routers : List RouterInfo) (bssid : Mac) (frame : WifiFrame) : Option UInt8 :=
  match getApInfo routers bssid with
  | none => guessEncry frame
  | some apInfo =>
    let encry := if frame.hasTods then apInfo.encry.2 else apInfo.encry.1
    if encry ≠ encTypeInvalid then some encry else guessEncry frame

/-- `len_fixed_offset[encry][0]`; `stray` is what lies behind the table. -/
def lenFixedOffset (stray : UInt8) (encry : UInt8) : Nat :=
  match encry.toNat with
  | 0 => 36
  | 1 => 44
  | 2 => 56
  | 3 => 52
  | 4 => 56
  | _ => stray.toNat

def broadcastMac : Mac := #v[0xff, 0xff, 0xff, 0xff, 0xff, 0xff]

/-- The address starts with `multicast_mac`. -/
def isMulticastMac (mac : Mac) : Bool := mac[0] = 0x01 ∧ mac[1] = 0x00 ∧ mac[2] = 0x5e

/-! ## Parsers and task -/

/-- How far `smartconfig_task` is. -/
inductive TaskPhase
  /-- The monitor is on, the blocks are not cleared yet. -/
  | starting
  | running
  | ended
  deriving DecidableEq

/-- What a session has. -/
structure SmartState where
  info : SconfigInfo
  routers : List RouterInfo
  toDs : ParseBroadcast
  fromDs : ParseBroadcast
  mul : ParseMulticast
  phase : TaskPhase

/-- What a session relies on. -/
structure SmartEnv where
  /-- `AES_CFB_NoPadding_decrypt` with the fixed key. -/
  decrypt : List UInt8 → List UInt8
  decrypt_length : ∀ bytes, (decrypt bytes).length = bytes.length
  /-- The MD5 digest of a text, as text. -/
  digest : List UInt8 → List UInt8
  stray : UInt8

/-- `easyjoin_callback`. `none`: an address is read through a `NULL`, or a parser faults. -/
def easyjoinCallback (env : SmartEnv) (now : Nat) (frame : WifiFrame) (s : SmartState) :
    Option SmartState :=
  if frame.hasFrags then
    some s
  else
    let s := if frame.isBeacon || frame.isProbeResp then
        { s with routers := match frame.aplist with
          | none => s.routers
          | some entry => saveAplist s.routers entry }
      else s
    if s.info.findPhone ≠ .notActive then
      some s
    else if frame.isDataExact = false then
      some s
    else if frame.hdrlen > frame.userdata.length then
      some s
    else
      match frame.getBssid with
      | none => none
      | some bssid =>
        match frameEncry s.routers bssid frame with
        | none => some s
        | some encry =>
          let len : Int := frame.data.length - lenFixedOffset env.stray encry
          if frame.isRetry then
            some s
          else if frame.getDa = broadcastMac then
            if frame.hasTods then
              (yaParseBroadcast s.routers now bssid frame.getSa len s.info s.toDs).map
                fun (info, toDs) => { s with info, toDs }
            else if frame.hasFromds then
              (yaParseBroadcast s.routers now bssid frame.getSa len s.info s.fromDs).map
                fun (info, fromDs) => { s with info, fromDs }
            else
              some s
          else if isMulticastMac frame.getDa then
            match yaParseMulticast now bssid (.ofMac frame.getDa) frame.getSa len s.info s.mul with
            | (info, mul) => some { s with info, mul }
          else
            some s

/-- `smnt_result_t`, without the status. -/
structure SmntResult where
  ssid : List UInt8
  password : List UInt8
  bssid : Mac
  cloudSelect : UInt8
  rand : List UInt8
  deriving DecidableEq

/-- `HexArrayToString` of one byte. -/
def hexByte (b : UInt8) : List UInt8 :=
  let digit (n : UInt8) : UInt8 := if n < 10 then 48 + n else 55 + n
  [digit (b >>> 4), digit (b &&& 0x0f)]

/-- What follows the name in both layouts, at `pos`: password, cloud and two random bytes.
`bounded`: the password is checked against the length before its own limit. -/
def decodePassword (buf : List UInt8) (pos : Nat) (bounded : Bool) :
    Option (List UInt8 × UInt8 × UInt8 × UInt8) :=
  let byte (i : Nat) : UInt8 := buf.getD i 0
  if bounded = true ∧ buf.length < 1 + pos + (byte pos).toNat + 1 then
    none
  else if (byte pos).toNat > 64 then
    none
  else
    let passwordLen := (byte pos).toNat
    let password := (List.range passwordLen).map fun i => byte (pos + 1 + i)
    let pos := pos + 1 + passwordLen
    if buf.length < 1 + pos + (byte pos).toNat + 1 then
      none
    else if byte pos < 3 then
      none
    else
      some (password, byte (pos + 1), byte (pos + 2), byte (pos + 3))

/-- The fields of a key in the layout with a name (`named`), or in the one without. -/
def decodeFields (buf : List UInt8) (named : Bool) :
    Option (List UInt8 × List UInt8 × UInt8 × UInt8 × UInt8) :=
  if named then
    let ssidLen := (buf.getD 0 0).toNat
    if ssidLen > 32 ∨ ssidLen = 0 then
      none
    else if buf.length < 1 + ssidLen + 1 then
      none
    else
      (decodePassword buf (1 + ssidLen) true).map fun fields => ((buf.drop 1).take ssidLen, fields)
  else
    (decodePassword buf 0 false).map fun fields => ([], fields)

/-- `ya_smartconfig_decode` from the decrypted bytes on, in one of the layouts. -/
def decodeKey (env : SmartEnv) (s : SmartState) (named : Bool) (buf : List UInt8) :
    Option SmntResult :=
  if buf.dropLast.sum ≠ buf.getLastD 0 then
    none
  else
    match decodeFields buf named with
    | none => none
    | some (ssid, password, cloudSelect, randA, randB) =>
      let rand := env.digest (CString.ofBytes (password ++ hexByte randA ++ hexByte randB)).1
      match getApInfo s.routers s.info.bssid with
      | some apInfo =>
        some ⟨if apInfo.ssid.strlen ≠ 0 then apInfo.ssid.1 else ssid, password, s.info.bssid,
          cloudSelect, rand⟩
      | none =>
        if ssid.getD 0 0 = 0 then none else some ⟨ssid, password, s.info.bssid, cloudSelect, rand⟩

/-- The key of the first parser that has finished. -/
def finishedKey (s : SmartState) : Option (List UInt8) :=
  if s.toDs.finish then some (keyBytes s.toDs.key s.toDs.keyLen.toNat)
  else if s.fromDs.finish then some (keyBytes s.fromDs.key s.fromDs.keyLen.toNat)
  else if s.mul.finish then some (keyBytes s.mul.key s.mul.keyLen.toNat)
  else none

/-- `ya_smartconfig_decode`; `alloc`: there is memory for the plain text. -/
def yaSmartconfigDecode (env : SmartEnv) (alloc : Bool) (s : SmartState) : Option SmntResult :=
  if alloc = false then
    none
  else
    match finishedKey s with
    | none => none
    | some [] => none
    | some key => decodeKey env s s.mul.finish (env.decrypt key)

/-- The three `memset`. -/
def SmartState.clear (s : SmartState) : SmartState :=
  { s with toDs := .zero, fromDs := .zero, mul := .zero }

/-- The search starts anew. -/
def SmartState.restart (s : SmartState) : SmartState :=
  { s.clear with info := { s.info with switchChannel := .searchStart, findPhone := .notActive } }

/-- One turn of the loop of `smartconfig_task`. -/
def taskTurn (env : SmartEnv) (now : Nat) (overtime alloc : Bool) (s : SmartState) : SmartState :=
  if overtime then
    { s with phase := .ended }
  else
    match s.info.findPhone with
    | .okKey =>
      match yaSmartconfigDecode env alloc s with
      | none => s.restart
      | some _ => { s with phase := .ended }
    | .notActive =>
      match s.info.switchChannel with
      | .searchStart => { s with info := { s.info with channelLockTime := now } }
      | .searchEnd =>
        if (now + 2 ^ 32 - s.info.channelLockTime) % 2 ^ 32 > 8 * 1000 then
          { s.restart with info := { s.restart.info with channelLockTime := now } }
        else
          s

/-- What happens in a session. -/
inductive SmartEvent
  | frame (now : Nat) (frame : WifiFrame)
  /-- The task clears the blocks. -/
  | begins (now : Nat)
  | turn (now : Nat) (overtime alloc : Bool)

/-- One event; `none` for a fault, and for an event at the wrong time. -/
def SmartState.next (env : SmartEnv) (s : SmartState) : SmartEvent → Option SmartState
  | .frame now frame => if s.phase = .ended then none else easyjoinCallback env now frame s
  | .begins now =>
    if s.phase = .starting then
      some { s.clear with info := { s.info with channelLockTime := now }, phase := .running }
    else
      none
  | .turn now overtime alloc =>
    if s.phase = .running then some (taskTurn env now overtime alloc s) else none

/-! ## What the decoder finds -/

/-- The three parsers. -/
inductive KeySource
  | toDs
  | fromDs
  | mul
  deriving DecidableEq

/-- The common part of the parameter blocks. -/
structure KeyBlock where
  key : Nat → UInt8
  keyFlag : Nat → UInt8
  keyLen : UInt8
  keyChecksum : UInt8
  finish : Bool

def ParseBroadcast.block (p : ParseBroadcast) : KeyBlock :=
  ⟨p.key, p.keyFlag, p.keyLen, p.keyChecksum, p.finish⟩

def ParseMulticast.block (p : ParseMulticast) : KeyBlock :=
  ⟨p.key, p.keyFlag, p.keyLen, p.keyChecksum, p.finish⟩

def SmartState.block (s : SmartState) : KeySource → KeyBlock
  | .toDs => s.toDs.block
  | .fromDs => s.fromDs.block
  | .mul => s.mul.block

/-- The key in the block. -/
def KeyBlock.bytes (b : KeyBlock) : List UInt8 := keyBytes b.key b.keyLen.toNat

/-- The bytes of the key are all flagged and sum up to the checksum. -/
def KeyBlock.Whole (b : KeyBlock) : Prop :=
  b.keyLen ≠ 0 ∧ (∀ i < b.keyLen.toNat, b.keyFlag i ≠ 0) ∧ b.bytes.sum = b.keyChecksum

/-- Only the parser `source` has finished. -/
def SmartState.OnlyFinished (s : SmartState) (source : KeySource) : Prop :=
  ∀ other, (s.block other).finish = true ↔ other = source

/-- The decoder takes the key of the one parser that has finished, and the layout of that parser. -/
def SmartState.DecodesRight (env : SmartEnv) (s : SmartState) : Prop :=
  ∃ source, s.OnlyFinished source ∧ (s.block source).Whole ∧
    ∀ alloc, yaSmartconfigDecode env alloc s =
      if alloc then decodeKey env s (source = .mul) (env.decrypt (s.block source).bytes) else none

/-- No key, or one from one parser. -/
def SmartState.Settled (s : SmartState) : Prop :=
  match s.info.findPhone with
  | .notActive => ∀ source, (s.block source).finish = false
  | .okKey => ∃ source, s.OnlyFinished source ∧ (s.block source).Whole

section Parsers

variable {routers : List RouterInfo} {now : Nat} {bssid saMac : Mac} {len : Int}
  {info info' : SconfigInfo}

/-- What a parser leaves that had no key: still none, or a whole one, and `findPhone` says so. -/
def FoundBy (findPhone : FindPhone) (b : KeyBlock) : Prop :=
  (findPhone = .notActive ∧ b.finish = false) ∨ (findPhone = .okKey ∧ b.finish = true ∧ b.Whole)

theorem broadcastValue_finish {p p' : ParseBroadcast} {goes : Bool}
    (taken : broadcastValue len p = some (goes, p')) : p'.finish = p.finish := by
  unfold broadcastValue at taken
  split at taken
  case h_3 =>
    split at taken
    · cases taken
      rfl
    · unfold ParseBroadcast.storeKey at taken
      split at taken
      · cases taken
        rfl
      · split at taken <;> cases taken
        rfl
  case h_1 | h_2 | h_4 =>
    split at taken <;> cases taken <;> rfl
  all_goals
    cases taken
    rfl

theorem yaParseBroadcast_found {p p' : ParseBroadcast} (searching : info.findPhone = .notActive)
    (open_ : p.finish = false)
    (ran : yaParseBroadcast routers now bssid saMac len info p = some (info', p')) :
    FoundBy info'.findPhone p'.block := by
  unfold yaParseBroadcast at ran
  rw [searching, if_neg (by decide)] at ran
  split at ran
  · unfold broadcastLock at ran
    split at ran
    · split at ran <;> cases ran
      · exact .inl ⟨searching, rfl⟩
      · exact .inl ⟨searching, open_⟩
    · cases ran
      exact .inl ⟨searching, open_⟩
  split at ran
  · cases ran
    exact .inl ⟨searching, open_⟩
  split at ran
  · cases ran
    exact .inl ⟨rfl, open_⟩
  split at ran
  · cases ran
  next taken =>
    cases ran
    exact .inl ⟨searching, (broadcastValue_finish taken).trans open_⟩
  next q taken =>
    have still : q.finish = false := (broadcastValue_finish taken).trans open_
    unfold broadcastFinish at ran
    split at ran
    next present =>
      split at ran
      next sum =>
        split at ran
        · cases ran
        · split at ran <;> cases ran
          · exact .inr ⟨rfl, rfl, present.2, checkCacul_start.mp sum⟩
          · exact .inl ⟨searching, still⟩
      · cases ran
        exact .inl ⟨searching, still⟩
    · cases ran
      exact .inl ⟨searching, still⟩

theorem multicastValue_finish {ds : DsMac} {p p' : ParseMulticast}
    (value : multicastValue ds p = some p') : p'.finish = p.finish := by
  unfold multicastValue at value
  split at value
  · split at value <;> cases value
    rfl
  split at value
  · cases value
    rfl
  split at value <;> cases value
  rfl

theorem yaParseMulticast_found {ds : DsMac} {p p' : ParseMulticast}
    (searching : info.findPhone = .notActive) (open_ : p.finish = false)
    (ran : yaParseMulticast now bssid ds saMac len info p = (info', p')) :
    FoundBy info'.findPhone p'.block := by
  unfold yaParseMulticast at ran
  dsimp only at ran
  split at ran
  · unfold multicastLock at ran
    dsimp only at ran
    generalize (if len = _ then p.countNum + 1 else 0) = count at ran
    split at ran <;> cases ran <;> exact .inl ⟨searching, open_⟩
  split at ran
  · cases ran
    exact .inl ⟨searching, open_⟩
  split at ran
  · cases ran
    exact .inl ⟨searching, open_⟩
  have same : (if ds.masked.Known then { info with channelLockTime := now } else info).findPhone =
      .notActive := by
    split <;> exact searching
  split at ran
  · cases ran
    exact .inl ⟨same, open_⟩
  next q value =>
    have still : q.finish = false := (multicastValue_finish value).trans open_
    unfold multicastFinish at ran
    split at ran <;> cases ran
    next whole => exact .inr ⟨rfl, rfl, whole.1.2, checkCacul_start.mp whole.2⟩
    · exact .inl ⟨same, still⟩

end Parsers

section Frames

variable {env : SmartEnv} {s s' : SmartState}

/-- A frame changes the list of access points, and the block of one parser while there is no key. -/
theorem easyjoinCallback_cases {now : Nat} {frame : WifiFrame}
    (ran : easyjoinCallback env now frame s = some s') :
    ∃ routers, s' = { s with routers } ∨
      (s.info.findPhone = .notActive ∧
        ((∃ bssid saMac len info toDs,
            yaParseBroadcast routers now bssid saMac len s.info s.toDs = some (info, toDs) ∧
            s' = { s with routers, info, toDs }) ∨
          (∃ bssid saMac len info fromDs,
            yaParseBroadcast routers now bssid saMac len s.info s.fromDs = some (info, fromDs) ∧
            s' = { s with routers, info, fromDs }) ∨
          ∃ bssid ds saMac len info mul,
            yaParseMulticast now bssid ds saMac len s.info s.mul = (info, mul) ∧
            s' = { s with routers, info, mul })) := by
  unfold easyjoinCallback at ran
  split at ran
  · cases ran
    exact ⟨s.routers, .inl rfl⟩
  obtain ⟨routers, listed⟩ : ∃ routers, (if (frame.isBeacon || frame.isProbeResp) = true then
      { s with routers := match frame.aplist with
        | none => s.routers
        | some entry => saveAplist s.routers entry }
    else s) = { s with routers } := by
    split
    · exact ⟨_, rfl⟩
    · exact ⟨s.routers, rfl⟩
  refine ⟨routers, ?_⟩
  dsimp only at ran
  rw [listed] at ran
  split at ran
  · cases ran
    exact .inl rfl
  next searching =>
  split at ran
  · cases ran
    exact .inl rfl
  split at ran
  · cases ran
    exact .inl rfl
  split at ran
  · cases ran
  next bssid _ =>
  split at ran
  · cases ran
    exact .inl rfl
  split at ran
  · cases ran
    exact .inl rfl
  have none : s.info.findPhone = .notActive := not_not.mp searching
  split at ran
  · split at ran
    · rcases Option.map_eq_some_iff.mp ran with ⟨⟨info, toDs⟩, parsed, rfl⟩
      exact .inr ⟨none, .inl ⟨_, _, _, info, toDs, parsed, rfl⟩⟩
    split at ran
    · rcases Option.map_eq_some_iff.mp ran with ⟨⟨info, fromDs⟩, parsed, rfl⟩
      exact .inr ⟨none, .inr (.inl ⟨_, _, _, info, fromDs, parsed, rfl⟩)⟩
    · cases ran
      exact .inl rfl
  split at ran
  · cases ran
    exact .inr ⟨none, .inr (.inr ⟨_, _, _, _, _, _, rfl, rfl⟩)⟩
  · cases ran
    exact .inl rfl

/-- One parser has run, the other two have not finished. -/
theorem SmartState.Settled.of_found (source : KeySource)
    (found : FoundBy s.info.findPhone (s.block source))
    (others : ∀ other ≠ source, (s.block other).finish = false) : s.Settled := by
  unfold SmartState.Settled
  rcases found with ⟨searching, open_⟩ | ⟨key, finished, whole⟩
  · rw [searching]
    intro other
    by_cases same : other = source
    · exact same ▸ open_
    · exact others other same
  · rw [key]
    refine ⟨source, fun other => ⟨fun set => ?_, fun same => same ▸ finished⟩, whole⟩
    by_contra different
    rw [others other different] at set
    cases set

theorem SmartState.Settled.open_ (settled : s.Settled) (searching : s.info.findPhone = .notActive)
    (source : KeySource) : (s.block source).finish = false := by
  unfold SmartState.Settled at settled
  rw [searching] at settled
  exact settled source

theorem easyjoinCallback_phase {now : Nat} {frame : WifiFrame}
    (ran : easyjoinCallback env now frame s = some s') : s'.phase = s.phase := by
  obtain ⟨routers, rfl | ⟨-, ⟨_, _, _, _, _, -, rfl⟩ | ⟨_, _, _, _, _, -, rfl⟩ |
    ⟨_, _, _, _, _, _, -, rfl⟩⟩⟩ := easyjoinCallback_cases ran <;> rfl

theorem SmartState.Settled.frame (settled : s.Settled) {now : Nat} {frame : WifiFrame}
    (ran : easyjoinCallback env now frame s = some s') : s'.Settled := by
  rcases easyjoinCallback_cases ran with ⟨routers, rfl | ⟨searching, parsed⟩⟩
  · exact settled
  have open_ := settled.open_ searching
  rcases parsed with ⟨_, _, _, info, toDs, parsed, rfl⟩ | ⟨_, _, _, info, fromDs, parsed, rfl⟩ |
    ⟨_, _, _, _, info, mul, parsed, rfl⟩
  · refine .of_found .toDs (yaParseBroadcast_found searching (open_ .toDs) parsed) ?_
    exact fun
      | .toDs, different => absurd rfl different
      | .fromDs, _ => open_ .fromDs
      | .mul, _ => open_ .mul
  · refine .of_found .fromDs (yaParseBroadcast_found searching (open_ .fromDs) parsed) ?_
    exact fun
      | .toDs, _ => open_ .toDs
      | .fromDs, different => absurd rfl different
      | .mul, _ => open_ .mul
  · refine .of_found .mul (yaParseMulticast_found searching (open_ .mul) parsed) ?_
    exact fun
      | .toDs, _ => open_ .toDs
      | .fromDs, _ => open_ .fromDs
      | .mul, different => absurd rfl different

/-! ## Sessions -/

theorem SmartState.clear_open (s : SmartState) (source : KeySource) :
    (s.clear.block source).finish = false := by
  cases source <;> rfl

theorem SmartState.restart_settled (s : SmartState) : s.restart.Settled := fun source => by
  cases source <;> rfl

/-- A turn keeps what is settled. -/
theorem SmartState.Settled.turn (settled : s.Settled) (now : Nat) (overtime alloc : Bool) :
    (taskTurn env now overtime alloc s).Settled := by
  unfold taskTurn
  split
  · exact settled
  split
  · split
    · exact s.restart_settled
    · exact settled
  next searching =>
    split
    · unfold SmartState.Settled at settled ⊢
      exact settled
    split
    · exact s.restart_settled
    · exact settled

/-- The key of the one parser that has finished is decoded. -/
theorem SmartState.OnlyFinished.finishedKey {source : KeySource}
    (only : s.OnlyFinished source) :
    Tr6260.finishedKey s = some (s.block source).bytes ∧ s.mul.finish = decide (source = .mul) := by
  have finish : ∀ other, (s.block other).finish = decide (other = source) := fun other => by
    rw [Bool.eq_iff_iff, only other, decide_eq_true_eq]
  have toDs : s.toDs.finish = decide (KeySource.toDs = source) := finish .toDs
  have fromDs : s.fromDs.finish = decide (KeySource.fromDs = source) := finish .fromDs
  have mul : s.mul.finish = decide (KeySource.mul = source) := finish .mul
  rw [Tr6260.finishedKey, toDs, fromDs, mul]
  cases source <;> exact ⟨rfl, rfl⟩

/-- With one parser finished the decoder takes its key and its layout. -/
theorem SmartState.Settled.decodesRight (settled : s.Settled) (key : s.info.findPhone = .okKey) :
    s.DecodesRight env := by
  unfold SmartState.Settled at settled
  rw [key] at settled
  rcases settled with ⟨source, only, whole⟩
  refine ⟨source, only, whole, fun alloc => ?_⟩
  rcases only.finishedKey with ⟨first, named⟩
  have nonempty : (s.block source).bytes ≠ [] := by
    intro empty
    have none : (s.block source).keyLen.toNat = 0 := by
      simpa [KeyBlock.bytes, keyBytes] using congrArg List.length empty
    exact whole.1 (UInt8.toNat_inj.mp none)
  unfold yaSmartconfigDecode
  cases alloc with
  | false => rfl
  | true =>
    rw [first, if_neg (by decide), if_pos rfl]
    split
    next => contradiction
    next empty => exact absurd (Option.some.inj empty) nonempty
    next bytes _ same =>
      cases same
      rw [named]

end Frames

/-- The histories of a session in which every event meets a condition. The blocks and the list of
access points start with anything. -/
inductive SmartRun (env : SmartEnv) (meets : SmartState → SmartEvent → Prop) : SmartState → Prop
  | start {s : SmartState} (phase : s.phase = .starting)
      (channel : s.info.switchChannel = .searchStart) (phone : s.info.findPhone = .notActive) :
    SmartRun env meets s
  | step {s s' : SmartState} {event : SmartEvent} (run : SmartRun env meets s)
      (met : meets s event) (moved : s.next env event = some s') : SmartRun env meets s'

/-- No key has been found when the task clears the blocks. -/
def SmartState.BeginsClean (s : SmartState) : SmartEvent → Prop
  | .begins _ => s.info.findPhone = .notActive
  | _ => True

section Sessions

variable {env : SmartEnv} {s : SmartState}

theorem SmartRun.settled (run : SmartRun env SmartState.BeginsClean s)
    (running : s.phase = .running) : s.Settled := by
  induction run with
  | start phase =>
    rw [phase] at running
    cases running
  | @step s s' event run met moved ih =>
    cases event with
    | frame now frame =>
      unfold SmartState.next at moved
      dsimp only at moved
      split at moved
      · cases moved
      · rw [easyjoinCallback_phase moved] at running
        exact (ih running).frame moved
    | begins now =>
      unfold SmartState.next at moved
      dsimp only at moved
      split at moved <;> cases moved
      unfold SmartState.Settled
      rw [show s.info.findPhone = .notActive from met]
      exact s.clear_open
    | turn now overtime alloc =>
      unfold SmartState.next at moved
      dsimp only at moved
      split at moved <;> cases moved
      next before => exact (ih before).turn now overtime alloc

/-- Whenever the decoder runs with a key found, one parser has finished, with a whole key, and the
decoder takes that key and the layout of that parser. -/
theorem smartDecode_right (run : SmartRun env SmartState.BeginsClean s)
    (running : s.phase = .running) (key : s.info.findPhone = .okKey) : s.DecodesRight env :=
  (run.settled running).decodesRight key

/-- Several events. -/
def SmartState.nexts (env : SmartEnv) (s : SmartState) : List SmartEvent → Option SmartState
  | [] => some s
  | event :: events => (s.next env event).bind fun s => s.nexts env events

theorem SmartRun.nexts {meets : SmartState → SmartEvent → Prop} {s' : SmartState}
    (run : SmartRun env meets s) {events : List SmartEvent}
    (met : ∀ s, ∀ event ∈ events, meets s event) (moved : s.nexts env events = some s') :
    SmartRun env meets s' := by
  induction events generalizing s with
  | nil =>
    cases moved
    exact run
  | cons event events ih =>
    rcases Option.bind_eq_some_iff.mp moved with ⟨s₁, first, rest⟩
    exact ih (run.step (met s event (List.mem_cons_self ..)) first)
      (fun s event mem => met s event (List.mem_cons_of_mem _ mem)) rest

end Sessions

/-- A session with a cipher that does nothing. -/
def plainEnv : SmartEnv := ⟨id, fun _ => rfl, id, 0⟩

/-- A multicast frame of the phone, passed on by the access point. -/
def radioFrame (ds : DsMac) : SmartEvent :=
  .frame 0 ⟨0x0208, #v[0x01, 0x00, 0x5e, ds.d0, ds.d1, ds.d2], homeMac, phoneMac, homeMac,
    List.replicate (24 + 36 + ds.lenCheck) 0, none⟩

/-- A session at its start, with what the heap holds for the multicast parser. -/
def newSession (mul : ParseMulticast) : SmartState :=
  ⟨⟨.searchStart, .notActive, homeMac, homeMac, 0⟩, [], .zero, .zero, mul, .starting⟩

theorem newSession_run {meets : SmartState → SmartEvent → Prop} (mul : ParseMulticast) :
    SmartRun plainEnv meets (newSession mul) :=
  .start rfl rfl rfl

/-- Eight zero bytes in multicast frames, behind two frames for the lock. -/
def zeroKeyFrames : List SmartEvent :=
  ([⟨0x40, 0, 0⟩, ⟨0x40, 0, 0⟩, ⟨0x20, 8, 8⟩, ⟨0x40, 0, 0⟩, ⟨0x41, 0, 0⟩, ⟨0x42, 0, 0⟩,
    ⟨0x43, 0, 0⟩, ⟨0x01, 0, 0⟩] : List DsMac).map radioFrame

theorem smartDecode_right_zeroKey : ∃ s, SmartRun plainEnv SmartState.BeginsClean s ∧
    s.phase = .running ∧ s.info.findPhone = .okKey ∧ s.DecodesRight plainEnv := by
  have ran : (((newSession .zero).next plainEnv (.begins 0)).bind fun s =>
      (s.nexts plainEnv zeroKeyFrames).map fun s => (s.phase, s.info.findPhone)) =
      some (.running, .okKey) := by decide +kernel
  rcases Option.bind_eq_some_iff.mp ran with ⟨s₁, begun, rest⟩
  rcases Option.map_eq_some_iff.mp rest with ⟨s₂, frames, found⟩
  rcases Prod.mk.inj found with ⟨running, key⟩
  have clean : (newSession .zero).BeginsClean (.begins 0) := rfl
  have met : ∀ s : SmartState, ∀ event ∈ zeroKeyFrames, s.BeginsClean event := by
    intro s event mem
    rcases List.mem_map.mp mem with ⟨ds, -, rfl⟩
    trivial
  have run : SmartRun plainEnv SmartState.BeginsClean s₂ :=
    ((newSession_run .zero).step clean begun).nexts met frames
  exact ⟨s₂, run, running, key, smartDecode_right run running key⟩

/-- The block of a session that has ended. -/
def staleBlock : ParseMulticast := ⟨fun _ => 0, fun _ => 1, 8, 0, true, 2, true⟩

/-- Two frames before the block is cleared complete the old key, and the decoder then finds no key. -/
theorem smartDecode_stale : ¬ ∀ s, SmartRun plainEnv (fun _ _ => True) s → s.phase = .running →
    s.info.findPhone = .okKey → s.DecodesRight plainEnv := by
  intro right
  have ran : ((newSession staleBlock).nexts plainEnv
      [radioFrame ⟨0x40, 0, 0⟩, radioFrame ⟨0x40, 0, 0⟩, .begins 0]).map
        (fun s => (s.phase, s.info.findPhone, s.toDs.finish, s.fromDs.finish, s.mul.finish)) =
      some (.running, .okKey, false, false, false) := by decide +kernel
  rcases Option.map_eq_some_iff.mp ran with ⟨s, moved, found⟩
  simp only [Prod.mk.injEq] at found
  rcases found with ⟨running, key, toDs, fromDs, mul⟩
  have run : SmartRun plainEnv (fun _ _ => True) s :=
    (newSession_run staleBlock).nexts (fun _ _ _ => trivial) moved
  rcases right s run running key with ⟨source, only, -⟩
  have finished := (only source).mpr rfl
  cases source with
  | toDs => exact absurd (toDs.symm.trans finished) (by decide)
  | fromDs => exact absurd (fromDs.symm.trans finished) (by decide)
  | mul => exact absurd (mul.symm.trans finished) (by decide)

end Tr6260
