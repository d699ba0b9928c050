import Mathlib.Logic.Function.Iterate
import Tr6260.ByteMem

/-!
# `platform/smartconfig`

`sc_recv` with all it calls: the lengths of encrypted frames carry the name of the access point's
channel, the password and a random byte. The records of the stages share their memory, a union of
`unsigned short` arrays with rows of different lengths. Each call also gives the accesses it makes
whose places come from a frame: indices of arrays with an entry for each packet type, writes to
arrays, shift counts, and whether the result of `get_base_len` was set.

There is no result where a packet type is used that was not assigned, nor for a shift of an `int` by
32. Logs, timers and the radio are left out; `qos_flag` chooses between two copies of one text.
-/

namespace Tr6260

namespace ScRecv

/-! ## State -/

/-- `SC_STATE`. -/
inductive ScState
  | stoped
  | idle
  | srcLocked
  | magicCodeComplete
  | prefixCodeComplete
  | complete
  deriving DecidableEq

/-- `sc_state < SC_STATE_SRC_LOCKED`. -/
def ScState.unlocked (state : ScState) : Bool := state = .stoped ∨ state = .idle

/-- `smartconfig_status_t`, as far as `sc_recv` returns it. -/
inductive ScStatus
  | continue_
  | lockChannel
  | gotSsidPswd
  deriving DecidableEq

/-- `MAX_PTYPE` and the packet types. -/
def maxPtype : Nat := 4
def multiTypeTods : Nat := 0
def multiTypeFrds : Nat := 1
def brodaTypeTods : Nat := 2
def brodaTypeFrds : Nat := 3

def passwordMaxLen : Nat := 64
def ssidMaxLen : Nat := 32

/-- The sizes of `usr_data`, `pwd` and `ssid`. -/
def usrDataBuffMaxSize : Nat := passwordMaxLen + 1 + ssidMaxLen
def zcMaxPasswdLen : Nat := 65
def zcMaxSsidLen : Nat := 33

/-- The lengths of the rows of the records. -/
def maxGuideRecord : Nat := 4
def maxMagicCodeRecord : Nat := 5
def maxPrefixCodeRecord : Nat := 4
def maxSeqCodeRecord : Nat := 6

/-- `union sc_data`, cleared: it has room for `seq_code_record`. -/
def scDataZero : List Nat := .replicate (maxPtype * (maxSeqCodeRecord + 1)) 0

/-- `sc_local_context`, with `last_sn` of `sn_check`. -/
structure ScContext where
  pwd : ByteMem
  ssid : ByteMem
  pswdLen : Nat
  ssidLen : Nat
  randomNum : UInt8
  ssidCrc : Nat
  usrData : ByteMem
  scState : ScState
  needSeq : Nat
  baseLen : Nat → Nat
  totalLen : Nat
  pswdLencrc : Nat
  seqSuccessMap : Nat
  seqSuccessMapCmp : Nat
  data : List Nat
  lastSn : Nat → Nat

/-- The context `sc_task` starts with. -/
def ScContext.start : ScContext where
  pwd := fun _ => 0
  ssid := fun _ => 0
  pswdLen := 0
  ssidLen := 0
  randomNum := 0
  ssidCrc := 0
  usrData := fun _ => 0
  scState := .idle
  needSeq := 0
  baseLen := fun _ => 0
  totalLen := 0
  pswdLencrc := 0
  seqSuccessMap := 0
  seqSuccessMapCmp := 0
  data := scDataZero
  lastSn := fun _ => 0

/-- `resest_sc_data`. -/
def ScContext.resestScData (s : ScContext) : ScContext := { s with data := scDataZero }

/-- An access whose place comes from a frame. -/
inductive Access
  | index (i : Nat)
  | usrData (pos len : Nat)
  | pwd (pos len : Nat)
  | ssid (pos len : Nat)
  | shift (count : Nat)
  | result (set : Bool)

/-- It is inside its array, below 16, or a result that was set. -/
def Access.Ok : Access → Prop
  | .index i => i < maxPtype
  | .usrData pos len => pos + len ≤ usrDataBuffMaxSize
  | .pwd pos len => pos + len ≤ zcMaxPasswdLen
  | .ssid pos len => pos + len ≤ zcMaxSsidLen
  | .shift count => count < 16
  | .result set => set = true

/-! ## Checksums -/

/-- One round of `calcrc_1byte`, of the checksum and the byte. -/
def calcrcBit (s : UInt8 × UInt8) : UInt8 × UInt8 :=
  (if (s.1 ^^^ s.2) &&& 0x01 ≠ 0 then (s.1 ^^^ 0x18) >>> 1 ||| 0x80 else s.1 >>> 1, s.2 >>> 1)

/-- `calcrc_1byte`. -/
def calcrc1byte (abyte : UInt8) : UInt8 := (Nat.iterate calcrcBit 8 (0, abyte)).1

/-- `calcrc_bytes`. -/
def calcrcBytes (p : List UInt8) : UInt8 := p.foldl (fun crc byte => calcrc1byte (crc ^^^ byte)) 0

/-! ## The filter -/

/-- An entry of the access point list. Names are at most 32 bytes long in an array of 33 that was
zero. -/
structure ApInfo where
  mac : List UInt8
  ssid : List UInt8
  short : ssid.length ≤ 32
  text : 0 ∉ ssid

/-- `zconfig_get_apinfo`. -/
def zconfigGetApinfo (aps : List ApInfo) (mac : List UInt8) : Option ApInfo :=
  aps.find? (·.mac = mac)

/-- The address at a place of a frame. -/
def addrAt (frame : List UInt8) (offset : Nat) : List UInt8 := (frame.drop offset).take 6

def mutilAddr : List UInt8 := [0x01, 0x00, 0x5e, 0x00, 0x00, 0x4c]
def broadAddr : List UInt8 := [0xFF, 0xFF, 0xFF, 0xFF, 0xFF, 0xFF]

/-- What `find_ap_in_aplist` does when there is one. -/
def ScContext.lock (s : ScContext) : ScContext := { s.resestScData with scState := .srcLocked }

/-- The sequence number of a frame. -/
def snOf (frame : List UInt8) : Nat :=
  ((frame.getD 22 0).toNat + (frame.getD 23 0).toNat * 256) >>> 4

/-- `sn_check`. -/
def snCheck (s : ScContext) (sn type : Nat) : Bool × ScContext :=
  if sn ≠ s.lastSn type ∨ sn = 0 then
    (true, { s with lastSn := Function.update s.lastSn type sn })
  else (false, s)

/-- What a function of the filter leaves: the packet type of a frame that is valid. -/
structure Filtered where
  type : Option Nat
  context : ScContext
  accesses : List Access

/-- The end of `sc_filter`. -/
def scFilterEnd (s : ScContext) (sn type : Nat) : Filtered :=
  let r := snCheck s sn type
  ⟨if r.1 then some type else none, r.2, [.index type]⟩

/-- A frame to the multicast address: `find_ap_in_aplist` clears the copy of the header, from which
the sequence number is taken afterwards. -/
def scFilterMulti (aps : List ApInfo) (s : ScContext) (frame mac : List UInt8) (type : Nat) :
    Filtered :=
  if s.scState.unlocked ∧ (zconfigGetApinfo aps mac).isSome then scFilterEnd s.lock 0 type
  else scFilterEnd s (snOf frame) type

/-- `sc_filter`. -/
def scFilter (aps : List ApInfo) (s : ScContext) (frame : List UInt8) : Option Filtered :=
  let flags := frame.getD 1 0
  if frame.length < 24 then some ⟨none, s, []⟩
  else if flags &&& 0x08 ≠ 0 then some ⟨none, s, []⟩
  else if flags &&& 0x40 = 0 then some ⟨none, s, []⟩
  else if flags &&& 0x02 = 0x02 then
    if addrAt frame 4 = mutilAddr then
      some (scFilterMulti aps s frame (addrAt frame 10) multiTypeFrds)
    else if addrAt frame 4 = broadAddr then some (scFilterEnd s (snOf frame) brodaTypeFrds)
    else some ⟨none, s, []⟩
  else if flags &&& 0x01 = 0x01 then
    if addrAt frame 16 = mutilAddr then
      some (scFilterMulti aps s frame (addrAt frame 4) multiTypeTods)
    else if addrAt frame 16 = broadAddr then some (scFilterEnd s (snOf frame) brodaTypeTods)
    else some ⟨none, s, []⟩
  else none

/-! ## The guide -/

/-- A cell of a record. -/
def cell (data : List Nat) (i : Nat) : Nat := data.getD i 0

/-- `sc_record_move_ones`. -/
def scRecordMoveOnes (data : List Nat) (base recordNum : Nat) : List Nat :=
  (List.range recordNum).foldl (fun data i =>
    if cell data (base + i + 1) ≠ cell data (base + i) then
      data.set (base + i) (cell data (base + i + 1))
    else data) data

/-- A value is put at the end of a row and the row moves on by one. -/
def pushRecord (data : List Nat) (base recordNum value : Nat) : List Nat :=
  scRecordMoveOnes (data.set (base + recordNum) value) base recordNum

/-- The second loop of `append_prefix`. -/
def sinkPrefix (data : List Nat) (base : Nat) : Nat → List Nat
  | 0 => data
  | i + 1 =>
    if cell data (base + i) = 0 ∨ cell data (base + i + 1) < cell data (base + i) then
      sinkPrefix ((data.set (base + i) (cell data (base + i + 1))).set (base + i + 1)
        (cell data (base + i))) base i
    else data

/-- `append_prefix`. -/
def appendPrefix (data : List Nat) (base length : Nat) : List Nat × Bool :=
  let data := data.set (base + maxGuideRecord) length
  let data := if (List.range 4).any fun i => length = cell data (base + i) then data
    else sinkPrefix data base 4
  (data, (List.range 4).all fun i => cell data (base + i) ≠ 0)

/-- `clear_record`. -/
def clearRecord (data : List Nat) (base : Nat) : List Nat :=
  (List.range 4).foldl (fun data i => data.set (base + i) 0) data

/-- Where a row of a record starts. -/
def rowOf (recordNum type : Nat) : Nat := type * (recordNum + 1)

/-- What `get_base_len` leaves; `result` is what it has returned, if it has. -/
structure BaseLen where
  result : Option Int
  context : ScContext
  accesses : List Access

/-- The guide lengths were consecutive. -/
def baseLenFound (aps : List ApInfo) (s : ScContext) (frame : List UInt8) (type : Nat) : BaseLen :=
  let row := rowOf maxGuideRecord type
  let base := (cell s.data row + 2 ^ 16 - 1024) % 2 ^ 8
  let s := { s with baseLen := Function.update s.baseLen type base }
  let mac := if type = multiTypeFrds ∨ type = brodaTypeFrds then addrAt frame 10
    else addrAt frame 4
  match zconfigGetApinfo aps mac with
  | none => ⟨some 0, { s with data := clearRecord s.data row }, []⟩
  | some ap =>
    let s := s.lock
    if ap.ssid = [] then ⟨some 0, { s with data := clearRecord s.data row }, []⟩
    else ⟨some 1, { s with ssidLen := ap.ssid.length, ssid := s.ssid.store 0 ap.ssid },
      [.ssid 0 ap.ssid.length]⟩

/-- A length of the guide. -/
def isGuide (s : ScContext) (length type : Nat) : Prop :=
  1094 < length ∧ length < 1112 ∧ s.baseLen type = 0

instance (s : ScContext) (length type : Nat) : Decidable (isGuide s length type) :=
  inferInstanceAs (Decidable (_ ∧ _ ∧ _))

/-- `get_base_len`. It ends without a result as long as there are less than four lengths. -/
def getBaseLen (aps : List ApInfo) (s : ScContext) (frame : List UInt8) (length type : Nat) :
    BaseLen :=
  let row := rowOf maxGuideRecord type
  if isGuide s length type then
    let r := appendPrefix s.data row length
    let s := { s with data := r.1 }
    if r.2 then
      if cell s.data (row + 1) = cell s.data row + 1 ∧ cell s.data (row + 2) = cell s.data (row + 1) + 1 ∧
          cell s.data (row + 3) = cell s.data (row + 2) + 1 then
        let found := baseLenFound aps s frame type
        { found with accesses := .index type :: .result true :: found.accesses }
      else ⟨some 0, { s with data := clearRecord s.data row }, [.index type, .result true]⟩
    else ⟨none, s, [.index type, .result false]⟩
  else if 1094 < length ∧ length < 1112 then ⟨some 0, s, [.index type, .result true]⟩
  else ⟨some 0, s, [.result true]⟩

/-! ## The codes -/

/-- A code is what a length is above the base. -/
def codeOf (s : ScContext) (length type : Nat) : Nat := (length + 2 ^ 16 - s.baseLen type) % 2 ^ 16

/-- Two digits of a code. -/
def nibbles (high low : Nat) : Nat := ((high &&& 0x000F) <<< 4) + (low &&& 0x000F)

/-- `sc_process_magic_code`. -/
def scProcessMagicCode (s : ScContext) (type length : Nat) : ScContext × List Access :=
  let row := rowOf maxMagicCodeRecord type
  if s.baseLen type = 0 then (s, [.index type])
  else
    let data := pushRecord s.data row maxMagicCodeRecord (codeOf s length type)
    let s := { s with data := data }
    if cell data row &&& 0x01f0 = 0x0040 ∧ cell data (row + 1) &&& 0x01f0 = 0x0010 ∧
        cell data (row + 2) &&& 0x01f0 = 0x0020 ∧ cell data (row + 3) &&& 0x01f0 = 0x0030 ∧
        cell data row ^^^ cell data (row + 1) ^^^ cell data (row + 2) ^^^ cell data (row + 3) = cell data (row + 4) then
      let totalLen := nibbles (cell data row) (cell data (row + 1))
      ({ s.resestScData with
        totalLen := if totalLen > 128 then totalLen - 128 else totalLen
        ssidCrc := nibbles (cell data (row + 2)) (cell data (row + 3))
        scState := .magicCodeComplete }, [.index type])
    else (s, [.index type])

/-- The four codes of the password's length are there. -/
def isPrefix (data : List Nat) (row : Nat) : Prop :=
  cell data row &&& 0x01f0 = 0x0040 ∧ cell data (row + 1) &&& 0x01f0 = 0x0050 ∧
    cell data (row + 2) &&& 0x01f0 = 0x0060 ∧ cell data (row + 3) &&& 0x01f0 = 0x0070

instance (data : List Nat) (row : Nat) : Decidable (isPrefix data row) :=
  inferInstanceAs (Decidable (_ ∧ _ ∧ _ ∧ _))

/-- The length of a password, as it is stored. -/
def prefixLen (data : List Nat) (row : Nat) : Nat :=
  let pswdLen := nibbles (cell data row) (cell data (row + 1))
  if pswdLen > passwordMaxLen then 0 else pswdLen

/-- Its checksum is right. -/
def prefixGood (data : List Nat) (row : Nat) : Prop :=
  (calcrc1byte (.ofNat (prefixLen data row))).toNat = nibbles (cell data (row + 2)) (cell data (row + 3))

instance (data : List Nat) (row : Nat) : Decidable (prefixGood data row) :=
  inferInstanceAs (Decidable (_ = _))

/-- `sc_process_prefix_code`. -/
def scProcessPrefixCode (s : ScContext) (type length : Nat) : Option (ScContext × List Access) :=
  let row := rowOf maxPrefixCodeRecord type
  if s.baseLen type = 0 then some (s, [.index type])
  else
    let data := pushRecord s.data row maxPrefixCodeRecord (codeOf s length type)
    let s := { s with data := data }
    if isPrefix data row then
      let s := { s.resestScData with
        pswdLen := prefixLen data row
        pswdLencrc := nibbles (cell data (row + 2)) (cell data (row + 3)) }
      if prefixGood data row then
        let needSeq := (s.totalLen + 3) / 4
        if needSeq < 32 then
          some ({ s with
            scState := .prefixCodeComplete
            needSeq := needSeq
            seqSuccessMapCmp := (1 <<< needSeq - 1) % 2 ^ 16 }, [.index type, .shift needSeq])
        else none
      else some (s, [.index type])
    else some (s, [.index type])

/-- `sc_pkt_seq_type`. -/
def scPktSeqType (s : ScContext) (data : List Nat) (row : Nat) : Nat :=
  if cell data row &&& 0x180 = 0x80 ∧ cell data (row + 1) &&& 0x180 = 0x80 ∧
      cell data (row + 2) &&& 0x0100 = 0x0100 ∧ cell data (row + 3) &&& 0x0100 = 0x0100 ∧
      cell data (row + 4) &&& 0x0100 = 0x0100 ∧ cell data (row + 5) &&& 0x0100 = 0x0100 ∧
      cell data (row + 1) &&& 0x7F ≤ (s.totalLen >>> 2) + 1 then 0
  else if cell data row &&& 0x180 = 0x80 ∧ (cell data (row + 1) &&& 0x7f) + 1 = s.needSeq ∧
      cell data (row + 2) &&& 0x0100 = 0x0100 then 1
  else 2

/-- `sc_add_seq_data`. -/
def scAddSeqData (s : ScContext) (bytes : List UInt8) (seq : Nat) : ScContext × List Access :=
  if seq < s.needSeq ∧ seq * 4 + 4 ≤ usrDataBuffMaxSize then
    if s.seqSuccessMap &&& (1 <<< seq) = 0 then
      ({ s with
        usrData := s.usrData.store (seq * 4) bytes
        seqSuccessMap := (s.seqSuccessMap ||| (1 <<< seq)) % 2 ^ 16 },
        [.shift seq, .usrData (seq * 4) 4])
    else (s, [.shift seq])
  else (s, [])

/-- The end of `sc_process_sequence`. -/
def scComplete (s : ScContext) : ScContext × List Access :=
  if s.seqSuccessMapCmp = s.seqSuccessMap then
    ({ s with
      randomNum := s.usrData s.pswdLen
      pwd := s.pwd.store 0 (s.usrData.load 0 s.pswdLen)
      usrData := s.usrData.store (s.pswdLen + 1) [0]
      scState := .complete }, [.pwd 0 s.pswdLen, .usrData (s.pswdLen + 1) 1])
  else (s, [])

/-- The bytes of a piece in a row, behind its checksum. -/
def tempBuffer (data : List Nat) (row : Nat) : List UInt8 :=
  .ofNat (cell data (row + 1) &&& 0x7F) :: (List.range 4).map fun i => .ofNat (cell data (row + 2 + i) &&& 0xFF)

/-- The checksum of a piece is right: of all of it, or of what the last one has. -/
def pieceGood (s : ScContext) (data : List Nat) (row pktType : Nat) : Prop :=
  let len := if pktType = 0 then 5 else s.totalLen % 4 + 1
  UInt8.ofNat (cell data row &&& 0x7F) = calcrcBytes ((tempBuffer data row).take len) &&& 0x7F

instance (s : ScContext) (data : List Nat) (row pktType : Nat) :
    Decidable (pieceGood s data row pktType) :=
  inferInstanceAs (Decidable (_ = _))

/-- `sc_process_sequence`. -/
def scProcessSequence (s : ScContext) (type length : Nat) : ScContext × List Access :=
  let row := rowOf maxSeqCodeRecord type
  if s.baseLen type = 0 then (s, [.index type])
  else
    let data := pushRecord s.data row maxSeqCodeRecord (codeOf s length type)
    let s := { s with data := data }
    let pktType := scPktSeqType s data row
    if pktType ≠ 2 then
      let added := if pieceGood s data row pktType then
          let r := scAddSeqData s ((tempBuffer data row).drop 1) (cell data (row + 1) &&& 0x7F)
          (r.1.resestScData, r.2)
        else (s, [])
      let done := scComplete added.1
      (done.1, .index type :: (added.2 ++ done.2))
    else (s, [.index type])

/-! ## Receiving -/

/-- What `sc_recv` leaves. -/
structure Received where
  status : ScStatus
  context : ScContext
  accesses : List Access

/-- `sc_recv_discover`; `stack` is the result where `get_base_len` returns none. -/
def scRecvDiscover (aps : List ApInfo) (stack : Int) (s : ScContext) (frame : List UInt8)
    (length type : Nat) : ScContext × List Access :=
  let r := getBaseLen aps s frame length type
  if r.result.getD stack ≠ 0 then
    ({ r.context.resestScData with scState := .srcLocked }, r.accesses)
  else (r.context, r.accesses)

/-- The `switch` of `sc_recv`. -/
def scSwitch (aps : List ApInfo) (stack : Int) (s : ScContext) (frame : List UInt8) (type : Nat) :
    Option Received :=
  let length := frame.length % 2 ^ 16
  match s.scState with
  | .idle =>
    if frame.length < 50 then some ⟨.continue_, s, []⟩
    else
      let r := scRecvDiscover aps stack s frame length type
      some ⟨if r.1.scState = .srcLocked then .lockChannel else .continue_, r.1, r.2⟩
  | .srcLocked =>
    let b := getBaseLen aps s frame length type
    let r := scProcessMagicCode b.context type length
    some ⟨.continue_, r.1, b.accesses ++ r.2⟩
  | .magicCodeComplete =>
    let b := getBaseLen aps s frame length type
    (scProcessPrefixCode b.context type length).map fun r =>
      ⟨.continue_, r.1, b.accesses ++ r.2⟩
  | .prefixCodeComplete =>
    let b := getBaseLen aps s frame length type
    let r := scProcessSequence b.context type length
    some ⟨if r.1.scState = .complete then .gotSsidPswd else .continue_, r.1, b.accesses ++ r.2⟩
  | .stoped | .complete => some ⟨.continue_, { s with scState := .idle }, []⟩

/-- `sc_recv`. -/
def scRecv (aps : List ApInfo) (stack : Int) (s : ScContext) (frame : List UInt8) :
    Option Received :=
  match scFilter aps s frame with
  | none => none
  | some ⟨none, s, accesses⟩ => some ⟨.continue_, s, accesses⟩
  | some ⟨some type, s, accesses⟩ => (scSwitch aps stack s frame type).map fun r =>
      { r with accesses := accesses ++ r.accesses }

end ScRecv

end Tr6260
