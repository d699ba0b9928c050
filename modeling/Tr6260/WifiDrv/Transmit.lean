import Tr6260.System.MemoryPool
import Tr6260.WifiDrv.Key

/-!
# Sending frames

`driver_wifi_tx.c`: a frame is laid out over a chain of buffers, its first buffer behind the place
for a `PHY_TXVECTOR`, the others right behind their `LMAC_TXHDR`. A buffer here is its length field
and its own bytes; a write outside the bytes, a read outside a segment and a step behind the last
buffer have no result. What is written into `HIF_HDR` and `FRAME_HDR` is left out but for the access
category.
-/

namespace Tr6260

namespace WifiDrv

/-! ## Buffers -/

/-- `sizeof(PHY_TXVECTOR)`, which is that of `HIF_HDR` and `FRAME_HDR`. -/
def sizeofPhyTxvector : Nat := 12

/-- `sizeof(FRAME_HDR)`. -/
def sizeofFrameHdr : Nat := 4

/-- `offsetof(SYS_BUF, more_payload)` and `offsetof(SYS_BUF, payload)`. -/
def morePayload : Nat := sizeofSysHdr + sizeofLmacTxhdr.toNat
def payload : Nat := morePayload + sizeofPhyTxvector

/-- `SYS_BUF`. -/
structure SysBuf where
  length : Nat
  ram : ByteMem

/-- `SYS_BUF_DATA_LENGTH`. -/
def SysBuf.dataLength (buf : SysBuf) : Int := buf.length - sizeofLmacTxhdr.toNat

/-- `memcpy` into a buffer. -/
def SysBuf.put (buf : SysBuf) (pos : Nat) (bytes : List UInt8) : Option SysBuf :=
  if pos + bytes.length ≤ lmacConfigBufferSize then
    some { buf with ram := buf.ram.store pos bytes }
  else none

/-- The loop of `sys_buf_alloc`: the lengths of the buffers behind the first. -/
def sysBufRest : (fuel : Nat) → (hifLen : Nat) → List Nat
  | 0, _ => []
  | fuel + 1, hifLen =>
    if hifLen = 0 then []
    else
      let takeLen := min (lmacConfigBufferSize - sizeofSysHdr - sizeofLmacTxhdr.toNat) hifLen
      (sizeofLmacTxhdr.toNat + takeLen) :: sysBufRest fuel (hifLen - takeLen)

/-- The lengths `sys_buf_alloc` gives to the buffers of a chain. -/
def sysBufLengths (hifLen : Nat) : List Nat :=
  let takeLen := min (lmacConfigBufferSize - sizeofSysHdr - sizeofLmacTxhdr.toNat -
    sizeofHifHdr.toNat) hifLen
  (sizeofLmacTxhdr.toNat + sizeofHifHdr.toNat + takeLen) :: sysBufRest hifLen (hifLen - takeLen)

/-- `alloc_sys_buf_try`: a chain of these lengths, with any bytes in it, or nothing. -/
structure Pool where
  alloc : Nat → Option (List SysBuf)
  lengths : ∀ hifLen chain, alloc hifLen = some chain → chain.map (·.length) = sysBufLengths hifLen

/-! ## Copying -/

/-- Where the next byte goes: the buffers behind and ahead, the place in this one and what room is
left in it. -/
structure Cursor where
  done : List SysBuf
  cur : SysBuf
  rest : List SysBuf
  pos : Nat
  remain : Int

/-- The whole chain. -/
def Cursor.chain (c : Cursor) : List SysBuf := c.done ++ c.cur :: c.rest

/-- `while (frame_len > 0)` of `nrc_transmit_from_8023_mb` and `wifi_drv_raw_xmit`. -/
def copyRest : (rest done : List SysBuf) → (cur : SysBuf) → (pos : Nat) → (remain : Int) →
    (frame : List UInt8) → Option Cursor
  | rest, done, cur, pos, remain, [] => some ⟨done, cur, rest, pos, remain⟩
  | [], _, _, _, _, _ :: _ => none
  | buf :: rest, done, cur, _, _, frame@(_ :: _) =>
    let remain := buf.dataLength
    if remain < 0 then none
    else do
      let copy := min frame.length remain.toNat
      let buf ← buf.put morePayload (frame.take copy)
      copyRest rest (done ++ [cur]) buf (morePayload + copy) (remain - copy) (frame.drop copy)

/-- A segment is copied, first into what is left of this buffer. -/
def copySegment (c : Cursor) (frame : List UInt8) : Option Cursor :=
  if c.remain < 0 then none
  else do
    let copy := min frame.length c.remain.toNat
    let cur ← c.cur.put c.pos (frame.take copy)
    copyRest c.rest c.done cur (c.pos + copy) (c.remain - copy) (frame.drop copy)

/-! ## Headers -/

/-- `ETH_P_802_3_MIN` and the ethertypes that are told apart. -/
def ethP8023Min : Nat := 0x0600
def ethPAarp : Nat := 0x80F3
def ethPIpx : Nat := 0x8137
def ethPEapol : Nat := 0x888E

/-- `HLEN_8023`. -/
def hlen8023 : Nat := 14

/-- `WLAN_FC_TODS` and the other bits of a frame control field. -/
def wlanFcTods : Nat := 0x0100
def wlanFcFromds : Nat := 0x0200
def wlanFcIswep : Nat := 0x4000

/-- `_FC(DATA, DATA)` and `_FC(DATA, QOS_DATA)`. -/
def fcData : Nat := 2 <<< 2
def fcQosData : Nat := 2 <<< 2 ||| 8 <<< 4

/-- The address at a place. -/
def macAt (bytes : List UInt8) (offset : Nat) : Mac := .ofFn fun i => bytes.getD (offset + i) 0

/-- `nrc_get_80211_hdr`: the header. -/
def nrcGet80211Hdr (intf : WpaIf) (dest src : Mac) (key : Option WpaKey) (qos : Bool) :
    List UInt8 :=
  let fc := if qos then fcQosData else fcData
  let fc := if intf.isAp then fc ||| wlanFcFromds else fc ||| wlanFcTods
  let fc := if key.any (·.cipher ≠ .none) then fc ||| wlanFcIswep else fc
  let bssid := intf.bss.bssid
  let addrs := if intf.isAp then dest.toList ++ bssid.toList ++ src.toList
    else bssid.toList ++ src.toList ++ dest.toList
  [.ofNat fc, .ofNat (fc >>> 8), 0, 0] ++ addrs ++ [0, 0]

/-- `nrc_get_llc_len`. -/
def nrcGetLlcLen (ethertype : Nat) : Nat := if ethertype ≥ ethP8023Min then 8 else 0

def rfc1042Header : List UInt8 := [0xaa, 0xaa, 0x03, 0x00, 0x00, 0x00]
def bridgeTunnelHeader : List UInt8 := [0xaa, 0xaa, 0x03, 0x00, 0x00, 0xf8]

/-- `nrc_add_llc`. -/
def nrcAddLlc (ethertype : Nat) : List UInt8 :=
  if ethertype < ethP8023Min then []
  else
    (if ethertype = ethPAarp ∨ ethertype = ethPIpx then bridgeTunnelHeader else rfc1042Header) ++
      [.ofNat (ethertype >>> 8), .ofNat (ethertype &&& 0xFF)]

/-- `nrc_add_qos`. -/
def nrcAddQos : List UInt8 := [0, 0]

/-- `nrc_get_sec_hdr_len`. -/
def nrcGetSecHdrLen (key : Option WpaKey) : Nat :=
  match key with
  | none => 0
  | some key => match key.cipher with
    | .wep40 | .wep104 => 4
    | .tkip | .ccmp => 8
    | .none | .wapi | .invalid => 0

/-- `get_ac`. -/
def getAc (buf : SysBuf) : Nat :=
  let fc := buf.ram payload
  let type := (fc >>> 2) &&& 3
  let subtype := fc >>> 4
  if type = 2 then
    if subtype = 8 ∨ subtype = 12 then (buf.ram (payload + 24) &&& 0xf).toNat else 1
  else if type = 0 then 3
  else 1

/-! ## Sending -/

/-- What is known of a frame before its buffers are allocated. -/
structure TxPlan where
  dsta : WpaSta
  qos : Bool
  keyRef : Option KeyRef
  key : Option WpaKey
  head : List UInt8
  hifLen : Nat

/-- The fields of an Ethernet header. -/
def etherDest (ether : List UInt8) : Mac := macAt ether 0
def etherSrc (ether : List UInt8) : Mac := macAt ether 6
def ethertype (ether : List UInt8) : Nat :=
  (ether.getD 12 0).toNat <<< 8 ||| (ether.getD 13 0).toNat

/-- `nrc_add_sec_hdr`, of a key that may be missing. -/
def secHdr (key : Option WpaKey) : List UInt8 :=
  match key with
  | none => []
  | some key => (nrcAddSecHdr key).1

/-- The first part of `nrc_transmit_from_8023_mb`, once the station is found; `ether` starts with the
Ethernet header and `total` is the length of all segments. -/
def txPlanFor (intf : WpaIf) (ether : List UInt8) (total : Nat) (dsta : WpaSta) : TxPlan :=
  let type := ethertype ether
  let qos := dsta.qos && type ≠ ethPEapol
  let keyRef := nrcWpaGetKey intf (some (if intf.isAp then etherDest ether else intf.bss.bssid))
  let key := keyRef.bind intf.keyAt
  let hdr := nrcGet80211Hdr intf (etherDest ether) (etherSrc ether) key qos
  let hifLen := sizeofFrameHdr + (24 + if qos then 2 else 0) + nrcGetLlcLen type +
    nrcGetSecHdrLen key + total - hlen8023
  ⟨dsta, qos, keyRef, key,
    hdr ++ (if qos then nrcAddQos else []) ++ secHdr key ++ nrcAddLlc type, hifLen % 2 ^ 16⟩

/-- The first part of `nrc_transmit_from_8023_mb`, without a result when the station is not known. -/
def txPlan (intf : WpaIf) (ether : List UInt8) (total : Nat) : Option TxPlan := do
  let ref ← nrcWpaFindSta intf (etherDest ether)
  let dsta ← intf.staAt ref
  some (txPlanFor intf ether total dsta)

/-- What is handed to `hal_lmac_uplink_request_sysbuf`. -/
structure TxRequest where
  chain : List SysBuf
  cipher : Cipher
  ac : Nat
  ampdu : Bool

/-- What `nrc_transmit_from_8023_mb` hands over when the chain is filled. -/
def txRequest (intf : WpaIf) (plan : TxPlan) (chain : List SysBuf) : Option TxRequest := do
  let buffer ← chain.head?
  let ac := getAc buffer
  some ⟨chain, plan.key.elim .none (·.cipher), ac, intf.isAp && plan.dsta.blockAck ac⟩

/-- `nrc_transmit_from_8023_mb`: what is sent, if anything, and the interface afterwards. -/
def nrcTransmitFrom8023Mb (pool : Pool) (intf : WpaIf) (frames : List (List UInt8)) :
    Option (Option TxRequest × WpaIf) :=
  match frames with
  | [] => some (none, intf)
  | first :: others =>
    if first.length < hlen8023 then none
    else match txPlan intf first (frames.map List.length).sum with
      | none => some (none, intf)
      | some plan => match pool.alloc plan.hifLen with
        | none => some (none, intf)
        | some [] => none
        | some (buffer :: rest) => do
          let cur ← buffer.put payload plan.head
          let c ← copySegment ⟨[], cur, rest, payload + plan.head.length,
            buffer.dataLength - sizeofPhyTxvector - plan.head.length⟩ (first.drop hlen8023)
          let c ← others.foldlM copySegment c
          let request ← txRequest intf plan c.chain
          let intf := match plan.keyRef with
            | none => intf
            | some ref => intf.modifyKey (fun key => (nrcAddSecHdr key).2) ref
          some (some request, intf)

/-- The copy of `wifi_drv_raw_xmit`. -/
def rawXmit (chain : List SysBuf) (frame : List UInt8) : Option (List SysBuf) :=
  match chain with
  | [] => none
  | buffer :: rest =>
    (copySegment ⟨[], buffer, rest, payload, buffer.dataLength - sizeofPhyTxvector⟩ frame).map
      (·.chain)

/-- The loop of `copy_to_sysbuf`. Its count is a `uint16_t` that a buffer longer than what is left
wraps around, so that the loop goes on when there is another buffer. -/
def copyMore : List SysBuf → List UInt8 → Option (List SysBuf)
  | [], _ => some []
  | buf :: rest, [] => some (buf :: rest)
  | buf :: rest, frame@(_ :: _) =>
    let len := buf.dataLength
    if len < 0 ∨ (frame.length < len ∧ rest ≠ []) then none
    else do
      let buf ← buf.put morePayload (frame.take len.toNat)
      let rest ← copyMore rest (frame.drop len.toNat)
      some (buf :: rest)

/-- `copy_to_sysbuf`. The first copy takes what the buffer has room for, whatever the length of the
frame. -/
def copyToSysbuf (chain : List SysBuf) (frame : List UInt8) : Option (List SysBuf) :=
  match chain with
  | [] => none
  | buffer :: rest =>
    let len := buffer.dataLength - sizeofPhyTxvector
    if len < 0 ∨ frame.length < len then none
    else do
      let buffer ← buffer.put payload (frame.take len.toNat)
      let rest ← copyMore rest (frame.drop len.toNat)
      some (buffer :: rest)

end WifiDrv

end Tr6260
