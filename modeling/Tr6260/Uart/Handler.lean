import Tr6260.Uart.Cert

/-!
# The handler of the serial line

`ya_handle_uart_data` on the frame in `rx_buf`, and the receive path in front of it, with the two
buffers as the blocks they are. `none` is an access outside of a block, as in the certificate code.
-/

namespace Tr6260

open FlashProg

/-- `CMD_RESET_WIFI`. -/
def cmdResetWifi : UInt8 := 0x03

/-- `CMD_RESET_WIFE_CONFIG`. -/
def cmdResetWifeConfig : UInt8 := 0x04

/-- `CMD_GET_MAC`. -/
def cmdGetMac : UInt8 := 0xF0

/-- `CMD_WRITE_CERT`. -/
def cmdWriteCert : UInt8 := 0xF1

/-- `CMD_READBACK_CERT`. -/
def cmdReadbackCert : UInt8 := 0xF2

/-- `CMD_SET_MAC`. -/
def cmdSetMac : UInt8 := 0xF3

/-- `YA_LICENSE_ALIYUUN`. -/
def yaLicenseAliyuun : Nat := yaLicenseThingTypeAddr + 0x1000

/-- What the handler takes from its surroundings: the certificate parsers, the address of the
station, and the result of `ya_hal_wlan_set_mac_address`. -/
structure UartEnv where
  cert : CertEnv
  mac : List UInt8
  mac_length : mac.length = 6
  setMac : List UInt8 → Int

/-- `rx_buf`, `tx_buf`, and what the certificate code keeps. -/
structure UartBufs where
  rx : List UInt8
  tx : List UInt8
  cert : CertState

/-! ## Replies -/

/-- A reply with the header of the request and a body of its own: its length, and `tx_buf`. -/
def bodyReply (tx rx body : List UInt8) : Option (Nat × List UInt8) := do
  let tx ← Block.write tx 0 (rx.take 4)
  let tx ← Block.write tx 4 [0, UInt8.ofNat body.length]
  let tx ← Block.write tx 6 body
  let tx ← Block.write tx (6 + body.length) [getChecksum tx (6 + body.length)]
  return (7 + body.length, tx)

/-- A reply that repeats the request up to `pos` and puts the result there. -/
def resultReply (tx rx : List UInt8) (pos : Nat) (result : UInt8) : Option (Nat × List UInt8) := do
  let tx ← Block.write tx 0 (rx.take 10)
  let tx ← Block.write tx 4 [0, UInt8.ofNat (pos - 5)]
  let tx ← Block.write tx pos [result]
  let tx ← Block.write tx (pos + 1) [getChecksum tx (pos + 1)]
  return (pos + 2, tx)

/-! ## The third kind of certificate -/

/-- The length checks of `ya_write_aliyun_cert`, one for each limit. -/
def aliyunFits (buf : List UInt8) (dataLen : Nat) : List Nat → Nat → Bool
  | [], _ => true
  | limit :: limits, index =>
    if index < dataLen then
      if (buf.getD index 0).toNat > limit then
        false
      else
        aliyunFits buf dataLen limits (index + 1 + (buf.getD index 0).toNat)
    else
      true

/-- `ya_write_aliyun_cert`. The length has 16 bits; one that `ya_write_flash` refuses is refused
before the data is looked at. -/
def yaWriteAliyunCert (board : Board) (buf : List UInt8) (dataLen : Nat) :
    FlashProg (Option Int) :=
  if aliyunFits buf dataLen [20, 32, 64] 0 = false ∨ dataLen > maxDataLen - 10 then
    return some (-1)
  else do
    let ret ← yaWriteFlash board yaLicenseAliyuun (buf.take dataLen) 1
    return ret.map fun ret => if ret ≠ 0 then -1 else 0

/-- Behind the checks the result is zero when that of `ya_write_flash` is. -/
theorem yaWriteAliyunCert_run (board : Board) {buf : List UInt8} {dataLen : Nat}
    (passes : ¬ (aliyunFits buf dataLen [20, 32, 64] 0 = false ∨ dataLen > maxDataLen - 10))
    (m : ByteMem) :
    ∃ ret m', (yaWriteFlash board yaLicenseAliyuun (buf.take dataLen) 1).run m = (some ret, m') ∧
      (yaWriteAliyunCert board buf dataLen).run m = (some (if ret ≠ 0 then -1 else 0), m') := by
  have short : (buf.take dataLen).length < 65532 := by
    have : maxDataLen = 4096 := rfl
    rw [List.length_take]
    omega
  obtain ⟨ret, m', wrote⟩ := yaWriteFlash_inside board yaLicenseAliyuun 1 short m
  refine ⟨ret, m', wrote, ?_⟩
  rw [yaWriteAliyunCert, if_neg passes, run_bind, wrote]
  rfl

/-- A call of `ya_write_aliyun_cert` comes to an end. -/
theorem yaWriteAliyunCert_ends (board : Board) (buf : List UInt8) (n : Nat) (m : ByteMem) :
    ∃ ret m', (yaWriteAliyunCert board buf n).run m = (some ret, m') := by
  by_cases passes : aliyunFits buf n [20, 32, 64] 0 = false ∨ n > maxDataLen - 10
  · rw [yaWriteAliyunCert, if_pos passes]
    exact ⟨_, _, rfl⟩
  · obtain ⟨_, m', -, done⟩ := yaWriteAliyunCert_run board passes m
    exact ⟨_, m', done⟩

/-- The third kind in `CMD_WRITE_CERT`. -/
def writeAliyun (heap : Heap) (tx rx : List UInt8) (bufLen : Nat) :
    FlashProg (Option (Nat × List UInt8)) := do
  match ← yaWriteAliyunCert (heap 1) (rx.drop 7) ((bufLen + 2 ^ 16 - 8) % 2 ^ 16) with
  | none => return none
  | some ret => return bodyReply tx rx [0x02, if ret ≠ 0 then 0 else 1]

/-- The third kind in `CMD_READBACK_CERT`. -/
def readAliyun (heap : Heap) (tx rx : List UInt8) : FlashProg (Option (Nat × List UInt8)) :=
  match (heap 0).memoryAlloc 128 with
  | none => return some (0, tx)
  | some _ => do
    match ← yaReadFlashWithVarLen (heap 1) yaLicenseAliyuun 128 1 with
    | none => return some (0, tx)
    | some stored => return bodyReply tx rx (0x02 :: stored)

/-! ## The handler -/

/-- `CMD_WRITE_CERT`. -/
def handleWriteCert (env : UartEnv) (heap : Heap) (s : UartBufs) (bufLen : Nat) :
    FlashProg (Option (Nat × UartBufs)) :=
  if s.rx.getD 6 0 = 0x01 then do
    let subCmd := s.rx.getD 7 0
    match ← writeCertificate env.cert heap s.cert s.rx (bufLen - 7) with
    | none => return none
    | some (ret, cert) =>
      let pos := if subCmd = 0x03 ∨ subCmd = 0x04 then 8 else 10
      return (resultReply s.tx s.rx pos ret).map fun (len, tx) => (len, ⟨s.rx, tx, cert⟩)
  else if s.rx.getD 6 0 = 0x02 then do
    let reply ← writeAliyun heap s.tx s.rx bufLen
    return reply.map fun (len, tx) => (len, { s with tx })
  else
    return some (0, s)

/-- `CMD_READBACK_CERT`. -/
def handleReadbackCert (heap : Heap) (s : UartBufs) : FlashProg (Option (Nat × UartBufs)) :=
  if s.rx.getD 6 0 = 0x01 then
    match Block.write s.tx 0 (s.rx.take 8) with
    | none => return none
    | some tx => do
      let reply ← readCertificate heap s.cert s.rx tx (s.rx.getD 7 0)
      return reply.map fun (len, cert, tx) => (len, ⟨s.rx, tx, cert⟩)
  else if s.rx.getD 6 0 = 0x02 then do
    let reply ← readAliyun heap s.tx s.rx
    return reply.map fun (len, tx) => (len, { s with tx })
  else
    return some (0, s)

/-- The commands of `ya_handle_uart_data`: `reply_buf_len`, and the buffers. The first two also
reset the module or its configuration. -/
def handleCommand (env : UartEnv) (heap : Heap) (s : UartBufs) (bufLen : Nat) :
    FlashProg (Option (Nat × UartBufs)) :=
  let cmd := s.rx.getD 3 0
  if cmd = cmdResetWifi ∨ cmd = cmdResetWifeConfig then
    return (bodyReply s.tx s.rx []).map fun (len, tx) => (len, { s with tx })
  else if cmd = cmdGetMac then
    return (bodyReply s.tx s.rx env.mac).map fun (len, tx) => (len, { s with tx })
  else if cmd = cmdSetMac then
    let result : UInt8 :=
      if bufLen ≥ 13 then
        if env.setMac ((s.rx.drop 6).take 6) ≠ 0 then 0 else 1
      else
        0
    return (bodyReply s.tx s.rx [result]).map fun (len, tx) => (len, { s with tx })
  else if cmd = cmdWriteCert then
    handleWriteCert env heap s bufLen
  else if cmd = cmdReadbackCert then
    handleReadbackCert heap s
  else
    return some (0, s)

/-- `ya_handle_uart_data`: the reply that is written, and the buffers. -/
def yaHandleUartData (env : UartEnv) (heap : Heap) (s : UartBufs) (bufLen : Nat) :
    FlashProg (Option (List UInt8 × UartBufs)) :=
  if getChecksum s.rx (bufLen - 1) ≠ s.rx.getD (bufLen - 1) 0 then
    return some ([], s)
  else do
    let reply ← handleCommand env heap s bufLen
    return reply.map fun (len, s) => (s.tx.take len, s)

/-! ## The receive path -/

/-- `MAX_UART_BUFFER_DATA`. -/
def maxUartBufferData : Nat := 1024

/-- `ya_uart_rx_task`: bytes that do not fit are lost. -/
def yaUartRxTask (pending bytes : List UInt8) : List UInt8 :=
  if bytes ≠ [] ∧ pending.length + bytes.length < maxUartBufferData then pending ++ bytes else pending

/-- What comes in during one pass of `ya_uart_app`: the bytes in front of each of the two calls of
`ya_hal_uart_recv`, and whether its semaphore was given in time. -/
structure UartPass where
  heap : Heap
  before : List (List UInt8)
  headerReady : Bool
  between : List (List UInt8)
  bodyReady : Bool

/-- What a pass takes from the line. -/
inductive UartTaken
  | nothing
  | header (bytes : List UInt8)
  | frame (header body : List UInt8)

/-- `ya_hal_uart_recv`, with its semaphore. -/
def recvReady (ready : Bool) (pending : List UInt8) (len : Nat) :
    Option (List UInt8 × List UInt8) :=
  if ready then yaHalUartRecv pending len else none

/-- The two calls of `ya_hal_uart_recv`, and the bytes left for the next pass. -/
def UartPass.take (p : UartPass) (pending : List UInt8) : UartTaken × List UInt8 :=
  let pending := p.before.foldl yaUartRxTask pending
  match recvReady p.headerReady pending uartHeaderWithLen with
  | none => (.nothing, pending)
  | some (header, pending) =>
    if header.getD 0 0 = cmdHeaderHigh ∧ header.getD 1 0 = cmdHeaderLow ∧
        msgLenOf header < uartMaxFrameLen then
      let pending := p.between.foldl yaUartRxTask pending
      match recvReady p.bodyReady pending (msgLenOf header + 1) with
      | none => (.header header, pending)
      | some (body, pending) => (.frame header body, pending)
    else
      (.header header, pending)

/-- The bytes of the line and the buffers. -/
structure UartLine where
  pending : List UInt8
  bufs : UartBufs

/-- The receive half of a pass: the reply, and the state. -/
def uartPass (env : UartEnv) (p : UartPass) (s : UartLine) :
    FlashProg (Option (List UInt8 × UartLine)) :=
  match p.take s.pending with
  | (.nothing, pending) => return some ([], ⟨pending, s.bufs⟩)
  | (.header header, pending) =>
    return (Block.write s.bufs.rx 0 header).map fun rx => ([], ⟨pending, { s.bufs with rx }⟩)
  | (.frame header body, pending) =>
    match (Block.write s.bufs.rx 0 header).bind fun rx => Block.write rx uartHeaderWithLen body with
    | none => return none
    | some rx => do
      let handled ← yaHandleUartData env p.heap { s.bufs with rx } (uartHeaderWithLen + body.length)
      return handled.map fun (reply, bufs) => (reply, ⟨pending, bufs⟩)

/-- Passes one after the other: the replies, and the state. -/
def uartPasses (env : UartEnv) :
    List UartPass → UartLine → FlashProg (Option (List (List UInt8) × UartLine))
  | [], s => return some ([], s)
  | p :: later, s => do
    match ← uartPass env p s with
    | none => return none
    | some (reply, s) =>
      match ← uartPasses env later s with
      | none => return none
      | some (replies, s) => return some (reply :: replies, s)

end Tr6260
