import Tr6260.Timer.Clock

/-!
# Frames of the serial line

`ya_uart_app.c`: a frame is `55 AA`, a version, a command, the length of the data in two bytes,
high byte first, the data, and the sum of everything before it. `uartFrame` is that frame, and the
receive path takes it (`uartFrame_received`).

`ya_handle_uart_body_send_to_queue`, which builds the frames the module sends of its own accord,
leaves the last byte out: it computes a sum over one byte too few, puts it behind the data, and
hands the length without it to the queue.
-/

namespace Tr6260

/-- `UART_MAX_FRAME_LEN`. -/
def uartMaxFrameLen : Nat := 540

/-- `UART_HEADER_WITH_LEN`. -/
def uartHeaderWithLen : Nat := 6

/-- `CMD_HEADER_HIGH`. -/
def cmdHeaderHigh : UInt8 := 0x55

/-- `CMD_HEADER_LOW`. -/
def cmdHeaderLow : UInt8 := 0xAA

/-- `get_checksum`. -/
def getChecksum (buf : List UInt8) (len : Nat) : UInt8 :=
  UInt8.ofNat ((buf.take len).foldl (fun sum b => (sum + b.toNat) % 2 ^ 32) 0 % 256)

/-- The six bytes in front of the data. -/
def frameHeader (cmd : UInt8) (len : Nat) : List UInt8 :=
  [cmdHeaderHigh, cmdHeaderLow, 0x00, cmd, UInt8.ofNat (len / 256), UInt8.ofNat len]

/-! ## Sending -/

/-- What the sender of a message waits for. -/
inductive UartMsgType
  | withoutReply
  | withReply
  deriving DecidableEq

/-- A message for the loop, with the block it owns. -/
structure UartMsg where
  type : UartMsgType
  data : List UInt8
  deriving DecidableEq

/-- `ya_handle_uart_msg_send_to_queue`: result and queue. The block is cleared without a look at
whether there is one. -/
def yaHandleUartMsgSendToQueue (board : Board) (queue : List UartMsg) (data : List UInt8)
    (replyFlag : UInt8) : Option (Int × List UartMsg) :=
  match board.memoryAlloc data.length with
  | none => none
  | some _ =>
    if queue.length < msgQueueLength then
      some (0, queue ++ [⟨if replyFlag = 0 then .withoutReply else .withReply, data⟩])
    else
      some (-1, queue)

/-- `ya_handle_uart_body_send_to_queue`. -/
def yaHandleUartBodySendToQueue (heap : Heap) (queue : List UartMsg) (cmd : UInt8)
    (data : List UInt8) : Option (Int × List UartMsg) :=
  match (heap 0).memoryAlloc (data.length + uartHeaderWithLen + 1) with
  | none => some (-1, queue)
  | some _ =>
    let pos := uartHeaderWithLen + data.length
    let buf := frameHeader cmd data.length ++ data
    let buf := buf ++ [getChecksum buf (pos - 1)]
    -- `pos++` passes the length before the increment
    yaHandleUartMsgSendToQueue (heap 1) queue (buf.take pos) 0

/-! ## Receiving -/

/-- `ya_hal_uart_recv` on the bytes that have come in: all `len` of them or none. -/
def yaHalUartRecv (stream : List UInt8) (len : Nat) : Option (List UInt8 × List UInt8) :=
  if len = 0 then
    none
  else if stream.length ≥ len then
    some (stream.take len, stream.drop len)
  else
    none

/-- `msg_len`. -/
def msgLenOf (header : List UInt8) : Nat :=
  ((header.getD 4 0).toNat <<< 8) % 2 ^ 16 + (header.getD 5 0).toNat

/-- The receive path of `ya_uart_app`: the frame handed to `ya_handle_uart_data`, and the bytes
behind it. -/
def receiveFrame (stream : List UInt8) : Option (List UInt8 × List UInt8) := do
  let (header, rest) ← yaHalUartRecv stream uartHeaderWithLen
  if header.getD 0 0 = cmdHeaderHigh ∧ header.getD 1 0 = cmdHeaderLow then
    if msgLenOf header < uartMaxFrameLen then
      let (body, rest) ← yaHalUartRecv rest (msgLenOf header + 1)
      return (header ++ body, rest)
    else
      none
  else
    none

/-- The checksum test of `ya_handle_uart_data`. -/
def checksumOk (buf : List UInt8) : Bool :=
  getChecksum buf (buf.length - 1) = buf.getD (buf.length - 1) 0

/-! ## The protocol -/

/-- The frame of a command and its data. -/
def uartFrame (cmd : UInt8) (data : List UInt8) : List UInt8 :=
  frameHeader cmd data.length ++ data ++ [(frameHeader cmd data.length ++ data).foldl (· + ·) 0]

/-- What the other side has to find: the frame, taken whole by the receive path and by its
checksum test. -/
structure CompleteFrame (cmd : UInt8) (data msg : List UInt8) : Prop where
  layout : msg = uartFrame cmd data
  received : receiveFrame msg = some (msg, [])
  accepted : checksumOk msg = true

theorem foldl_add_ofNat (bytes : List UInt8) (n : Nat) :
    UInt8.ofNat (bytes.foldl (fun sum b => (sum + b.toNat) % 2 ^ 32) n % 256) =
      bytes.foldl (· + ·) (UInt8.ofNat n) := by
  induction bytes generalizing n with
  | nil =>
    apply UInt8.toNat_inj.mp
    simp [UInt8.toNat_ofNat']
  | cons b rest ih =>
    have step : UInt8.ofNat ((n + b.toNat) % 2 ^ 32) = UInt8.ofNat n + b := by
      apply UInt8.toNat_inj.mp
      have bound := b.toNat_lt
      simp only [UInt8.toNat_ofNat', UInt8.toNat_add]
      omega
    rw [List.foldl_cons, List.foldl_cons, ih, step]

theorem getChecksum_eq (buf : List UInt8) (len : Nat) :
    getChecksum buf len = (buf.take len).foldl (· + ·) 0 :=
  foldl_add_ofNat _ 0

/-- Bytes with their sum behind them pass the test. -/
theorem checksumOk_sum (bytes : List UInt8) :
    checksumOk (bytes ++ [bytes.foldl (· + ·) 0]) = true := by
  have front : (bytes ++ [bytes.foldl (· + ·) 0]).take bytes.length = bytes := List.take_left
  have last : (bytes ++ [bytes.foldl (· + ·) 0]).getD bytes.length 0 = bytes.foldl (· + ·) 0 := by
    rw [List.getD_eq_getElem?_getD, List.getElem?_append_right (Nat.le_refl _), Nat.sub_self]
    rfl
  rw [checksumOk, List.length_append, List.length_singleton, Nat.add_sub_cancel, getChecksum_eq,
    front, last]
  exact decide_eq_true rfl

@[simp] theorem length_frameHeader (cmd : UInt8) (len : Nat) :
    (frameHeader cmd len).length = uartHeaderWithLen := rfl

theorem length_uartFrame (cmd : UInt8) (data : List UInt8) :
    (uartFrame cmd data).length = uartHeaderWithLen + data.length + 1 := by
  simp only [uartFrame, List.length_append, length_frameHeader, List.length_singleton]

theorem msgLenOf_frameHeader (cmd : UInt8) {len : Nat} (short : len < 2 ^ 16) (rest : List UInt8) :
    msgLenOf (frameHeader cmd len ++ rest) = len := by
  simp only [msgLenOf, frameHeader, List.cons_append, List.getD_cons_succ, List.getD_cons_zero,
    UInt8.toNat_ofNat', Nat.shiftLeft_eq]
  omega

/-- The receive path behind a header of this protocol. -/
theorem receiveFrame_header (cmd : UInt8) {len : Nat} (short : len < uartMaxFrameLen)
    (rest : List UInt8) :
    receiveFrame (frameHeader cmd len ++ rest) =
      (yaHalUartRecv rest (len + 1)).map fun (body, rest) => (frameHeader cmd len ++ body, rest) := by
  have long : (frameHeader cmd len ++ rest).length ≥ uartHeaderWithLen := by simp
  have msgLen : msgLenOf (frameHeader cmd len) = len := by
    have := msgLenOf_frameHeader cmd (Nat.lt_trans short (by decide)) []
    rwa [List.append_nil] at this
  have first : yaHalUartRecv (frameHeader cmd len ++ rest) uartHeaderWithLen =
      some (frameHeader cmd len, rest) := by
    rw [yaHalUartRecv, if_neg (by decide), if_pos long]
    rfl
  simp only [receiveFrame, first, Option.bind_eq_bind, Option.bind_some, msgLen, if_pos short]
  rw [if_pos ⟨rfl, rfl⟩]
  cases yaHalUartRecv rest (len + 1) <;> rfl

/-- The protocol is one the receiver speaks: a frame of less than `UART_MAX_FRAME_LEN` data bytes
is taken whole. -/
theorem uartFrame_complete (cmd : UInt8) {data : List UInt8} (short : data.length < uartMaxFrameLen) :
    CompleteFrame cmd data (uartFrame cmd data) := by
  refine ⟨rfl, ?_, ?_⟩
  · have body : yaHalUartRecv (data ++ [(frameHeader cmd data.length ++ data).foldl (· + ·) 0])
        (data.length + 1) =
        some (data ++ [(frameHeader cmd data.length ++ data).foldl (· + ·) 0], []) := by
      rw [yaHalUartRecv, if_neg (by omega), if_pos (by simp), List.take_of_length_le (by simp),
        List.drop_of_length_le (by simp)]
    rw [uartFrame, List.append_assoc, receiveFrame_header cmd short, body]
    rfl
  · exact checksumOk_sum _

/-! ## What is queued -/

/-- The header and the data, and nothing behind them. -/
theorem yaHandleUartBodySendToQueue_queued {heap : Heap} (alloc : heap.AllocOk)
    {queue : List UartMsg} (room : queue.length < msgQueueLength) (cmd : UInt8)
    (data : List UInt8) :
    yaHandleUartBodySendToQueue heap queue cmd data =
      some (0, queue ++ [⟨.withoutReply, frameHeader cmd data.length ++ data⟩]) := by
  have front : (frameHeader cmd data.length ++ data ++
      [getChecksum (frameHeader cmd data.length ++ data) (uartHeaderWithLen + data.length - 1)]).take
        (uartHeaderWithLen + data.length) = frameHeader cmd data.length ++ data :=
    List.take_left' (by simp)
  obtain ⟨block, found, -⟩ := (alloc 0).block (data.length + uartHeaderWithLen + 1)
  obtain ⟨block', found', -⟩ := (alloc 1).block (frameHeader cmd data.length ++ data).length
  rw [yaHandleUartBodySendToQueue, found]
  dsimp only
  rw [front, yaHandleUartMsgSendToQueue, found']
  dsimp only
  rw [if_pos room, if_pos rfl]

/-- No message that is queued is a frame: it is one byte short, and the receive path waits for more
than there is. -/
theorem uartBody_never_complete {heap : Heap} (alloc : heap.AllocOk) {queue : List UartMsg}
    (room : queue.length < msgQueueLength) (cmd : UInt8) {data : List UInt8}
    (short : data.length < uartMaxFrameLen - 7) :
    ∃ msg, yaHandleUartBodySendToQueue heap queue cmd data = some (0, queue ++ [msg]) ∧
      msg.data ≠ uartFrame cmd data ∧ receiveFrame msg.data = none ∧
      ¬ CompleteFrame cmd data msg.data := by
  have stuck : receiveFrame (frameHeader cmd data.length ++ data) = none := by
    rw [receiveFrame_header cmd (Nat.lt_of_lt_of_le short (Nat.sub_le _ _)), yaHalUartRecv,
      if_neg (by omega), if_neg (by omega)]
    rfl
  have short : frameHeader cmd data.length ++ data ≠ uartFrame cmd data := by
    intro same
    have lens := congrArg List.length same
    rw [length_uartFrame, List.length_append, length_frameHeader] at lens
    omega
  exact ⟨_, yaHandleUartBodySendToQueue_queued alloc room cmd data, short, stuck,
    fun complete => short complete.layout⟩

theorem uartBody_netStatus_short : ∃ msg,
    yaHandleUartBodySendToQueue (fun _ => Board.zeroed) [] 0x02 [0x01] = some (0, [] ++ [msg]) ∧
      msg.data ≠ uartFrame 0x02 [0x01] ∧ receiveFrame msg.data = none ∧
      ¬ CompleteFrame 0x02 [0x01] msg.data :=
  uartBody_never_complete (fun _ => Board.zeroed_allocOk) (by decide) 0x02 (by decide)

/-- The frame `55 AA 00 02 00 01 01 03` goes out as `55 AA 00 02 00 01 01`. -/
theorem uartBody_netStatus_not_complete :
    yaHandleUartBodySendToQueue (fun _ => Board.zeroed) [] 0x02 [0x01] =
        some (0, [⟨.withoutReply, [0x55, 0xAA, 0, 2, 0, 1, 1]⟩]) ∧
      uartFrame 0x02 [0x01] = [0x55, 0xAA, 0, 2, 0, 1, 1, 3] ∧
      ¬ CompleteFrame 0x02 [0x01] [0x55, 0xAA, 0, 2, 0, 1, 1] := by
  refine ⟨by decide, by decide, fun complete => ?_⟩
  have := complete.layout
  revert this
  decide

end Tr6260
