import Tr6260.UartAdapter.Send

/-!
# Frames from the MCU

`get_frame_from_mcu` looks for a frame in the receive buffer of `hal_uart.c`. What was
received stands behind `uart_rx_buffer_tail` and before `uart_rx_buffer_head`, from
position 1 to 3071; the adapter sees only the part in one piece. A build for `HISENSE`
gives the whole buffer up at once instead; it is not modelled.
-/

namespace Tr6260

/-! ## The driver -/

/-- `SOCKET_SEND_MAX_LEN`. -/
def socketSendMaxLen : Nat := 3000

/-- How many received bytes stand in one piece behind the tail. -/
def rxContig (s : HalUart) : Nat :=
  if s.uartRxBufferHead > s.uartRxBufferTail then s.uartRxBufferHead - s.uartRxBufferTail - 1
  else uartBuffLen - s.uartRxBufferTail - 1

/-- `hal_uart_get_rx_len`. -/
def halUartGetRxLen (s : HalUart) : Nat × HalUart :=
  let socketLenth := rxContig s
  (min socketLenth socketSendMaxLen, { s with socketSendLen := min socketLenth socketSendMaxLen })

/-- `hal_uart_get_rx_buff`, as a position in the buffer. -/
def halUartGetRxBuff (s : HalUart) : Nat := s.uartRxBufferTail + 1

/-- `hal_uart_get_rx_data_end`. Its definition has no parameter; callers pass a length. -/
def halUartGetRxDataEnd (_len : Nat) (s : HalUart) : HalUart :=
  let tail := s.uartRxBufferTail + s.socketSendLen
  { s with uartRxBufferTail := if tail = uartBuffLen - 1 then 0 else tail }

/-! ## The adapter -/

/-- `frame_info`. -/
structure FrameInfo where
  findFrameHeadInvalidDataLen : Nat
  frameLen : UInt8

/-- The bytes of a frame around its payload, for `FRAME_HEAD_LEN`, `FRAME_LENGTH_FIELD_LEN`,
`FRAME_CHECKSUM_LEN` and `FRAME_TAIL_LEN`. -/
def frameHeadLen : Nat := 1
def frameLengthFieldLen : Nat := 1
def frameChecksumLen : Nat := 1
def frameTailLen : Nat := 2

/-- `get_frame_len`. -/
def getFrameLen (mem : ByteMem) (buf : Nat) : UInt8 := mem (buf + frameHeadLen)

/-- A head at `p` has a tail where its length says. -/
def FrameAt (mem : ByteMem) (p : Nat) : Prop :=
  mem p = mcuFrameHead ∧
    mem (p + (getFrameLen mem p).toNat + frameHeadLen + frameLengthFieldLen + frameChecksumLen) =
      mcuFrameTail

instance (mem : ByteMem) (p : Nat) : Decidable (FrameAt mem p) := inferInstanceAs (Decidable (_ ∧ _))

/-- The loop of `get_full_frame_from_buf`. -/
def fullFrameLoop (mem : ByteMem) : Nat → Nat → UInt8 → Option (Nat × FrameInfo)
  | 0, _, _ => none
  | availLen + 1, rcvBuf, invalidDataLen =>
    if FrameAt mem rcvBuf then
      some (rcvBuf, ⟨invalidDataLen.toNat, getFrameLen mem rcvBuf⟩)
    else
      fullFrameLoop mem availLen (rcvBuf + 1) (invalidDataLen + 1)

/-- `get_full_frame_from_buf`. -/
def getFullFrameFromBuf (s : HalUart) : Option (Nat × FrameInfo) × HalUart :=
  let (availLen, s) := halUartGetRxLen s
  (fullFrameLoop s.uartRxBuffDma availLen (halUartGetRxBuff s) 0, s)

/-- `is_checksum_valid`. -/
def isChecksumValid (mem : ByteMem) (buf : Nat) (dataLen : UInt8) : Bool :=
  let fields := mem.load (buf + frameHeadLen) (dataLen.toNat + frameLengthFieldLen)
  (mem (buf + dataLen.toNat + frameHeadLen + frameLengthFieldLen)).toNat =
    (fields.map UInt8.toNat).sum % 256

/-- `get_frame_from_mcu`: the value returned, and what is copied to the caller's buffer. -/
def getFrameFromMcu (s : HalUart) : UInt8 × Option (List UInt8) × HalUart :=
  match getFullFrameFromBuf s with
  | (none, s) => (0, none, s)
  | (some (frameHead, info), s) =>
    let used := info.findFrameHeadInvalidDataLen + info.frameLen.toNat + frameHeadLen +
      frameLengthFieldLen + frameTailLen
    if isChecksumValid s.uartRxBuffDma frameHead info.frameLen then
      (1, some (s.uartRxBuffDma.load (frameHead + frameHeadLen)
        (info.frameLen.toNat + frameLengthFieldLen)), halUartGetRxDataEnd used s)
    else
      (0, none, halUartGetRxDataEnd used s)

/-! ## What the buffer holds -/

/-- The positions are the ones the interrupt handler and the driver leave. -/
structure RxValid (s : HalUart) : Prop where
  tail : s.uartRxBufferTail < uartBuffLen - 1
  head_pos : 1 ≤ s.uartRxBufferHead
  head : s.uartRxBufferHead < uartBuffLen

/-- All that was received and not given up. -/
def rxContents (s : HalUart) : List UInt8 :=
  s.uartRxBuffDma.load (s.uartRxBufferTail + 1) (rxContig s) ++
    if s.uartRxBufferHead > s.uartRxBufferTail then []
    else s.uartRxBuffDma.load 1 (s.uartRxBufferHead - 1)

/-- All of it stands in one piece. -/
def RxInOnePiece (s : HalUart) : Prop :=
  s.uartRxBufferTail < s.uartRxBufferHead ∨ s.uartRxBufferHead = 1

/-- What the adapter may look at. -/
def rxAvailable (s : HalUart) : List UInt8 :=
  s.uartRxBuffDma.load (s.uartRxBufferTail + 1) (halUartGetRxLen s).1

/-- A call returns the frame, and leaves what stood behind it. -/
def ReceivedWhole (payload rest : List UInt8) (s : HalUart) : Prop :=
  (getFrameFromMcu s).1 = 1 ∧
    (getFrameFromMcu s).2.1 = some (UInt8.ofNat payload.length :: payload) ∧
    rxContents (getFrameFromMcu s).2.2 = rest

/-- A call returns no frame and gives up at most the first `skipped` bytes. -/
def KeptWaiting (skipped : Nat) (s : HalUart) : Prop :=
  (getFrameFromMcu s).1 = 0 ∧
    ∃ k ≤ skipped, rxContents (getFrameFromMcu s).2.2 = (rxContents s).drop k

/-- Nothing available looks like a frame, be it with bytes that were received earlier. -/
def NoFrameSeen (s : HalUart) : Prop :=
  ∀ i < (rxAvailable s).length, ¬ FrameAt s.uartRxBuffDma (s.uartRxBufferTail + 1 + i)

instance (s : HalUart) : Decidable (NoFrameSeen s) := inferInstanceAs (Decidable (∀ i < _, _))

section Contents

variable {s : HalUart}

/-- Giving up bytes that stand in one piece. -/
theorem rxContents_dataEnd (valid : RxValid s)
    (within : s.socketSendLen ≤ rxContig s) (len : Nat) :
    rxContents (halUartGetRxDataEnd len s) = (rxContents s).drop s.socketSendLen := by
  have size : uartBuffLen = 3072 := rfl
  rcases valid with ⟨tail, first, head⟩
  unfold rxContig at within
  by_cases before : s.uartRxBufferHead > s.uartRxBufferTail
  · rw [if_pos before] at within
    have inside : s.uartRxBufferTail + s.socketSendLen ≠ uartBuffLen - 1 := by omega
    have before' : s.uartRxBufferHead > s.uartRxBufferTail + s.socketSendLen := by omega
    simp only [rxContents, rxContig, halUartGetRxDataEnd, if_neg inside, if_pos before,
      if_pos before', List.append_nil]
    rw [ByteMem.drop_load _ _ within, Nat.add_right_comm]
    congr 1
    omega
  · rw [if_neg before] at within
    have outer : (rxContents s).drop s.socketSendLen =
        s.uartRxBuffDma.load (s.uartRxBufferTail + s.socketSendLen + 1)
          (uartBuffLen - (s.uartRxBufferTail + s.socketSendLen) - 1) ++
          s.uartRxBuffDma.load 1 (s.uartRxBufferHead - 1) := by
      simp only [rxContents, rxContig, if_neg before]
      rw [List.drop_append_of_le_length (by rwa [ByteMem.length_load]), ByteMem.drop_load _ _ within,
        Nat.add_right_comm]
      congr 2
      omega
    rw [outer]
    by_cases atEnd : s.uartRxBufferTail + s.socketSendLen = uartBuffLen - 1
    · have wrapped : s.uartRxBufferHead > 0 := first
      simp only [rxContents, rxContig, halUartGetRxDataEnd, if_pos atEnd, if_pos wrapped]
      rw [atEnd, List.append_nil]
      rfl
    · have behind : ¬ s.uartRxBufferHead > s.uartRxBufferTail + s.socketSendLen := by omega
      simp only [rxContents, rxContig, halUartGetRxDataEnd, if_neg atEnd, if_neg behind]

/-- What a call with a frame in sight gives up. -/
theorem rxContents_taken (valid : RxValid s) (len : Nat) :
    rxContents (halUartGetRxDataEnd len (halUartGetRxLen s).2) =
      (rxContents s).drop (min (rxContig s) socketSendMaxLen) :=
  rxContents_dataEnd (s := (halUartGetRxLen s).2) ⟨valid.tail, valid.head_pos, valid.head⟩
    (Nat.min_le_left ..) len

theorem rxContents_of_onePiece (piece : RxInOnePiece s) :
    rxContents s = s.uartRxBuffDma.load (s.uartRxBufferTail + 1) (rxContig s) := by
  rcases piece with before | start
  · rw [rxContents, if_pos before, List.append_nil]
  · rw [rxContents, start]
    split <;> exact List.append_nil _

theorem length_rxAvailable : (rxAvailable s).length = min (rxContig s) socketSendMaxLen := by
  rw [rxAvailable, ByteMem.length_load]
  rfl

end Contents

/-! ## The search -/

section Search

variable {mem : ByteMem} {p n k availLen : Nat} {skipped : UInt8}

theorem fullFrameLoop_skip (none_ : ∀ i < n, ¬ FrameAt mem (p + i)) :
    fullFrameLoop mem (n + k) p skipped = fullFrameLoop mem k (p + n) (skipped + UInt8.ofNat n) := by
  induction n generalizing p skipped with
  | zero => simp
  | succ n ih =>
    have here : ¬ FrameAt mem p := none_ 0 (by omega)
    have later : ∀ i < n, ¬ FrameAt mem (p + 1 + i) := by
      intro i low
      have next := none_ (i + 1) (by omega)
      rwa [Nat.add_comm i 1, ← Nat.add_assoc] at next
    have count : skipped + 1 + UInt8.ofNat n = skipped + UInt8.ofNat (n + 1) := by
      rw [Nat.add_comm n 1, UInt8.ofNat_add, UInt8.add_assoc]
      rfl
    rw [show n + 1 + k = (n + k) + 1 by omega, fullFrameLoop, if_neg here, ih later, count,
      Nat.add_assoc, Nat.add_comm 1 n]

theorem fullFrameLoop_none (none_ : ∀ i < availLen, ¬ FrameAt mem (p + i)) :
    fullFrameLoop mem availLen p skipped = none := by
  have skip : fullFrameLoop mem (availLen + 0) p skipped = _ := fullFrameLoop_skip none_
  rw [Nat.add_zero] at skip
  rw [skip]
  rfl

theorem fullFrameLoop_some (seen : ∃ i < availLen, FrameAt mem (p + i)) :
    ∃ found, fullFrameLoop mem availLen p skipped = some found := by
  induction availLen generalizing p skipped with
  | zero =>
    rcases seen with ⟨i, low, -⟩
    cases low
  | succ availLen ih =>
    rw [fullFrameLoop]
    by_cases here : FrameAt mem p
    · exact ⟨_, if_pos here⟩
    · rw [if_neg here]
      apply ih
      rcases seen with ⟨i, low, frame⟩
      cases i with
      | zero => exact absurd frame here
      | succ i =>
        refine ⟨i, by omega, ?_⟩
        rwa [Nat.add_assoc, Nat.add_comm 1 i]

end Search

/-! ## A frame in memory -/

section Frame

variable {mem : ByteMem} {p : Nat} {payload : List UInt8}

/-- What the adapter reads off a frame. -/
theorem holds_mcuFrame (held : mem.Holds p (mcuFrame payload)) (short : payload.length ≤ 255) :
    FrameAt mem p ∧ getFrameLen mem p = UInt8.ofNat payload.length ∧
      isChecksumValid mem p (UInt8.ofNat payload.length) = true ∧
      mem.load (p + frameHeadLen) (payload.length + frameLengthFieldLen) =
        UInt8.ofNat payload.length :: payload := by
  have count : (UInt8.ofNat payload.length).toNat = payload.length := by
    rw [UInt8.toNat_ofNat']
    omega
  have shape : mcuFrame payload = mcuFrameHead :: ((UInt8.ofNat payload.length :: payload) ++
      [mcuChecksum payload (UInt8.ofNat payload.length), mcuFrameTail]) := by
    simp [mcuFrame]
  rw [shape, ByteMem.holds_cons, ByteMem.holds_append, List.length_cons] at held
  rcases held with ⟨head, body, ends⟩
  rw [ByteMem.holds_cons, ByteMem.holds_cons] at ends
  rcases ends with ⟨check, tail, -⟩
  have len : getFrameLen mem p = UInt8.ofNat payload.length := (ByteMem.holds_cons.mp body).1
  refine ⟨⟨head, ?_⟩, len, ?_, body.load⟩
  · rw [len, count, ← tail]
    congr 1
    simp only [frameHeadLen, frameLengthFieldLen, frameChecksumLen]
    omega
  · have fields : mem.load (p + frameHeadLen) (payload.length + frameLengthFieldLen) = _ := body.load
    simp only [isChecksumValid, count, fields, decide_eq_true_eq]
    rw [show p + payload.length + frameHeadLen + frameLengthFieldLen = p + 1 + (payload.length + 1) by
      simp only [frameHeadLen, frameLengthFieldLen]; omega, check, mcuChecksum, UInt8.toNat_ofNat',
      List.map_cons, List.sum_cons, count, Nat.add_comm]

end Frame

/-! ## One call -/

section Receive

variable {s : HalUart} {g payload rest seen : List UInt8}

/-- Bytes without a head, standing behind the tail, hide no frame. -/
theorem no_frame_in (held : s.uartRxBuffDma.Holds (s.uartRxBufferTail + 1) g)
    (plain : mcuFrameHead ∉ g) : ∀ i < g.length,
      ¬ FrameAt s.uartRxBuffDma (s.uartRxBufferTail + 1 + i) := by
  intro i inside frame
  have byte := held.apply inside
  rw [frame.1, List.getD_eq_getElem _ _ inside] at byte
  exact plain (byte ▸ List.getElem_mem inside)

/-- A frame that begins within what is available is returned, and everything available is
given up with it. -/
theorem getFrameFromMcu_found (valid : RxValid s) (piece : RxInOnePiece s)
    (short : payload.length ≤ 255) (plain : mcuFrameHead ∉ g)
    (contents : rxContents s = g ++ mcuFrame payload ++ rest)
    (begins : g.length < min (rxContig s) socketSendMaxLen) :
    (getFrameFromMcu s).1 = 1 ∧
      (getFrameFromMcu s).2.1 = some (UInt8.ofNat payload.length :: payload) ∧
      rxContents (getFrameFromMcu s).2.2 =
        (g ++ mcuFrame payload ++ rest).drop (min (rxContig s) socketSendMaxLen) := by
  have whole := rxContents_of_onePiece piece
  have held : s.uartRxBuffDma.Holds (s.uartRxBufferTail + 1) (g ++ mcuFrame payload ++ rest) := by
    rw [← contents, whole]
    exact ByteMem.holds_load ..
  rw [ByteMem.holds_append, ByteMem.holds_append] at held
  rcases holds_mcuFrame held.1.2 short with ⟨frame, len, check, fields⟩
  have count : (UInt8.ofNat payload.length).toNat = payload.length := by
    rw [UInt8.toNat_ofNat']
    omega
  rcases Nat.exists_eq_add_of_lt begins with ⟨k, avail⟩
  have found : fullFrameLoop s.uartRxBuffDma (min (rxContig s) socketSendMaxLen)
      (s.uartRxBufferTail + 1) 0 = some (s.uartRxBufferTail + 1 + g.length,
        ⟨(0 + UInt8.ofNat g.length : UInt8).toNat, UInt8.ofNat payload.length⟩) := by
    rw [avail, Nat.add_assoc, fullFrameLoop_skip (no_frame_in held.1.1 plain), fullFrameLoop,
      if_pos frame, len]
  have result : getFullFrameFromBuf s = (some (s.uartRxBufferTail + 1 + g.length,
      ⟨(0 + UInt8.ofNat g.length : UInt8).toNat, UInt8.ofNat payload.length⟩),
      (halUartGetRxLen s).2) := by
    rw [← found]
    rfl
  have check' : isChecksumValid (halUartGetRxLen s).2.uartRxBuffDma
      (s.uartRxBufferTail + 1 + g.length) (UInt8.ofNat payload.length) = true := check
  simp only [getFrameFromMcu, result, if_pos check']
  refine ⟨trivial, ?_, ?_⟩
  · simp only [count]
    exact congrArg some fields
  · rw [rxContents_taken valid, contents]

/-- Nothing found: nothing is given up. -/
theorem getFrameFromMcu_none (unseen : NoFrameSeen s) :
    (getFrameFromMcu s).1 = 0 ∧ rxContents (getFrameFromMcu s).2.2 = rxContents s := by
  rw [NoFrameSeen, length_rxAvailable] at unseen
  have none_ : fullFrameLoop s.uartRxBuffDma (min (rxContig s) socketSendMaxLen)
      (s.uartRxBufferTail + 1) 0 = none := fullFrameLoop_none unseen
  have result : getFullFrameFromBuf s = (none, (halUartGetRxLen s).2) := by
    rw [← none_]
    rfl
  simp only [getFrameFromMcu, result]
  exact ⟨trivial, rfl⟩

/-- Something found: a frame is returned, or everything available is given up. -/
theorem getFrameFromMcu_seen (valid : RxValid s) (frame : ¬ NoFrameSeen s) :
    (getFrameFromMcu s).1 = 1 ∨
      rxContents (getFrameFromMcu s).2.2 = (rxContents s).drop (rxAvailable s).length := by
  have frame' : ∃ i < min (rxContig s) socketSendMaxLen,
      FrameAt s.uartRxBuffDma (s.uartRxBufferTail + 1 + i) := by
    rw [NoFrameSeen, length_rxAvailable] at frame
    push Not at frame
    exact frame
  have some_ : ∃ found, fullFrameLoop s.uartRxBuffDma (min (rxContig s) socketSendMaxLen)
      (s.uartRxBufferTail + 1) 0 = some found := fullFrameLoop_some frame'
  rcases some_ with ⟨⟨at_, info⟩, found⟩
  have result : getFullFrameFromBuf s = (some (at_, info), (halUartGetRxLen s).2) := by
    rw [← found]
    rfl
  simp only [getFrameFromMcu, result]
  split
  next => exact .inl rfl
  next =>
    right
    rw [rxContents_taken valid, length_rxAvailable]

/-- A frame in one piece is received whole exactly when what the call gives up ends with it. -/
theorem receivedWhole_iff (valid : RxValid s) (piece : RxInOnePiece s)
    (short : payload.length ≤ 255) (plain : mcuFrameHead ∉ g)
    (contents : rxContents s = g ++ mcuFrame payload ++ rest) :
    ReceivedWhole payload rest s ↔
      (g ++ mcuFrame payload).length =
        min (g ++ mcuFrame payload ++ rest).length socketSendMaxLen := by
  have size : (g ++ mcuFrame payload).length = g.length + (payload.length + 4) := by
    rw [List.length_append, length_mcuFrame]
  have total : (g ++ mcuFrame payload ++ rest).length = rxContig s := by
    rw [← contents, rxContents_of_onePiece piece, ByteMem.length_load]
  rw [total]
  rw [List.length_append] at total
  by_cases begins : g.length < min (rxContig s) socketSendMaxLen
  · rcases getFrameFromMcu_found valid piece short plain contents begins with ⟨one, copied, left⟩
    constructor
    · rintro ⟨-, -, same⟩
      rw [left] at same
      have lengths := congrArg List.length same
      rw [List.length_drop, List.length_append] at lengths
      omega
    · intro exact_
      refine ⟨one, copied, ?_⟩
      rw [left, ← exact_, List.drop_left]
  · -- only the skipped bytes are available
    have held : s.uartRxBuffDma.Holds (s.uartRxBufferTail + 1) (g ++ mcuFrame payload ++ rest) := by
      rw [← contents, rxContents_of_onePiece piece]
      exact ByteMem.holds_load ..
    rw [ByteMem.holds_append, ByteMem.holds_append] at held
    have unseen : NoFrameSeen s := by
      intro i inside
      rw [length_rxAvailable] at inside
      exact no_frame_in held.1.1 plain i (by omega)
    constructor
    · rintro ⟨one, -, -⟩
      rw [(getFrameFromMcu_none unseen).1] at one
      exact absurd one (by decide)
    · intro exact_
      omega

/-- While a frame is not complete, a call leaves it exactly when nothing looks like a frame. -/
theorem keptWaiting_iff (valid : RxValid s) (plain : mcuFrameHead ∉ g)
    (available : rxAvailable s = g ++ seen) :
    KeptWaiting g.length s ↔ NoFrameSeen s := by
  constructor
  · rintro ⟨zero, k, few, left⟩
    by_contra frame
    have taken := (getFrameFromMcu_seen valid frame).resolve_left
      (fun one => absurd (zero.symm.trans one) (by decide))
    rw [left] at taken
    have lengths := congrArg List.length taken
    have most : (rxAvailable s).length ≤ (rxContents s).length := by
      rw [length_rxAvailable, rxContents, List.length_append, ByteMem.length_load]
      omega
    rw [List.length_drop, List.length_drop] at lengths
    have count : (rxAvailable s).length = g.length + seen.length := by
      rw [available, List.length_append]
    -- the frame begins behind the skipped bytes, and all of it was given up
    apply frame
    intro i inside
    have held : s.uartRxBuffDma.Holds (s.uartRxBufferTail + 1) g := by
      have whole : s.uartRxBuffDma.Holds (s.uartRxBufferTail + 1) (g ++ seen) := by
        rw [← available]
        exact ByteMem.holds_load ..
      exact (ByteMem.holds_append.mp whole).1
    exact no_frame_in held plain i (by omega)
  · intro unseen
    rcases getFrameFromMcu_none unseen with ⟨zero, left⟩
    exact ⟨zero, 0, Nat.zero_le _, left⟩

end Receive

/-- Frames are received whole and one at a time exactly when what a call gives up, which is all
it may look at, ends with the frame; and one that is still coming in is left alone exactly when
nothing in the memory at hand looks like a frame. -/
theorem getFrameFromMcu_whole_iff {s : HalUart} {g : List UInt8} (valid : RxValid s)
    (plain : mcuFrameHead ∉ g) :
    (∀ payload rest : List UInt8, RxInOnePiece s → 2 ≤ payload.length → payload.length ≤ 255 →
      rxContents s = g ++ mcuFrame payload ++ rest →
      (ReceivedWhole payload rest s ↔
        (g ++ mcuFrame payload).length =
          min (g ++ mcuFrame payload ++ rest).length socketSendMaxLen)) ∧
    ∀ seen : List UInt8, rxAvailable s = g ++ seen → (KeptWaiting g.length s ↔ NoFrameSeen s) :=
  ⟨fun _ _ piece _ short contents => receivedWhole_iff valid piece short plain contents,
    fun _ available => keptWaiting_iff valid plain available⟩

/-- A buffer whose memory shows these bytes from position 1 on, received up to `head`. -/
def rxSample (bytes : List UInt8) (head : Nat) : HalUart :=
  { halUartStart with
    uartRxBuffDma := fun a => (0 :: bytes).getD a 0
    uartRxBufferHead := head }

theorem rxSample_valid (bytes : List UInt8) {head : Nat} (first : 1 ≤ head) (low : head < uartBuffLen) :
    RxValid (rxSample bytes head) ∧ RxInOnePiece (rxSample bytes head) :=
  ⟨⟨Nat.zero_lt_succ _, first, low⟩, .inl first⟩

/-- A frame alone is received, and one of which three bytes came in waits. -/
theorem getFrameFromMcu_whole_alone :
    ReceivedWhole [1, 2] [] (rxSample [7, 0xAA, 2, 1, 2, 5, 0x55] 8) ∧
      KeptWaiting 1 (rxSample [7, 0xAA, 2, 1] 5) :=
  ⟨((getFrameFromMcu_whole_iff (g := [7]) (rxSample_valid _ (by decide) (by decide)).1
      (by decide)).1 [1, 2] [] (rxSample_valid _ (by decide) (by decide)).2 (by decide) (by decide)
      (by decide)).mpr (by decide),
    ((getFrameFromMcu_whole_iff (g := [7]) (rxSample_valid _ (by decide) (by decide)).1
      (by decide)).2 [0xAA, 2, 1] (by decide)).mpr (by decide)⟩

/-- A byte behind the frame is given up with it; and a frame of which three bytes came in is taken
as complete when the memory behind them still shows the end of an earlier one. -/
theorem getFrameFromMcu_broken :
    ¬ ReceivedWhole [1, 2] [0xAA] (rxSample [0xAA, 2, 1, 2, 5, 0x55, 0xAA] 8) ∧
      ¬ KeptWaiting 0 (rxSample [0xAA, 2, 1, 2, 5, 0x55] 4) := by
  constructor
  · rintro ⟨-, -, left⟩
    exact absurd left (by decide)
  · rintro ⟨zero, -⟩
    exact absurd zero (by decide)

end Tr6260
