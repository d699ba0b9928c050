import Tr6260.ByteMem

/-!
# Frames to the MCU

`uart_adapter.c` puts a frame byte by byte into the transmit buffer of `hal_uart.c`
and then has it written to the UART. Position 0 of the buffer is not used: what waits
to be sent stands behind `uart_tx_buffer_tail` and before `uart_tx_buffer_head`, and a
head that reaches the end of the buffer goes back to position 1.

`uart_data_write` is a function of the boot ROM: what it puts on the line for the bytes of a
buffer is a parameter here, and its callers rely on its putting those bytes there.
-/

namespace Tr6260

/-! ## The driver -/

/-- `uart_tx_buff_len`, which is also `uart_rx_buff_len`. -/
def uartBuffLen : Nat := 3072

/-- The variables of `hal_uart.c` the adapter works on, and the bytes put on the line so far. -/
structure HalUart where
  uartRxBuffDma : ByteMem
  uartTxBuffDma : ByteMem
  uartRxTransLen : Nat
  uartRxBufferHead : Nat
  uartRxBufferTail : Nat
  uartTxBufferHead : Nat
  uartTxBufferTail : Nat
  socketSendLen : Nat
  uartTxLen : Nat
  written : List UInt8

/-- `hal_uart_tx_buff_reset`. -/
def halUartTxBuffReset (s : HalUart) : HalUart :=
  { s with uartTxBufferHead := 1, uartTxBufferTail := 0 }

/-- A head at the end of the buffer goes back to its start. -/
def wrapTxHead (s : HalUart) : HalUart :=
  if s.uartTxBufferHead = uartBuffLen ∧ s.uartTxBufferTail ≠ 0 then
    { s with uartTxBufferHead := 1 }
  else s

/-- `hal_uart_get_txbuff_avail_len`. -/
def halUartGetTxbuffAvailLen (s : HalUart) : Nat × HalUart :=
  let s := wrapTxHead s
  let avilLenth :=
    if s.uartTxBufferHead > s.uartTxBufferTail then uartBuffLen - s.uartTxBufferHead
    else s.uartTxBufferTail - s.uartTxBufferHead
  (min avilLenth s.uartRxTransLen, s)

/-- `hal_uart_rec_end`. -/
def halUartRecEnd (len : Nat) (s : HalUart) : HalUart :=
  wrapTxHead { s with uartTxBufferHead := s.uartTxBufferHead + len }

section Write

variable (uartDataWrite : List UInt8 → List UInt8)

/-- `hal_uart_write`. -/
def halUartWrite (buf : List UInt8) (s : HalUart) : HalUart :=
  { s with written := s.written ++ uartDataWrite buf }

/-- `hal_uart_write_data`. -/
def halUartWriteData (s : HalUart) : HalUart :=
  let len :=
    if s.uartTxBufferHead > s.uartTxBufferTail then s.uartTxBufferHead - s.uartTxBufferTail - 1
    else uartBuffLen - s.uartTxBufferTail - 1
  let s := halUartWrite uartDataWrite (s.uartTxBuffDma.load (s.uartTxBufferTail + 1) len) s
  let tail := s.uartTxBufferTail + len
  { s with
    uartTxLen := len
    uartTxBufferTail := if tail = uartBuffLen - 1 then 0 else tail }

end Write

/-! ## The adapter -/

/-- `FRAME_HEAD`. -/
def mcuFrameHead : UInt8 := 0xAA

/-- `FRAME_TAIL`. -/
def mcuFrameTail : UInt8 := 0x55

/-- `FRAME_MIN_LEN`. -/
def frameMinLen : UInt8 := 2

/-- `filling_data_to_uart_buf` at `hal_uart_get_tx_buff`. -/
def fillingDataToUartBuf (data : UInt8) (dataLen : Nat) (s : HalUart) : HalUart :=
  halUartRecEnd dataLen
    { s with uartTxBuffDma := s.uartTxBuffDma.store s.uartTxBufferHead [data] }

/-- One byte, when there is room. -/
def fillingByteToUartBuf (data : UInt8) (s : HalUart) : UInt8 × HalUart :=
  let (availLen, s) := halUartGetTxbuffAvailLen s
  if availLen = 0 then (0, s) else (1, fillingDataToUartBuf data 1 s)

/-- `filling_frame_head_to_uart_buf`. -/
def fillingFrameHeadToUartBuf : HalUart → UInt8 × HalUart := fillingByteToUartBuf mcuFrameHead

/-- `filling_frame_len_to_uart_buf`. -/
def fillingFrameLenToUartBuf (len : UInt8) : HalUart → UInt8 × HalUart := fillingByteToUartBuf len

/-- A caller returns 0 when a step did, and goes on otherwise. -/
def unlessZero (step : UInt8 × HalUart) (next : HalUart → UInt8 × HalUart) : UInt8 × HalUart :=
  if step.1 = 0 then (0, step.2) else next step.2

@[simp] theorem unlessZero_one (s : HalUart) (next : HalUart → UInt8 × HalUart) :
    unlessZero (1, s) next = next s := rfl

@[simp] theorem unlessZero_zero (s : HalUart) (next : HalUart → UInt8 × HalUart) :
    unlessZero (0, s) next = (0, s) := rfl

/-- `filling_user_data_to_uart_buf`: the bytes from `buf[1]` on. -/
def fillingUserDataToUartBuf : List UInt8 → HalUart → UInt8 × HalUart
  | [], s => (1, s)
  | b :: bs, s => unlessZero (fillingByteToUartBuf b s) (fillingUserDataToUartBuf bs)

/-- The sum of length and payload, modulo 256. -/
def mcuChecksum (payload : List UInt8) (len : UInt8) : UInt8 :=
  UInt8.ofNat ((payload.map UInt8.toNat).sum + len.toNat)

/-- `filling_checksum_to_uart_buf`. -/
def fillingChecksumToUartBuf (payload : List UInt8) (len : UInt8) : HalUart → UInt8 × HalUart :=
  fillingByteToUartBuf (mcuChecksum payload len)

/-- `filling_frame_tail_to_uart_buf`. -/
def fillingFrameTailToUartBuf : HalUart → UInt8 × HalUart := fillingByteToUartBuf mcuFrameTail

/-- `send_frame_to_mcu`, through a handle that is open. `buf` is the caller's memory, if the
pointer is not `NULL`. -/
def sendFrameToMcu (uartDataWrite : List UInt8 → List UInt8) (buf : Option ByteMem)
    (len : UInt8) (s : HalUart) : UInt8 × HalUart :=
  match buf with
  | none => (0, s)
  | some buf =>
    if len < frameMinLen then
      (0, s)
    else
      let payload := buf.load 1 len.toNat
      unlessZero (fillingFrameHeadToUartBuf s) fun s =>
        unlessZero (fillingFrameLenToUartBuf len s) fun s =>
          unlessZero (fillingUserDataToUartBuf payload s) fun s =>
            unlessZero (fillingChecksumToUartBuf payload len s) fun s =>
              unlessZero (fillingFrameTailToUartBuf s) fun s =>
                (1, halUartWriteData uartDataWrite s)

/-- A frame on the line. -/
def mcuFrame (payload : List UInt8) : List UInt8 :=
  let len := UInt8.ofNat payload.length
  [mcuFrameHead, len] ++ payload ++ [mcuChecksum payload len, mcuFrameTail]

/-! ## Sequences of calls -/

/-- The caller's memory, and the length passed. -/
abbrev McuSend := ByteMem × UInt8

/-- The frame a call is to send. -/
def McuSend.frame (call : McuSend) : List UInt8 := mcuFrame (call.1.load 1 call.2.toNat)

/-- Every call returns 1, and after it the frames of all calls so far are what was written
behind `sent`. -/
def SentWhole (uartDataWrite : List UInt8 → List UInt8) :
    List UInt8 → HalUart → List McuSend → Prop
  | _, _, [] => True
  | sent, s, call :: calls =>
    let after := sendFrameToMcu uartDataWrite (some call.1) call.2 s
    after.1 = 1 ∧ after.2.written = sent ++ call.frame ∧
      SentWhole uartDataWrite (sent ++ call.frame) after.2 calls

/-- There is room for a byte, and no frame crosses the end of the buffer, each one starting where
the one before it ended. -/
def FramesFit (transLen : Nat) : Nat → List McuSend → Prop
  | _, [] => True
  | pos, call :: calls =>
    transLen ≠ 0 ∧ pos + call.frame.length ≤ uartBuffLen - 1 ∧
      FramesFit transLen ((pos + call.frame.length) % (uartBuffLen - 1)) calls

instance FramesFit.decidable (transLen : Nat) :
    (pos : Nat) → (calls : List McuSend) → Decidable (FramesFit transLen pos calls)
  | _, [] => .isTrue trivial
  | pos, call :: calls =>
    have := FramesFit.decidable transLen ((pos + call.frame.length) % (uartBuffLen - 1)) calls
    inferInstanceAs (Decidable (_ ∧ _ ∧ _))

/-! ## Filling the buffer -/

section Fill

variable {s s' : HalUart} {transLen pos : Nat} {sent bytes xs ys : List UInt8} {b : UInt8}

/-- The position of the byte number `i` of a frame that starts behind `pos`. -/
def txSlot (pos i : Nat) : Nat :=
  if pos + 1 + i < uartBuffLen then pos + 1 + i else pos + 1 + i - (uartBuffLen - 1)

theorem txSlot_ne {i j : Nat} (low : i < j) (bound : j < uartBuffLen - 1) :
    txSlot pos i ≠ txSlot pos j := by
  have len : uartBuffLen = 3072 := rfl
  unfold txSlot
  split <;> split <;> omega

theorem txSlot_succ {n : Nat} (low : pos < uartBuffLen - 1) (short : n < 3000) :
    (if txSlot pos n + 1 = uartBuffLen ∧ pos ≠ 0 then 1 else txSlot pos n + 1) =
      txSlot pos (n + 1) := by
  have len : uartBuffLen = 3072 := rfl
  unfold txSlot
  split <;> split <;> split <;> omega

theorem wrapTxHead_eq (s : HalUart) : wrapTxHead s = { s with
    uartTxBufferHead :=
      if s.uartTxBufferHead = uartBuffLen ∧ s.uartTxBufferTail ≠ 0 then 1 else s.uartTxBufferHead } := by
  unfold wrapTxHead
  split <;> rfl

/-- The bytes of a frame that stand in the buffer, none of them sent. -/
structure Filled (transLen : Nat) (sent : List UInt8) (pos : Nat) (bytes : List UInt8)
    (s : HalUart) : Prop where
  trans : s.uartRxTransLen = transLen
  written : s.written = sent
  low : pos < uartBuffLen - 1
  tail : s.uartTxBufferTail = pos
  head : s.uartTxBufferHead = txSlot pos bytes.length
  stored : ∀ i < bytes.length, bytes[i]? = some (s.uartTxBuffDma (txSlot pos i))

/-- The room a call finds. -/
theorem Filled.avail (filled : Filled transLen sent pos bytes s)
    (short : bytes.length < 3000) :
    halUartGetTxbuffAvailLen s =
      (min (if pos + 1 + bytes.length < uartBuffLen then uartBuffLen - (pos + 1 + bytes.length)
        else uartBuffLen - 2 - bytes.length) transLen, s) := by
  have len : uartBuffLen = 3072 := rfl
  have low := filled.low
  have stay : wrapTxHead s = s := by
    rw [wrapTxHead, filled.head, filled.tail, if_neg]
    unfold txSlot
    split <;> omega
  simp only [halUartGetTxbuffAvailLen, stay, filled.head, filled.tail, filled.trans, txSlot]
  congr 2
  split
  next before =>
    rw [if_pos (by omega)]
  next behind =>
    rw [if_neg (by omega)]
    omega

/-- One more byte. -/
theorem Filled.byte (filled : Filled transLen sent pos bytes s) (short : bytes.length < 3000)
    (granted : transLen ≠ 0) :
    ∃ s', fillingByteToUartBuf b s = (1, s') ∧ Filled transLen sent pos (bytes ++ [b]) s' := by
  have len : uartBuffLen = 3072 := rfl
  have low := filled.low
  have room : (halUartGetTxbuffAvailLen s).1 ≠ 0 := by
    rw [filled.avail short]
    simp only
    split <;> omega
  have same : (halUartGetTxbuffAvailLen s).2 = s := by rw [filled.avail short]
  refine ⟨fillingDataToUartBuf b 1 s, ?_, ?_⟩
  · simp only [fillingByteToUartBuf, if_neg room, same]
  · refine ⟨?_, ?_, low, ?_, ?_, ?_⟩
    all_goals simp only [fillingDataToUartBuf, halUartRecEnd, wrapTxHead_eq]
    · exact filled.trans
    · exact filled.written
    · exact filled.tail
    · rw [List.length_append, List.length_singleton, filled.head, filled.tail]
      exact txSlot_succ low short
    · intro i inside
      rw [List.length_append, List.length_singleton] at inside
      rw [ByteMem.store, filled.head]
      by_cases last : i = bytes.length
      · subst last
        rw [if_pos ⟨Nat.le_refl _, by simp⟩, List.getElem?_concat_length, Nat.sub_self]
        rfl
      · have apart : txSlot pos i ≠ txSlot pos bytes.length := txSlot_ne (by omega) (by omega)
        rw [if_neg (by rw [List.length_singleton]; omega), List.getElem?_append_left (by omega)]
        exact filled.stored i (by omega)

/-- All bytes of a list. -/
theorem Filled.list (filled : Filled transLen sent pos xs s) (ys : List UInt8)
    (short : xs.length + ys.length ≤ 3000) (granted : transLen ≠ 0) :
    ∃ s', fillingUserDataToUartBuf ys s = (1, s') ∧ Filled transLen sent pos (xs ++ ys) s' := by
  induction ys generalizing xs s with
  | nil => exact ⟨s, rfl, by rwa [List.append_nil]⟩
  | cons b ys ih =>
    rw [List.length_cons] at short
    rcases filled.byte (b := b) (by omega) granted with ⟨s1, put, filled1⟩
    rcases ih filled1 (by rw [List.length_append, List.length_singleton]; omega) with
      ⟨s', rest, filled'⟩
    rw [List.append_assoc] at filled'
    refine ⟨s', ?_, filled'⟩
    rw [fillingUserDataToUartBuf, put]
    exact rest

/-- Without a transfer length there is no room at all. -/
theorem fillingByteToUartBuf_refused (filled : Filled 0 sent pos bytes s)
    (short : bytes.length < 3000) : fillingByteToUartBuf b s = (0, s) := by
  simp only [fillingByteToUartBuf, filled.avail short, Nat.min_zero, if_true]

end Fill

/-! ## One call -/

section Send

variable (uartDataWrite : List UInt8 → List UInt8) {s : HalUart} {transLen pos : Nat}
  {sent bytes : List UInt8}

/-- How much stands in one piece behind the tail. -/
theorem Filled.count (filled : Filled transLen sent pos bytes s) (short : bytes.length < 3000) :
    (if s.uartTxBufferHead > pos then s.uartTxBufferHead - pos - 1 else uartBuffLen - pos - 1) =
      min bytes.length (uartBuffLen - 1 - pos) := by
  have len : uartBuffLen = 3072 := rfl
  have low := filled.low
  rw [filled.head]
  unfold txSlot
  split <;> split <;> omega

/-- What stands in one piece is given to `uart_data_write`, and the rest stays. -/
theorem Filled.write (filled : Filled transLen sent pos bytes s) (short : bytes.length < 3000) :
    (halUartWriteData uartDataWrite s).written =
      sent ++ uartDataWrite (bytes.take (uartBuffLen - 1 - pos)) := by
  have len : uartBuffLen = 3072 := rfl
  have low := filled.low
  simp only [halUartWriteData, halUartWrite, filled.written, filled.tail, filled.count short]
  congr 2
  apply List.ext_getElem?
  intro i
  rw [ByteMem.getElem?_load, List.getElem?_take]
  by_cases inside : i < min bytes.length (uartBuffLen - 1 - pos)
  · rw [if_pos inside, if_pos (by omega), filled.stored i (by omega), txSlot, if_pos (by omega)]
  · rw [if_neg inside]
    split
    next => exact (List.getElem?_eq_none (by omega)).symm
    next => rfl

/-- A frame that ends before the end of the buffer leaves nothing behind. -/
theorem Filled.written_whole (filled : Filled transLen sent pos bytes s)
    (some_ : bytes ≠ []) (fits : pos + bytes.length ≤ uartBuffLen - 1)
    (short : bytes.length < 3000) :
    Filled transLen (halUartWriteData uartDataWrite s).written
      ((pos + bytes.length) % (uartBuffLen - 1)) [] (halUartWriteData uartDataWrite s) := by
  have len : uartBuffLen = 3072 := rfl
  have low := filled.low
  have count := filled.count short
  rw [Nat.min_eq_left (by omega)] at count
  have some_ := List.length_pos_of_ne_nil some_
  refine ⟨filled.trans, rfl, Nat.mod_lt _ (by decide), ?_, ?_, fun i inside => by cases inside⟩
  · simp only [halUartWriteData, halUartWrite, filled.tail, count]
    split
    next atEnd => rw [atEnd, Nat.mod_self]
    next inside => exact (Nat.mod_eq_of_lt (by omega)).symm
  · change s.uartTxBufferHead = _
    rw [filled.head, List.length_nil]
    unfold txSlot
    by_cases atEnd : pos + bytes.length = uartBuffLen - 1
    · rw [atEnd, Nat.mod_self]
      split <;> split <;> omega
    · rw [Nat.mod_eq_of_lt (show pos + bytes.length < uartBuffLen - 1 by omega)]
      split <;> split <;> omega

theorem length_mcuFrame (payload : List UInt8) : (mcuFrame payload).length = payload.length + 4 := by
  simp [mcuFrame]

/-- A call fills in the whole frame and then has it written. -/
theorem sendFrameToMcu_filled {buf : ByteMem} {len : UInt8} (long : 2 ≤ len.toNat)
    (granted : transLen ≠ 0) (idle : Filled transLen sent pos [] s) :
    ∃ s', sendFrameToMcu uartDataWrite (some buf) len s = (1, halUartWriteData uartDataWrite s') ∧
      Filled transLen sent pos (mcuFrame (buf.load 1 len.toNat)) s' := by
  have small := len.toNat_lt
  have enough : ¬ len < frameMinLen := by
    rw [UInt8.lt_iff_toNat_lt]
    exact Nat.not_lt.mpr long
  rcases idle.byte (b := mcuFrameHead) (by decide) granted with ⟨s1, put1, filled1⟩
  rcases filled1.byte (b := len) (by decide) granted with ⟨s2, put2, filled2⟩
  rcases filled2.list (buf.load 1 len.toNat)
    (by rw [ByteMem.length_load]; simp only [List.length_append, List.length_singleton,
      List.length_nil]; omega) granted with ⟨s3, put3, filled3⟩
  have long3 : ([] ++ [mcuFrameHead] ++ [len] ++ buf.load 1 len.toNat).length = 2 + len.toNat := by
    rw [List.length_append, ByteMem.length_load]
    rfl
  rcases filled3.byte (b := mcuChecksum (buf.load 1 len.toNat) len) (by omega) granted with
    ⟨s4, put4, filled4⟩
  rcases filled4.byte (b := mcuFrameTail)
    (by rw [List.length_append, List.length_singleton]; omega) granted with ⟨s5, put5, filled5⟩
  refine ⟨s5, ?_, ?_⟩
  · simp only [sendFrameToMcu, if_neg enough, fillingFrameHeadToUartBuf, put1,
      fillingFrameLenToUartBuf, put2, put3, fillingChecksumToUartBuf, put4,
      fillingFrameTailToUartBuf, put5, unlessZero_one]
  · have frame : mcuFrame (buf.load 1 len.toNat) = [] ++ [mcuFrameHead] ++ [len] ++
        buf.load 1 len.toNat ++ [mcuChecksum (buf.load 1 len.toNat) len] ++ [mcuFrameTail] := by
      simp only [mcuFrame, ByteMem.length_load, UInt8.ofNat_toNat, List.nil_append,
        List.cons_append, List.append_assoc]
    rw [frame]
    exact filled5

end Send

/-! ## All calls -/

theorem sentWhole_iff {uartDataWrite : List UInt8 → List UInt8} {transLen pos : Nat}
    {sent : List UInt8} {s : HalUart} {calls : List McuSend}
    (puts : ∀ bytes, uartDataWrite bytes = bytes) (long : ∀ call ∈ calls, 2 ≤ call.2.toNat)
    (idle : Filled transLen sent pos [] s) :
    SentWhole uartDataWrite sent s calls ↔ FramesFit transLen pos calls := by
  induction calls generalizing sent pos s with
  | nil => exact Iff.rfl
  | cons call calls ih =>
    have first := long call List.mem_cons_self
    rw [SentWhole, FramesFit]
    by_cases granted : transLen = 0
    · subst granted
      have enough : ¬ call.2 < frameMinLen := by
        rw [UInt8.lt_iff_toNat_lt]
        exact Nat.not_lt.mpr first
      have refused : sendFrameToMcu uartDataWrite (some call.1) call.2 s = (0, s) := by
        simp only [sendFrameToMcu, if_neg enough, fillingFrameHeadToUartBuf,
          fillingByteToUartBuf_refused idle (show ([] : List UInt8).length < 3000 by decide),
          unlessZero_zero]
      rw [refused]
      simp
    · rcases sendFrameToMcu_filled uartDataWrite first granted idle with
        ⟨s1, done, filled⟩
      have small := call.2.toNat_lt
      have size : call.frame.length = call.2.toNat + 4 := by
        rw [McuSend.frame, length_mcuFrame, ByteMem.length_load]
      have shortFrame : call.frame.length < 3000 := by omega
      rw [done]
      change _ ∧ _ ∧ _ ↔ _
      have low := idle.low
      -- what does not fit behind `pos` is not given to the driver by this call
      have sentIff : (halUartWriteData uartDataWrite s1).written = sent ++ call.frame ↔
          pos + call.frame.length ≤ uartBuffLen - 1 := by
        rw [filled.write uartDataWrite shortFrame, puts, List.append_cancel_left_eq]
        change call.frame.take _ = call.frame ↔ _
        rw [List.take_eq_self_iff]
        omega
      rw [sentIff]
      constructor
      · rintro ⟨-, fits, rest⟩
        have next := filled.written_whole uartDataWrite (List.cons_ne_nil _ _) fits shortFrame
        rw [sentIff.mpr fits] at next
        exact ⟨granted, fits, (ih (fun c m => long c (List.mem_cons_of_mem _ m)) next).mp rest⟩
      · rintro ⟨-, fits, rest⟩
        have next := filled.written_whole uartDataWrite (List.cons_ne_nil _ _) fits shortFrame
        rw [sentIff.mpr fits] at next
        exact ⟨rfl, fits, (ih (fun c m => long c (List.mem_cons_of_mem _ m)) next).mpr rest⟩

theorem filled_reset (s : HalUart) :
    Filled s.uartRxTransLen s.written 0 [] (halUartTxBuffReset s) :=
  ⟨rfl, rfl, by decide, rfl, rfl, fun i inside => by cases inside⟩

/-- After a reset the frames of any calls are sent whole exactly when none of them crosses the
end of the buffer. -/
theorem sendFrameToMcu_whole_iff (uartDataWrite : List UInt8 → List UInt8)
    (puts : ∀ bytes, uartDataWrite bytes = bytes) (s : HalUart) (calls : List McuSend)
    (long : ∀ call ∈ calls, 2 ≤ call.2.toNat) :
    SentWhole uartDataWrite s.written (halUartTxBuffReset s) calls ↔
      FramesFit s.uartRxTransLen 0 calls :=
  sentWhole_iff puts long (filled_reset s)

/-- The variables at the start of the program. -/
def halUartStart : HalUart where
  uartRxBuffDma _ := 0
  uartTxBuffDma _ := 0
  uartRxTransLen := 1024
  uartRxBufferHead := 1
  uartRxBufferTail := 0
  uartTxBufferHead := 1
  uartTxBufferTail := 0
  socketSendLen := 0
  uartTxLen := 0
  written := []

/-- Eleven of the longest frames fit before the end of the buffer; one of 218 bytes then ends at
it, and the next starts over. -/
theorem sendFrameToMcu_whole_eleven :
    SentWhole (fun bytes => bytes) [] (halUartTxBuffReset halUartStart)
      (List.replicate 11 (fun _ => 0, 255) ++ [(fun _ => 0x0A, 218), (fun _ => 0x0A, 2)]) :=
  (sendFrameToMcu_whole_iff (fun bytes => bytes) (fun _ => rfl) halUartStart
    (List.replicate 11 (fun _ => 0, 255) ++ [(fun _ => 0x0A, 218), (fun _ => 0x0A, 2)])
    (by decide)).mpr (by decide +kernel)

/-- A twelfth of the longest frames crosses the end of the buffer. -/
theorem sendFrameToMcu_broken :
    ¬ SentWhole (fun bytes => bytes) [] (halUartTxBuffReset halUartStart)
      (List.replicate 12 (fun _ => 0, 255)) := by
  intro whole
  exact absurd ((sentWhole_iff (fun _ => rfl) (by decide) (filled_reset halUartStart)).mp whole)
    (by decide +kernel)

end Tr6260
