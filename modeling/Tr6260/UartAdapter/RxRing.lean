import Tr6260.UartAdapter.Receive

/-!
# The receive ring under interrupts

The interrupt handler of `hal_uart.c` stores bytes at `uart_rx_buffer_head` while a task
asks how many there are, reads them and gives them up. The handler may run between any two
steps of the task, also between the addition and the comparison at the end of
`hal_uart_get_rx_data_end`. Its messages about a full buffer change nothing and are left
out.

Position 0 is never used: of the bytes that arrive, number `k` is stored at position
`k % 3071 + 1`.
-/

namespace Tr6260

/-! ## The handler -/

/-- One turn of the loop of `hal_uart_isr_wifi`. -/
def storeRxByte (data : UInt8) (s : HalUart) : HalUart :=
  let head := s.uartRxBufferHead + 1
  { s with
    uartRxBuffDma := s.uartRxBuffDma.store s.uartRxBufferHead [data]
    uartRxBufferHead := if head = uartBuffLen then 1 else head }

/-- `hal_uart_isr_wifi` while the receiver holds `data`: the positions stored to, and what is
left. -/
def halUartIsrWifi : List UInt8 → HalUart → List Nat × HalUart
  | [], s => ([], s)
  | data :: more, s =>
    let (positions, s') := halUartIsrWifi more (storeRxByte data s)
    (s.uartRxBufferHead :: positions, s')

/-! ## The task -/

/-- The two assignments of `hal_uart_get_rx_data_end`. -/
def advanceRxTail (s : HalUart) : HalUart :=
  { s with uartRxBufferTail := s.uartRxBufferTail + s.socketSendLen }

def wrapRxTail (s : HalUart) : HalUart :=
  { s with uartRxBufferTail :=
      if s.uartRxBufferTail = uartBuffLen - 1 then 0 else s.uartRxBufferTail }

theorem wrapRxTail_advanceRxTail (len : Nat) (s : HalUart) :
    wrapRxTail (advanceRxTail s) = halUartGetRxDataEnd len s := rfl

/-- Where the task stands in a round that began with `waiting` bytes unread. -/
inductive RxReader
  | idle
  | measured (waiting len : Nat)
  | reading (waiting buf len got : Nat)
  | ending (waiting got : Nat)

/-- The driver with the task, what arrived, where it was stored, what was read, and for every
round that is over how many bytes were unread at its start and how many it read. -/
structure RxRun where
  uart : HalUart
  reader : RxReader
  arrived : List UInt8
  positions : List Nat
  read : List UInt8
  rounds : List (Nat × Nat)

/-- The bytes that arrived and were not read yet. -/
def RxRun.unread (r : RxRun) : Nat := r.arrived.length - r.read.length

/-- The buffer reset, whatever its memory holds. -/
def rxRunStart (s : HalUart) : RxRun where
  uart := { s with uartRxBufferHead := 1, uartRxBufferTail := 0 }
  reader := .idle
  arrived := []
  positions := []
  read := []
  rounds := []

/-- One step: a run of the handler, or the task's next action. -/
inductive RxStep : RxRun → RxRun → Prop
  | isr (r : RxRun) (data : List UInt8) : RxStep r
      { r with
        uart := (halUartIsrWifi data r.uart).2
        arrived := r.arrived ++ data
        positions := r.positions ++ (halUartIsrWifi data r.uart).1 }
  | rxLen (r : RxRun) (idle : r.reader = .idle) : RxStep r
      { r with
        uart := (halUartGetRxLen r.uart).2
        reader := .measured r.unread (halUartGetRxLen r.uart).1 }
  | rxBuff (r : RxRun) {waiting len : Nat} (measured : r.reader = .measured waiting len) :
      RxStep r { r with reader := .reading waiting (halUartGetRxBuff r.uart) len 0 }
  | byte (r : RxRun) {waiting buf len got : Nat} (reading : r.reader = .reading waiting buf len got)
      (more : got < len) : RxStep r
      { r with
        reader := .reading waiting buf len (got + 1)
        read := r.read ++ [r.uart.uartRxBuffDma (buf + got)] }
  | advance (r : RxRun) {waiting buf len : Nat} (done : r.reader = .reading waiting buf len len) :
      RxStep r { r with uart := advanceRxTail r.uart, reader := .ending waiting len }
  | wrap (r : RxRun) {waiting got : Nat} (ending : r.reader = .ending waiting got) : RxStep r
      { r with
        uart := wrapRxTail r.uart
        reader := .idle
        rounds := r.rounds ++ [(waiting, got)] }

/-- What can be reached with never more than `uart_rx_buff_len - 2` bytes unread. -/
inductive RxReach (s : HalUart) : RxRun → Prop
  | start : RxReach s (rxRunStart s)
  | step {r r' : RxRun} (reach : RxReach s r) (step : RxStep r r')
      (room : r'.unread ≤ uartBuffLen - 2) : RxReach s r'

/-- Nothing is lost: what was read is a beginning of what arrived, every byte was stored inside
the buffer, and a round that found bytes read some. -/
structure RxLossless (r : RxRun) : Prop where
  in_order : r.read <+: r.arrived
  inside : ∀ p ∈ r.positions, p < uartBuffLen
  advances : ∀ round ∈ r.rounds, 0 < round.1 → 0 < round.2

/-! ## The handler's side -/

/-- Where arrival number `k` is stored. -/
def rxSlot (k : Nat) : Nat := k % (uartBuffLen - 1) + 1

theorem rxSlot_eq (k : Nat) : rxSlot k = k % 3071 + 1 := rfl

/-- The head follows the number of arrivals, and the last 3070 of them are in memory. -/
structure RxHeld (s : HalUart) (arrived : List UInt8) : Prop where
  head : s.uartRxBufferHead = rxSlot arrived.length
  bytes : ∀ k < arrived.length, arrived.length ≤ k + (uartBuffLen - 2) →
    arrived[k]? = some (s.uartRxBuffDma (rxSlot k))

section Handler

variable {s : HalUart} {arrived : List UInt8}

theorem RxHeld.head_lt (held : RxHeld s arrived) : s.uartRxBufferHead < uartBuffLen := by
  have size : uartBuffLen = 3072 := rfl
  rw [held.head, rxSlot_eq]
  omega

theorem RxHeld.storeRxByte (held : RxHeld s arrived) (data : UInt8) :
    RxHeld (storeRxByte data s) (arrived ++ [data]) := by
  have size : uartBuffLen = 3072 := rfl
  have head := held.head
  rw [rxSlot_eq] at head
  have count : (arrived ++ [data]).length = arrived.length + 1 := List.length_append
  constructor
  · rw [count, rxSlot_eq]
    simp only [Tr6260.storeRxByte]
    split
    next atEnd => omega
    next within => omega
  · intro k below recent
    rw [count] at below recent
    by_cases last : k = arrived.length
    · subst last
      have here :
          (s.uartRxBuffDma.store s.uartRxBufferHead [data]) (s.uartRxBufferHead) = data := by
        simp [ByteMem.store]
      rw [List.getElem?_concat_length, ← held.head]
      exact congrArg some here.symm
    · have elsewhere : rxSlot k ≠ s.uartRxBufferHead := by
        rw [rxSlot_eq]
        omega
      have kept : (s.uartRxBuffDma.store s.uartRxBufferHead [data]) (rxSlot k) =
          s.uartRxBuffDma (rxSlot k) := by
        rw [ByteMem.store, List.length_singleton]
        exact if_neg (by omega)
      rw [List.getElem?_append_left (by omega), held.bytes k (by omega) (by omega)]
      exact congrArg some kept.symm

/-- The handler stores everything it is given, inside the buffer, and leaves the task's
variables alone. -/
theorem RxHeld.halUartIsrWifi (held : RxHeld s arrived) (data : List UInt8) :
    RxHeld (halUartIsrWifi data s).2 (arrived ++ data) ∧
      (∀ p ∈ (halUartIsrWifi data s).1, p < uartBuffLen) ∧
      (halUartIsrWifi data s).2.uartRxBufferTail = s.uartRxBufferTail ∧
      (halUartIsrWifi data s).2.socketSendLen = s.socketSendLen := by
  induction data generalizing s arrived with
  | nil =>
    rw [List.append_nil]
    refine ⟨held, ?_, rfl, rfl⟩
    intro p mem
    cases mem
  | cons byte more ih =>
    obtain ⟨held', inside, tail, len⟩ := ih (held.storeRxByte byte)
    rw [List.append_assoc] at held'
    refine ⟨held', ?_, tail, len⟩
    intro p mem
    rcases List.mem_cons.mp mem with first | later
    · rw [first]
      exact held.head_lt
    · exact inside p later

end Handler

/-! ## The task's side -/

/-- What a round that began with `waiting` bytes unread may count on: the `len` bytes it was
promised, the first of which is number `first`, are among the `arrivals` and stand in one piece
behind the tail. -/
structure RxPromised (s : HalUart) (arrivals waiting first len : Nat) : Prop where
  sendLen : s.socketSendLen = len
  arrived : first + len ≤ arrivals
  piece : s.uartRxBufferTail + len ≤ uartBuffLen - 1
  tail : s.uartRxBufferTail + 1 = rxSlot first
  some_ : 0 < waiting → 0 < len

/-- The task's place, after that many arrivals and reads. -/
def RxReader.Agrees (s : HalUart) (arrivals reads : Nat) : RxReader → Prop
  | .idle => s.uartRxBufferTail + 1 = rxSlot reads
  | .measured waiting len => RxPromised s arrivals waiting reads len
  | .reading waiting buf len got =>
    ∃ first, reads = first + got ∧ got ≤ len ∧ buf = s.uartRxBufferTail + 1 ∧
      RxPromised s arrivals waiting first len
  | .ending waiting got =>
    (0 < waiting → 0 < got) ∧ (wrapRxTail s).uartRxBufferTail + 1 = rxSlot reads

/-- The invariant of the ring. -/
structure RxInv (r : RxRun) : Prop where
  lossless : RxLossless r
  room : r.unread ≤ uartBuffLen - 2
  held : RxHeld r.uart r.arrived
  reader : r.reader.Agrees r.uart r.arrived.length r.read.length

section Task

variable {r : RxRun} {s s' : HalUart} {arrivals arrivals' : Nat}

/-- More arrivals change nothing for the task. -/
theorem RxPromised.mono {waiting first len : Nat}
    (promised : RxPromised s arrivals waiting first len)
    (tail : s'.uartRxBufferTail = s.uartRxBufferTail) (sendLen : s'.socketSendLen = s.socketSendLen)
    (longer : arrivals ≤ arrivals') : RxPromised s' arrivals' waiting first len where
  sendLen := sendLen.trans promised.sendLen
  arrived := Nat.le_trans promised.arrived longer
  piece := tail ▸ promised.piece
  tail := tail ▸ promised.tail
  some_ := promised.some_

theorem RxReader.Agrees.mono {reader : RxReader} {reads : Nat}
    (agrees : reader.Agrees s arrivals reads) (tail : s'.uartRxBufferTail = s.uartRxBufferTail)
    (sendLen : s'.socketSendLen = s.socketSendLen) (longer : arrivals ≤ arrivals') :
    reader.Agrees s' arrivals' reads := by
  cases reader with
  | idle =>
    rw [RxReader.Agrees, tail]
    exact agrees
  | measured waiting len => exact RxPromised.mono agrees tail sendLen longer
  | reading waiting buf len got =>
    obtain ⟨first, count, within, base, promised⟩ := agrees
    rw [← tail] at base
    exact ⟨first, count, within, base, promised.mono tail sendLen longer⟩
  | ending waiting got =>
    simp only [RxReader.Agrees, wrapRxTail, tail]
    exact agrees

/-- What `hal_uart_get_rx_len` finds: bytes that arrived and stand in one piece, and some if there
are any. -/
theorem RxInv.rxLen (inv : RxInv r) (idle : r.reader = .idle) :
    RxPromised (halUartGetRxLen r.uart).2 r.arrived.length r.unread r.read.length
      (halUartGetRxLen r.uart).1 := by
  have size : uartBuffLen = 3072 := rfl
  have tail := inv.reader
  rw [idle] at tail
  have tail' : r.uart.uartRxBufferTail + 1 = rxSlot r.read.length := tail
  have slot := tail'
  have head := inv.held.head
  rw [rxSlot_eq] at slot head
  have few := inv.lossless.in_order.length_le
  have room := inv.room
  rw [RxRun.unread] at room
  have contig : r.read.length + rxContig r.uart ≤ r.arrived.length ∧
      r.uart.uartRxBufferTail + rxContig r.uart ≤ uartBuffLen - 1 ∧
      (r.read.length < r.arrived.length → 0 < rxContig r.uart) := by
    rw [rxContig]
    split <;> omega
  have most : (halUartGetRxLen r.uart).1 ≤ rxContig r.uart := Nat.min_le_left ..
  refine ⟨rfl, ?_, ?_, tail', ?_⟩
  · exact Nat.le_trans (Nat.add_le_add_left most _) contig.1
  · exact Nat.le_trans (Nat.add_le_add_left most _) contig.2.1
  · intro waiting
    rw [RxRun.unread] at waiting
    have some_ := contig.2.2 (by omega)
    exact Nat.lt_min.mpr ⟨some_, by decide⟩

/-- The byte read next is the one that arrived next. -/
theorem RxInv.byte (inv : RxInv r) {waiting buf len got : Nat}
    (reading : r.reader = .reading waiting buf len got) (more : got < len) :
    r.arrived[r.read.length]? = some (r.uart.uartRxBuffDma (buf + got)) := by
  have size : uartBuffLen = 3072 := rfl
  have agrees := inv.reader
  rw [reading] at agrees
  obtain ⟨first, count, -, base, promised⟩ := agrees
  have arrived := promised.arrived
  have piece := promised.piece
  have tail := promised.tail
  have room := inv.room
  rw [RxRun.unread] at room
  have place : buf + got = rxSlot r.read.length := by
    rw [rxSlot_eq] at tail ⊢
    omega
  rw [place]
  exact inv.held.bytes _ (by omega) (by omega)

/-- Reading one more byte of a beginning. -/
theorem prefix_concat {xs ys : List UInt8} {b : UInt8} (before : xs <+: ys)
    (next : ys[xs.length]? = some b) : xs ++ [b] <+: ys := by
  obtain ⟨zs, rfl⟩ := before
  rw [List.getElem?_append_right (Nat.le_refl _), Nat.sub_self] at next
  cases zs with
  | nil => cases next
  | cons z zs =>
    cases next
    exact ⟨zs, by rw [List.append_assoc]; rfl⟩

end Task

/-! ## Runs -/

theorem rxInv_start (s : HalUart) : RxInv (rxRunStart s) := by
  refine ⟨⟨List.nil_prefix, ?_, ?_⟩, Nat.zero_le _, ⟨rfl, ?_⟩, rfl⟩
  · intro p mem
    cases mem
  · intro round mem
    cases mem
  · intro k below
    cases below

/-- Every step keeps the invariant, the handler's at every point of a round. -/
theorem RxInv.step {r r' : RxRun} (inv : RxInv r) (step : RxStep r r')
    (room : r'.unread ≤ uartBuffLen - 2) : RxInv r' := by
  have size : uartBuffLen = 3072 := rfl
  obtain ⟨lossless, before, held, reader⟩ := inv
  cases step with
  | isr data =>
    obtain ⟨held', inside, tail, len⟩ := held.halUartIsrWifi data
    have longer : r.arrived.length ≤ (r.arrived ++ data).length := by
      rw [List.length_append]
      omega
    refine ⟨⟨lossless.in_order.trans (List.prefix_append ..), ?_, lossless.advances⟩, room, held',
      ?_⟩
    · intro p mem
      rcases List.mem_append.mp mem with before | now
      · exact lossless.inside p before
      · exact inside p now
    · exact reader.mono tail len longer
  | rxLen idle =>
    have promised := RxInv.rxLen ⟨lossless, before, held, reader⟩ idle
    exact ⟨⟨lossless.in_order, lossless.inside, lossless.advances⟩, room, ⟨held.head, held.bytes⟩,
      promised⟩
  | rxBuff measured =>
    rw [measured] at reader
    exact ⟨⟨lossless.in_order, lossless.inside, lossless.advances⟩, room, held, r.read.length, rfl,
      Nat.zero_le _, rfl, reader⟩
  | @byte waiting buf len got reading more =>
    have next := RxInv.byte ⟨lossless, before, held, reader⟩ reading more
    rw [reading] at reader
    obtain ⟨first, count, -, base, promised⟩ := reader
    refine ⟨⟨prefix_concat lossless.in_order next, lossless.inside, lossless.advances⟩, room, held,
      first, ?_, more, base, promised⟩
    rw [List.length_append, count]
    rfl
  | advance done =>
    rw [done] at reader
    obtain ⟨first, count, -, -, promised⟩ := reader
    refine ⟨⟨lossless.in_order, lossless.inside, lossless.advances⟩, room, ⟨held.head, held.bytes⟩,
      promised.some_, ?_⟩
    have piece := promised.piece
    have tail := promised.tail
    rw [rxSlot_eq] at tail
    rw [count, rxSlot_eq]
    simp only [wrapRxTail, advanceRxTail, promised.sendLen]
    split <;> omega
  | @wrap waiting got ending =>
    rw [ending] at reader
    refine ⟨⟨lossless.in_order, lossless.inside, ?_⟩, room, ⟨held.head, held.bytes⟩, reader.2⟩
    intro round mem
    rcases List.mem_append.mp mem with earlier | now
    · exact lossless.advances round earlier
    · rw [List.mem_singleton] at now
      rw [now]
      exact reader.1

/-- In every run of the handler and the task with at most `uart_rx_buff_len - 2` bytes unread, what
was read is a beginning of what arrived, nothing is stored outside the buffer, and a round with
bytes to read reads some. -/
theorem rx_ring_lossless (s : HalUart) {r : RxRun} (reach : RxReach s r) : RxLossless r := by
  have inv : RxInv r := by
    induction reach with
    | start => exact rxInv_start s
    | step _ step room ih => exact ih.step step room
  exact inv.lossless

/-- Two bytes arrive, and a third while they are read. -/
theorem rx_ring_lossless_round :
    ∃ r, r.arrived = [7, 8, 9] ∧ r.read = [7, 8] ∧ r.rounds = [(2, 2)] ∧ RxLossless r := by
  have stored := RxReach.start.step (.isr (rxRunStart halUartStart) [7, 8]) (by decide)
  have counted := stored.step (.rxLen _ rfl) (by decide)
  have placed := counted.step (.rxBuff _ rfl) (by decide)
  have first := placed.step (.byte _ rfl (by decide)) (by decide)
  have third := first.step (.isr _ [9]) (by decide)
  have second := third.step (.byte _ rfl (by decide)) (by decide)
  have added := second.step (.advance _ rfl) (by decide)
  have ended := added.step (.wrap _ rfl) (by decide)
  exact ⟨_, rfl, rfl, rfl, rx_ring_lossless halUartStart ended⟩

end Tr6260
