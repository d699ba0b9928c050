import Tr6260.ByteMem

/-!
# Reading from the UART

The receive buffer of a UART is a ring: what waits to be read stands from `uart_rx_buf_tail`
to before `uart_rx_buf_head`, around the end of the buffer if the tail is behind the head.
`hal_uart.c` and `hal_uart_new.c` each have their own `hal_uart_read`. The two copy the bytes
behind the end of the buffer to different places.
-/

namespace Tr6260

/-- `UART_RX_BUF_SIZE`. -/
def uartRxBufSize : Nat := 128

/-- The ring of `uart_dev`. -/
structure UartDev where
  uartRxBuf : ByteMem
  uartRxBufHead : Nat
  uartRxBufTail : Nat

/-- What a call returns, and leaves in the caller's buffer and in the ring. -/
structure UartRead where
  count : Nat
  buf : ByteMem
  dev : UartDev

namespace UartDev

/-! ## The functions -/

/-- `hal_uart_get_recv_len`. -/
def halUartGetRecvLen (d : UartDev) : Nat :=
  if d.uartRxBufTail > d.uartRxBufHead then d.uartRxBufHead + uartRxBufSize - d.uartRxBufTail
  else d.uartRxBufHead - d.uartRxBufTail

/-- `hal_uart_get_recv_len` of `hal_uart_new.c`. -/
def halUartNewGetRecvLen (d : UartDev) : Nat :=
  if d.uartRxBufTail > d.uartRxBufHead then d.uartRxBufHead + uartRxBufSize - d.uartRxBufTail + 1
  else d.uartRxBufHead - d.uartRxBufTail

/-- `hal_uart_read` on a ring that goes around the end. What stands at the start of the ring is
copied to `second` when the first copy had `len_temp` bytes. -/
def readWrapped (d : UartDev) (second : Nat → Nat) (len : Nat) (buf : ByteMem) : UartRead :=
  let lenTemp := uartRxBufSize - d.uartRxBufTail
  if lenTemp ≥ len then
    { count := len
      buf := buf.store 0 (d.uartRxBuf.load d.uartRxBufTail len)
      dev := { d with uartRxBufTail := (d.uartRxBufTail + len) % uartRxBufSize } }
  else
    let buf := buf.store 0 (d.uartRxBuf.load d.uartRxBufTail lenTemp)
    if len - lenTemp < d.uartRxBufHead then
      { count := len
        buf := buf.store (second lenTemp) (d.uartRxBuf.load 0 (len - lenTemp))
        dev := { d with uartRxBufTail := len - lenTemp } }
    else
      { count := lenTemp + d.uartRxBufHead
        buf := buf.store (second lenTemp) (d.uartRxBuf.load 0 d.uartRxBufHead)
        dev := { d with uartRxBufTail := d.uartRxBufHead } }

/-- `hal_uart_read`: both copies go to `buf`. -/
def halUartRead (d : UartDev) (len : Nat) (buf : ByteMem) : UartRead :=
  if d.uartRxBufTail > d.uartRxBufHead then
    d.readWrapped (fun _ => 0) len buf
  else
    let lenTemp := d.uartRxBufHead - d.uartRxBufTail
    if lenTemp > len then
      { count := len
        buf := buf.store 0 (d.uartRxBuf.load d.uartRxBufTail len)
        dev := { d with uartRxBufTail := d.uartRxBufTail + len } }
    else
      { count := lenTemp
        buf := buf.store 0 (d.uartRxBuf.load d.uartRxBufTail lenTemp)
        dev := { d with uartRxBufTail := d.uartRxBufHead } }

/-- `hal_uart_read` of `hal_uart_new.c`: the second copy goes to `buf + len_temp`, and an emptied
ring starts again at 0. -/
def halUartNewRead (d : UartDev) (len : Nat) (buf : ByteMem) : UartRead :=
  if d.uartRxBufTail > d.uartRxBufHead then
    d.readWrapped (fun lenTemp => lenTemp) len buf
  else
    let lenTemp := d.uartRxBufHead - d.uartRxBufTail
    if lenTemp > len then
      let tail := d.uartRxBufTail + len
      { count := len
        buf := buf.store 0 (d.uartRxBuf.load d.uartRxBufTail len)
        dev :=
          if tail = d.uartRxBufHead then { d with uartRxBufHead := 0, uartRxBufTail := 0 }
          else { d with uartRxBufTail := tail } }
    else
      { count := lenTemp
        buf := buf.store 0 (d.uartRxBuf.load d.uartRxBufTail lenTemp)
        dev := { d with uartRxBufHead := 0, uartRxBufTail := 0 } }

/-! ## A FIFO -/

/-- The positions are inside the buffer. -/
structure Valid (d : UartDev) : Prop where
  head : d.uartRxBufHead < uartRxBufSize
  tail : d.uartRxBufTail < uartRxBufSize

/-- What waits to be read, the oldest byte first. -/
def unread (d : UartDev) : List UInt8 :=
  (List.range d.halUartGetRecvLen).map fun i => d.uartRxBuf ((d.uartRxBufTail + i) % uartRxBufSize)

end UartDev

/-- The caller's buffer begins with the oldest unread bytes, as many as are returned, and is
otherwise as it was. -/
structure ReadsOldest (buf : ByteMem) (d : UartDev) (r : UartRead) : Prop where
  count : r.count ≤ d.unread.length
  bytes : r.buf.load 0 r.count = d.unread.take r.count
  beyond : ∀ i, r.count ≤ i → r.buf i = buf i

/-- A read of `len` bytes as a FIFO has it. -/
structure FifoRead (len : Nat) (buf : ByteMem) (d : UartDev) (r : UartRead) : Prop where
  count : r.count = min len d.halUartGetRecvLen
  oldest : ReadsOldest buf d r
  tail : r.dev.uartRxBufTail = (d.uartRxBufTail + r.count) % uartRxBufSize
  rest : r.dev.unread = d.unread.drop r.count

/-- Two reads return the same bytes. -/
def SameBytes (r r' : UartRead) : Prop :=
  r.count = r'.count ∧ r.buf.load 0 r.count = r'.buf.load 0 r'.count

/-- What stands at the start of the ring, copied over what came from its end, happens to give the
same bytes as behind it. -/
def PiecesCoincide (len : Nat) (buf : ByteMem) (d : UartDev) : Prop :=
  let first := uartRxBufSize - d.uartRxBufTail
  let second := min (len - first) d.uartRxBufHead
  (∀ i < second, d.uartRxBuf i =
    if i < first then d.uartRxBuf (d.uartRxBufTail + i) else d.uartRxBuf (i - first)) ∧
    ∀ j < second, second ≤ first + j → buf (first + j) = d.uartRxBuf j

instance (len : Nat) (buf : ByteMem) (d : UartDev) : Decidable (PiecesCoincide len buf d) :=
  inferInstanceAs (Decidable (_ ∧ _))

/-! ## The ring -/

section Ring

variable {d : UartDev}

@[simp] theorem length_unread (d : UartDev) : d.unread.length = d.halUartGetRecvLen := by
  simp [UartDev.unread]

/-- What a memory has to hold to show the oldest `k` bytes. -/
theorem load_eq_take_iff {m : ByteMem} {k : Nat} (most : k ≤ d.halUartGetRecvLen) :
    m.load 0 k = d.unread.take k ↔
      ∀ i < k, m i = d.uartRxBuf ((d.uartRxBufTail + i) % uartRxBufSize) := by
  have left : ∀ i < k, (m.load 0 k)[i]? = some (m i) := by
    intro i low
    rw [ByteMem.getElem?_load, if_pos low, Nat.zero_add]
  have right : ∀ i < k, (d.unread.take k)[i]? =
      some (d.uartRxBuf ((d.uartRxBufTail + i) % uartRxBufSize)) := by
    intro i low
    rw [List.getElem?_take_of_lt low, UartDev.unread, List.getElem?_map,
      List.getElem?_range (by omega)]
    rfl
  constructor
  · intro same i low
    have byte := left i low
    rw [same, right i low] at byte
    exact (Option.some.inj byte).symm
  · intro bytes
    apply List.ext_getElem?
    intro i
    by_cases low : i < k
    · rw [left i low, right i low, bytes i low]
    · rw [List.getElem?_eq_none (by rw [ByteMem.length_load]; omega),
        List.getElem?_eq_none (by rw [List.length_take]; omega)]

/-- Moving the tail on by `k` takes the oldest `k` bytes away. -/
theorem unread_advance (valid : d.Valid) {k : Nat} (most : k ≤ d.halUartGetRecvLen) :
    ({ d with uartRxBufTail := (d.uartRxBufTail + k) % uartRxBufSize } : UartDev).unread =
      d.unread.drop k := by
  have size : uartRxBufSize = 128 := rfl
  obtain ⟨head, tail⟩ := valid
  have left : ({ d with uartRxBufTail := (d.uartRxBufTail + k) % uartRxBufSize } :
      UartDev).halUartGetRecvLen = d.halUartGetRecvLen - k := by
    simp only [UartDev.halUartGetRecvLen, size] at most ⊢
    rw [size] at head tail
    split at most <;> split <;> omega
  apply List.ext_getElem
  · rw [length_unread, List.length_drop, length_unread, left]
  · intro i low high
    simp only [UartDev.unread, List.getElem_map, List.getElem_range, List.getElem_drop]
    congr 1
    rw [Nat.mod_add_mod, Nat.add_assoc]

end Ring

/-! ## One call -/

section Call

variable {d : UartDev} {len : Nat} {buf : ByteMem} {second : Nat → Nat}

theorem store_load_apply (m m' : ByteMem) (addr addr' len a : Nat) :
    (m.store addr (m'.load addr' len)) a =
      if addr ≤ a ∧ a < addr + len then m' (addr' + (a - addr)) else m a := by
  rw [ByteMem.store, ByteMem.length_load]
  split
  next inside =>
    rw [List.getD_eq_getElem?_getD, ByteMem.getElem?_load, if_pos (by omega), Option.getD_some]
  next => rfl

theorem store_load_zero (m m' : ByteMem) (addr' len a : Nat) :
    (m.store 0 (m'.load addr' len)) a = if a < len then m' (addr' + a) else m a := by
  rw [store_load_apply, Nat.zero_add, Nat.sub_zero]
  simp only [Nat.zero_le, true_and]

/-- The count and the ring after a read around the end. -/
theorem readWrapped_dev (valid : d.Valid) (wrapped : d.uartRxBufTail > d.uartRxBufHead) :
    (d.readWrapped second len buf).count = min len d.halUartGetRecvLen ∧
      (d.readWrapped second len buf).dev = { d with
        uartRxBufTail := (d.uartRxBufTail + (d.readWrapped second len buf).count) %
          uartRxBufSize } := by
  have size : uartRxBufSize = 128 := rfl
  obtain ⟨head, tail⟩ := valid
  rw [size] at head tail
  rw [UartDev.halUartGetRecvLen, if_pos wrapped]
  simp only [UartDev.readWrapped, size]
  split
  next inside =>
    refine ⟨?_, rfl⟩
    dsimp only
    omega
  next around =>
    split
    next part =>
      simp only [UartDev.mk.injEq, true_and]
      omega
    next whole =>
      simp only [UartDev.mk.injEq, true_and]
      omega

/-- The caller's buffer after a read around the end: the second piece lies over the first. -/
theorem readWrapped_buf (i : Nat) :
    (d.readWrapped second len buf).buf i =
      if second (uartRxBufSize - d.uartRxBufTail) ≤ i ∧
          i < second (uartRxBufSize - d.uartRxBufTail) +
            min (len - (uartRxBufSize - d.uartRxBufTail)) d.uartRxBufHead then
        d.uartRxBuf (i - second (uartRxBufSize - d.uartRxBufTail))
      else if i < min (uartRxBufSize - d.uartRxBufTail) len then
        d.uartRxBuf (d.uartRxBufTail + i)
      else buf i := by
  simp only [UartDev.readWrapped]
  split
  next inside =>
    dsimp only
    rw [if_neg (by omega), store_load_zero, Nat.min_eq_right inside]
  next around =>
    have first : min (uartRxBufSize - d.uartRxBufTail) len = uartRxBufSize - d.uartRxBufTail :=
      Nat.min_eq_left (by omega)
    split
    next part =>
      dsimp only
      rw [store_load_apply, store_load_zero, first, Nat.min_eq_left (Nat.le_of_lt part),
        Nat.zero_add]
    next whole =>
      dsimp only
      rw [store_load_apply, store_load_zero, first, Nat.min_eq_right (Nat.le_of_not_lt whole),
        Nat.zero_add]

/-- A read of a ring in one piece. -/
theorem halUartRead_straight (valid : d.Valid) (straight : ¬ d.uartRxBufTail > d.uartRxBufHead) :
    (d.halUartRead len buf).count = min len d.halUartGetRecvLen ∧
      (d.halUartRead len buf).dev = { d with
        uartRxBufTail := (d.uartRxBufTail + (d.halUartRead len buf).count) % uartRxBufSize } ∧
      (d.halUartRead len buf).buf =
        buf.store 0 (d.uartRxBuf.load d.uartRxBufTail (d.halUartRead len buf).count) := by
  have size : uartRxBufSize = 128 := rfl
  obtain ⟨head, tail⟩ := valid
  rw [size] at head tail
  rw [UartDev.halUartGetRecvLen, if_neg straight]
  simp only [UartDev.halUartRead, if_neg straight, size]
  split
  next part =>
    simp only [UartDev.mk.injEq, true_and, and_true]
    omega
  next whole =>
    simp only [UartDev.mk.injEq, true_and, and_true]
    omega

theorem halUartNewRead_straight (straight : ¬ d.uartRxBufTail > d.uartRxBufHead) :
    (d.halUartNewRead len buf).count = (d.halUartRead len buf).count ∧
      (d.halUartNewRead len buf).buf = (d.halUartRead len buf).buf ∧
      ((d.halUartNewRead len buf).dev = (d.halUartRead len buf).dev ∨
        d.halUartGetRecvLen ≤ len ∧
          (d.halUartNewRead len buf).dev = { d with uartRxBufHead := 0, uartRxBufTail := 0 }) := by
  rw [UartDev.halUartGetRecvLen, if_neg straight]
  simp only [UartDev.halUartRead, UartDev.halUartNewRead, if_neg straight]
  split
  next part =>
    dsimp only
    rw [if_neg (by omega)]
    exact ⟨rfl, rfl, .inl rfl⟩
  next whole => exact ⟨rfl, rfl, .inr ⟨by omega, rfl⟩⟩

/-- The count and the ring after a call of either version. -/
theorem halUartRead_dev (valid : d.Valid) :
    (d.halUartRead len buf).count = min len d.halUartGetRecvLen ∧
      (d.halUartRead len buf).dev = { d with
        uartRxBufTail := (d.uartRxBufTail + (d.halUartRead len buf).count) % uartRxBufSize } := by
  by_cases wrapped : d.uartRxBufTail > d.uartRxBufHead
  · rw [UartDev.halUartRead, if_pos wrapped]
    exact readWrapped_dev valid wrapped
  · obtain ⟨count, dev, -⟩ := @halUartRead_straight d len buf valid wrapped
    exact ⟨count, dev⟩

theorem halUartNewRead_dev (valid : d.Valid) :
    (d.halUartNewRead len buf).count = min len d.halUartGetRecvLen ∧
      (d.halUartNewRead len buf).dev.unread = d.unread.drop (d.halUartNewRead len buf).count := by
  have most : min len d.halUartGetRecvLen ≤ d.halUartGetRecvLen := Nat.min_le_right ..
  by_cases wrapped : d.uartRxBufTail > d.uartRxBufHead
  · rw [UartDev.halUartNewRead, if_pos wrapped]
    obtain ⟨count, dev⟩ := @readWrapped_dev d len buf (fun lenTemp => lenTemp) valid wrapped
    rw [dev, count]
    exact ⟨rfl, unread_advance valid most⟩
  · obtain ⟨count, -, dev⟩ := @halUartNewRead_straight d len buf wrapped
    obtain ⟨count', dev'⟩ := @halUartRead_dev d len buf valid
    rw [count, count']
    refine ⟨rfl, ?_⟩
    rcases dev with same | ⟨all, reset⟩
    · rw [same, dev', count']
      exact unread_advance valid most
    · rw [reset, List.drop_eq_nil_of_le (by rw [length_unread]; omega)]
      rfl

/-- What a right read leaves in the buffer. -/
theorem readsOldest_iff {r : UartRead} (most : r.count ≤ d.halUartGetRecvLen) :
    ReadsOldest buf d r ↔
      (∀ i < r.count, r.buf i = d.uartRxBuf ((d.uartRxBufTail + i) % uartRxBufSize)) ∧
        ∀ i, r.count ≤ i → r.buf i = buf i := by
  rw [← load_eq_take_iff most]
  constructor
  · intro right
    exact ⟨right.bytes, right.beyond⟩
  · rintro ⟨bytes, beyond⟩
    exact ⟨by rwa [length_unread], bytes, beyond⟩

/-- A read of a ring in one piece returns the right bytes. -/
theorem readsOldest_straight {r : UartRead} (straight : ¬ d.uartRxBufTail > d.uartRxBufHead)
    (valid : d.Valid) (most : r.count ≤ d.halUartGetRecvLen)
    (copied : r.buf = buf.store 0 (d.uartRxBuf.load d.uartRxBufTail r.count)) :
    ReadsOldest buf d r := by
  rw [readsOldest_iff most, copied]
  rw [UartDev.halUartGetRecvLen, if_neg straight] at most
  have head := valid.head
  constructor
  · intro i low
    rw [store_load_zero, if_pos low, Nat.mod_eq_of_lt (by omega)]
  · intro i high
    rw [store_load_zero, if_neg (by omega)]

/-- Where the unread byte `i` of a ring around the end stands. -/
theorem wrapped_byte (valid : d.Valid) {i : Nat} (low : i < uartRxBufSize) :
    d.uartRxBuf ((d.uartRxBufTail + i) % uartRxBufSize) =
      if i < uartRxBufSize - d.uartRxBufTail then d.uartRxBuf (d.uartRxBufTail + i)
      else d.uartRxBuf (i - (uartRxBufSize - d.uartRxBufTail)) := by
  have size : uartRxBufSize = 128 := rfl
  have tail := valid.tail
  rw [size] at low tail ⊢
  split
  next inside => rw [Nat.mod_eq_of_lt (by omega)]
  next around =>
    congr 1
    omega

/-- `hal_uart_read` of `hal_uart_new.c` returns the right bytes. -/
theorem halUartNewRead_oldest (valid : d.Valid) :
    ReadsOldest buf d (d.halUartNewRead len buf) := by
  have count := (@halUartNewRead_dev d len buf valid).1
  have most : (d.halUartNewRead len buf).count ≤ d.halUartGetRecvLen :=
    count ▸ Nat.min_le_right ..
  have head := valid.head
  have tail := valid.tail
  by_cases wrapped : d.uartRxBufTail > d.uartRxBufHead
  · rw [readsOldest_iff most, count, UartDev.halUartNewRead, if_pos wrapped,
      UartDev.halUartGetRecvLen, if_pos wrapped]
    constructor
    · intro i low
      rw [readWrapped_buf, wrapped_byte valid (by omega)]
      by_cases inside : i < uartRxBufSize - d.uartRxBufTail
      · rw [if_neg (by omega), if_pos (by omega), if_pos inside]
      · rw [if_pos (by omega), if_neg inside]
    · intro i high
      rw [readWrapped_buf, if_neg (by omega), if_neg (by omega)]
  · obtain ⟨same, copied, -⟩ := @halUartNewRead_straight d len buf wrapped
    apply readsOldest_straight wrapped valid most
    rw [copied, same]
    exact (halUartRead_straight valid wrapped).2.2

/-- So does that of `hal_uart.c`, unless its second copy overwrites the first. -/
theorem halUartRead_oldest_iff (valid : d.Valid) :
    ReadsOldest buf d (d.halUartRead len buf) ↔
      d.uartRxBufTail ≤ d.uartRxBufHead ∨ len ≤ uartRxBufSize - d.uartRxBufTail ∨
        PiecesCoincide len buf d := by
  have count := (@halUartRead_dev d len buf valid).1
  have most : (d.halUartRead len buf).count ≤ d.halUartGetRecvLen := count ▸ Nat.min_le_right ..
  have head := valid.head
  have tail := valid.tail
  by_cases wrapped : d.uartRxBufTail > d.uartRxBufHead
  · rw [readsOldest_iff most, count, UartDev.halUartRead, if_pos wrapped,
      UartDev.halUartGetRecvLen, if_pos wrapped, or_iff_right (Nat.not_le_of_lt wrapped)]
    have bytes : ∀ i, (d.readWrapped (fun _ => 0) len buf).buf i =
        if i < min (len - (uartRxBufSize - d.uartRxBufTail)) d.uartRxBufHead then d.uartRxBuf i
        else if i < min (uartRxBufSize - d.uartRxBufTail) len then
          d.uartRxBuf (d.uartRxBufTail + i)
        else buf i := by
      intro i
      rw [readWrapped_buf, Nat.zero_add, Nat.sub_zero]
      simp only [Nat.zero_le, true_and]
    constructor
    · rintro ⟨right, -⟩
      rw [or_iff_not_imp_left]
      intro long
      constructor
      · intro i low
        have byte := right i (by omega)
        rwa [bytes, if_pos low, wrapped_byte valid (by omega)] at byte
      · intro j low over_
        have byte := right (uartRxBufSize - d.uartRxBufTail + j) (by omega)
        rwa [bytes, if_neg (by omega), if_neg (by omega), wrapped_byte valid (by omega),
          if_neg (by omega), Nat.add_sub_cancel_left] at byte
    · intro fits
      refine ⟨?_, ?_⟩
      · intro i low
        rw [bytes, wrapped_byte valid (by omega)]
        rcases fits with short | ⟨front, behind⟩
        · rw [if_neg (by omega), if_pos (by omega), if_pos (by omega)]
        · by_cases covered :
              i < min (len - (uartRxBufSize - d.uartRxBufTail)) d.uartRxBufHead
          · rw [if_pos covered, front i covered]
          · rw [if_neg covered]
            by_cases inside : i < uartRxBufSize - d.uartRxBufTail
            · rw [if_pos (by omega), if_pos inside]
            · have byte := behind (i - (uartRxBufSize - d.uartRxBufTail)) (by omega) (by omega)
              rw [Nat.add_sub_cancel' (Nat.le_of_not_lt inside)] at byte
              rw [if_neg (by omega), if_neg inside, byte]
      · intro i high
        rw [bytes, if_neg (by omega), if_neg (by omega)]
  · have straight :=
      readsOldest_straight wrapped valid most (halUartRead_straight valid wrapped).2.2
    exact iff_of_true straight (.inl (Nat.le_of_not_lt wrapped))

end Call

/-! ## The two versions -/

/-- The read of `hal_uart.c` is one of a FIFO, and the same as that of `hal_uart_new.c`, exactly
when the ring is in one piece, or the bytes asked for stand before its end, or the bytes of its
start happen to fit where they are copied. The read of `hal_uart_new.c` always is right in its
bytes, and sets both positions to 0 when it empties a ring in one piece, though
`hal_uart_get_recv_len` there counts one byte too many in a ring around the end. -/
theorem halUartRead_fifo_iff (d : UartDev) (valid : d.Valid) (len : Nat) (buf : ByteMem) :
    (FifoRead len buf d (d.halUartRead len buf) ∧
        SameBytes (d.halUartRead len buf) (d.halUartNewRead len buf) ↔
      d.uartRxBufTail ≤ d.uartRxBufHead ∨ len ≤ uartRxBufSize - d.uartRxBufTail ∨
        PiecesCoincide len buf d) ∧
    (ReadsOldest buf d (d.halUartNewRead len buf) ∧
      (d.halUartNewRead len buf).dev.unread = d.unread.drop (d.halUartNewRead len buf).count) ∧
    ((d.halUartNewRead len buf).count = min len d.halUartNewGetRecvLen ↔
      d.uartRxBufTail ≤ d.uartRxBufHead ∨ len ≤ d.unread.length) := by
  obtain ⟨count, dev⟩ := @halUartRead_dev d len buf valid
  obtain ⟨count', rest'⟩ := @halUartNewRead_dev d len buf valid
  have right' := @halUartNewRead_oldest d len buf valid
  refine ⟨?_, ⟨right', rest'⟩, ?_⟩
  · rw [← halUartRead_oldest_iff valid]
    constructor
    · rintro ⟨fifo, -⟩
      exact fifo.oldest
    · intro right
      refine ⟨⟨count, right, by rw [dev], ?_⟩, count.trans count'.symm, ?_⟩
      · rw [dev]
        exact unread_advance valid (count ▸ Nat.min_le_right ..)
      · rw [right.bytes, right'.bytes, count, count']
  · rw [count', length_unread]
    simp only [UartDev.halUartNewGetRecvLen, UartDev.halUartGetRecvLen]
    split <;> omega

/-- A ring whose last byte and first byte wait to be read. -/
def uartDevAround : UartDev where
  uartRxBuf := fun a => if a = 127 then 7 else if a = 0 then 8 else 0
  uartRxBufHead := 1
  uartRxBufTail := 127

/-- One byte is read from it as it should be. -/
theorem halUartRead_fifo_one :
    FifoRead 1 (fun _ => 0) uartDevAround (uartDevAround.halUartRead 1 fun _ => 0) ∧
      SameBytes (uartDevAround.halUartRead 1 fun _ => 0)
        (uartDevAround.halUartNewRead 1 fun _ => 0) :=
  (halUartRead_fifo_iff uartDevAround ⟨by decide, by decide⟩ 1 fun _ => 0).1.mpr
    (.inr (.inl (by decide)))

/-- Of two bytes the second is put where the first was, and nothing behind it; `hal_uart_new.c`
has both. -/
theorem halUartRead_two_broken :
    ¬ FifoRead 2 (fun _ => 0) uartDevAround (uartDevAround.halUartRead 2 fun _ => 0) ∧
      ¬ SameBytes (uartDevAround.halUartRead 2 fun _ => 0)
        (uartDevAround.halUartNewRead 2 fun _ => 0) := by
  constructor
  · intro fifo
    exact absurd fifo.oldest.bytes (by decide)
  · intro same
    exact absurd same.2 (by decide)

end Tr6260
