import Tr6260.Uart.Cert

/-!
# Reading a certificate back

The record is asked for piece by piece. `ReadbackComplete` is what the answers have to be: one for
each piece of 512 bytes, numbered, with the right lengths and sums, and together the record.

The last piece is as long as the remainder of the record's length by 512. When there is no
remainder the last answer is empty and 512 bytes are missing.
-/

namespace Tr6260

open FlashProg ByteMem

/-! ## Asking for the pieces -/

/-- `CMD_READBACK_CERT` for the sub-frame `index`: the reply that is written to the line. The
request begins with `front`, eight bytes up to the sub-command. -/
def askPiece (heap : Heap) (front tail : List UInt8) (s : CertState) (tx : List UInt8)
    (index : Nat) : FlashProg (Option (List UInt8 × CertState × List UInt8)) :=
  match Block.write tx 0 front with
  | none => return none
  | some tx => do
    match ← readCertificate heap s (front ++ UInt8.ofNat index :: tail) tx (front.getD 7 0) with
    | none => return none
    | some (frameLen, s, tx) => return some (tx.take frameLen, s, tx)

/-- `count` sub-frames from `index` on: the replies, and the state. -/
def askPieces (heaps : Nat → Heap) (front tail : List UInt8) :
    Nat → Nat → CertState → List UInt8 → FlashProg (Option (List (List UInt8) × CertState))
  | 0, _, s, _ => return some ([], s)
  | count + 1, index, s, tx => do
    match ← askPiece (heaps index) front tail s tx index with
    | none => return none
    | some (reply, s, tx) =>
      match ← askPieces heaps front tail count (index + 1) s tx with
      | none => return none
      | some (replies, s) => return some (reply :: replies, s)

/-- The data of a reply: what stands between the ten bytes in front and the sum. -/
def replyData (reply : List UInt8) : List UInt8 := (reply.drop 10).take (reply.length - 11)

/-- A reply with the right fields. -/
structure PieceReply (total index : Nat) (reply : List UInt8) : Prop where
  totalField : reply.getD 8 0 = UInt8.ofNat total
  indexField : reply.getD 9 0 = UInt8.ofNat index
  lengthField : (reply.drop 4).take 2 = lenField ((replyData reply).length + 4)
  checksum : checksumOk reply = true

/-- The pieces of `data`, asked for in order. -/
def ReadbackComplete (heaps : Nat → Heap) (front tail : List UInt8) (s : CertState)
    (tx : List UInt8) (m : ByteMem) (data : List UInt8) : Prop :=
  ∃ replies, ((askPieces heaps front tail (pieceCount data.length) 0 s tx).run m).1 =
      some (replies, ⟨none, 0⟩) ∧
    replies.length = pieceCount data.length ∧
    (∀ i reply, replies[i]? = some reply → PieceReply (pieceCount data.length) i reply) ∧
    (replies.map replyData).flatten = data

/-- Memory for the buffer, unless there is one, and for the flash record. -/
def ReadbackMemory (heap : Heap) (s : CertState) (len : Nat) : Prop :=
  (s.certBuffer.isSome ∨ ((heap 0).memoryAlloc maxRsaLen).isSome) ∧
    ((heap 1).memoryAlloc (recordAllocLen len + 4)).isSome

/-! ## One reply -/

/-- A reply as the code builds it. -/
def replyOf (front : List UInt8) (total index : Nat) (data : List UInt8) : List UInt8 :=
  let bytes := front.take 4 ++ (lenField (data.length + 4) ++ (front.drop 6 ++
    ([UInt8.ofNat total, UInt8.ofNat index] ++ data)))
  bytes ++ [bytes.foldl (· + ·) 0]

section Reply

variable {front : List UInt8} (eight : front.length = 8)
include eight

theorem length_replyOf (total index : Nat) (data : List UInt8) :
    (replyOf front total index data).length = data.length + 11 := by
  simp only [replyOf, lenField, List.length_append, List.length_take, List.length_drop,
    List.length_cons, List.length_nil, eight]
  omega

theorem replyData_replyOf (total index : Nat) (data : List UInt8) :
    replyData (replyOf front total index data) = data := by
  have ten : (front.take 4 ++ (lenField (data.length + 4) ++ (front.drop 6 ++
      [UInt8.ofNat total, UInt8.ofNat index]))).length = 10 := by
    simp [lenField, eight]
  have regrouped : front.take 4 ++ (lenField (data.length + 4) ++ (front.drop 6 ++
      ([UInt8.ofNat total, UInt8.ofNat index] ++ data))) =
      front.take 4 ++ (lenField (data.length + 4) ++ (front.drop 6 ++
        [UInt8.ofNat total, UInt8.ofNat index])) ++ data := by
    simp only [List.append_assoc]
  rw [replyData, length_replyOf eight, Nat.add_sub_cancel, replyOf, regrouped, List.append_assoc,
    ← ten, List.drop_left, List.take_left]

theorem replyOf_pieceReply (total index : Nat) (data : List UInt8) :
    PieceReply total index (replyOf front total index data) := by
  obtain ⟨a, b, c, d, e, f, g, h, rfl⟩ : ∃ a b c d e f g h, front = [a, b, c, d, e, f, g, h] := by
    match front, eight with
    | [a, b, c, d, e, f, g, h], _ => exact ⟨a, b, c, d, e, f, g, h, rfl⟩
  refine ⟨rfl, rfl, ?_, ?_⟩
  · rw [replyData_replyOf rfl]
    rfl
  · exact checksumOk_sum _

/-- The reply in `tx_buf`, whose first eight bytes are those of the request. -/
theorem readbackFrame_eq (readDataLen : Nat) {tx block : List UInt8} {index dataLen : Nat}
    (size : tx.length = uartMaxFrameLen) (copied : tx.take 8 = front)
    (inside : index * certPiece + dataLen ≤ block.length) (short : dataLen ≤ certPiece) :
    ∃ tx', readbackFrame tx block readDataLen index dataLen = some tx' ∧
      tx'.length = uartMaxFrameLen ∧
      tx'.take (dataLen + 11) = replyOf front (totalFrames readDataLen) index
        ((block.drop (index * certPiece)).take dataLen) := by
  have found := Block.read_of_le inside
  have pieceLen := Block.length_read found
  generalize (block.drop (index * certPiece)).take dataLen = data at found pieceLen ⊢
  obtain ⟨rest, rfl⟩ : ∃ rest, tx = front ++ rest :=
    ⟨tx.drop 8, by rw [← copied, List.take_append_drop]⟩
  have room : rest.length = 532 := by
    rw [List.length_append, eight, uartMaxFrameLen] at size
    omega
  unfold certPiece at short
  have four : (front.take 4).length = 4 := by simp [eight]
  have later : (front.drop 4 ++ rest).drop 2 = front.drop 6 ++ rest := by
    rw [List.drop_append_of_le_length (by simp [eight]), List.drop_drop]
  have head : (front.take 4 ++ (lenField (dataLen + 4) ++ front.drop 6)).length = 8 := by
    simp [lenField, eight]
  -- the four writes, each behind the bytes of the one before it
  have first : Block.write (front ++ rest) 4 (lenField (dataLen + 4)) =
      some (front.take 4 ++ (lenField (dataLen + 4) ++ front.drop 6) ++ rest) := by
    have split : front ++ rest = front.take 4 ++ (front.drop 4 ++ rest) := by
      rw [← List.append_assoc, List.take_append_drop]
    rw [split, Block.write_append four (by simp [lenField]; omega)]
    change some (front.take 4 ++ lenField (dataLen + 4) ++ (front.drop 4 ++ rest).drop 2) = _
    rw [later]
    simp
  have reply : replyOf front (totalFrames readDataLen) index data =
      front.take 4 ++ (lenField (dataLen + 4) ++ front.drop 6) ++
        [UInt8.ofNat (totalFrames readDataLen), UInt8.ofNat index] ++ data ++
        [(front.take 4 ++ (lenField (dataLen + 4) ++ front.drop 6) ++
          [UInt8.ofNat (totalFrames readDataLen), UInt8.ofNat index] ++ data).foldl (· + ·) 0] := by
    simp [replyOf, pieceLen]
  rw [reply]
  generalize front.take 4 ++ (lenField (dataLen + 4) ++ front.drop 6) = bytes at first head
  have second : Block.write (bytes ++ rest) 8
      [UInt8.ofNat (totalFrames readDataLen), UInt8.ofNat index] =
      some (bytes ++ [UInt8.ofNat (totalFrames readDataLen), UInt8.ofNat index] ++ rest.drop 2) := by
    rw [Block.write_append head (by simp; omega)]
    rfl
  have ten : (bytes ++ [UInt8.ofNat (totalFrames readDataLen), UInt8.ofNat index]).length = 10 := by
    simp [head]
  generalize bytes ++ [UInt8.ofNat (totalFrames readDataLen), UInt8.ofNat index] = bytes'
    at second ten
  have third : Block.write (bytes' ++ rest.drop 2) 10 data =
      some (bytes' ++ data ++ (rest.drop 2).drop dataLen) := by
    rw [Block.write_append ten (by simp; omega), pieceLen]
  have total : (bytes' ++ data).length = dataLen + 10 := by
    rw [List.length_append, ten, pieceLen, Nat.add_comm]
  have sum : getChecksum (bytes' ++ data ++ (rest.drop 2).drop dataLen) (dataLen + 10) =
      (bytes' ++ data).foldl (· + ·) 0 := by
    rw [getChecksum_eq, ← total, List.take_left]
  have fourth : Block.write (bytes' ++ data ++ (rest.drop 2).drop dataLen) (dataLen + 10)
      [(bytes' ++ data).foldl (· + ·) 0] =
      some (bytes' ++ data ++ [(bytes' ++ data).foldl (· + ·) 0] ++
        ((rest.drop 2).drop dataLen).drop 1) := by
    rw [Block.write_append total (by simp; omega)]
    rfl
  refine ⟨bytes' ++ data ++ [(bytes' ++ data).foldl (· + ·) 0] ++
    ((rest.drop 2).drop dataLen).drop 1, ?_, ?_, ?_⟩
  · simp only [readbackFrame, first, Option.bind_eq_bind, Option.bind_some, second, found, third, sum,
      fourth]
  · simp only [List.length_append, total, List.length_singleton, List.length_drop, room,
      uartMaxFrameLen]
    omega
  · exact List.take_left' (by rw [List.length_append, total, List.length_singleton])

end Reply

/-! ## The pieces of a record -/

/-- The piece the code sends. -/
def codePiece (data : List UInt8) (index : Nat) : List UInt8 :=
  (data.drop (index * certPiece)).take
    (if index + 1 = pieceCount data.length then data.length % certPiece else certPiece)

theorem totalFrames_eq {len : Nat} (short : len ≤ maxRsaLen) : totalFrames len = pieceCount len := by
  unfold maxRsaLen at short
  unfold totalFrames pieceCount certPiece
  split <;> omega

theorem pieceLen_eq {len index : Nat} (short : len ≤ maxRsaLen) (asked : index < pieceCount len) :
    pieceLen len index =
      some (if index + 1 = pieceCount len then len % certPiece else certPiece) := by
  unfold pieceLen
  rw [totalFrames_eq short]
  split
  next => rfl
  next => rw [if_pos (by omega)]

theorem pieceLen_inside {len index : Nat} (asked : index < pieceCount len) :
    index * certPiece + (if index + 1 = pieceCount len then len % certPiece else certPiece) ≤ len := by
  unfold pieceCount certPiece at *
  split <;> omega

/-- The pieces of the code are the record, but for a last piece that is full. -/
theorem flatten_codePieces {data : List UInt8} (some : data ≠ []) :
    ((List.range (pieceCount data.length)).map (codePiece data)).flatten =
      data.take (if data.length % certPiece = 0 then data.length - certPiece else data.length) := by
  have pos : 0 < data.length := List.length_pos_iff.mpr some
  obtain ⟨count, total⟩ : ∃ count, pieceCount data.length = count + 1 :=
    ⟨pieceCount data.length - 1, by unfold pieceCount certPiece; omega⟩
  have front : (List.range count).map (codePiece data) =
      (List.range count).map fun i => (data.drop (i * certPiece)).take certPiece := by
    refine List.map_congr_left fun i mem => ?_
    have small := List.mem_range.mp mem
    rw [codePiece, if_neg (by omega)]
  have last : codePiece data count =
      (data.drop (count * certPiece)).take (data.length % certPiece) := by
    rw [codePiece, if_pos total.symm]
  rw [total, List.range_succ, List.map_append, List.flatten_append, front, Block.flatten_slices,
    List.map_singleton, List.flatten_singleton, last, ← List.take_add]
  congr 1
  unfold pieceCount certPiece at *
  split <;> omega

/-! ## The answers -/

section Answers

variable {front tail : List UInt8} {kind : CertKind} {tx : List UInt8} {m : ByteMem}
  {data : List UInt8}

/-- The record stands at the start of the buffer. -/
structure Loaded (block data : List UInt8) : Prop where
  holds : block.take data.length = data
  room : maxRsaLen ≤ block.length
  short : data.length ≤ maxRsaLen

/-- A piece from a buffer with the record. -/
theorem Loaded.piece {block : List UInt8} (loaded : Loaded block data) {index : Nat}
    (asked : index < pieceCount data.length) :
    (block.drop (index * certPiece)).take
        (if index + 1 = pieceCount data.length then data.length % certPiece else certPiece) =
      codePiece data index := by
  have inside := pieceLen_inside asked
  rw [codePiece, ← loaded.holds]
  rw [List.length_take, Nat.min_eq_left (Nat.le_trans loaded.short loaded.room), List.drop_take,
    List.take_take]
  congr 1
  omega

/-- A request for a piece: the front is copied, and the piece read. -/
theorem askPiece_start (eight : front.length = 8)
    (named : CertKind.ofSubCmd (front.getD 7 0) = some kind) (size : tx.length = uartMaxFrameLen) :
    ∃ tx0, tx0.length = uartMaxFrameLen ∧ tx0.take 8 = front ∧
      ∀ (heap : Heap) (s : CertState) {index : Nat}, index < 256 →
        askPiece heap front tail s tx index = do
          match ← readPiece heap s kind index tx0 with
          | none => return none
          | some (frameLen, s, tx) => return some (tx.take frameLen, s, tx) := by
  refine ⟨tx.take 0 ++ front ++ tx.drop (0 + front.length), ?_, ?_, fun heap s index small => ?_⟩
  · simp [eight, size, uartMaxFrameLen]
  · rw [List.take_zero, List.nil_append]
    exact List.take_left' eight
  · have number : ((front ++ UInt8.ofNat index :: tail).getD 8 0).toNat = index := by
      rw [List.getD_eq_getElem?_getD, List.getElem?_append_right (by omega), eight]
      simp only [Nat.sub_self, List.getElem?_cons_zero, Option.getD_some, UInt8.toNat_ofNat']
      omega
    rw [askPiece, Block.write_of_le (by rw [eight, size]; decide)]
    dsimp only
    rw [readCertificate, named]
    dsimp only
    rw [number]

/-- The reply for a piece, once the record is in the buffer. -/
theorem askPiece_built (eight : front.length = 8)
    (named : CertKind.ofSubCmd (front.getD 7 0) = some kind)
    (size : tx.length = uartMaxFrameLen) {heap : Heap} {s : CertState} {index : Nat}
    {block : List UInt8} (loaded : Loaded block data) (asked : index < pieceCount data.length)
    (load : (loadCertificate heap s kind index).run m = (some (some (block, data.length)), m)) :
    ∃ tx', tx'.length = uartMaxFrameLen ∧
      (askPiece heap front tail s tx index).run m =
        (some (replyOf front (pieceCount data.length) index (codePiece data index),
          if index + 1 = pieceCount data.length then ⟨none, 0⟩ else ⟨some block, data.length⟩, tx'),
          m) := by
  have total := totalFrames_eq loaded.short
  have small : index < 256 := by
    have short := loaded.short
    unfold pieceCount certPiece at asked
    unfold maxRsaLen at short
    omega
  obtain ⟨tx0, size0, head, start⟩ := @askPiece_start front tail kind tx eight named size
  obtain ⟨tx', built, size', reply⟩ := readbackFrame_eq eight data.length size0 head
    (Nat.le_trans (pieceLen_inside asked) (Nat.le_trans loaded.short loaded.room))
    (show (if index + 1 = pieceCount data.length then data.length % certPiece else certPiece) ≤
      certPiece by split <;> [exact Nat.le_of_lt (Nat.mod_lt _ (by decide)); exact Nat.le_refl _])
  refine ⟨tx', size', ?_⟩
  rw [loaded.piece asked, total] at reply
  rw [start heap s small, run_bind, readPiece, run_bind, load]
  dsimp only
  rw [pieceLen_eq loaded.short asked]
  dsimp only
  rw [built]
  dsimp only
  rw [total, CertState.reset, ← reply]
  generalize (if index + 1 = pieceCount data.length then data.length % certPiece else certPiece) =
    dataLen
  by_cases last : index + 1 = pieceCount data.length
  · rw [if_pos last, if_pos last]
    rfl
  · rw [if_neg last, if_neg last]
    rfl

/-- The pieces behind the first. -/
theorem askPieces_loaded (eight : front.length = 8)
    (named : CertKind.ofSubCmd (front.getD 7 0) = some kind) (heaps : Nat → Heap)
    {block : List UInt8} (loaded : Loaded block data) {count index : Nat} (later : 0 < index)
    (ends : index + count = pieceCount data.length) (size : tx.length = uartMaxFrameLen) :
    ((askPieces heaps front tail count index
        (if count = 0 then ⟨none, 0⟩ else ⟨some block, data.length⟩) tx).run m).1 =
      some ((List.range' index count).map fun i =>
        replyOf front (pieceCount data.length) i (codePiece data i), ⟨none, 0⟩) := by
  induction count generalizing index tx with
  | zero => rfl
  | succ count ih =>
    have load : (loadCertificate (heaps index) ⟨some block, data.length⟩ kind index).run m =
        (some (some (block, data.length)), m) := by
      rw [loadCertificate, if_neg (by omega)]
      rfl
    obtain ⟨tx', size', asked⟩ := @askPiece_built front tail kind tx m data eight named size _ _ _ _
      loaded (by omega) load
    have rest := @ih tx' (index + 1) (by omega) (by omega) size'
    rw [if_neg (by omega), askPieces, run_bind, asked]
    dsimp only
    have state : (if index + 1 = pieceCount data.length then (⟨none, 0⟩ : CertState)
        else ⟨some block, data.length⟩) =
        if count = 0 then ⟨none, 0⟩ else ⟨some block, data.length⟩ := by
      by_cases last : count = 0
      · rw [if_pos last, if_pos (by omega)]
      · rw [if_neg last, if_neg (by omega)]
    rw [state, run_bind, rest]
    rfl

/-- The buffer that is found or allocated is long enough. -/
theorem room_of_taken {heap : Heap} {s : CertState} {block : List UInt8}
    (roomy : ∀ block ∈ s.certBuffer, maxRsaLen ≤ block.length)
    (taken : s.certBuffer.or ((heap 0).memoryAlloc maxRsaLen) = some block) :
    maxRsaLen ≤ block.length := by
  rcases Option.or_eq_some_iff.mp taken with kept | ⟨-, found⟩
  · exact roomy block kept
  · exact Nat.le_of_eq ((heap 0).memoryAlloc_length _ _ found).symm

/-- The first piece loads the record when there is memory for it. Printing the buffer needs a zero
in it, which a record shorter than `MAX_RSA_LEN` leaves. -/
theorem loadCertificate_memory {heap : Heap} {s : CertState} (stored : RecordAt m kind.addr data)
    (short : data.length ≤ maxRsaLen)
    (roomy : ∀ block ∈ s.certBuffer, maxRsaLen ≤ block.length)
    (memory : ReadbackMemory heap s data.length) :
    ∃ block, Loaded block data ∧ (data.length < maxRsaLen → 0 ∈ block) ∧
      (loadCertificate heap s kind 0).run m =
        (if 0 ∈ block then some (some (block, data.length)) else none, m) := by
  obtain ⟨buffer, recordBlock⟩ := memory
  rw [← Bool.or_eq_true, ← Option.isSome_or] at buffer
  obtain ⟨block, taken⟩ := Option.isSome_iff_exists.mp buffer
  have room := room_of_taken roomy taken
  have zeros : (List.replicate maxRsaLen (0 : UInt8)).length = maxRsaLen := List.length_replicate
  have cleared : Block.write block 0 (List.replicate maxRsaLen 0) =
      some (List.replicate maxRsaLen 0 ++ block.drop maxRsaLen) := by
    have written := @Block.write_append _ (List.replicate maxRsaLen 0) 0 [] block rfl
      (by rwa [zeros])
    rwa [List.nil_append, List.nil_append, zeros] at written
  have copied : Block.write (List.replicate maxRsaLen 0 ++ block.drop maxRsaLen) 0 data =
      some (data ++ (List.replicate (maxRsaLen - data.length) 0 ++ block.drop maxRsaLen)) := by
    have written := @Block.write_append _ data 0 [] (List.replicate maxRsaLen 0 ++ block.drop maxRsaLen)
      rfl (Nat.le_trans short (by simp))
    rw [List.nil_append, List.nil_append, List.drop_append_of_le_length (by rwa [zeros])] at written
    rw [written]
    simp
  have found : (yaReadFlashWithVarLen (heap 1) kind.addr maxRsaLen 1).run m = (some data, m) := by
    rw [yaReadFlashWithVarLen_memory _ stored (by unfold maxRsaLen at short; omega) (by decide)
      (by decide) (by decide), if_pos ⟨⟨Nat.le_trans short (by decide), short⟩, recordBlock⟩]
  refine ⟨data ++ (List.replicate (maxRsaLen - data.length) 0 ++ block.drop maxRsaLen),
    ⟨List.take_left, ?_, short⟩, ?_, ?_⟩
  · simp only [List.length_append, List.length_replicate]
    omega
  · intro less
    have zero : (0 : UInt8) ∈ List.replicate (maxRsaLen - data.length) 0 := by
      rw [List.mem_replicate]
      exact ⟨by omega, rfl⟩
    simp [zero]
  · rw [loadCertificate, if_pos rfl, taken]
    dsimp only
    rw [cleared]
    dsimp only
    rw [run_bind, found]
    dsimp only
    rw [copied]
    dsimp only
    generalize data ++ (List.replicate (maxRsaLen - data.length) 0 ++ block.drop maxRsaLen) = block
    by_cases zero : 0 ∈ block
    · rw [if_neg (by simpa using zero), if_pos zero]
      rfl
    · rw [if_pos zero, if_neg zero]
      rfl

/-- Without memory the first piece is not answered. -/
theorem loadCertificate_no_memory {heap : Heap} {s : CertState} (stored : RecordAt m kind.addr data)
    (short : data.length ≤ maxRsaLen)
    (roomy : ∀ block ∈ s.certBuffer, maxRsaLen ≤ block.length)
    (memory : ¬ ReadbackMemory heap s data.length) :
    (loadCertificate heap s kind 0).run m = (some none, m) := by
  have refused : (∃ block, s.certBuffer.or ((heap 0).memoryAlloc maxRsaLen) = some block) →
      (yaReadFlashWithVarLen (heap 1) kind.addr maxRsaLen 1).run m = (none, m) := by
    rintro ⟨block, taken⟩
    have buffer : s.certBuffer.isSome ∨ ((heap 0).memoryAlloc maxRsaLen).isSome := by
      rw [← Bool.or_eq_true, ← Option.isSome_or, taken]
      rfl
    rw [yaReadFlashWithVarLen_memory _ stored (by unfold maxRsaLen at short; omega) (by decide)
      (by decide) (by decide), if_neg]
    exact fun both => memory ⟨buffer, both.2⟩
  rw [loadCertificate, if_pos rfl]
  cases taken : s.certBuffer.or ((heap 0).memoryAlloc maxRsaLen) with
  | none => rfl
  | some block =>
    have room := room_of_taken roomy taken
    dsimp only
    rw [Block.write_of_le (by rwa [List.length_replicate, Nat.zero_add])]
    dsimp only
    rw [run_bind, refused ⟨block, taken⟩]
    rfl

/-- The answers from the start, with memory. -/
theorem askPieces_memory (eight : front.length = 8)
    (named : CertKind.ofSubCmd (front.getD 7 0) = some kind) (heaps : Nat → Heap) {s : CertState}
    (stored : RecordAt m kind.addr data) (filled : data ≠ []) (short : data.length ≤ maxRsaLen)
    (roomy : ∀ block ∈ s.certBuffer, maxRsaLen ≤ block.length)
    (memory : ReadbackMemory (heaps 0) s data.length) (size : tx.length = uartMaxFrameLen) :
    ((askPieces heaps front tail (pieceCount data.length) 0 s tx).run m).1 =
        some ((List.range (pieceCount data.length)).map fun i =>
          replyOf front (pieceCount data.length) i (codePiece data i), ⟨none, 0⟩) ∨
      data.length = maxRsaLen ∧
        ((askPieces heaps front tail (pieceCount data.length) 0 s tx).run m).1 = none := by
  have pos : 0 < data.length := List.length_pos_iff.mpr filled
  obtain ⟨count, total⟩ : ∃ count, pieceCount data.length = count + 1 :=
    ⟨pieceCount data.length - 1, by unfold pieceCount certPiece; omega⟩
  obtain ⟨block, loaded, zero, load⟩ := loadCertificate_memory stored short roomy memory
  by_cases printed : 0 ∈ block
  · left
    rw [if_pos printed] at load
    obtain ⟨tx', size', asked⟩ := @askPiece_built front tail kind tx m data eight named size _ _ _ _
      loaded (by omega) load
    have rest := @askPieces_loaded front tail kind tx' m data eight named heaps _ loaded count 1
      (by omega) (by omega) size'
    have state : (if 0 + 1 = pieceCount data.length then (⟨none, 0⟩ : CertState)
        else ⟨some block, data.length⟩) =
        if count = 0 then ⟨none, 0⟩ else ⟨some block, data.length⟩ := by
      by_cases last : count = 0
      · rw [if_pos last, if_pos (by omega)]
      · rw [if_neg last, if_neg (by omega)]
    rw [state] at asked
    rw [total] at asked rest ⊢
    rw [askPieces, run_bind, asked]
    dsimp only
    rw [run_bind, rest, List.range_eq_range', List.range'_succ]
    rfl
  · right
    refine ⟨Nat.le_antisymm short (Nat.le_of_not_lt fun less => printed (zero less)), ?_⟩
    obtain ⟨tx0, -, -, start⟩ := @askPiece_start front tail kind tx eight named size
    rw [if_neg printed] at load
    rw [total, askPieces, run_bind, start _ _ (by omega), run_bind, readPiece, run_bind, load]
    rfl

/-- Without memory the first answer is empty. -/
theorem askPieces_no_memory (eight : front.length = 8)
    (named : CertKind.ofSubCmd (front.getD 7 0) = some kind) (heaps : Nat → Heap) {s : CertState}
    (stored : RecordAt m kind.addr data) (short : data.length ≤ maxRsaLen)
    (roomy : ∀ block ∈ s.certBuffer, maxRsaLen ≤ block.length)
    (memory : ¬ ReadbackMemory (heaps 0) s data.length) (size : tx.length = uartMaxFrameLen)
    (count : Nat) {replies : List (List UInt8)} {s' : CertState}
    (answered : ((askPieces heaps front tail (count + 1) 0 s tx).run m).1 = some (replies, s')) :
    replies[0]? = some [] := by
  obtain ⟨tx0, -, -, start⟩ := @askPiece_start front tail kind tx eight named size
  have load := loadCertificate_no_memory stored short roomy memory
  rw [askPieces, run_bind, start _ _ (by omega), run_bind, readPiece, run_bind, load] at answered
  simp only [run_pure, List.take_zero, run_bind] at answered
  split at answered
  next => cases answered
  next => 
    cases answered
    rfl

end Answers

/-! ## Complete answers -/

section Complete

variable {front tail : List UInt8} (eight : front.length = 8) {kind : CertKind}
  (named : CertKind.ofSubCmd (front.getD 7 0) = some kind) {heaps : Nat → Heap} {s : CertState}
  (roomy : ∀ block ∈ s.certBuffer, maxRsaLen ≤ block.length) {tx : List UInt8}
  (size : tx.length = uartMaxFrameLen) {m : ByteMem} {data : List UInt8}
  (stored : RecordAt m kind.addr data) (filled : data ≠ []) (short : data.length ≤ maxRsaLen)
include eight named roomy size stored filled short

omit named roomy size stored filled short in
theorem replyData_pieces :
    ((List.range (pieceCount data.length)).map fun i =>
      replyOf front (pieceCount data.length) i (codePiece data i)).map replyData =
      (List.range (pieceCount data.length)).map (codePiece data) := by
  rw [List.map_map]
  exact List.map_congr_left fun i _ => replyData_replyOf eight _ _ _

/-- Without memory the first answer has no field for the number of pieces. -/
theorem ReadbackComplete.memory (complete : ReadbackComplete heaps front tail s tx m data) :
    ReadbackMemory (heaps 0) s data.length := by
  obtain ⟨replies, answered, -, fields, -⟩ := complete
  have pos : 0 < data.length := List.length_pos_iff.mpr filled
  by_contra missing
  obtain ⟨count, total⟩ : ∃ count, pieceCount data.length = count + 1 :=
    ⟨pieceCount data.length - 1, by unfold pieceCount certPiece; omega⟩
  rw [total] at answered
  have empty := askPieces_no_memory eight named heaps stored short roomy missing size count answered
  have field := (fields 0 [] empty).totalField
  have small : pieceCount data.length < 256 := by
    unfold pieceCount certPiece
    unfold maxRsaLen at short
    omega
  have zero : pieceCount data.length % 256 = 0 := by
    simpa using congrArg UInt8.toNat field.symm
  omega

/-- A multiple of 512 bytes comes back without its last 512. -/
theorem ReadbackComplete.remainder (complete : ReadbackComplete heaps front tail s tx m data) :
    data.length % certPiece ≠ 0 := by
  have memory := complete.memory eight named roomy size stored filled short
  obtain ⟨replies, answered, -, -, whole⟩ := complete
  intro multiple
  have pos : 0 < data.length := List.length_pos_iff.mpr filled
  rcases askPieces_memory eight named heaps stored filled short roomy memory size with
    all | ⟨-, fault⟩
  · rw [all] at answered
    obtain ⟨rfl, -⟩ := Prod.mk.inj (Option.some.inj answered)
    rw [replyData_pieces eight, flatten_codePieces filled, if_pos multiple] at whole
    have less := congrArg List.length whole
    rw [List.length_take] at less
    unfold certPiece at less
    omega
  · rw [fault] at answered
    cases answered

/-- Asked for in order, the pieces of a record of 1 to `MAX_RSA_LEN` bytes are complete exactly when
there was memory for them and the length is no multiple of 512. -/
theorem readback_complete_iff :
    ReadbackComplete heaps front tail s tx m data ↔
      ReadbackMemory (heaps 0) s data.length ∧ data.length % certPiece ≠ 0 := by
  constructor
  · intro complete
    exact ⟨complete.memory eight named roomy size stored filled short,
      complete.remainder eight named roomy size stored filled short⟩
  · rintro ⟨memory, rest⟩
    rcases askPieces_memory eight named heaps stored filled short roomy memory size with
      all | ⟨full, -⟩
    · refine ⟨_, all, by simp, ?_, ?_⟩
      · intro i reply found
        rw [List.getElem?_map] at found
        obtain ⟨j, place, rfl⟩ := Option.map_eq_some_iff.mp found
        obtain ⟨inside, rfl⟩ := List.getElem?_eq_some_iff.mp place
        rw [List.getElem_range]
        exact replyOf_pieceReply eight _ _ _
      · rw [replyData_pieces eight, flatten_codePieces filled, if_neg rest, List.take_length]
    · rw [full] at rest
      exact absurd (by decide) rest

end Complete

/-- The first eight bytes of a request for a certificate. -/
def askCert : List UInt8 := [0x55, 0xAA, 0x00, 0xF2, 0x00, 0x03, 0x01, 0x01]

/-- A certificate of some bytes, in flash. -/
theorem certificate_stored {n : Nat} (some : 0 < n) (short : n ≤ 600) :
    ∃ m, RecordAt m (CertKind.addr .cert) (List.replicate n 65) := by
  have len : (List.replicate n (65 : UInt8)).length = n := List.length_replicate
  obtain ⟨m, -, stored, -⟩ := @yaWriteFlash_run Board.zeroed Board.zeroed_allocOk
    (CertKind.addr .cert) (by decide) (List.replicate n 65) 1 (by decide) (by omega)
    (by rw [len]; exact Nat.le_trans short (by decide)) (by omega) (fun _ => 0xFF)
  exact ⟨m, stored⟩

/-- A certificate of 600 bytes comes back in two answers. -/
theorem readback_complete_two :
    ∃ m, RecordAt m (CertKind.addr .cert) (List.replicate 600 65) ∧
      ReadbackComplete (fun _ _ => Board.zeroed) askCert [] ⟨none, 0⟩
        (List.replicate uartMaxFrameLen 0) m (List.replicate 600 65) := by
  have len : (List.replicate 600 (65 : UInt8)).length = 600 := List.length_replicate
  obtain ⟨m, stored⟩ := certificate_stored (show 0 < 600 by decide) (by decide)
  refine ⟨m, stored, (readback_complete_iff rfl rfl (by simp) List.length_replicate stored
    (by rw [← List.length_pos_iff, len]; decide) (by rw [len]; decide)).mpr ⟨⟨.inr rfl, rfl⟩, ?_⟩⟩
  rw [len]
  decide

/-- A certificate of 512 bytes, in flash and with all the memory there is, comes back empty. -/
theorem readback_512_not_complete :
    ∃ m, RecordAt m (CertKind.addr .cert) (List.replicate 512 65) ∧
      ¬ ReadbackComplete (fun _ _ => Board.zeroed) askCert [] ⟨none, 0⟩
        (List.replicate uartMaxFrameLen 0) m (List.replicate 512 65) := by
  have len : (List.replicate 512 (65 : UInt8)).length = 512 := List.length_replicate
  obtain ⟨m, stored⟩ := certificate_stored (show 0 < 512 by decide) (by decide)
  refine ⟨m, stored, fun complete => ?_⟩
  have rest := complete.remainder rfl rfl (by simp) List.length_replicate stored
    (by rw [← List.length_pos_iff, len]; decide) (by rw [len]; decide)
  rw [len] at rest
  exact rest (by decide)

end Tr6260
