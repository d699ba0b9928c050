import Tr6260.Uart.Readback
import Tr6260.Uart.CertWrite
import Tr6260.Uart.Handler

/-!
# Inside the buffers

Which frames keep the serial line inside its buffers. `UartPass.Ok` is the condition on a pass, in
the state before it; a run of such passes has no access outside of `rx_buf`, `tx_buf` and
`cert_buffer`.
-/

namespace Tr6260

open FlashProg ByteMem

/-! ## The condition -/

/-- The block is one of the writer's or one of the reader's, and the length one of the reader's. -/
structure CertState.Ok (s : CertState) : Prop where
  block : ∀ block ∈ s.certBuffer, block.length = maxRsaLen ∨ block.length = maxCertBufLen
  len : s.readDataLen ≤ maxRsaLen

/-- Both buffers have `UART_MAX_FRAME_LEN` bytes. -/
structure UartBufs.Ok (s : UartBufs) : Prop where
  rx : s.rx.length = uartMaxFrameLen
  tx : s.tx.length = uartMaxFrameLen
  cert : s.cert.Ok

/-- A sub-frame that `write_certificate` can copy: it has its four fields; the first finds memory
or a block of the writer's; the others end inside the block there is; and the last has a sum and
leaves the log a zero to stop at. -/
structure WriteFrameOk (env : CertEnv) (board : Board) (s : CertState) (total index : Nat)
    (buf : List UInt8) (dataLen : Nat) : Prop where
  long : 4 ≤ dataLen
  memory : index = 0 → s.certBuffer = none → (board.memoryAlloc maxCertBufLen).isSome
  writerBlock : index = 0 → ∀ block ∈ s.certBuffer, maxCertBufLen ≤ block.length
  room : index ≠ 0 → ∀ block ∈ s.certBuffer, index * certPiece + (dataLen - 4) ≤ block.length
  sum : index + 1 = total → 2 ≤ dataLen - 4 + index * certPiece
  printable : index + 1 = total → env.logs → index ≠ 0 → ∀ block ∈ s.certBuffer,
    0 ∈ block.take (index * certPiece) ∨ 0 ∈ (buf.drop 10).take (dataLen - 4) ∨
      0 ∈ block.drop (index * certPiece + (dataLen - 4))

/-- The record that is read back leaves a zero in the buffer, which is printed. -/
def ReadFrameOk (s : CertState) (kind : CertKind) (m : ByteMem) : Prop :=
  ∀ data, RecordAt m kind.addr data → data.length = maxRsaLen →
    0 ∈ data ∨ ∃ block ∈ s.certBuffer, 0 ∈ block.drop maxRsaLen

/-- A frame with the right sum in `rx_buf`. -/
structure FrameOk (env : CertEnv) (heap : Heap) (s : CertState) (rx : List UInt8) (bufLen : Nat)
    (m : ByteMem) : Prop where
  write : rx.getD 3 0 = cmdWriteCert → rx.getD 6 0 = 0x01 →
    ∀ kind, CertKind.ofSubCmd (rx.getD 7 0) = some kind →
      (rx.getD 9 0).toNat ≠ 0 ∧ s.certBuffer = none ∨
        WriteFrameOk env (heap 0) s (rx.getD 8 0).toNat (rx.getD 9 0).toNat rx (bufLen - 7)
  read : rx.getD 3 0 = cmdReadbackCert → rx.getD 6 0 = 0x01 →
    ∀ kind, CertKind.ofSubCmd (rx.getD 7 0) = some kind → (rx.getD 8 0).toNat = 0 →
      ReadFrameOk s kind m

/-- `rx_buf` with a frame at its start. -/
def frameIn (rx header body : List UInt8) : List UInt8 :=
  header ++ body ++ rx.drop (uartHeaderWithLen + body.length)

/-- A pass that stays inside: a frame it takes fits, and is handled inside when its sum is right. -/
def UartPass.Ok (p : UartPass) (env : UartEnv) (s : UartLine) (m : ByteMem) : Prop :=
  ∀ header body pending, p.take s.pending = (.frame header body, pending) →
    uartHeaderWithLen + body.length ≤ uartMaxFrameLen ∧
      (checksumOk (header ++ body) = true →
        FrameOk env.cert p.heap s.bufs.cert (frameIn s.bufs.rx header body)
          (uartHeaderWithLen + body.length) m)

/-- Passes that each stay inside, in the states they come to. -/
def PassesOk (env : UartEnv) : List UartPass → UartLine → ByteMem → Prop
  | [], _, _ => True
  | p :: later, s, m => p.Ok env s m ∧ ∀ reply s' m',
    (uartPass env p s).run m = (some (reply, s'), m') → PassesOk env later s' m'

/-! ## Writing certificates -/

/-- The check and the write inside the block. -/
theorem yaWriteCheckAwsPara_inside (env : CertEnv) (board : Board) (kind : CertKind)
    {block : List UInt8} {dataLen : Nat} (fits : dataLen + 1 ≤ block.length)
    (bound : block.length ≤ maxCertBufLen) (m : ByteMem) :
    ∃ ret block' m', (yaWriteCheckAwsPara env board kind block dataLen).run m =
      (some (ret, block'), m') := by
  obtain ⟨block', written, size⟩ := Block.exists_write
    (show dataLen + [(0 : UInt8)].length ≤ block.length from fits)
  have short : (block'.take dataLen).length < 65532 := by
    rw [List.length_take, size]
    unfold maxCertBufLen at bound
    omega
  rw [yaWriteCheckAwsPara, written]
  dsimp only
  by_cases parsed : env.parses kind (block'.take (dataLen + 1)) = false
  · rw [if_pos parsed]
    exact ⟨_, _, _, rfl⟩
  · rw [if_neg parsed, run_bind]
    obtain ⟨ret, m', wrote⟩ := yaWriteFlash_inside board kind.addr 1 short m
    rw [wrote]
    exact ⟨_, _, _, rfl⟩

/-- A last sub-frame inside its block. What is read back is what was written. -/
theorem finishCertificate_inside {env : CertEnv} {heap : Heap} {kind : CertKind}
    {block : List UInt8} {certLen : Nat} (long : 2 ≤ certLen) (fits : certLen ≤ block.length)
    (bound : block.length ≤ maxCertBufLen) (printable : env.logs → 0 ∈ block) (m : ByteMem) :
    ∃ result m', (finishCertificate env heap kind block certLen).run m = (some result, m') := by
  obtain ⟨ret, block', m1, wrote⟩ := yaWriteCheckAwsPara_inside env (heap 1) kind
    (show certLen - 2 + 1 ≤ block.length by omega) bound m
  rw [finishCertificate, if_neg]
  · dsimp only
    rw [run_bind, wrote]
    dsimp only
    by_cases failed : ret = 0
    case neg =>
      rw [if_pos failed]
      exact ⟨_, _, rfl⟩
    subst failed
    obtain ⟨stored, short, len⟩ := yaWriteCheckAwsPara_accepted wrote
    rw [if_neg (by simp), run_bind, yaReadFlashWithVarLen_memory _ stored
      (Nat.lt_of_le_of_lt short (by decide)) (by decide) (by decide) (by decide)]
    by_cases found : ((block.take (certLen - 2)).length ≤ maxDataLen - 10 ∧
        (block.take (certLen - 2)).length ≤ maxCertBufLen) ∧
        ((heap 2).memoryAlloc (recordAllocLen (block.take (certLen - 2)).length + 4)).isSome
    case neg =>
      rw [if_neg found]
      exact ⟨_, _, rfl⟩
    rw [if_pos found]
    dsimp only
    obtain ⟨block2, copied, -⟩ := Block.exists_write
      (show 0 + (block.take (certLen - 2)).length ≤ block'.length by
        rw [List.length_take]
        omega)
    rw [copied]
    dsimp only
    split
    · exact ⟨_, _, rfl⟩
    · split
      · exact ⟨_, _, rfl⟩
      · exact ⟨_, _, rfl⟩
  · rintro (⟨logs, missing⟩ | short | outside)
    · exact missing (printable logs)
    · omega
    · omega

/-- Sub-frame `0` finds a cleared block of the writer's. -/
theorem certBlock_cleared {board : Board} {s : CertState} (ok : s.Ok)
    (memory : s.certBuffer = none → (board.memoryAlloc maxCertBufLen).isSome)
    (writerBlock : ∀ block ∈ s.certBuffer, maxCertBufLen ≤ block.length) :
    certBlock board s 0 = some (some (List.replicate maxCertBufLen 0)) := by
  have buffer : s.certBuffer.isSome ∨ (board.memoryAlloc maxCertBufLen).isSome := by
    cases kept : s.certBuffer with
    | none => exact .inr (memory kept)
    | some block => exact .inl rfl
  obtain ⟨block, taken, cleared⟩ := certBlock_first writerBlock buffer
  have len : block.length = maxCertBufLen := by
    rcases Option.or_eq_some_iff.mp taken with kept | ⟨-, found⟩
    · rcases ok.block block kept with reader | writer
      · have long := writerBlock block kept
        rw [reader] at long
        exact absurd long (by decide)
      · exact writer
    · exact board.memoryAlloc_length _ _ found
  rw [cleared, certFill, List.drop_of_length_le (by omega)]
  simp

/-- A sub-frame that is copied to a block it fits in. -/
theorem writePiece_copied {env : CertEnv} {heap : Heap} {s : CertState} (ok : s.Ok)
    (kind : CertKind) {total index : Nat} {buf : List UInt8} {dataLen : Nat} {block : List UInt8}
    (found : certBlock (heap 0) s index = some (some block))
    (size : block.length = maxRsaLen ∨ block.length = maxCertBufLen)
    (inRx : dataLen + 6 ≤ buf.length) (long : 4 ≤ dataLen)
    (room : index * certPiece + (dataLen - 4) ≤ block.length)
    (sum : index + 1 = total → 2 ≤ dataLen - 4 + index * certPiece)
    (printable : index + 1 = total → env.logs → 0 ∈ block.take (index * certPiece) ∨
      0 ∈ (buf.drop 10).take (dataLen - 4) ∨ 0 ∈ block.drop (index * certPiece + (dataLen - 4)))
    (m : ByteMem) :
    ∃ result s' m', (writePiece env heap s kind total index buf dataLen).run m =
      (some (result, s'), m') ∧ s'.Ok := by
  have data := Block.read_of_le (show 10 + (dataLen - 4) ≤ buf.length by omega)
  have dataLength := Block.length_read data
  generalize (buf.drop 10).take (dataLen - 4) = bytes at data dataLength printable
  obtain ⟨block', written, size'⟩ := Block.exists_write
    (show index * certPiece + bytes.length ≤ block.length by rwa [dataLength])
  have freed : s.free.Ok := ⟨by simp [CertState.free], ok.len⟩
  rw [writePiece, found]
  dsimp only
  rw [if_neg (by omega), data]
  dsimp only
  rw [written]
  dsimp only
  by_cases last : index + 1 = total
  · have zero : env.logs → 0 ∈ block' := by
      intro logs
      rw [Block.mem_write written, dataLength]
      exact printable last logs
    obtain ⟨result, m', finished⟩ := @finishCertificate_inside env heap kind block' _ (sum last)
      (by omega) (by unfold maxRsaLen maxCertBufLen at *; omega) zero m
    rw [if_pos last, run_bind, finished]
    exact ⟨_, _, _, rfl, freed⟩
  · rw [if_neg last]
    by_cases beyond : index + 1 > total
    · rw [if_pos beyond]
      exact ⟨_, _, _, rfl, freed⟩
    · rw [if_neg beyond]
      refine ⟨_, _, _, rfl, ?_, ok.len⟩
      rintro kept same
      obtain rfl := Option.some.inj same
      rwa [size']

/-- A sub-frame that is refused or can be copied. -/
theorem writePiece_inside {env : CertEnv} {heap : Heap} {s : CertState} (ok : s.Ok)
    (kind : CertKind) {total index : Nat} {buf : List UInt8} {dataLen : Nat}
    (inRx : dataLen + 6 ≤ buf.length) (small : dataLen ≤ maxCertBufLen)
    (frame : index ≠ 0 ∧ s.certBuffer = none ∨
      WriteFrameOk env (heap 0) s total index buf dataLen) (m : ByteMem) :
    ∃ result s' m', (writePiece env heap s kind total index buf dataLen).run m =
      (some (result, s'), m') ∧ s'.Ok := by
  by_cases first : index = 0
  · subst first
    rcases frame with ⟨later, -⟩ | frame
    · exact absurd rfl later
    have found := certBlock_cleared ok (frame.memory rfl) (frame.writerBlock rfl)
    have size : (List.replicate maxCertBufLen (0 : UInt8)).length = maxCertBufLen :=
      List.length_replicate
    have long := frame.long
    unfold maxCertBufLen at small
    refine writePiece_copied ok kind found (.inr size) inRx long ?_ frame.sum ?_ m
    · rw [size]
      unfold maxCertBufLen
      omega
    · intro _ _
      right
      right
      rw [List.drop_replicate, List.mem_replicate]
      unfold maxCertBufLen
      exact ⟨by omega, rfl⟩
  · have found : certBlock (heap 0) s index = some s.certBuffer := by rw [certBlock, if_neg first]
    cases kept : s.certBuffer with
    | none =>
      rw [kept] at found
      rw [writePiece, found]
      exact ⟨_, _, _, rfl, ok⟩
    | some block =>
      rcases frame with ⟨-, missing⟩ | frame
      · rw [kept] at missing
        cases missing
      rw [kept] at found
      exact writePiece_copied ok kind found (ok.block block kept) inRx frame.long
        (frame.room first block kept) frame.sum
        (fun last logs => frame.printable last logs first block kept) m

/-- `write_certificate` on a frame in `rx_buf`. -/
theorem writeCertificate_inside {env : CertEnv} {heap : Heap} {s : CertState} (ok : s.Ok)
    {buf : List UInt8} {dataLen : Nat} (inRx : dataLen + 6 ≤ buf.length)
    (small : dataLen ≤ maxCertBufLen)
    (frame : ∀ kind, CertKind.ofSubCmd (buf.getD 7 0) = some kind →
      (buf.getD 9 0).toNat ≠ 0 ∧ s.certBuffer = none ∨
        WriteFrameOk env (heap 0) s (buf.getD 8 0).toNat (buf.getD 9 0).toNat buf dataLen)
    (m : ByteMem) :
    ∃ result s' m', (writeCertificate env heap s buf dataLen).run m = (some (result, s'), m') ∧
      s'.Ok := by
  rw [writeCertificate]
  cases named : CertKind.ofSubCmd (buf.getD 7 0) with
  | some kind => exact writePiece_inside ok kind inRx small (frame kind named) m
  | none =>
    dsimp only
    split
    · rw [run_bind]
      exact ⟨_, _, _, rfl, ok⟩
    · split
      · rw [run_bind]
        exact ⟨_, _, _, rfl, ok⟩
      · exact ⟨_, _, _, rfl, by simp [CertState.free], ok.len⟩

/-! ## Reading certificates -/

/-- The record in a buffer that is long enough for it. -/
theorem loadCertificate_inside {heap : Heap} {s : CertState} (ok : s.Ok) (kind : CertKind)
    {index : Nat} {m : ByteMem} (frame : index = 0 → ReadFrameOk s kind m) :
    ∃ loaded, (loadCertificate heap s kind index).run m = (some loaded, m) ∧
      ∀ block len, loaded = some (block, len) →
        (block.length = maxRsaLen ∨ block.length = maxCertBufLen) ∧ len ≤ maxRsaLen := by
  by_cases first : index = 0
  case neg =>
    refine ⟨_, by rw [loadCertificate, if_neg first]; rfl, ?_⟩
    intro block len same
    obtain ⟨kept, found, pair⟩ := Option.map_eq_some_iff.mp same
    obtain ⟨rfl, rfl⟩ := Prod.mk.inj pair
    exact ⟨ok.block kept found, ok.len⟩
  rw [loadCertificate, if_pos first]
  cases taken : s.certBuffer.or ((heap 0).memoryAlloc maxRsaLen) with
  | none => exact ⟨none, rfl, by simp⟩
  | some block =>
    have size : block.length = maxRsaLen ∨ block.length = maxCertBufLen := by
      rcases Option.or_eq_some_iff.mp taken with kept | ⟨-, found⟩
      · exact ok.block block kept
      · exact .inl ((heap 0).memoryAlloc_length _ _ found)
    have cleared := @Block.write_append _ (List.replicate maxRsaLen 0) 0 [] block rfl (by
      rw [List.length_replicate]
      unfold maxRsaLen maxCertBufLen at *
      omega)
    rw [List.nil_append, List.nil_append, List.length_replicate] at cleared
    dsimp only
    rw [cleared]
    dsimp only
    rw [run_bind]
    rcases found : (yaReadFlashWithVarLen (heap 1) kind.addr maxRsaLen 1).run m with
      ⟨_ | stored, m1⟩
    · obtain rfl : m1 = m := by
        rw [← (readFlashRecord_readOnly (heap 1) kind.addr maxRsaLen 1 _).run m]
        exact (congrArg Prod.snd found).symm
      exact ⟨none, rfl, by simp⟩
    obtain ⟨rfl, record, short⟩ := yaReadFlashWithVarLen_found found
    have len := Block.length_write cleared
    obtain ⟨block', copied, size'⟩ := Block.exists_write
      (show 0 + stored.length ≤ (List.replicate maxRsaLen 0 ++ block.drop maxRsaLen).length by
        unfold maxRsaLen maxCertBufLen at *
        omega)
    have zero : 0 ∈ block' := by
      rw [Block.mem_write copied, Nat.zero_add,
        List.drop_append_of_le_length (by rwa [List.length_replicate]), List.mem_append]
      by_cases full : stored.length = maxRsaLen
      · rcases frame first stored record full with inside | ⟨kept, there, behind⟩
        · exact .inr (.inl inside)
        · rw [there, Option.some_or] at taken
          cases taken
          exact .inr (.inr (.inr behind))
      · refine .inr (.inr (.inl ?_))
        rw [List.drop_replicate, List.mem_replicate]
        exact ⟨by omega, rfl⟩
    dsimp only
    rw [copied]
    dsimp only
    rw [if_neg (by simpa using zero)]
    refine ⟨_, rfl, ?_⟩
    rintro block2 len2 same
    cases same
    rw [size', len]
    exact ⟨size, short⟩

/-- The pieces end inside the record. -/
theorem pieceLen_bound {len index dataLen : Nat} (short : len ≤ maxRsaLen)
    (found : pieceLen len index = some dataLen) :
    index * certPiece + dataLen ≤ len ∧ dataLen ≤ certPiece := by
  have asked : index < pieceCount len := by
    rw [← totalFrames_eq short]
    unfold pieceLen at found
    split at found
    next last => omega
    next =>
      split at found
      next more => omega
      next => cases found
  rw [pieceLen_eq short asked] at found
  obtain rfl := Option.some.inj found
  refine ⟨pieceLen_inside asked, ?_⟩
  split
  · exact Nat.le_of_lt (Nat.mod_lt _ (by decide))
  · exact Nat.le_refl _

section Replies

variable {tx : List UInt8} (size : tx.length = uartMaxFrameLen)
include size

/-- A piece fits in `tx_buf`. -/
theorem readbackFrame_inside (readDataLen : Nat) {block : List UInt8} {index dataLen : Nat}
    (inside : index * certPiece + dataLen ≤ block.length) (short : dataLen ≤ certPiece) :
    ∃ tx', readbackFrame tx block readDataLen index dataLen = some tx' ∧
      tx'.length = uartMaxFrameLen := by
  have data := Block.read_of_le inside
  have dataLength := Block.length_read data
  generalize (block.drop (index * certPiece)).take dataLen = bytes at data dataLength
  unfold certPiece at short
  unfold uartMaxFrameLen at *
  obtain ⟨tx1, first, size1⟩ := @Block.exists_write _ tx (lenField (dataLen + 4)) 4 (by
    simp [lenField]
    omega)
  obtain ⟨tx2, second, size2⟩ := @Block.exists_write _ tx1
    [UInt8.ofNat (totalFrames readDataLen), UInt8.ofNat index] 8 (by
      simp
      omega)
  obtain ⟨tx3, third, size3⟩ := @Block.exists_write _ tx2 bytes 10 (by omega)
  obtain ⟨tx4, fourth, size4⟩ := @Block.exists_write _ tx3 [getChecksum tx3 (dataLen + 10)]
    (dataLen + 10) (by
      simp
      omega)
  refine ⟨tx4, ?_, by omega⟩
  simp only [readbackFrame, first, Option.bind_eq_bind, Option.bind_some, second, data, third, fourth]

/-- A short reply fits in `tx_buf`. -/
theorem bodyReply_inside (rx : List UInt8) {body : List UInt8} (short : body.length ≤ 129) :
    ∃ len tx', bodyReply tx rx body = some (len, tx') ∧ tx'.length = uartMaxFrameLen := by
  unfold uartMaxFrameLen at *
  obtain ⟨tx1, first, size1⟩ := @Block.exists_write _ tx (rx.take 4) 0 (by
    simp
    omega)
  obtain ⟨tx2, second, size2⟩ := @Block.exists_write _ tx1 [0, UInt8.ofNat body.length] 4 (by
    simp
    omega)
  obtain ⟨tx3, third, size3⟩ := @Block.exists_write _ tx2 body 6 (by omega)
  obtain ⟨tx4, fourth, size4⟩ := @Block.exists_write _ tx3 [getChecksum tx3 (6 + body.length)]
    (6 + body.length) (by
      simp
      omega)
  refine ⟨7 + body.length, tx4, ?_, by omega⟩
  simp only [bodyReply, first, Option.bind_eq_bind, Option.bind_some, second, third, fourth]
  rfl

theorem resultReply_inside (rx : List UInt8) {pos : Nat} (short : pos ≤ 10) (result : UInt8) :
    ∃ len tx', resultReply tx rx pos result = some (len, tx') ∧ tx'.length = uartMaxFrameLen := by
  unfold uartMaxFrameLen at *
  obtain ⟨tx1, first, size1⟩ := @Block.exists_write _ tx (rx.take 10) 0 (by
    simp
    omega)
  obtain ⟨tx2, second, size2⟩ := @Block.exists_write _ tx1 [0, UInt8.ofNat (pos - 5)] 4 (by
    simp
    omega)
  obtain ⟨tx3, third, size3⟩ := @Block.exists_write _ tx2 [result] pos (by
    simp
    omega)
  obtain ⟨tx4, fourth, size4⟩ := @Block.exists_write _ tx3 [getChecksum tx3 (pos + 1)] (pos + 1) (by
    simp
    omega)
  refine ⟨pos + 2, tx4, ?_, by omega⟩
  simp only [resultReply, first, Option.bind_eq_bind, Option.bind_some, second, third, fourth]
  rfl

/-- The pieces of `read_certificate`. -/
theorem readPiece_inside {heap : Heap} {s : CertState} (ok : s.Ok) (kind : CertKind) {index : Nat}
    {m : ByteMem} (frame : index = 0 → ReadFrameOk s kind m) :
    ∃ len s' tx', (readPiece heap s kind index tx).run m = (some (len, s', tx'), m) ∧ s'.Ok ∧
      tx'.length = uartMaxFrameLen := by
  obtain ⟨loaded, load, sizes⟩ := loadCertificate_inside ok kind frame
  have reset : CertState.reset.Ok := ⟨by simp [CertState.reset], Nat.zero_le _⟩
  rw [readPiece, run_bind, load]
  rcases loaded with _ | ⟨block, readDataLen⟩
  · exact ⟨_, _, _, rfl, reset, size⟩
  obtain ⟨blockSize, short⟩ := sizes block readDataLen rfl
  dsimp only
  cases piece : pieceLen readDataLen index with
  | none => exact ⟨_, _, _, rfl, reset, size⟩
  | some dataLen =>
    obtain ⟨inside, small⟩ := pieceLen_bound short piece
    obtain ⟨tx', built, size'⟩ := readbackFrame_inside size readDataLen
      (show index * certPiece + dataLen ≤ block.length by
        unfold maxRsaLen maxCertBufLen at *
        omega) small
    dsimp only
    rw [built]
    dsimp only
    split
    · exact ⟨_, _, _, rfl, reset, size'⟩
    · refine ⟨_, _, _, rfl, ⟨?_, short⟩, size'⟩
      rintro kept same
      obtain rfl := Option.some.inj same
      exact blockSize

/-- The other two records of `read_certificate`. -/
theorem readName_inside {heap : Heap} {s : CertState} (ok : s.Ok) (addr : Nat) (m : ByteMem) :
    ∃ len s' tx' m', (readName heap s addr tx).run m = (some (len, s', tx'), m') ∧ s'.Ok ∧
      tx'.length = uartMaxFrameLen := by
  rw [readName, run_bind]
  rcases found : (yaReadFlashWithVarLen (heap 1) addr 128 1).run m with ⟨_ | stored, m1⟩
  · exact ⟨_, _, _, _, rfl, ⟨by simp [CertState.reset], Nat.zero_le _⟩, size⟩
  obtain ⟨rfl, -, short⟩ := yaReadFlashWithVarLen_found found
  unfold uartMaxFrameLen at *
  obtain ⟨tx1, first, size1⟩ := @Block.exists_write _ tx stored 8 (by omega)
  obtain ⟨tx2, second, size2⟩ := @Block.exists_write _ tx1 (lenField (stored.length + 2)) 4 (by
    simp [lenField]
    omega)
  obtain ⟨tx3, third, size3⟩ := @Block.exists_write _ tx2 [getChecksum tx2 (stored.length + 8)]
    (stored.length + 8) (by
      simp
      omega)
  refine ⟨stored.length + 9, s, tx3, m1, ?_, ok, by omega⟩
  simp only [first, Option.bind_eq_bind, Option.bind_some, second, third]
  rfl

/-- `read_certificate` for a frame in `rx_buf`. -/
theorem readCertificate_inside {heap : Heap} {s : CertState} (ok : s.Ok) {rx : List UInt8}
    {subCmd : UInt8} {m : ByteMem}
    (frame : ∀ kind, CertKind.ofSubCmd subCmd = some kind → (rx.getD 8 0).toNat = 0 →
      ReadFrameOk s kind m) :
    ∃ len s' tx' m', (readCertificate heap s rx tx subCmd).run m = (some (len, s', tx'), m') ∧
      s'.Ok ∧ tx'.length = uartMaxFrameLen := by
  rw [readCertificate]
  cases named : CertKind.ofSubCmd subCmd with
  | some kind =>
    obtain ⟨len, s', tx', done, ok', size'⟩ := readPiece_inside size ok kind (frame kind named)
    exact ⟨len, s', tx', m, done, ok', size'⟩
  | none =>
    dsimp only
    split
    · exact readName_inside size ok _ m
    · split
      · exact readName_inside size ok _ m
      · exact ⟨_, _, _, _, rfl, ok, size⟩

/-- The third kind of certificate. -/
theorem writeAliyun_inside (heap : Heap) (rx : List UInt8) (bufLen : Nat) (m : ByteMem) :
    ∃ len tx' m', (writeAliyun heap tx rx bufLen).run m = (some (len, tx'), m') ∧
      tx'.length = uartMaxFrameLen := by
  obtain ⟨ret, m', wrote⟩ := yaWriteAliyunCert_ends (heap 1) (rx.drop 7)
    ((bufLen + 2 ^ 16 - 8) % 2 ^ 16) m
  rw [writeAliyun, run_bind, wrote]
  dsimp only
  obtain ⟨len, tx', built, size'⟩ := bodyReply_inside size rx
    (show [0x02, if ret ≠ 0 then (0 : UInt8) else 1].length ≤ 129 by simp)
  rw [built]
  exact ⟨_, _, _, rfl, size'⟩

theorem readAliyun_inside (heap : Heap) (rx : List UInt8) (m : ByteMem) :
    ∃ len tx' m', (readAliyun heap tx rx).run m = (some (len, tx'), m') ∧
      tx'.length = uartMaxFrameLen := by
  unfold readAliyun
  split
  next => exact ⟨_, _, _, rfl, size⟩
  next =>
    rw [run_bind]
    rcases found : (yaReadFlashWithVarLen (heap 1) yaLicenseAliyuun 128 1).run m with
      ⟨_ | stored, m1⟩
    · exact ⟨_, _, _, rfl, size⟩
    obtain ⟨rfl, -, short⟩ := yaReadFlashWithVarLen_found found
    obtain ⟨len, tx', built, size'⟩ := bodyReply_inside size rx
      (show (0x02 :: stored).length ≤ 129 by rw [List.length_cons]; omega)
    dsimp only
    rw [built]
    exact ⟨_, _, _, rfl, size'⟩

end Replies

/-! ## The handler -/

section Handler

variable {env : UartEnv} {heap : Heap} {s : UartBufs} (ok : s.Ok) {bufLen : Nat}
  (inRx : bufLen ≤ uartMaxFrameLen) {m : ByteMem}
include ok

/-- A short reply leaves the buffers as they should be. -/
theorem bodyReply_ok {body : List UInt8} (short : body.length ≤ 129) :
    ∃ len s', (bodyReply s.tx s.rx body).map (fun (len, tx) => (len, { s with tx })) =
      some (len, s') ∧ s'.Ok := by
  obtain ⟨len, tx', built, size'⟩ := bodyReply_inside ok.tx s.rx short
  rw [built]
  exact ⟨_, _, rfl, ok.rx, size', ok.cert⟩

/-- `CMD_WRITE_CERT`. -/
theorem handleWriteCert_inside (inRx : 7 ≤ bufLen ∧ bufLen ≤ uartMaxFrameLen)
    (frame : s.rx.getD 6 0 = 0x01 → ∀ kind, CertKind.ofSubCmd (s.rx.getD 7 0) = some kind →
      (s.rx.getD 9 0).toNat ≠ 0 ∧ s.cert.certBuffer = none ∨
        WriteFrameOk env.cert (heap 0) s.cert (s.rx.getD 8 0).toNat (s.rx.getD 9 0).toNat s.rx
          (bufLen - 7)) :
    ∃ len s' m', (handleWriteCert env heap s bufLen).run m = (some (len, s'), m') ∧ s'.Ok := by
  obtain ⟨long, short⟩ := inRx
  have size := ok.rx
  unfold handleWriteCert
  split
  next type =>
    obtain ⟨result, cert, m', done, certOk⟩ := @writeCertificate_inside env.cert heap s.cert ok.cert
      s.rx (bufLen - 7) (by omega)
      (by unfold uartMaxFrameLen at short; unfold maxCertBufLen; omega) (frame type) m
    dsimp only
    rw [run_bind, done]
    dsimp only
    obtain ⟨len, tx', built, size'⟩ := resultReply_inside ok.tx s.rx
      (show (if s.rx.getD 7 0 = 0x03 ∨ s.rx.getD 7 0 = 0x04 then 8 else 10) ≤ 10 by
        split <;> omega) result
    rw [built]
    exact ⟨_, _, _, rfl, ok.rx, size', certOk⟩
  next =>
    split
    next =>
      obtain ⟨len, tx', m', done, size'⟩ := writeAliyun_inside ok.tx heap s.rx bufLen m
      rw [run_bind, done]
      exact ⟨_, _, _, rfl, ok.rx, size', ok.cert⟩
    next => exact ⟨_, _, _, rfl, ok⟩

/-- `CMD_READBACK_CERT`. -/
theorem handleReadbackCert_inside
    (frame : s.rx.getD 6 0 = 0x01 → ∀ kind, CertKind.ofSubCmd (s.rx.getD 7 0) = some kind →
      (s.rx.getD 8 0).toNat = 0 → ReadFrameOk s.cert kind m) :
    ∃ len s' m', (handleReadbackCert heap s).run m = (some (len, s'), m') ∧ s'.Ok := by
  have size := ok.tx
  unfold handleReadbackCert
  split
  next type =>
    obtain ⟨tx, copied, size'⟩ := @Block.exists_write _ s.tx (s.rx.take 8) 0 (by
      rw [List.length_take]
      unfold uartMaxFrameLen at size
      omega)
    obtain ⟨len, cert, tx', m', done, certOk, size''⟩ := readCertificate_inside
      (size'.trans size) ok.cert (frame type)
    rw [copied]
    dsimp only
    rw [run_bind, done]
    exact ⟨_, _, _, rfl, ok.rx, size'', certOk⟩
  next =>
    split
    next =>
      obtain ⟨len, tx', m', done, size'⟩ := readAliyun_inside ok.tx heap s.rx m
      rw [run_bind, done]
      exact ⟨_, _, _, rfl, ok.rx, size', ok.cert⟩
    next => exact ⟨_, _, _, rfl, ok⟩

/-- The commands. -/
theorem handleCommand_inside (inRx : 7 ≤ bufLen ∧ bufLen ≤ uartMaxFrameLen)
    (frame : FrameOk env.cert heap s.cert s.rx bufLen m) :
    ∃ len s' m', (handleCommand env heap s bufLen).run m = (some (len, s'), m') ∧ s'.Ok := by
  have small : ∀ {body : List UInt8}, body.length ≤ 129 → ∃ len s' m',
      (return (bodyReply s.tx s.rx body).map fun (len, tx) => (len, { s with tx }) :
        FlashProg (Option (Nat × UartBufs))).run m = (some (len, s'), m') ∧ s'.Ok := by
    intro body short
    obtain ⟨len, s', built, ok'⟩ := bodyReply_ok ok short
    exact ⟨len, s', m, by rw [built]; rfl, ok'⟩
  rw [handleCommand]
  by_cases reset : s.rx.getD 3 0 = cmdResetWifi ∨ s.rx.getD 3 0 = cmdResetWifeConfig
  · rw [if_pos reset]
    exact small (by simp)
  rw [if_neg reset]
  by_cases getMac : s.rx.getD 3 0 = cmdGetMac
  · rw [if_pos getMac]
    exact small (by rw [env.mac_length]; decide)
  rw [if_neg getMac]
  by_cases setMac : s.rx.getD 3 0 = cmdSetMac
  · rw [if_pos setMac]
    exact small (by simp)
  rw [if_neg setMac]
  by_cases write : s.rx.getD 3 0 = cmdWriteCert
  · rw [if_pos write]
    exact handleWriteCert_inside ok inRx (frame.write write)
  rw [if_neg write]
  by_cases readback : s.rx.getD 3 0 = cmdReadbackCert
  · rw [if_pos readback]
    exact handleReadbackCert_inside ok (frame.read readback)
  rw [if_neg readback]
  exact ⟨_, _, _, rfl, ok⟩

/-- `ya_handle_uart_data`. -/
theorem yaHandleUartData_inside (inRx : 7 ≤ bufLen ∧ bufLen ≤ uartMaxFrameLen)
    (frame : getChecksum s.rx (bufLen - 1) = s.rx.getD (bufLen - 1) 0 →
      FrameOk env.cert heap s.cert s.rx bufLen m) :
    ∃ reply s' m', (yaHandleUartData env heap s bufLen).run m = (some (reply, s'), m') ∧ s'.Ok := by
  unfold yaHandleUartData
  split
  next => exact ⟨_, _, _, rfl, ok⟩
  next sum =>
    obtain ⟨len, s', m', done, ok'⟩ := handleCommand_inside ok inRx
      (frame (Decidable.not_not.mp sum))
    rw [run_bind, done]
    exact ⟨_, _, _, rfl, ok'⟩

end Handler

/-! ## Passes -/

theorem recvReady_length {ready : Bool} {pending : List UInt8} {len : Nat}
    {bytes rest : List UInt8} (got : recvReady ready pending len = some (bytes, rest)) :
    bytes.length = len ∧ 0 < len := by
  unfold recvReady yaHalUartRecv at got
  split at got
  next =>
    split at got
    next => cases got
    next pos =>
      split at got
      next long =>
        cases got
        exact ⟨List.length_take_of_le long, Nat.pos_of_ne_zero pos⟩
      next => cases got
  next => cases got

/-- What the two calls of `ya_hal_uart_recv` take. -/
theorem UartPass.take_cases (p : UartPass) (pending : List UInt8) :
    ∃ pending', p.take pending = (.nothing, pending') ∨
      (∃ header, p.take pending = (.header header, pending') ∧
        header.length = uartHeaderWithLen) ∨
      ∃ header body, p.take pending = (.frame header body, pending') ∧
        header.length = uartHeaderWithLen ∧ 0 < body.length := by
  rw [UartPass.take]
  dsimp only
  rcases first : recvReady p.headerReady (p.before.foldl yaUartRxTask pending) uartHeaderWithLen with
    _ | ⟨header, rest⟩
  · exact ⟨_, .inl rfl⟩
  have six := (recvReady_length first).1
  dsimp only
  split
  · rcases second : recvReady p.bodyReady (p.between.foldl yaUartRxTask rest)
        (msgLenOf header + 1) with _ | ⟨body, rest'⟩
    · exact ⟨_, .inr (.inl ⟨header, rfl, six⟩)⟩
    · obtain ⟨len, pos⟩ := recvReady_length second
      exact ⟨_, .inr (.inr ⟨header, body, rfl, six, by omega⟩)⟩
  · exact ⟨_, .inr (.inl ⟨header, rfl, six⟩)⟩

/-- `rx_buf` after both calls. -/
theorem frameIn_written {rx header body : List UInt8} (size : rx.length = uartMaxFrameLen)
    (six : header.length = uartHeaderWithLen)
    (fits : uartHeaderWithLen + body.length ≤ uartMaxFrameLen) :
    ((Block.write rx 0 header).bind fun rx => Block.write rx uartHeaderWithLen body) =
        some (frameIn rx header body) ∧
      (frameIn rx header body).length = uartMaxFrameLen := by
  unfold uartMaxFrameLen uartHeaderWithLen at *
  have first := @Block.write_append _ header 0 [] rx rfl (by omega)
  rw [List.nil_append, List.nil_append] at first
  refine ⟨?_, ?_⟩
  · rw [first, Option.bind_some, Block.write_append six (by rw [List.length_drop]; omega),
      List.drop_drop, six]
    rfl
  · simp only [frameIn, uartHeaderWithLen, List.length_append, List.length_drop, six]
    omega

/-- The sum of the frame in `rx_buf`. -/
theorem checksumOk_frameIn (rx : List UInt8) {header body : List UInt8}
    (six : header.length = uartHeaderWithLen) (pos : 0 < body.length)
    (sum : getChecksum (frameIn rx header body) (uartHeaderWithLen + body.length - 1) =
      (frameIn rx header body).getD (uartHeaderWithLen + body.length - 1) 0) :
    checksumOk (header ++ body) = true := by
  have len : (header ++ body).length = uartHeaderWithLen + body.length := by
    rw [List.length_append, six]
  rw [frameIn, getChecksum_eq, List.take_append_of_le_length (by omega),
    List.getD_append _ _ _ _ (by omega), ← len, ← getChecksum_eq] at sum
  exact decide_eq_true sum

/-- A pass that meets the condition stays inside the buffers. -/
theorem uartPass_inside {env : UartEnv} {p : UartPass} {s : UartLine} {m : ByteMem}
    (ok : s.bufs.Ok) (pass : p.Ok env s m) :
    ∃ reply s' m', (uartPass env p s).run m = (some (reply, s'), m') ∧ s'.bufs.Ok := by
  obtain ⟨pending, took | ⟨header, took, six⟩ | ⟨header, body, took, six, pos⟩⟩ :=
    p.take_cases s.pending
  · rw [uartPass, took]
    exact ⟨_, _, _, rfl, ok⟩
  · obtain ⟨rx, written, size⟩ := @Block.exists_write _ s.bufs.rx header 0 (by
      rw [six, ok.rx]
      decide)
    rw [uartPass, took]
    dsimp only
    rw [written]
    exact ⟨_, _, _, rfl, size.trans ok.rx, ok.tx, ok.cert⟩
  · obtain ⟨fits, frame⟩ := pass header body pending took
    obtain ⟨written, size⟩ := frameIn_written ok.rx six fits
    have inRx : 7 ≤ uartHeaderWithLen + body.length := by
      unfold uartHeaderWithLen
      omega
    obtain ⟨reply, bufs, m', done, ok'⟩ := @yaHandleUartData_inside env p.heap
      ⟨frameIn s.bufs.rx header body, s.bufs.tx, s.bufs.cert⟩ ⟨size, ok.tx, ok.cert⟩
      (uartHeaderWithLen + body.length) m ⟨inRx, fits⟩
      (fun sum => frame (checksumOk_frameIn s.bufs.rx six pos sum))
    rw [uartPass, took]
    dsimp only
    rw [written]
    dsimp only
    rw [run_bind, done]
    exact ⟨_, _, _, rfl, ok'⟩

/-- Every run of passes that each meet the condition stays inside the buffers, and leaves them as
they should be. -/
theorem uartPasses_inside {env : UartEnv} {passes : List UartPass} {s : UartLine} {m : ByteMem}
    (ok : s.bufs.Ok) (each : PassesOk env passes s m) :
    ∃ replies s' m', (uartPasses env passes s).run m = (some (replies, s'), m') ∧ s'.bufs.Ok := by
  induction passes generalizing s m with
  | nil => exact ⟨_, _, _, rfl, ok⟩
  | cons p later ih =>
    obtain ⟨pass, rest⟩ := each
    obtain ⟨reply, s1, m1, first, ok1⟩ := uartPass_inside ok pass
    obtain ⟨replies, s2, m2, second, ok2⟩ := ih ok1 (rest reply s1 m1 first)
    refine ⟨reply :: replies, s2, m2, ?_, ok2⟩
    rw [uartPasses, run_bind, first]
    dsimp only
    rw [run_bind, second]
    rfl

/-! ## Two runs -/

theorem sixZeros_length : (List.replicate 6 (0 : UInt8)).length = 6 := rfl

/-- No parser, no log, and an address of zeros. -/
def UartEnv.quiet : UartEnv := ⟨.quiet, List.replicate 6 0, sixZeros_length, fun _ => 0⟩

/-- The line as `ya_uart_app` starts on it. -/
def UartLine.start : UartLine :=
  ⟨[], List.replicate uartMaxFrameLen 0, List.replicate uartMaxFrameLen 0, none, 0⟩

theorem UartLine.start_ok : UartLine.start.bufs.Ok :=
  ⟨List.length_replicate, List.length_replicate, by simp [UartLine.start], Nat.zero_le _⟩

/-- The first of two sub-frames of a certificate, with one byte. -/
def firstPiecePass : UartPass where
  heap _ := Board.zeroed
  before := [[0x55, 0xAA, 0x00, 0xF1, 0x00, 0x05]]
  headerReady := true
  between := [[0x01, 0x01, 0x02, 0x00, 0x41, 0x3A]]
  bodyReady := true

theorem uartPasses_inside_firstPiece :
    ∃ replies s' m', (uartPasses .quiet [firstPiecePass] .start).run (fun _ => 0xFF) =
      (some (replies, s'), m') ∧ s'.bufs.Ok := by
  refine uartPasses_inside UartLine.start_ok ⟨?_, fun _ _ _ _ => trivial⟩
  intro header body pending took
  have taken : firstPiecePass.take UartLine.start.pending =
      (.frame [0x55, 0xAA, 0x00, 0xF1, 0x00, 0x05] [0x01, 0x01, 0x02, 0x00, 0x41, 0x3A], []) := rfl
  rw [taken] at took
  cases took
  refine ⟨by decide, fun _ => ⟨fun _ _ kind _ => .inr ?_, fun readback => ?_⟩⟩
  · exact ⟨by decide, fun _ _ => rfl, fun _ block kept => (nomatch kept),
      fun later => absurd rfl later, fun last => absurd last (by decide),
      fun last => absurd last (by decide)⟩
  · exact absurd readback (by decide)

/-- A frame with 539 data bytes, one less than `UART_MAX_FRAME_LEN`. -/
def longFramePass : UartPass where
  heap _ := Board.zeroed
  before := [[0x55, 0xAA, 0x00, 0x00, 0x02, 0x1B]]
  headerReady := true
  between := [List.replicate 540 0]
  bodyReady := true

/-- The frame is written over the end of `rx_buf`. -/
theorem uartPasses_longFrame_outside :
    ((uartPasses .quiet [longFramePass] .start).run fun _ => 0xFF).1 = none := by
  have size : (List.replicate 540 (0 : UInt8)).length = 540 := List.length_replicate
  have first : recvReady longFramePass.headerReady
      (longFramePass.before.foldl yaUartRxTask UartLine.start.pending) uartHeaderWithLen =
      some ([0x55, 0xAA, 0x00, 0x00, 0x02, 0x1B], []) := rfl
  have second : recvReady longFramePass.bodyReady (longFramePass.between.foldl yaUartRxTask [])
      (msgLenOf [0x55, 0xAA, 0x00, 0x00, 0x02, 0x1B] + 1) = some (List.replicate 540 0, []) := by
    have arrived : longFramePass.between.foldl yaUartRxTask [] = List.replicate 540 0 := by
      rw [longFramePass, List.foldl_cons, List.foldl_nil, yaUartRxTask, if_pos, List.nil_append]
      exact ⟨List.ne_nil_of_length_pos (by rw [size]; decide), by rw [size]; decide⟩
    have len : msgLenOf [0x55, 0xAA, 0x00, 0x00, 0x02, 0x1B] + 1 = 540 := by decide
    rw [arrived, len, recvReady, if_pos (by decide), yaHalUartRecv, if_neg (by decide),
      if_pos (Nat.le_of_eq size.symm), List.take_of_length_le (Nat.le_of_eq size),
      List.drop_of_length_le (Nat.le_of_eq size)]
  have taken : longFramePass.take UartLine.start.pending =
      (.frame [0x55, 0xAA, 0x00, 0x00, 0x02, 0x1B] (List.replicate 540 0), []) := by
    rw [UartPass.take]
    dsimp only
    rw [first]
    dsimp only
    rw [if_pos (by decide), second]
  have outside : ∀ rx ∈ Block.write UartLine.start.bufs.rx 0 [0x55, 0xAA, 0x00, 0x00, 0x02, 0x1B],
      Block.write rx uartHeaderWithLen (List.replicate 540 0) = none := by
    intro rx written
    have rxLen : rx.length = 540 := (Block.length_write written).trans List.length_replicate
    rw [Block.write, if_neg (by rw [size, rxLen]; decide)]
  rw [uartPasses, run_bind, uartPass, taken]
  dsimp only
  rw [Option.bind_eq_none_iff.mpr outside]
  rfl

end Tr6260
