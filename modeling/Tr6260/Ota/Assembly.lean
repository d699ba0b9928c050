import Tr6260.Ota.Body
import Tr6260.Ota.Writer

/-!
# Assembling the body of a download

The package arrives as the bytes behind the HTTP header in the buffer and then in
further reads. `ya_http_body_handle` hands every piece to `otaHal_write`, which
takes the announced size out of the first piece and refuses a first piece that
is shorter than a package header. Apart from that the cutting does not matter:
the flash afterwards is the erased partition with the package programmed once.
-/

namespace Tr6260

open FlashProg ByteMem

/-! ## Packages and deliveries -/

/-- A package for the partition: it has a header, which announces its length, and it fits. -/
structure OtaPackage (place : OtaPlace) where
  bytes : List UInt8
  header : sizeofOtaPkgHeader ≤ bytes.length
  announced : pkgSize bytes = bytes.length
  fits : place.Fits bytes.length

/-- A way for `bytes` to arrive: behind `headerLen` bytes of header in the buffer, and then
in non-empty reads of at most the requested size. -/
structure BodyDelivery (bytes : List UInt8) where
  headerLen : Nat
  first : List UInt8
  rest : List (List UInt8)
  roomy : headerLen + first.length ≤ httpBufSize
  nonempty : ∀ chunk ∈ rest, chunk ≠ []
  small : ∀ chunk ∈ rest, chunk.length ≤ httpBufSize
  whole : first ++ rest.flatten = bytes

/-- The first piece with bytes in it. -/
def BodyDelivery.firstPiece {bytes : List UInt8} (delivery : BodyDelivery bytes) : List UInt8 :=
  if delivery.first = [] then delivery.rest.headD [] else delivery.first

/-- A read that finds `chunk` on the socket. -/
def offered (chunk : List UInt8) (n : Nat) : Option (List UInt8) := some (chunk.take n)

/-- The calls of `ya_http_body_handle` in `YA_HTTP_BODY_HANDLE`, up to the first one that
does not return `0`; each read finds the next chunk, and an error behind the last. -/
def bodyLoop (file : HttpFilePara) (mem : ByteMem) (hal : OtaOperateInfo) :
    List (List UInt8) → FlashProg (Option BodyResult)
  | [] => yaHttpBodyHandle file (fun _ => none) mem hal
  | chunk :: chunks => do
    match ← yaHttpBodyHandle file (offered chunk) mem hal with
    | none => return none
    | some result =>
      if result.ret = 0 then bodyLoop result.file result.mem result.hal chunks
      else return some result

/-- The file parameters with `k` of `fileLen` bytes written and `n` in the buffer. -/
def fileAt (fileLen headerLen k n : Nat) : HttpFilePara where
  headerLen := headerLen
  fileLen := fileLen
  bodyReadLen := n
  bodyCurPos := k
  bodyFlieHeaderCurLen := 0
  bodyFileHeaderEnbable := true

/-- `YA_EARSE_FLASH` and the `YA_HTTP_BODY_HANDLE` steps behind it. -/
def bodySteps (place : OtaPlace) {bytes : List UInt8} (delivery : BodyDelivery bytes)
    (mem : ByteMem) : FlashProg (Option BodyResult) := do
  let (_, hal) ← yaHttpOtaSectorErase place.entry
  bodyLoop (fileAt bytes.length delivery.headerLen 0 delivery.first.length) mem hal delivery.rest

/-- The package is taken and stored: the last call returns `1`, the writes put the package
down from `get_OTA_write_data_addr ()` on, once and in order, the flash holds it there, and
the whole image is the erased one with the package programmed at a place that its size
alone decides. -/
def Assembled {place : OtaPlace} (pkg : OtaPackage place) (delivery : BodyDelivery pkg.bytes)
    (mem m : ByteMem) : Prop :=
  ∃ result image, (bodySteps place delivery mem).run m = (some result, image) ∧
    result.ret = 1 ∧
    InOrder result.hal.sAddr ((bodySteps place delivery mem).writes m) pkg.bytes ∧
    image.Holds result.hal.sAddr pkg.bytes ∧
    result.hal.sAddr = place.start pkg.bytes.length ∧
    image = (m.erase place.base place.len).program (place.start pkg.bytes.length) pkg.bytes

/-! ## One piece -/

section Piece

variable {place : OtaPlace} (pkg : OtaPackage place)

/-- The writer before the byte `k` of the package, ready for `piece`. -/
def Ready (piece : List UInt8) (k : Nat) (hal : OtaOperateInfo) : Prop :=
  hal = place.placed pkg.bytes.length k ∨
    (hal = place.fresh ∧ k = 0 ∧ sizeofOtaPkgHeader ≤ piece.length)

variable {pkg}

/-- The piece in the buffer is what the sector write hands on. -/
theorem yaHttpOtaSectorWrite_held {mem : ByteMem} {pos : Nat} {piece : List UInt8}
    (held : mem.Holds pos piece) (small : piece.length ≤ httpBufSize) (hal : OtaOperateInfo) :
    yaHttpOtaSectorWrite hal mem pos piece.length = otaHalWrite hal piece := by
  unfold httpBufSize at small
  have length : ((piece.length : Int) % 65536).toNat = piece.length := by omega
  rw [yaHttpOtaSectorWrite, length, held.load]

/-- A call of `ya_http_body_handle` with a piece in the buffer. -/
theorem yaHttpBodyHandle_some {fileLen headerLen k : Nat} {mem : ByteMem} {piece : List UInt8}
    (held : mem.Holds (otaBuf + headerLen) piece) (nonempty : piece ≠ [])
    (small : piece.length ≤ httpBufSize) (read : Nat → Option (List UInt8))
    (hal : OtaOperateInfo) :
    yaHttpBodyHandle (fileAt fileLen headerLen k piece.length) read mem hal =
      (otaHalWrite hal piece >>= fun written =>
        Pure.pure (some (if written.1 < 0 then ⟨-1, fileAt fileLen 0 k piece.length, mem, written.2⟩
          else bodyRead (fileAt fileLen 0 (toU32 (k + piece.length)) piece.length) read mem
            written.2))) := by
  have pos : piece.length ≠ 0 := fun zero => nonempty (List.length_eq_zero_iff.mp zero)
  have counted : (piece.length : Int) ≠ 0 := by omega
  unfold yaHttpBodyHandle bodyFileHeader fileAt
  simp only [ne_eq, counted, not_false_eq_true, ↓reduceIte, Bool.true_eq_false, false_and]
  rw [yaHttpOtaSectorWrite_held held small]
  congr 1
  funext written
  split <;> rfl

/-- The read behind an unfinished package. -/
theorem bodyRead_next {fileLen k : Nat} (unfinished : k < fileLen) {chunk : List UInt8}
    (small : chunk.length ≤ httpBufSize) (n : Nat) (mem : ByteMem) (hal : OtaOperateInfo) :
    bodyRead (fileAt fileLen 0 k n) (offered chunk) mem hal =
      ⟨0, fileAt fileLen 0 k chunk.length, mem.store otaBuf chunk, hal⟩ := by
  have more : ¬ (fileAt fileLen 0 k n).bodyCurPos ≥ (fileAt fileLen 0 k n).fileLen :=
    Nat.not_le.mpr unfinished
  rw [bodyRead, if_neg more, offered, List.take_of_length_le small]
  rfl

/-- The writer is looked at only through what it does with the piece in the buffer. -/
theorem bodyLoop_hal {fileLen headerLen k : Nat} {mem : ByteMem} {piece : List UInt8}
    (held : mem.Holds (otaBuf + headerLen) piece) (nonempty : piece ≠ [])
    (small : piece.length ≤ httpBufSize) {hal hal' : OtaOperateInfo}
    (same : otaHalWrite hal piece = otaHalWrite hal' piece) (rest : List (List UInt8)) :
    bodyLoop (fileAt fileLen headerLen k piece.length) mem hal rest =
      bodyLoop (fileAt fileLen headerLen k piece.length) mem hal' rest := by
  have calls (read : Nat → Option (List UInt8)) :
      yaHttpBodyHandle (fileAt fileLen headerLen k piece.length) read mem hal =
        yaHttpBodyHandle (fileAt fileLen headerLen k piece.length) read mem hal' := by
    rw [yaHttpBodyHandle_some held nonempty small, yaHttpBodyHandle_some held nonempty small, same]
  cases rest with
  | nil => rw [bodyLoop, bodyLoop, calls]
  | cons chunk chunks => rw [bodyLoop, bodyLoop, calls]

/-- A piece that the writer refuses ends the download. -/
theorem bodyLoop_refused {fileLen headerLen k : Nat} {mem : ByteMem} {piece : List UInt8}
    (held : mem.Holds (otaBuf + headerLen) piece) (nonempty : piece ≠ [])
    (small : piece.length ≤ httpBufSize) {hal hal' : OtaOperateInfo}
    (refused : otaHalWrite hal piece = Pure.pure (-1, hal')) (rest : List (List UInt8)) :
    bodyLoop (fileAt fileLen headerLen k piece.length) mem hal rest =
      Pure.pure (some ⟨-1, fileAt fileLen 0 k piece.length, mem, hal'⟩) := by
  have ends (read : Nat → Option (List UInt8)) :
      yaHttpBodyHandle (fileAt fileLen headerLen k piece.length) read mem hal =
        Pure.pure (some ⟨-1, fileAt fileLen 0 k piece.length, mem, hal'⟩) := by
    rw [yaHttpBodyHandle_some held nonempty small, refused]
    rfl
  cases rest with
  | nil => rw [bodyLoop, ends]
  | cons chunk chunks =>
    rw [bodyLoop, ends]
    rfl

/-! ## The writer behind its first frame -/

section Framed

variable {info : OtaOperateInfo} {file : List UInt8}

/-- Behind the first frame a piece is compared with the announced size and goes behind the ones
before. -/
theorem otaHalWrite_framed (framed : info.getFirstFrame = true)
    (low : info.sAddr + file.length < 2 ^ 32) {k : Nat} {piece : List UInt8}
    (inside : k + piece.length ≤ file.length) :
    otaHalWrite { info with offset := k } piece =
      if info.dataLen < k + piece.length then Pure.pure (-1, { info with offset := k })
      else halSpifiashWrite (info.sAddr + k) piece >>= fun _ =>
        Pure.pure (0, { info with offset := k + piece.length }) := by
  unfold otaHalWrite otaHalAppend
  dsimp only
  rw [if_pos framed, u32_of_lt (by omega), u32_of_lt (by omega)]

/-- A call with a piece that stays within the announced size. -/
theorem yaHttpBodyHandle_framed (framed : info.getFirstFrame = true)
    (low : info.sAddr + file.length < 2 ^ 32) {done piece later : List UInt8}
    (split : file = done ++ piece ++ later)
    (announced : done.length + piece.length ≤ info.dataLen) {headerLen : Nat} {mem : ByteMem}
    (held : mem.Holds (otaBuf + headerLen) piece) (nonempty : piece ≠ [])
    (small : piece.length ≤ httpBufSize) (read : Nat → Option (List UInt8)) :
    yaHttpBodyHandle (fileAt file.length headerLen done.length piece.length) read mem
        { info with offset := done.length } =
      (halSpifiashWrite (info.sAddr + done.length) piece >>= fun _ =>
        Pure.pure (some (bodyRead
          (fileAt file.length 0 (done.length + piece.length) piece.length) read mem
          { info with offset := done.length + piece.length }))) := by
  have length := congrArg List.length split
  rw [List.length_append, List.length_append] at length
  have counted : toU32 (done.length + piece.length) = done.length + piece.length := by
    unfold toU32
    omega
  rw [yaHttpBodyHandle_some held nonempty small, otaHalWrite_framed framed low (by omega),
    if_neg (Nat.not_lt.mpr announced), bind_bind]
  simp only [ret_bind, Int.lt_irrefl, ↓reduceIte, counted]

/-- Behind a piece that is written, the writes go on. -/
theorem inOrder_write {addr : Nat} {piece later : List UInt8} (nonempty : piece ≠ [])
    {next : FlashProg (Option BodyResult)} {m : ByteMem}
    (order : InOrder (addr + piece.length) (next.writes (m.program addr piece)) later) :
    InOrder addr ((halSpifiashWrite addr piece >>= fun _ => next).writes m) (piece ++ later) := by
  rw [writes_bind, halSpifiashWrite_run, halSpifiashWrite_writes _ nonempty]
  exact ⟨rfl, later, rfl, order⟩

/-- While a chunk is to come the file is not complete. -/
theorem unfinished_of_chunk {file done piece chunk : List UInt8} {chunks : List (List UInt8)}
    (split : file = done ++ piece ++ (chunk :: chunks).flatten) (bytes : chunk ≠ []) :
    done.length + piece.length < file.length ∧
      file = done ++ piece ++ chunk ++ chunks.flatten := by
  rw [List.flatten_cons, ← List.append_assoc] at split
  refine ⟨?_, split⟩
  have positive := List.length_pos_iff.mpr bytes
  simp only [split, List.length_append]
  omega

/-- A file within the announced size is written to its end. The induction is on the reads to
come; `done` is what has been written before. -/
theorem bodyLoop_appends (framed : info.getFirstFrame = true)
    (low : info.sAddr + file.length < 2 ^ 32) (announced : file.length ≤ info.dataLen)
    {rest : List (List UInt8)} (nonempty : ∀ chunk ∈ rest, chunk ≠ [])
    (small : ∀ chunk ∈ rest, chunk.length ≤ httpBufSize) {done piece : List UInt8}
    (split : file = done ++ piece ++ rest.flatten) (bytes : piece ≠ [])
    (roomy : piece.length ≤ httpBufSize) {headerLen : Nat} {mem : ByteMem}
    (held : mem.Holds (otaBuf + headerLen) piece) (m : ByteMem) :
    ∃ n mem', (bodyLoop (fileAt file.length headerLen done.length piece.length) mem
        { info with offset := done.length } rest).run m =
      (some ⟨1, fileAt file.length 0 file.length n, mem', { info with offset := file.length }⟩,
        m.program (info.sAddr + done.length) (piece ++ rest.flatten)) ∧
      InOrder (info.sAddr + done.length)
        ((bodyLoop (fileAt file.length headerLen done.length piece.length) mem
          { info with offset := done.length } rest).writes m) (piece ++ rest.flatten) := by
  have length := congrArg List.length split
  rw [List.length_append, List.length_append] at length
  induction rest generalizing done piece headerLen mem m with
  | nil =>
    rw [List.flatten_nil, List.length_nil, Nat.add_zero] at length
    have finished (mem : ByteMem) (hal : OtaOperateInfo) :
        bodyRead (fileAt file.length 0 file.length piece.length) (fun _ => none) mem hal =
          ⟨1, fileAt file.length 0 file.length piece.length, mem, hal⟩ := if_pos (Nat.le_refl _)
    rw [bodyLoop, yaHttpBodyHandle_framed framed low split (by omega) held bytes roomy, ← length,
      finished]
    refine ⟨piece.length, mem, ?_, inOrder_write bytes rfl⟩
    rw [run_bind, halSpifiashWrite_run, List.flatten_nil, List.append_nil]
    rfl
  | cons chunk chunks ih =>
    have chunkBytes := nonempty chunk List.mem_cons_self
    have chunkRoomy := small chunk List.mem_cons_self
    obtain ⟨unfinished, split'⟩ := unfinished_of_chunk split chunkBytes
    have stored : (mem.store otaBuf chunk).Holds (otaBuf + 0) chunk := store_holds _ _ _
    obtain ⟨n, mem', ran, order⟩ := ih (fun c mem => nonempty c (List.mem_cons_of_mem _ mem))
      (fun c mem => small c (List.mem_cons_of_mem _ mem)) split' chunkBytes chunkRoomy
      stored (m.program (info.sAddr + done.length) piece)
      (by rw [← List.length_append, ← List.length_append, ← split'])
    rw [List.length_append, ← Nat.add_assoc] at ran order
    rw [bodyLoop, yaHttpBodyHandle_framed framed low split (by omega) held bytes roomy, bind_bind,
      ret_bind, bodyRead_next unfinished chunkRoomy]
    refine ⟨n, mem', ?_, inOrder_write bytes order⟩
    rw [run_bind, halSpifiashWrite_run]
    dsimp only
    rw [if_pos rfl, ran, program_append, List.flatten_cons]

end Framed

end Piece

/-! ## All pieces -/

section Loop

variable {place : OtaPlace} {pkg : OtaPackage place}

/-- What the calls do from the byte `k` of the package on. -/
def Continues (pkg : OtaPackage place) (k : Nat) (bytes : List UInt8)
    (prog : FlashProg (Option BodyResult)) (m : ByteMem) : Prop :=
  ∃ result, prog.run m = (some result, m.program (place.start pkg.bytes.length + k) bytes) ∧
    result.ret = 1 ∧ result.hal.sAddr = place.start pkg.bytes.length ∧
    InOrder (place.start pkg.bytes.length + k) (prog.writes m) bytes

/-- From a piece in the buffer on, the rest of the package is written. -/
theorem bodyLoop_continues {rest : List (List UInt8)} (nonempty : ∀ chunk ∈ rest, chunk ≠ [])
    (small : ∀ chunk ∈ rest, chunk.length ≤ httpBufSize) {done piece : List UInt8}
    (split : pkg.bytes = done ++ piece ++ rest.flatten) (bytes : piece ≠ [])
    (roomy : piece.length ≤ httpBufSize) {hal : OtaOperateInfo}
    (ready : Ready pkg piece done.length hal) {headerLen : Nat} {mem : ByteMem}
    (held : mem.Holds (otaBuf + headerLen) piece) (m : ByteMem) :
    Continues pkg done.length (piece ++ rest.flatten)
      (bodyLoop (fileAt pkg.bytes.length headerLen done.length piece.length) mem hal rest) m := by
  have bound := place.bound
  have room := pkg.fits.start_add
  have sectors := OtaPlace.le_sectors pkg.bytes.length
  have placed : bodyLoop (fileAt pkg.bytes.length headerLen done.length piece.length) mem hal rest =
      bodyLoop (fileAt pkg.bytes.length headerLen done.length piece.length) mem
        { place.placed pkg.bytes.length 0 with offset := done.length } rest := by
    rcases ready with rfl | ⟨rfl, zero, header⟩
    · rfl
    · rw [zero]
      refine bodyLoop_hal held bytes roomy ?_ rest
      have size : pkgSize piece = pkg.bytes.length := by
        rw [← pkg.announced, split, List.length_eq_zero_iff.mp zero, List.nil_append,
          pkgSize_append header]
      exact otaHalWrite_first pkg.fits header size
  have low : (place.placed pkg.bytes.length 0).sAddr + pkg.bytes.length < 2 ^ 32 := by
    change place.start pkg.bytes.length + pkg.bytes.length < 2 ^ 32
    omega
  obtain ⟨n, mem', ran, order⟩ := bodyLoop_appends rfl low (Nat.le_refl _) nonempty small split
    bytes roomy held m
  rw [placed]
  exact ⟨_, ran, rfl, rfl, order⟩

/-- A first piece without a whole header ends the download. -/
theorem bodyLoop_short {fileLen headerLen : Nat} {mem : ByteMem} {piece : List UInt8}
    (held : mem.Holds (otaBuf + headerLen) piece) (nonempty : piece ≠ [])
    (short : piece.length < sizeofOtaPkgHeader) (rest : List (List UInt8)) :
    bodyLoop (fileAt fileLen headerLen 0 piece.length) mem place.fresh rest =
      Pure.pure (some ⟨-1, fileAt fileLen 0 0 piece.length, mem, place.fresh⟩) := by
  have small : piece.length ≤ httpBufSize := Nat.le_of_lt (Nat.lt_trans short (by decide))
  exact bodyLoop_refused held nonempty small (otaHalWrite_short short) rest

/-- With nothing behind the header, the first call only reads. -/
theorem bodyLoop_empty {fileLen headerLen : Nat} (some : 0 < fileLen) {chunk : List UInt8}
    (small : chunk.length ≤ httpBufSize) (chunks : List (List UInt8)) (mem : ByteMem)
    (hal : OtaOperateInfo) :
    bodyLoop (fileAt fileLen headerLen 0 0) mem hal (chunk :: chunks) =
      bodyLoop (fileAt fileLen 0 0 chunk.length) (mem.store otaBuf chunk) hal chunks := by
  have reads : yaHttpBodyHandle (fileAt fileLen headerLen 0 0) (offered chunk) mem hal =
      Pure.pure (Option.some (bodyRead (fileAt fileLen 0 0 0) (offered chunk) mem hal)) := rfl
  rw [bodyLoop, reads, bodyRead_next some small]
  rfl

end Loop

/-! ## The first piece -/

/-- The calls once the first piece with bytes in it has arrived. -/
structure FirstArrival {bytes : List UInt8} (delivery : BodyDelivery bytes) (mem : ByteMem) where
  headerLen : Nat
  mem' : ByteMem
  later : List (List UInt8)
  held : mem'.Holds (otaBuf + headerLen) delivery.firstPiece
  filled : delivery.firstPiece ≠ []
  roomy : delivery.firstPiece.length ≤ httpBufSize
  whole : bytes = delivery.firstPiece ++ later.flatten
  nonempty : ∀ chunk ∈ later, chunk ≠ []
  small : ∀ chunk ∈ later, chunk.length ≤ httpBufSize
  same : ∀ hal, bodyLoop (fileAt bytes.length delivery.headerLen 0 delivery.first.length)
      mem hal delivery.rest =
    bodyLoop (fileAt bytes.length headerLen 0 delivery.firstPiece.length) mem' hal later

/-- Of a file with bytes in it a first piece arrives. -/
theorem firstArrival {bytes : List UInt8} (delivery : BodyDelivery bytes) (some : 0 < bytes.length)
    {mem : ByteMem} (held : mem.Holds (otaBuf + delivery.headerLen) delivery.first) :
    Nonempty (FirstArrival delivery mem) := by
  obtain ⟨headerLen, first, rest, roomy, nonempty, small, whole⟩ := delivery
  by_cases empty : first = []
  · subst empty
    cases rest with
    | nil => exact absurd (congrArg List.length whole) (Nat.ne_of_lt some)
    | cons chunk chunks =>
      exact ⟨⟨0, mem.store otaBuf chunk, chunks, store_holds _ _ _, nonempty chunk List.mem_cons_self,
        small chunk List.mem_cons_self, whole.symm,
        fun c mem => nonempty c (List.mem_cons_of_mem _ mem),
        fun c mem => small c (List.mem_cons_of_mem _ mem),
        fun hal => bodyLoop_empty some (small chunk List.mem_cons_self) chunks mem hal⟩⟩
  · have piece : BodyDelivery.firstPiece
        ⟨headerLen, first, rest, roomy, nonempty, small, whole⟩ = first := if_neg empty
    exact ⟨⟨headerLen, mem, rest, by rw [piece]; exact held, by rw [piece]; exact empty,
      by rw [piece]; omega, by rw [piece]; exact whole.symm, nonempty, small,
      fun hal => by rw [piece]⟩⟩

/-! ## The whole body -/

section Whole

variable {place : OtaPlace} (pkg : OtaPackage place) (delivery : BodyDelivery pkg.bytes)

/-- There is a first piece. -/
theorem firstPiece_arrives {mem : ByteMem}
    (held : mem.Holds (otaBuf + delivery.headerLen) delivery.first) :
    Nonempty (FirstArrival delivery mem) :=
  firstArrival delivery (Nat.lt_of_lt_of_le (by decide) pkg.header) held

theorem bodySteps_run (mem m : ByteMem) :
    (bodySteps place delivery mem).run m =
      (bodyLoop (fileAt pkg.bytes.length delivery.headerLen 0 delivery.first.length) mem place.fresh
        delivery.rest).run (m.erase place.base place.len) := by
  rw [bodySteps, run_bind, yaHttpOtaSectorErase, otaHalInit_run]

theorem bodySteps_writes (mem m : ByteMem) :
    (bodySteps place delivery mem).writes m =
      (bodyLoop (fileAt pkg.bytes.length delivery.headerLen 0 delivery.first.length) mem place.fresh
        delivery.rest).writes (m.erase place.base place.len) := by
  rw [bodySteps, writes_bind, yaHttpOtaSectorErase, otaHalInit_run, otaHalInit_writes, List.nil_append]

variable {pkg delivery}

/-- A first piece shorter than a package header is refused. -/
theorem not_assembled_of_short {mem : ByteMem}
    (held : mem.Holds (otaBuf + delivery.headerLen) delivery.first) (m : ByteMem)
    (short : delivery.firstPiece.length < sizeofOtaPkgHeader) :
    ¬ Assembled pkg delivery mem m := by
  obtain ⟨piece⟩ := firstPiece_arrives pkg delivery held
  rintro ⟨result, image, ran, ret, -⟩
  rw [bodySteps_run, piece.same, bodyLoop_short piece.held piece.filled short] at ran
  rw [← Option.some.inj (congrArg Prod.fst ran)] at ret
  exact absurd (show (-1 : Int) = 1 from ret) (by decide)

/-- A first piece with a whole header leads to the whole package. -/
theorem assembled_of_header {mem : ByteMem}
    (held : mem.Holds (otaBuf + delivery.headerLen) delivery.first) (m : ByteMem)
    (header : sizeofOtaPkgHeader ≤ delivery.firstPiece.length) :
    Assembled pkg delivery mem m := by
  obtain ⟨piece⟩ := firstPiece_arrives pkg delivery held
  have split : pkg.bytes = [] ++ delivery.firstPiece ++ piece.later.flatten := piece.whole
  have continues := bodyLoop_continues piece.nonempty piece.small split piece.filled piece.roomy
    (.inr ⟨rfl, rfl, header⟩) piece.held (m.erase place.base place.len)
  rw [← piece.whole, List.length_nil] at continues
  obtain ⟨result, ran, ret, addr, order⟩ := continues
  rw [Nat.add_zero] at ran order
  refine ⟨result, _, ?_, ret, ?_, ?_, addr, rfl⟩
  · rw [bodySteps_run, piece.same, ran]
  · rw [bodySteps_writes, piece.same, addr]
    exact order
  · rw [addr]
    obtain ⟨low, high⟩ := pkg.fits.start_inside
    exact program_holds ((erase_erased m _ _).sub low (by omega))

/-- A package is assembled exactly when its first piece holds a whole package header. -/
theorem otaBody_assembled_iff {mem : ByteMem}
    (held : mem.Holds (otaBuf + delivery.headerLen) delivery.first) (m : ByteMem) :
    Assembled pkg delivery mem m ↔ sizeofOtaPkgHeader ≤ delivery.firstPiece.length := by
  refine ⟨fun assembled => ?_, assembled_of_header held m⟩
  by_contra short
  exact not_assembled_of_short held m (Nat.not_le.mp short) assembled

end Whole

/-! ## Deliveries of one package -/

/-- A package that is all header: zero bytes but for the size field. -/
def headerPackage : OtaPackage dataOta where
  bytes := List.replicate 8 0 ++ le32Bytes 64 ++ List.replicate 52 0
  header := by decide
  announced := by decide
  fits := by
    unfold OtaPlace.Fits
    decide

/-- The package behind a header of 100 bytes, in one piece. -/
def oneRead : BodyDelivery headerPackage.bytes where
  headerLen := 100
  first := headerPackage.bytes
  rest := []
  roomy := by decide
  nonempty := by simp
  small := by simp
  whole := List.append_nil _

/-- The same with the last byte in a read of its own. -/
def twoReads : BodyDelivery headerPackage.bytes where
  headerLen := 100
  first := headerPackage.bytes.take 63
  rest := [headerPackage.bytes.drop 63]
  roomy := by decide
  nonempty := by decide
  small := by decide
  whole := by decide

/-- A buffer with `bytes` behind a header of 100 bytes. -/
def bufferWith (bytes : List UInt8) : ByteMem :=
  ByteMem.store (fun _ => 0) (otaBuf + 100) bytes

theorem otaBody_assembled_oneRead :
    (bufferWith headerPackage.bytes).Holds (otaBuf + oneRead.headerLen) oneRead.first ∧
      sizeofOtaPkgHeader ≤ oneRead.firstPiece.length ∧
      Assembled headerPackage oneRead (bufferWith headerPackage.bytes) (fun _ => 0) :=
  have held := store_holds (fun _ => 0) (otaBuf + 100) headerPackage.bytes
  have header : sizeofOtaPkgHeader ≤ oneRead.firstPiece.length := by decide
  ⟨held, header, (otaBody_assembled_iff held _).mpr header⟩

theorem otaBody_twoReads_not_assembled :
    (bufferWith twoReads.first).Holds (otaBuf + twoReads.headerLen) twoReads.first ∧
      ¬ Assembled headerPackage twoReads (bufferWith twoReads.first) (fun _ => 0) :=
  have held := store_holds (fun _ => 0) (otaBuf + 100) twoReads.first
  ⟨held, not_assembled_of_short held _ (by decide)⟩

end Tr6260
