import Tr6260.Ota.Integrity

/-!
# What `otaHal_done` commits

A run of `ya_wifi_ota_download` that reaches `YA_WAIT_TO_REBOOT` has written the
body bytes it received through the writer, which placed them by the size in the
package header. `Stored` follows that through the states: what has been written
(`Written`) and what waits in the buffer (`Buffered`) make up what has been
received. At the end the state records go out exactly when the writer has seen
the announced number of bytes; a header that announces another length than
`Content-Length` passes every check before.
-/

namespace Tr6260

open FlashProg ByteMem

/-! ## The writer -/

section Writer

variable {place : OtaPlace}

/-- The longest file that the checksum loop gets through. -/
def maxVerified : Nat := 65535 * httpBufSize

/-- The writer has taken `done`, and the flash holds it, unless its size is out of range. -/
def Written (place : OtaPlace) (flash : ByteMem) (hal : OtaOperateInfo) (done : List UInt8) : Prop :=
  (done = [] ∧ hal = place.fresh ∧ flash.Erased place.base place.len) ∨
    (sizeofOtaPkgHeader ≤ done.length ∧ hal.getFirstFrame = true ∧
      (pkgSize done ≤ maxVerified → place.Fits (pkgSize done) ∧
        done.length ≤ pkgSize done ∧ hal = place.placed (pkgSize done) done.length ∧
        flash.Holds (place.start (pkgSize done)) done ∧
        flash.Erased (place.start (pkgSize done) + done.length)
          (place.base + place.len - (place.start (pkgSize done) + done.length))))

/-- Programming behind what is held. -/
theorem holds_program_append {m : ByteMem} {addr fin : Nat} {done : List UInt8}
    (held : m.Holds addr done) (blank : m.Erased (addr + done.length) (fin - (addr + done.length)))
    (piece : List UInt8) (inside : addr + done.length + piece.length ≤ fin) :
    (m.program (addr + done.length) piece).Holds addr (done ++ piece) ∧
      (m.program (addr + done.length) piece).Erased (addr + (done ++ piece).length)
        (fin - (addr + (done ++ piece).length)) := by
  rw [List.length_append]
  refine ⟨holds_append.mpr ⟨?_, ?_⟩, ?_⟩
  · exact held.congr (program_frame _ _ _ (.inl (Nat.le_refl _)))
  · exact program_holds (blank.sub (Nat.le_refl _) (by omega))
  · exact (blank.sub (by omega) (by omega)).congr (program_frame _ _ _ (.inr (by omega)))

theorem otaHalAppend_getFirstFrame {info info' : OtaOperateInfo} (first : info.getFirstFrame = true)
    {data : List UInt8} {m m' : ByteMem} {ret : Int}
    (ran : (otaHalAppend info data).run m = ((ret, info'), m')) : info'.getFirstFrame = true := by
  unfold otaHalAppend at ran
  split at ran
  · cases ran
    exact first
  · rw [run_bind] at ran
    cases ran
    exact first

/-- A write that succeeds has seen a package header. -/
theorem otaHalWrite_getFirstFrame {hal hal' : OtaOperateInfo} {piece : List UInt8} {m m' : ByteMem}
    {ret : Int} (ran : (otaHalWrite hal piece).run m = ((ret, hal'), m')) (passed : ¬ ret < 0) :
    hal'.getFirstFrame = true ∧ (hal.getFirstFrame = true ∨ sizeofOtaPkgHeader ≤ piece.length) := by
  unfold otaHalWrite at ran
  split at ran
  next first => exact ⟨otaHalAppend_getFirstFrame first ran, .inl first⟩
  split at ran
  · cases ran
    exact absurd (by decide) passed
  next long =>
    split at ran
    · cases ran
      exact absurd (by decide) passed
    · exact ⟨otaHalAppend_getFirstFrame rfl ran, .inr (Nat.not_lt.mp long)⟩

/-- Bytes beyond the announced size are refused. -/
theorem otaHalAppend_refused {size k : Nat} {data : List UInt8} (beyond : size < k + data.length)
    (small : k + data.length < 2 ^ 32) :
    otaHalAppend (place.placed size k) data = Pure.pure (-1, place.placed size k) := by
  have offset : (place.placed size k).offset = k := rfl
  have dataLen : (place.placed size k).dataLen = size := rfl
  rw [otaHalAppend, offset, dataLen, u32_of_lt small, if_pos beyond]

/-- A piece that the writer takes behind the first `k` bytes of a package that fits. -/
theorem otaHalAppend_takes (inFlash : place.base + place.len ≤ 2 ^ 24) {size : Nat}
    (fits : place.Fits size) {k : Nat} (before : k ≤ size) {piece : List UInt8}
    (small : piece.length ≤ 65535) {m m' : ByteMem} {ret : Int} {hal : OtaOperateInfo}
    (ran : (otaHalAppend (place.placed size k) piece).run m = ((ret, hal), m'))
    (passed : ¬ ret < 0) :
    k + piece.length ≤ size ∧ hal = place.placed size (k + piece.length) ∧
      m' = m.program (place.start size + k) piece := by
  have room := fits.start_add
  have whole := OtaPlace.le_sectors size
  have inside : k + piece.length ≤ size := by
    by_contra beyond
    rw [otaHalAppend_refused (by omega) (by omega)] at ran
    cases ran
    exact passed (by decide)
  rw [otaHalAppend_eq fits inside, run_bind, halSpifiashWrite_run, run_pure] at ran
  cases ran
  exact ⟨inside, rfl, rfl⟩

/-- A first frame that is accepted announces a package that fits. -/
theorem otaHalWrite_fits {hal' : OtaOperateInfo} {piece : List UInt8} {m m' : ByteMem} {ret : Int}
    (ran : (otaHalWrite place.fresh piece).run m = ((ret, hal'), m')) (passed : ¬ ret < 0)
    (small : pkgSize piece ≤ maxVerified) : place.Fits (pkgSize piece) := by
  unfold otaHalWrite at ran
  rw [if_neg place.fresh_getFirstFrame] at ran
  split at ran
  · cases ran
    exact absurd (by decide) passed
  split at ran
  · cases ran
    exact absurd (by decide) passed
  next room =>
    change ¬ u32 (alignFileLen (pkgSize piece) + 2 * otaStatPartSize) > place.len at room
    unfold maxVerified httpBufSize at small
    unfold u32 alignFileLen u32 otaStatPartSize at room
    unfold OtaPlace.Fits OtaPlace.sectors
    split at room <;> omega

/-- A write that succeeds takes the piece. -/
theorem Written.write (inFlash : place.base + place.len ≤ 2 ^ 24) {flash flash' : ByteMem}
    {hal hal' : OtaOperateInfo} {done piece : List UInt8} (written : Written place flash hal done)
    (small : piece.length ≤ 65535) {ret : Int}
    (ran : (otaHalWrite hal piece).run flash = ((ret, hal'), flash')) (passed : ¬ ret < 0) :
    Written place flash' hal' (done ++ piece) := by
  obtain ⟨first, header⟩ := otaHalWrite_getFirstFrame ran passed
  rcases written with ⟨rfl, rfl, blank⟩ | ⟨long, framed, stored⟩
  · replace header : sizeofOtaPkgHeader ≤ piece.length := header.resolve_left place.fresh_getFirstFrame
    rw [List.nil_append]
    refine .inr ⟨header, first, fun limit => ?_⟩
    have fits := otaHalWrite_fits ran passed limit
    rw [otaHalWrite_first fits header rfl] at ran
    obtain ⟨inside, rfl, rfl⟩ := otaHalAppend_takes inFlash fits (Nat.zero_le _) small ran passed
    obtain ⟨low, high⟩ := fits.start_inside
    rw [Nat.zero_add] at inside ⊢
    have room : flash.Erased (place.start (pkgSize piece) + ([] : List UInt8).length)
        (place.base + place.len - (place.start (pkgSize piece) + ([] : List UInt8).length)) := by
      rw [List.length_nil, Nat.add_zero]
      exact blank.sub low (by omega)
    have held := holds_program_append (holds_nil flash (place.start (pkgSize piece))) room piece
      (by rw [List.length_nil]; omega)
    rw [List.nil_append, List.length_nil] at held
    exact ⟨fits, inside, rfl, held⟩
  · have size := pkgSize_append long piece
    have longer : sizeofOtaPkgHeader ≤ (done ++ piece).length := by
      rw [List.length_append]
      omega
    refine .inr ⟨longer, first, fun limit => ?_⟩
    rw [size] at limit ⊢
    obtain ⟨fits, before, rfl, held, blank⟩ := stored limit
    rw [otaHalWrite_next] at ran
    obtain ⟨inside, rfl, rfl⟩ := otaHalAppend_takes inFlash fits before small ran passed
    obtain ⟨low, high⟩ := fits.start_inside
    rw [List.length_append]
    have held' := holds_program_append held blank piece (by omega)
    rw [List.length_append] at held'
    exact ⟨fits, inside, rfl, held'⟩

end Writer

/-! ## The download -/

namespace OtaTrace

variable {env : OtaEnv} {place : OtaPlace}

/-- What waits in the buffer behind `done`. A header that ends beyond the bytes received leaves
a negative length and nothing received. -/
structure Buffered (t : OtaTrace env) (done : List UInt8) : Prop where
  enabled : t.app.wifi.file.bodyFileHeaderEnbable = true
  curPos : t.app.wifi.file.bodyCurPos = toU32 done.length
  waiting : (done = [] ∧ t.received = [] ∧ -4 < t.app.wifi.file.bodyReadLen ∧
      t.app.wifi.file.bodyReadLen < 0) ∨
    ∃ buffer piece, t.app.wifi.para.otaBuffer = some buffer ∧
      buffer.Holds (otaBuf + t.app.wifi.file.headerLen) piece ∧
      t.app.wifi.file.bodyReadLen = piece.length ∧ piece.length ≤ httpBufSize ∧
      t.received = done ++ piece

/-- All that has been received is written, and it is as long as the file. -/
def Ended (place : OtaPlace) (t : OtaTrace env) : Prop :=
  t.received = [] ∨ (Written place t.flash t.app.hal t.received ∧
    t.app.wifi.file.fileLen ≤ toU32 t.received.length)

/-- What the states from the header on know about flash and buffer. -/
def Stored (place : OtaPlace) (t : OtaTrace env) : Prop :=
  match t.status with
  | .httpSendGet | .httpHeaderHandle => t.app.wifi.response.parseStatus ≤ 3
  | .preFileHandle | .earseFlash => t.Buffered []
  | .httpBodyHandle => t.app.wifi.file.fileLen ≤ maxVerified →
    ∃ done, t.Buffered done ∧ Written place t.flash t.app.hal done
  | .httpChecksum => t.app.wifi.file.fileLen ≤ maxVerified → t.Ended place
  | .waitToReboot => t.app.wifi.file.fileLen ≤ maxVerified ∧ t.Ended place
  | _ => True

variable {t : OtaTrace env} {input : StepInput} {app : OtaApp env.md5} {flash : ByteMem}

theorem stored_parsing (at_ : t.status = .httpSendGet ∨ t.status = .httpHeaderHandle) :
    t.Stored place ↔ t.app.wifi.response.parseStatus ≤ 3 := by
  unfold Stored
  rcases at_ with state | state <;> rw [state]

theorem stored_buffered (at_ : t.status = .preFileHandle ∨ t.status = .earseFlash) :
    t.Stored place ↔ t.Buffered [] := by
  unfold Stored
  rcases at_ with state | state <;> rw [state]

theorem stored_writing (at_ : t.status = .httpBodyHandle) :
    t.Stored place ↔ (t.app.wifi.file.fileLen ≤ maxVerified →
      ∃ done, t.Buffered done ∧ Written place t.flash t.app.hal done) := by
  unfold Stored
  rw [at_]

theorem stored_checksum (at_ : t.status = .httpChecksum) :
    t.Stored place ↔ (t.app.wifi.file.fileLen ≤ maxVerified → t.Ended place) := by
  unfold Stored
  rw [at_]

theorem stored_reboot (at_ : t.status = .waitToReboot) :
    t.Stored place ↔ t.app.wifi.file.fileLen ≤ maxVerified ∧ t.Ended place := by
  unfold Stored
  rw [at_]

theorem stored_quiet {state : OtaStatus} (at_ : t.status = state) (quiet : state.quiet = true)
    (running : state ≠ .waitToReboot) : t.Stored place := by
  unfold Stored
  rw [at_]
  cases state <;> trivial

theorem stored_header (at_ : t.status = .httpHeaderHandle)
    (early : t.app.wifi.response.parseStatus ≤ 3)
    (moved : wifiHeaderStep env input t.app = some app) :
    (t.record (.wifi input) app t.flash).Stored place := by
  obtain ⟨ret, wifi, read, outcome⟩ := wifiHeaderStep_cases moved
  obtain ⟨buffer, response, buffer', held, handled, same⟩ := headerRead_eq read
  have cases := yaHttpHeaderHandle_cases early handled
  rcases outcome with rfl | ⟨rfl, rfl⟩ | ⟨positive, size, rfl⟩
  · trivial
  · rcases cases with failed | ⟨-, one | ⟨-, early'⟩⟩
    · cases failed
    · cases one
    · subst same
      refine (stored_parsing (.inr ?_)).mpr early'
      exact at_
  · have one : ret = 1 := by
      rcases cases with failed | ⟨-, one | ⟨zero, -⟩⟩
      · omega
      · exact one
      · omega
    subst one
    have bound := yaHttpHeaderHandle_bodyReadLen (fun n bytes => read_length) early handled
    subst same
    refine ⟨rfl, rfl, ?_⟩
    change (_ ∧ t.receivedBy input _ = [] ∧ _) ∨ ∃ _ _, _ ∧ _ ∧ _ ∧ _ ∧ t.receivedBy input _ = _
    rw [receivedBy_headerEnd at_ rfl]
    by_cases negative : toI32 response.bodyReadLen < 0
    · exact .inl ⟨rfl, md5Bytes_nonpos _ _ (Int.le_of_lt negative), bound.1, negative⟩
    · have counted : toI32 response.bodyReadLen = ((buffer'.load (otaBuf + response.headerLen)
          (toI32 response.bodyReadLen).toNat).length : Int) := by
        rw [length_load]
        omega
      have small : (buffer'.load (otaBuf + response.headerLen)
          (toI32 response.bodyReadLen).toNat).length ≤ httpBufSize := by
        have high := bound.2
        rw [counted] at high
        exact Int.ofNat_le.mp high
      exact .inr ⟨buffer', _, rfl, holds_load _ _ _, counted, small, rfl⟩

/-- The calls of the body handler for bytes that wait in the buffer: it fails, or the writer
has them. -/
theorem yaHttpBodyHandle_written (inFlash : place.base + place.len ≤ 2 ^ 24) {done piece : List UInt8}
    {file : HttpFilePara} (enabled : file.bodyFileHeaderEnbable = true)
    (small : file.bodyCurPos < 2 ^ 32) {buffer : ByteMem}
    (held : buffer.Holds (otaBuf + file.headerLen) piece) (counted : file.bodyReadLen = piece.length)
    (roomy : piece.length ≤ httpBufSize) {hal : OtaOperateInfo} {m m' : ByteMem}
    (written : Written place m hal done) {read : Nat → Option (List UInt8)} {result : BodyResult}
    (ran : (yaHttpBodyHandle file read buffer hal).run m = (some result, m')) :
    result.ret = -1 ∨ ∃ hal', result = bodyRead file.advance read buffer hal' ∧
      Written place m' hal' (done ++ piece) := by
  unfold httpBufSize at roomy
  rw [yaHttpBodyHandle_run enabled small] at ran
  split at ran
  next none =>
    have empty : piece = [] := List.length_eq_zero_iff.mp (by omega)
    cases ran
    rw [empty, List.append_nil]
    exact .inr ⟨hal, rfl, written⟩
  · have pending : file.pending buffer = piece := by
      rw [HttpFilePara.pending, counted, show ((piece.length : Int) % 65536).toNat = piece.length by
        omega, held.load]
    rw [pending] at ran
    generalize outcome : (otaHalWrite hal piece).run m = after at ran
    obtain ⟨⟨ret, hal'⟩, m''⟩ := after
    cases ran
    by_cases failed : ret < 0
    · exact .inl (by rw [if_pos failed])
    · rw [if_neg failed]
      exact .inr ⟨hal', rfl, written.write inFlash (by omega) outcome failed⟩

theorem toU32_add_length (done piece : List UInt8) :
    toU32 ((toU32 done.length : Nat) + piece.length) = toU32 (done ++ piece).length := by
  rw [List.length_append]
  unfold toU32
  omega

/-- A call from a state in order fails, or leaves a state in order. -/
theorem Buffered.handle (inFlash : place.base + place.len ≤ 2 ^ 24) {done : List UInt8}
    (buffered : t.Buffered done) (written : Written place t.flash t.app.hal done)
    {buffer : ByteMem} (held : t.app.wifi.para.otaBuffer = some buffer)
    {read : Nat → Option (List UInt8)} {result : BodyResult}
    (handled : (yaHttpBodyHandle t.app.wifi.file read buffer t.app.hal).run t.flash =
      (some result, flash)) :
    result.ret = -1 ∨ ∃ hal', result = bodyRead t.app.wifi.file.advance read buffer hal' ∧
      ((t.received = [] ∧ 2 ^ 32 - 4 < t.app.wifi.file.reached) ∨
        (Written place flash hal' t.received ∧
          t.app.wifi.file.reached = toU32 t.received.length)) := by
  have small : t.app.wifi.file.bodyCurPos < 2 ^ 32 := by
    rw [buffered.curPos]
    exact toU32_lt _
  rcases buffered.waiting with ⟨rfl, nothing, low, negative⟩ |
    ⟨buffer', piece, held', holds, counted, roomy, received⟩
  · rcases yaHttpBodyHandle_cases buffered.enabled small handled with failed | ⟨hal', same⟩
    · exact .inl failed
    · refine .inr ⟨hal', same, .inl ⟨nothing, ?_⟩⟩
      have curPos : t.app.wifi.file.bodyCurPos = 0 := buffered.curPos
      unfold HttpFilePara.reached toU32
      rw [curPos]
      omega
  · cases held.symm.trans held'
    rcases yaHttpBodyHandle_written inFlash buffered.enabled small
      holds counted roomy written handled with failed | ⟨hal', same, after⟩
    · exact .inl failed
    · refine .inr ⟨hal', same, .inr ⟨received ▸ after, ?_⟩⟩
      rw [HttpFilePara.reached, counted, buffered.curPos, received]
      exact toU32_add_length done piece

theorem stored_bodyEnd (inFlash : place.base + place.len ≤ 2 ^ 24) {buffer : ByteMem}
    (held : t.app.wifi.para.otaBuffer = some buffer) {done : List UInt8}
    (buffered : t.Buffered done) (written : Written place t.flash t.app.hal done)
    {read : Nat → Option (List UInt8)} {result : BodyResult} (positive : 0 < result.ret)
    (handled : (yaHttpBodyHandle t.app.wifi.file read buffer t.app.hal).run t.flash =
      (some result, flash)) :
    t.received = [] ∨ (Written place flash result.hal t.received ∧
      t.app.wifi.file.fileLen ≤ toU32 t.received.length) := by
  rcases buffered.handle inFlash written held handled with failed | ⟨hal', rfl, after⟩
  · omega
  rcases bodyRead_cases t.app.wifi.file.advance read buffer hal' with
    ⟨same, finished⟩ | ⟨same, -⟩ | ⟨bytes, same, -⟩
  · rcases after with ⟨nothing, -⟩ | ⟨taken, reached⟩
    · exact .inl nothing
    · rw [bodyRead_hal, ← reached]
      exact .inr ⟨taken, finished⟩
  · rw [same] at positive
    cases positive
  · rw [same] at positive
    cases positive

theorem stored_body (inFlash : place.base + place.len ≤ 2 ^ 24) (at_ : t.status = .httpBodyHandle)
    (stored : t.app.wifi.file.fileLen ≤ maxVerified →
      ∃ done, t.Buffered done ∧ Written place t.flash t.app.hal done)
    (ran : (wifiBodyStep env input t.app).run t.flash = (some app, flash)) :
    (t.record (.wifi input) app flash).Stored place := by
  obtain ⟨buffer, result, held, handled, outcome⟩ := wifiBodyStep_cases ran
  have fileLen := (yaHttpBodyHandle_frame handled).1
  rcases outcome with ⟨-, rfl⟩ | ⟨positive, rfl⟩ | ⟨zero, rfl⟩
  · trivial
  · by_cases check : t.app.checkMd5Result = 1
    · rw [if_pos check]
      intro limit
      change result.file.fileLen ≤ maxVerified at limit
      rw [fileLen] at limit
      obtain ⟨done, buffered, written⟩ := stored limit
      change t.receivedBy input _ = [] ∨
        (Written place flash result.hal (t.receivedBy input _) ∧
          result.file.fileLen ≤ toU32 (t.receivedBy input _).length)
      rw [receivedBy_bodyEnd at_, fileLen]
      · exact stored_bodyEnd inFlash held buffered written positive handled
      · nofun
    · rw [if_neg check]
      trivial
  · refine (stored_writing ?_).mpr fun limit => ?_
    · exact at_
    change result.file.fileLen ≤ maxVerified at limit
    rw [fileLen] at limit
    obtain ⟨done, buffered, written⟩ := stored limit
    unfold maxVerified httpBufSize at limit
    rcases buffered.handle inFlash written held handled with failed | ⟨hal', rfl, after⟩
    · omega
    rcases bodyRead_cases t.app.wifi.file.advance (input.read t.app.wifi.para.otaServerSocket)
      buffer hal' with ⟨same, -⟩ | ⟨same, -⟩ | ⟨bytes, same, unfinished, found⟩
    · rw [same] at zero
      cases zero
    · rw [same] at zero
      cases zero
    · rcases after with ⟨-, beyond⟩ | ⟨taken, reached⟩
      · change t.app.wifi.file.reached < t.app.wifi.file.fileLen at unfinished
        omega
      · rw [same]
        refine ⟨t.received, ⟨buffered.enabled, reached, .inr ⟨_, bytes, rfl, store_holds _ _ _, rfl,
          read_length found, ?_⟩⟩, taken⟩
        change t.receivedBy input _ = t.received ++ bytes
        rw [receivedBy_body at_, found]
        · rfl
        · exact at_

theorem stored_preFile (at_ : t.status = .preFileHandle) (buffered : t.Buffered []) :
    (t.record (.wifi input) { t.app with wifi := t.app.wifi.setState .earseFlash } t.flash).Stored
      place := by
  have received : t.receivedBy input { t.app with wifi := t.app.wifi.setState .earseFlash } =
      t.received :=
    receivedBy_other (by rw [at_]; nofun) (by rw [at_]; nofun) (by rw [at_]; nofun)
  obtain ⟨enabled, curPos, waiting⟩ := buffered
  rw [← received] at waiting
  exact ⟨enabled, curPos, waiting⟩

theorem stored_earse (part : env.part = place.entry) (at_ : t.status = .earseFlash)
    (buffered : t.Buffered []) :
    (t.record (.wifi input) ((wifiEarseStep env t.app).run t.flash).1
      ((wifiEarseStep env t.app).run t.flash).2).Stored place := by
  rw [wifiEarseStep_run part]
  have received : t.receivedBy input { t.app with
      hal := place.fresh, wifi := t.app.wifi.setState .httpBodyHandle } = t.received :=
    receivedBy_other (by rw [at_]; nofun) (by rw [at_]; nofun) (by rw [at_]; nofun)
  obtain ⟨enabled, curPos, waiting⟩ := buffered
  rw [← received] at waiting
  exact fun _ => ⟨[], ⟨enabled, curPos, waiting⟩, .inl ⟨rfl, rfl, erase_erased _ _ _⟩⟩

theorem verifyFlash_limit {md5 : Md5} {addr size : Nat} {fileMd5 : List UInt8} {verdict : Int}
    {m m' : ByteMem} (ran : (verifyFlash md5 addr size fileMd5).run m = (some verdict, m')) :
    size ≤ maxVerified := by
  unfold verifyFlash at ran
  split at ran
  · cases ran
  next few =>
    unfold totalSections httpBufSize at few
    unfold maxVerified httpBufSize
    split at few <;> omega

/-- Every step keeps what is known. -/
theorem stored_wifi (part : env.part = place.entry) (stored : t.Stored place)
    (ran : (yaWifiOtaDownload env input t.app).run t.flash = (some app, flash)) :
    (t.record (.wifi input) app flash).Stored place := by
  have inFlash : place.base + place.len ≤ 2 ^ 24 := env.partInFlash _ _ part
  unfold yaWifiOtaDownload at ran
  split at ran
  next =>
    cases ran
    unfold OtaModule.startStep
    split
    · trivial
    · split <;> trivial
  next =>
    cases ran
    unfold OtaModule.connectStep
    cases input.connect with
    | none => trivial
    | some socket => exact Nat.zero_le _
  next at_ =>
    obtain ⟨mapped, rfl⟩ := Prod.mk.inj ran
    obtain ⟨wifi, moved, rfl⟩ := Option.map_eq_some_iff.mp mapped
    have early := (stored_parsing (.inl at_)).mp stored
    unfold OtaModule.sendGetStep at moved
    split at moved
    · split at moved
      · cases moved
      split at moved
      · cases moved
        trivial
      split at moved
      · cases moved
      · cases moved
        exact early
    · cases moved
  next at_ =>
    obtain ⟨moved, rfl⟩ := Prod.mk.inj ran
    exact stored_header at_ ((stored_parsing (.inr at_)).mp stored) moved
  next at_ =>
    cases ran
    exact stored_preFile at_ ((stored_buffered (.inl at_)).mp stored)
  next at_ =>
    rw [run_bind] at ran
    cases ran
    exact stored_earse part at_ ((stored_buffered (.inr at_)).mp stored)
  next at_ => exact stored_body inFlash at_ ((stored_writing at_).mp stored) ran
  next at_ =>
    have ended := (stored_checksum at_).mp stored
    obtain ⟨rfl, rfl | ⟨rfl, verified⟩⟩ := wifiChecksumStep_cases ran
    · trivial
    · have limit : t.app.wifi.file.fileLen ≤ maxVerified := verifyFlash_limit verified
      refine ⟨limit, ?_⟩
      change t.receivedBy input _ = [] ∨ (Written place t.flash t.app.hal (t.receivedBy input _) ∧
        t.app.wifi.file.fileLen ≤ toU32 (t.receivedBy input _).length)
      rw [receivedBy_other (by rw [status, at_]; nofun) (by rw [status, at_]; nofun)
        (by rw [status, at_]; nofun)]
      exact ended limit
  next =>
    cases ran
    unfold OtaModule.errorStep
    dsimp only
    split <;> trivial
  next at_ =>
    cases ran
    unfold OtaModule.retryStep
    split
    · trivial
    · exact stored_quiet at_ rfl nofun
  next =>
    -- the device is reset
    rw [run_bind] at ran
    cases ran
  all_goals
    rename_i at_
    cases ran
    exact stored_quiet at_ rfl nofun

theorem stored_nexts (part : env.part = place.entry) {t t' : OtaTrace env} {inputs : List StepInput}
    (stored : t.Stored place) (ran : t.nexts (inputs.map .wifi) = some t') : t'.Stored place := by
  induction inputs generalizing t with
  | nil =>
    cases ran
    exact stored
  | cons input inputs ih =>
    obtain ⟨t₁, first, rest⟩ := Option.bind_eq_some_iff.mp ran
    obtain ⟨app, flash, moved, rfl⟩ := next_eq first
    exact ih (stored_wifi part stored moved) rest

end OtaTrace

/-! ## The state records -/

section Done

variable {place : OtaPlace} {crc32 : List UInt8 → Nat}

/-- `patch_addr` and `patch_size` of an `OtaState`. -/
def patchAddr (state : List UInt8) : Nat := le32At state 8

def patchSize (state : List UInt8) : Nat := le32At state 12

theorem le32_toNat {n : Nat} (small : n < 2 ^ 32) :
    (UInt8.ofNat n).toNat + 256 * (UInt8.ofNat (n / 256)).toNat +
      65536 * (UInt8.ofNat (n / 65536)).toNat + 16777216 * (UInt8.ofNat (n / 16777216)).toNat = n := by
  simp only [UInt8.toNat_ofNat']
  omega

theorem patchAddr_otaState {info : OtaOperateInfo} (small : info.sAddr < 2 ^ 32) :
    patchAddr (otaState crc32 info) = info.sAddr := le32_toNat small

theorem patchSize_otaState {info : OtaOperateInfo} (small : info.dataLen < 2 ^ 32) :
    patchSize (otaState crc32 info) = info.dataLen := le32_toNat small

/-- Without the announced number of bytes nothing is written. -/
theorem otaHalDone_incomplete {info : OtaOperateInfo} (fewer : info.offset < info.dataLen)
    (m : ByteMem) : (otaHalDone crc32 info).writes m = [] := by
  rw [otaHalDone, if_neg fun complete => Nat.ne_of_lt fewer complete.2]
  rfl

/-- With it the record goes to both state sectors. -/
theorem otaHalDone_complete (crc32 : List UInt8 → Nat) {info : OtaOperateInfo}
    (complete : info.complete) {addr₁ addr₂ : Nat}
    (first : u32 (info.eAddr + 2 ^ 32 - 2 * otaStatPartSize) = addr₁)
    (second : u32 (info.eAddr + 2 ^ 32 - otaStatPartSize) = addr₂) (m : ByteMem) :
    (otaHalDone crc32 info).writes m =
        [(addr₁, otaState crc32 info), (addr₂, otaState crc32 info)] ∧
      ((otaHalDone crc32 info).run m).2 =
        (m.program addr₁ (otaState crc32 info)).program addr₂ (otaState crc32 info) := by
  rw [otaHalDone, if_pos complete, first, second]
  exact ⟨rfl, rfl⟩

/-- The state records are there and describe the `size` bytes at `addr`, which are as they were
and lie in front of the state sectors. -/
structure Committed (crc32 : List UInt8 → Nat) (place : OtaPlace) (info : OtaOperateInfo)
    (flash : ByteMem) (addr size : Nat) (state : List UInt8) : Prop where
  writes : (otaHalDone crc32 info).writes flash =
    [(place.base + place.len - 8192, state), (place.base + place.len - 4096, state)]
  first : ((otaHalDone crc32 info).run flash).2.Holds (place.base + place.len - 8192) state
  second : ((otaHalDone crc32 info).run flash).2.Holds (place.base + place.len - 4096) state
  addr_eq : patchAddr state = addr
  size_eq : patchSize state = size
  kept : ((otaHalDone crc32 info).run flash).2.load addr size = flash.load addr size
  apart : addr + size ≤ place.base + place.len - 8192

theorem committed_placed (inFlash : place.base + place.len ≤ 2 ^ 24) {size : Nat} (pos : size ≠ 0)
    (fits : place.Fits size) {m : ByteMem}
    (blank : m.Erased (place.start size + size) (place.base + place.len - (place.start size + size))) :
    Committed crc32 place (place.placed size size) m (place.start size) size
      (otaState crc32 (place.placed size size)) := by
  obtain ⟨low, high⟩ := fits.start_inside
  have eAddr : (place.placed size size).eAddr = place.base + place.len := rfl
  have complete : (place.placed size size).complete := ⟨pos, rfl⟩
  have first : u32 ((place.placed size size).eAddr + 2 ^ 32 - 2 * otaStatPartSize) =
      place.base + place.len - 8192 := by
    rw [eAddr]
    unfold u32 otaStatPartSize
    omega
  have second : u32 ((place.placed size size).eAddr + 2 ^ 32 - otaStatPartSize) =
      place.base + place.len - 4096 := by
    rw [eAddr]
    unfold u32 otaStatPartSize
    omega
  obtain ⟨writes, image⟩ := otaHalDone_complete crc32 complete first second m
  have length : (otaState crc32 (place.placed size size)).length = 24 := rfl
  refine ⟨writes, ?_, ?_, patchAddr_otaState ?_, patchSize_otaState ?_, ?_, by omega⟩
  · rw [image]
    refine Holds.congr (program_frame _ _ _ (.inl ?_)) (program_holds (blank.sub ?_ ?_))
    · rw [length]
      omega
    · omega
    · rw [length]
      omega
  · rw [image]
    refine program_holds (Erased.congr (program_frame _ _ _ (.inr ?_)) (blank.sub ?_ ?_))
    · rw [length]
      omega
    · omega
    · rw [length]
      omega
  · change place.start size < 2 ^ 32
    omega
  · change size < 2 ^ 32
    omega
  · rw [image]
    exact (load_congr ((program_frame _ _ _ (.inl (by omega))).trans
      (program_frame _ _ _ (.inl (by omega))))).symm

end Done

section Commit

variable {env : OtaEnv} {place : OtaPlace}

/-- A package that announces its length and fits has been written as a whole. -/
theorem written_whole {flash : ByteMem} {hal : OtaOperateInfo} {received : List UInt8}
    (written : Written place flash hal received)
    (header : sizeofOtaPkgHeader ≤ received.length) {fileLen : Nat}
    (announced : pkgSize received = fileLen) (limit : fileLen ≤ maxVerified)
    (reached : fileLen ≤ toU32 received.length) :
    place.Fits fileLen ∧ received.length = fileLen ∧ hal = place.placed fileLen fileLen ∧
      flash.Holds (place.start fileLen) received ∧
      flash.Erased (place.start fileLen + fileLen)
        (place.base + place.len - (place.start fileLen + fileLen)) := by
  subst announced
  rcases written with ⟨rfl, -, -⟩ | ⟨-, -, stored⟩
  · exact absurd header (by decide)
  · obtain ⟨fits, before, placed, held, blank⟩ := stored limit
    have small : received.length = pkgSize received := by
      unfold toU32 at reached
      unfold maxVerified httpBufSize at limit
      omega
    rw [small] at placed blank
    exact ⟨fits, small, placed, held, blank⟩

/-- In every run of `ya_wifi_ota_download` that reaches `YA_WAIT_TO_REBOOT` with a body whose
package header announces `file_len` bytes, the flash holds that body where the checksum has
read it, and `otaHal_done` commits it. In no state does `otaHal_done`
write a record for a package with fewer bytes written than announced. -/
theorem otaCommit (part : env.part = place.entry) {t₀ t : OtaTrace env} {inputs : List StepInput}
    (start : t₀.status = .httpStart) (ran : t₀.nexts (inputs.map .wifi) = some t)
    (reboots : t.status = .waitToReboot) :
    (sizeofOtaPkgHeader ≤ t.received.length → pkgSize t.received = t.app.wifi.file.fileLen →
      t.received.length = t.app.wifi.file.fileLen ∧
      t.flash.load t.app.hal.sAddr t.app.wifi.file.fileLen = t.received ∧
      Committed env.crc32 place t.app.hal t.flash t.app.hal.sAddr t.app.wifi.file.fileLen
        (otaState env.crc32 t.app.hal)) ∧
    ∀ (info : OtaOperateInfo) (m : ByteMem), info.offset < info.dataLen →
      (otaHalDone env.crc32 info).writes m = [] := by
  have inFlash : place.base + place.len ≤ 2 ^ 24 := env.partInFlash _ _ part
  refine ⟨fun header announced => ?_, fun info m fewer => otaHalDone_incomplete fewer m⟩
  have stored : t.Stored place :=
    OtaTrace.stored_nexts part (OtaTrace.stored_quiet start rfl nofun) ran
  obtain ⟨limit, ended⟩ := (OtaTrace.stored_reboot reboots).mp stored
  rcases ended with nothing | ⟨written, reached⟩
  · rw [nothing] at header
    exact absurd header (by decide)
  · obtain ⟨fits, length, placed, held, blank⟩ :=
      written_whole written header announced limit reached
    have pos : t.app.wifi.file.fileLen ≠ 0 := by
      unfold sizeofOtaPkgHeader at header
      omega
    have load : t.flash.load (place.start t.app.wifi.file.fileLen) t.app.wifi.file.fileLen =
        t.received := by
      have loaded := held.load
      rw [length] at loaded
      exact loaded
    rw [placed]
    exact ⟨length, load, committed_placed inFlash pos fits blank⟩

/-- The steps of a download of 64 bytes whose header announces `size`. -/
def download64Steps (size : Nat) : List StepInput :=
  headerSteps (bodyOf size 0) ++ bodySteps64 ++ [okInput []]

/-- The application with the request for 64 bytes. -/
def requested64 : Option (OtaTrace countingEnv) :=
  (OtaTrace.initial fun _ => 0).next (.wifiRequest request64)

theorem otaCommit_download64 : ∃ t₀ t : OtaTrace countingEnv, t₀.status = .httpStart ∧
    t₀.nexts ((download64Steps 64).map .wifi) = some t ∧ t.status = .waitToReboot ∧
    sizeofOtaPkgHeader ≤ t.received.length ∧ pkgSize t.received = t.app.wifi.file.fileLen ∧
    Committed countingEnv.crc32 dataOta t.app.hal t.flash t.app.hal.sAddr t.app.wifi.file.fileLen
      (otaState countingEnv.crc32 t.app.hal) := by
  have ran : (requested64.bind fun t₀ => (t₀.nexts ((download64Steps 64).map .wifi)).map fun t =>
      (t₀.status, t.status)) = some (.httpStart, .waitToReboot) := by decide +kernel
  have body : (requested64.bind fun t₀ => (t₀.nexts ((download64Steps 64).map .wifi)).map fun t =>
      (t.received, t.app.wifi.file.fileLen)) = some (bodyOf 64 0, 64) := by decide +kernel
  obtain ⟨t₀, first, mapped⟩ := Option.bind_eq_some_iff.mp ran
  obtain ⟨t, moved, states⟩ := Option.map_eq_some_iff.mp mapped
  obtain ⟨start, reboots⟩ := Prod.mk.inj states
  rw [first, Option.bind_some, moved, Option.map_some] at body
  obtain ⟨received, fileLen⟩ := Prod.mk.inj (Option.some.inj body)
  have header : sizeofOtaPkgHeader ≤ t.received.length := by
    rw [received]
    decide
  have announced : pkgSize t.received = t.app.wifi.file.fileLen := by
    rw [received, fileLen]
    decide
  have part : countingEnv.part = dataOta.entry := rfl
  exact ⟨t₀, t, start, moved, reboots, header, announced,
    ((otaCommit part start moved reboots).1 header announced).2.2⟩

/-- A file of 64 bytes that announces 65 passes the checks and is not committed. -/
theorem otaCommit_announced65 : ∃ t₀ t : OtaTrace countingEnv, t₀.status = .httpStart ∧
    t₀.nexts ((download64Steps 65).map .wifi) = some t ∧ t.status = .waitToReboot ∧
    (otaHalDone countingEnv.crc32 t.app.hal).writes t.flash = [] := by
  have ran : (requested64.bind fun t₀ => (t₀.nexts ((download64Steps 65).map .wifi)).map fun t =>
      (t₀.status, t.status)) = some (.httpStart, .waitToReboot) := by decide +kernel
  have writer : (requested64.bind fun t₀ => (t₀.nexts ((download64Steps 65).map .wifi)).map fun t =>
      (t.app.hal.offset, t.app.hal.dataLen)) = some (64, 65) := by decide +kernel
  obtain ⟨t₀, first, mapped⟩ := Option.bind_eq_some_iff.mp ran
  obtain ⟨t, moved, states⟩ := Option.map_eq_some_iff.mp mapped
  obtain ⟨start, reboots⟩ := Prod.mk.inj states
  rw [first, Option.bind_some, moved, Option.map_some] at writer
  obtain ⟨offset, dataLen⟩ := Prod.mk.inj (Option.some.inj writer)
  refine ⟨t₀, t, start, moved, reboots, otaHalDone_incomplete ?_ _⟩
  rw [offset, dataLen]
  decide

end Commit

end Tr6260
