import Tr6260.Ota.Assembly
import Tr6260.Ota.Integrity

/-!
# Where the controller's file goes

`ya_mcu_ota_download` hands `ota_file_addr` to the erasure, to the body handler
and to `ya_verify_mcu_file_checksum`. The first two pass it to
`ya_http_ota_sector_erase` and `ya_http_ota_sector_write`, which ignore it: the
file goes through the writer of the module's own update. The writer takes four
bytes of the file for the size of a package, refuses the file if that is too
small or too large, and puts it below the end of the OTA partition. Only the
checksum reads at `ota_file_addr`.

`McuStored` is what the machine is for, over the turns of `ya_http_ota_app` from
`YA_EARSE_FLASH` to the checksum: the file is stored where it is verified, and a
file with the right digest gets to `YA_NOTIFY_MCU`. It holds whatever the flash
held before exactly for the files and addresses of `OtaPlace.StoresAt`.
-/

namespace Tr6260

open FlashProg ByteMem

/-! ## The writer and any file -/

namespace OtaPlace

/-- What a file that announces `size` bytes reserves at the end of a partition, in an
`unsigned int`. -/
def reserved (size : Nat) : Nat := u32 (alignFileLen size + 2 * otaStatPartSize)

/-- Where the writer puts it. -/
def writeAddr (place : OtaPlace) (size : Nat) : Nat := place.base + place.len - reserved size

/-- The writer takes the file: its first piece has the length of a package header, and the size
read from it has room in the partition and is not below the length of the file. -/
structure Takes (place : OtaPlace) {file : List UInt8} (delivery : BodyDelivery file) : Prop where
  header : sizeofOtaPkgHeader ≤ delivery.firstPiece.length
  room : reserved (pkgSize file) ≤ place.len
  size : file.length ≤ pkgSize file

end OtaPlace

section Writer

variable {place : OtaPlace}

/-- The address of the first frame, also when the sums overflow. -/
theorem firstFrame_sAddr {data : List UInt8}
    (room : OtaPlace.reserved (pkgSize data) ≤ place.len) :
    (place.fresh.firstFrame data).sAddr = place.writeAddr (pkgSize data) := by
  have bound := place.bound
  have small : alignFileLen (pkgSize data) < 2 ^ 32 := by
    have size : pkgSize data < 2 ^ 32 := le32At_lt data 8
    unfold alignFileLen u32
    split
    · exact Nat.mod_lt _ (by decide)
    · exact size
  unfold OtaPlace.reserved u32 otaStatPartSize at room
  change u32 (place.base + place.len + 2 ^ 32 - alignFileLen (pkgSize data) - 2 * 4096) =
    place.base + place.len - u32 (alignFileLen (pkgSize data) + 2 * 4096)
  unfold u32
  omega

/-- A first frame that is taken. -/
theorem otaHalWrite_taken {data : List UInt8} (header : sizeofOtaPkgHeader ≤ data.length)
    (room : OtaPlace.reserved (pkgSize data) ≤ place.len) :
    otaHalWrite place.fresh data = otaHalWrite (place.fresh.firstFrame data) data := by
  rw [otaHalWrite, if_neg place.fresh_getFirstFrame, if_neg (Nat.not_lt.mpr header)]
  exact (if_neg (Nat.not_lt.mpr room)).trans rfl

/-- A first frame that is refused. -/
theorem otaHalWrite_refused {data : List UInt8}
    (refused : data.length < sizeofOtaPkgHeader ∨ place.len < OtaPlace.reserved (pkgSize data)) :
    ∃ hal, otaHalWrite place.fresh data = Pure.pure (-1, hal) := by
  rw [otaHalWrite, if_neg place.fresh_getFirstFrame]
  split
  · exact ⟨_, rfl⟩
  next header =>
    rcases refused with short | full
    · exact absurd short header
    · exact ⟨_, if_pos full⟩

/-- A file longer than the announced size is refused at the piece that goes beyond it. -/
theorem bodyLoop_overflows {info : OtaOperateInfo} {file : List UInt8}
    (framed : info.getFirstFrame = true) (low : info.sAddr + file.length < 2 ^ 32)
    (exceeds : info.dataLen < file.length) {rest : List (List UInt8)}
    (nonempty : ∀ chunk ∈ rest, chunk ≠ []) (small : ∀ chunk ∈ rest, chunk.length ≤ httpBufSize)
    {done piece : List UInt8} (split : file = done ++ piece ++ rest.flatten) (bytes : piece ≠ [])
    (roomy : piece.length ≤ httpBufSize) {headerLen : Nat} {mem : ByteMem}
    (held : mem.Holds (otaBuf + headerLen) piece) (m : ByteMem) :
    ∃ result image, (bodyLoop (fileAt file.length headerLen done.length piece.length) mem
        { info with offset := done.length } rest).run m = (some result, image) ∧
      result.ret = -1 := by
  have length := congrArg List.length split
  rw [List.length_append, List.length_append] at length
  induction rest generalizing done piece headerLen mem m with
  | nil =>
    rw [List.flatten_nil, List.length_nil, Nat.add_zero] at length
    have refused : otaHalWrite { info with offset := done.length } piece =
        Pure.pure (-1, { info with offset := done.length }) := by
      rw [otaHalWrite_framed framed low (by omega), if_pos (by omega)]
    rw [bodyLoop_refused held bytes roomy refused]
    exact ⟨_, m, rfl, rfl⟩
  | cons chunk chunks ih =>
    by_cases beyond : info.dataLen < done.length + piece.length
    · have refused : otaHalWrite { info with offset := done.length } piece =
          Pure.pure (-1, { info with offset := done.length }) := by
        rw [otaHalWrite_framed framed low (by omega), if_pos beyond]
      rw [bodyLoop_refused held bytes roomy refused]
      exact ⟨_, m, rfl, rfl⟩
    have chunkBytes := nonempty chunk List.mem_cons_self
    have chunkRoomy := small chunk List.mem_cons_self
    obtain ⟨unfinished, split'⟩ := unfinished_of_chunk split chunkBytes
    have stored : (mem.store otaBuf chunk).Holds (otaBuf + 0) chunk := store_holds _ _ _
    obtain ⟨result, image, ran, ret⟩ := ih (fun c mem => nonempty c (List.mem_cons_of_mem _ mem))
      (fun c mem => small c (List.mem_cons_of_mem _ mem)) split' chunkBytes chunkRoomy stored
      (m.program (info.sAddr + done.length) piece)
      (by rw [← List.length_append, ← List.length_append, ← split'])
    rw [List.length_append] at ran
    rw [bodyLoop, yaHttpBodyHandle_framed framed low split (by omega) held bytes roomy, bind_bind,
      ret_bind, bodyRead_next unfinished chunkRoomy, run_bind, halSpifiashWrite_run]
    exact ⟨result, image, ran, ret⟩

section Outcome

variable {file : List UInt8} {delivery : BodyDelivery file} {mem : ByteMem}

/-- A file that the writer takes is programmed at the writer's place. -/
theorem bodyLoop_taken (filled : 0 < file.length)
    (low : place.base + place.len + file.length < 2 ^ 32) (takes : place.Takes delivery)
    (held : mem.Holds (otaBuf + delivery.headerLen) delivery.first) (m : ByteMem) :
    ∃ n mem' hal, (bodyLoop (fileAt file.length delivery.headerLen 0 delivery.first.length) mem
        place.fresh delivery.rest).run m =
      (some ⟨1, fileAt file.length 0 file.length n, mem', hal⟩,
        m.program (place.writeAddr (pkgSize file)) file) := by
  obtain ⟨piece⟩ := firstArrival delivery filled held
  have size : pkgSize delivery.firstPiece = pkgSize file := by
    conv_rhs => rw [piece.whole]
    exact (pkgSize_append takes.header _).symm
  have room : OtaPlace.reserved (pkgSize delivery.firstPiece) ≤ place.len := by
    rw [size]
    exact takes.room
  have sAddr := firstFrame_sAddr room
  rw [size] at sAddr
  have below : place.writeAddr (pkgSize file) ≤ place.base + place.len := Nat.sub_le _ _
  have split : file = [] ++ delivery.firstPiece ++ piece.later.flatten := piece.whole
  have announced : file.length ≤ (place.fresh.firstFrame delivery.firstPiece).dataLen := by
    change file.length ≤ pkgSize delivery.firstPiece
    rw [size]
    exact takes.size
  have framed : (place.fresh.firstFrame delivery.firstPiece).getFirstFrame = true := rfl
  have inside : (place.fresh.firstFrame delivery.firstPiece).sAddr + file.length < 2 ^ 32 := by
    rw [sAddr]
    omega
  obtain ⟨n, mem', ran, -⟩ := bodyLoop_appends framed inside announced piece.nonempty piece.small
    split piece.filled piece.roomy piece.held m
  rw [← piece.whole, List.length_nil, Nat.add_zero] at ran
  rw [piece.same, bodyLoop_hal piece.held piece.filled piece.roomy
    (otaHalWrite_taken takes.header room), ← sAddr]
  exact ⟨n, mem', _, ran⟩

/-- A file that the writer does not take ends the download. -/
theorem bodyLoop_not_taken (filled : 0 < file.length)
    (low : place.base + place.len + file.length < 2 ^ 32) (refused : ¬ place.Takes delivery)
    (held : mem.Holds (otaBuf + delivery.headerLen) delivery.first) (m : ByteMem) :
    ∃ result image, (bodyLoop (fileAt file.length delivery.headerLen 0 delivery.first.length) mem
        place.fresh delivery.rest).run m = (some result, image) ∧ result.ret = -1 := by
  obtain ⟨piece⟩ := firstArrival delivery filled held
  rw [piece.same]
  by_cases first : sizeofOtaPkgHeader ≤ delivery.firstPiece.length ∧
      OtaPlace.reserved (pkgSize delivery.firstPiece) ≤ place.len
  · obtain ⟨header, room⟩ := first
    have size : pkgSize delivery.firstPiece = pkgSize file := by
      conv_rhs => rw [piece.whole]
      exact (pkgSize_append header _).symm
    have sAddr := firstFrame_sAddr room
    have below : place.writeAddr (pkgSize delivery.firstPiece) ≤ place.base + place.len :=
      Nat.sub_le _ _
    have split : file = [] ++ delivery.firstPiece ++ piece.later.flatten := piece.whole
    have exceeds : (place.fresh.firstFrame delivery.firstPiece).dataLen < file.length := by
      change pkgSize delivery.firstPiece < file.length
      by_contra announced
      rw [size] at announced room
      exact refused ⟨header, room, Nat.not_lt.mp announced⟩
    have framed : (place.fresh.firstFrame delivery.firstPiece).getFirstFrame = true := rfl
    have inside : (place.fresh.firstFrame delivery.firstPiece).sAddr + file.length < 2 ^ 32 := by
      rw [sAddr]
      omega
    rw [bodyLoop_hal piece.held piece.filled piece.roomy (otaHalWrite_taken header room)]
    exact bodyLoop_overflows framed inside exceeds piece.nonempty piece.small split piece.filled
      piece.roomy piece.held m
  · have fails : delivery.firstPiece.length < sizeofOtaPkgHeader ∨
        place.len < OtaPlace.reserved (pkgSize delivery.firstPiece) := by
      by_contra fine
      rw [not_or, Nat.not_lt, Nat.not_lt] at fine
      exact first fine
    obtain ⟨hal, refused⟩ := otaHalWrite_refused fails
    rw [bodyLoop_refused piece.held piece.filled piece.roomy refused]
    exact ⟨_, m, rfl, rfl⟩

end Outcome

end Writer

/-! ## Turns of the loop -/

section Turns

variable (env : OtaEnv)

/-- One turn of the loop of `ya_http_ota_app` in which no message comes in. -/
def otaTurn (input : StepInput) (app : OtaApp env.md5) : FlashProg (Option (OtaApp env.md5)) := do
  match ← yaWifiOtaDownload env input app with
  | none => return none
  | some app => yaMcuOtaDownload env input app

/-- The turns that find the controller's machine in `YA_HTTP_BODY_HANDLE`. -/
def bodyTurns : List StepInput → OtaApp env.md5 → FlashProg (Option (OtaApp env.md5))
  | [], app => return some app
  | input :: inputs, app =>
    if app.mcu.para.httpState = .httpBodyHandle then do
      match ← otaTurn env input app with
      | none => return none
      | some app => bodyTurns inputs app
    else
      return some app

/-- The turn in `YA_EARSE_FLASH` and those in `YA_HTTP_BODY_HANDLE` behind it. -/
def mcuTurns (first : StepInput) (inputs : List StepInput) (app : OtaApp env.md5) :
    FlashProg (Option (OtaApp env.md5)) := do
  match ← otaTurn env first app with
  | none => return none
  | some app => bodyTurns env inputs app

/-- The same with the turn behind the body. -/
def mcuVerdict (first : StepInput) (inputs : List StepInput) (last : StepInput)
    (app : OtaApp env.md5) : FlashProg (Option (OtaApp env.md5)) := do
  match ← mcuTurns env first inputs app with
  | none => return none
  | some app => otaTurn env last app

/-- No WiFi download is running, and the controller's machine has read the header of a response
with the announced file, whose digest is the one of the request. -/
structure McuArrived {file : List UInt8} (delivery : BodyDelivery file) (app : OtaApp env.md5) :
    Prop where
  wifi : app.wifi.para.httpState = .httpIdle
  state : app.mcu.para.httpState = .earseFlash
  para : app.mcu.file = fileAt file.length delivery.headerLen 0 delivery.first.length
  buffer : ∃ buffer, app.mcu.para.otaBuffer = some buffer ∧
    buffer.Holds (otaBuf + delivery.headerLen) delivery.first
  socket : 0 ≤ app.mcu.para.otaServerSocket
  md5 : app.mcu.url.md5 = env.md5.digest file

/-- When the body is complete the flash holds the file at `ota_file_addr`, and the machine gets to
`YA_NOTIFY_MCU`. -/
structure McuStored (file : List UInt8) (first : StepInput) (inputs : List StepInput)
    (last : StepInput) (app : OtaApp env.md5) (m : ByteMem) : Prop where
  stored : ∀ app' m', (mcuTurns env first inputs app).run m = (some app', m') →
    app'.mcu.para.httpState = .httpChecksum → m'.Holds env.mcuFileAddr file
  notified : ∃ app' m', (mcuVerdict env first inputs last app).run m = (some app', m') ∧
    app'.mcu.para.httpState = .notifyMcu

end Turns

/-- The application behind a call of the body handler for the controller's file. -/
def OtaApp.behindBody {md5 : Md5} (app : OtaApp md5) (result : BodyResult) : OtaApp md5 :=
  { app with
    hal := result.hal
    mcu :=
      if result.ret < 0 then (app.mcu.withBody result).setState .errorHandle
      else if result.ret > 0 then (app.mcu.withBody result).setState .httpChecksum
      else app.mcu.withBody result }

section Machine

variable {env : OtaEnv} {app : OtaApp env.md5} {input : StepInput}

/-- An idle WiFi machine does nothing. -/
theorem otaTurn_idle (idle : app.wifi.para.httpState = .httpIdle) :
    otaTurn env input app = yaMcuOtaDownload env input app := by
  unfold otaTurn yaWifiOtaDownload
  rw [idle]
  rfl

theorem mcuBodyStep_run {buffer : ByteMem} (held : app.mcu.para.otaBuffer = some buffer)
    (m : ByteMem) :
    (mcuBodyStep env input app).run m =
      (((yaHttpBodyHandle app.mcu.file (input.read app.mcu.para.otaServerSocket) buffer
          app.hal).run m).1.map app.behindBody,
        ((yaHttpBodyHandle app.mcu.file (input.read app.mcu.para.otaServerSocket) buffer
          app.hal).run m).2) := by
  unfold mcuBodyStep
  rw [held]
  dsimp only
  rw [run_bind]
  rcases (yaHttpBodyHandle app.mcu.file (input.read app.mcu.para.otaServerSocket) buffer
    app.hal).run m with ⟨_ | result, m'⟩
  · rfl
  · dsimp only [Option.map_some]
    unfold OtaApp.behindBody
    split
    · rfl
    · split
      · rfl
      · rfl

theorem bodyTurn_run {buffer : ByteMem} (idle : app.wifi.para.httpState = .httpIdle)
    (at_ : app.mcu.para.httpState = .httpBodyHandle) (held : app.mcu.para.otaBuffer = some buffer)
    (m : ByteMem) :
    (otaTurn env input app).run m =
      (((yaHttpBodyHandle app.mcu.file (input.read app.mcu.para.otaServerSocket) buffer
          app.hal).run m).1.map app.behindBody,
        ((yaHttpBodyHandle app.mcu.file (input.read app.mcu.para.otaServerSocket) buffer
          app.hal).run m).2) := by
  rw [otaTurn_idle idle, yaMcuOtaDownload, at_]
  exact mcuBodyStep_run held m

theorem bodyTurns_left (left : app.mcu.para.httpState ≠ .httpBodyHandle)
    (inputs : List StepInput) : bodyTurns env inputs app = Pure.pure (some app) := by
  cases inputs with
  | nil => rfl
  | cons input inputs => rw [bodyTurns, if_neg left]

/-- A call that does not return `0` leaves the state. -/
theorem behindBody_left {result : BodyResult} (ends : result.ret ≠ 0) :
    (app.behindBody result).mcu.para.httpState ≠ .httpBodyHandle := by
  unfold OtaApp.behindBody
  dsimp only
  split
  · nofun
  next low =>
    rw [if_pos (by omega)]
    nofun

/-- The turns in `YA_HTTP_BODY_HANDLE` are the calls of the body handler, up to the first that
does not return `0`. -/
theorem bodyTurns_run {rest : List (List UInt8)} {inputs : List StepInput}
    (delivers : inputs.map StepInput.incoming = rest.map some ++ [none]) {buffer : ByteMem}
    (idle : app.wifi.para.httpState = .httpIdle)
    (at_ : app.mcu.para.httpState = .httpBodyHandle) (held : app.mcu.para.otaBuffer = some buffer)
    (socket : 0 ≤ app.mcu.para.otaServerSocket) (m : ByteMem) :
    (bodyTurns env inputs app).run m =
      (((bodyLoop app.mcu.file buffer app.hal rest).run m).1.map app.behindBody,
        ((bodyLoop app.mcu.file buffer app.hal rest).run m).2) := by
  induction rest generalizing inputs app buffer m with
  | nil =>
    obtain ⟨input, rfl, silent⟩ := List.map_eq_singleton_iff.mp delivers
    have read : input.read app.mcu.para.otaServerSocket = fun _ => none := by
      funext n
      rw [StepInput.read, silent]
      split
      · rfl
      · rfl
    rw [bodyTurns, if_pos at_, run_bind, bodyTurn_run idle at_ held, read, bodyLoop]
    rcases (yaHttpBodyHandle app.mcu.file (fun _ => none) buffer app.hal).run m with
      ⟨_ | result, m'⟩
    · rfl
    · rfl
  | cons chunk chunks ih =>
    obtain ⟨input, inputs, rfl, incoming, delivers⟩ := List.map_eq_cons_iff.mp delivers
    have read : input.read app.mcu.para.otaServerSocket = offered chunk := by
      funext n
      rw [StepInput.read, incoming, if_neg (Int.not_lt.mpr socket)]
      rfl
    rw [bodyTurns, if_pos at_, run_bind, bodyTurn_run idle at_ held, read, bodyLoop, run_bind]
    rcases (yaHttpBodyHandle app.mcu.file (offered chunk) buffer app.hal).run m with
      ⟨_ | result, m'⟩
    · rfl
    dsimp only [Option.map_some]
    by_cases goes : result.ret = 0
    · have behind : app.behindBody result =
          { app with hal := result.hal, mcu := app.mcu.withBody result } := by
        rw [OtaApp.behindBody, goes]
        rfl
      have resting : (app.behindBody result).wifi.para.httpState = .httpIdle := idle
      have state : (app.behindBody result).mcu.para.httpState = .httpBodyHandle := by
        rw [behind]
        exact at_
      have buffered : (app.behindBody result).mcu.para.otaBuffer = some result.mem := by
        rw [behind]
        rfl
      have open_ : 0 ≤ (app.behindBody result).mcu.para.otaServerSocket := by
        rw [behind]
        exact socket
      rw [if_pos goes, ih delivers resting state buffered open_ m', behind]
      rfl
    · rw [if_neg goes, bodyTurns_left (behindBody_left goes)]
      rfl

/-! ## The erasure and the checksum -/

/-- The erasure fails unless the partition consists of whole sectors. -/
theorem otaHalInit_cases (env : OtaEnv) :
    (∃ place : OtaPlace, env.part = place.entry) ∨
      ∀ m, ∃ hal, (otaHalInit env.part).run m = ((-1, hal), m) := by
  rcases part : env.part with _ | ⟨addr, len⟩
  · exact .inr fun m => ⟨_, rfl⟩
  have bound := env.partInFlash addr len part
  by_cases whole : addr % spiflashSectorSize = 0 ∧ len % spiflashSectorSize = 0
  · exact .inl ⟨⟨addr, len, whole.1, whole.2, by omega⟩, rfl⟩
  · refine .inr fun m => ⟨{ OtaOperateInfo.zero with sAddr := addr, maxLen := len }, ?_⟩
    have off : addr % spiflashSectorSize ≠ 0 ∨ len % spiflashSectorSize ≠ 0 := by
      by_contra fine
      rw [not_or, not_not, not_not] at fine
      exact whole fine
    rw [otaHalInit, run_bind, halSpiflashErase, if_pos off]
    rfl

theorem eraseTurn_run (idle : app.wifi.para.httpState = .httpIdle)
    (at_ : app.mcu.para.httpState = .earseFlash) (m : ByteMem) :
    (otaTurn env input app).run m =
      (some { app with
          hal := ((otaHalInit env.part).run m).1.2
          mcu := app.mcu.setState
            (if ((otaHalInit env.part).run m).1.1 ≠ 0 then .errorHandle else .httpBodyHandle) },
        ((otaHalInit env.part).run m).2) := by
  rw [otaTurn_idle idle, yaMcuOtaDownload, at_]
  dsimp only
  rw [run_bind, mcuEarseStep, run_bind]
  rfl

theorem checksumTurn_run (idle : app.wifi.para.httpState = .httpIdle)
    (at_ : app.mcu.para.httpState = .httpChecksum) {m : ByteMem}
    (passed : (verifyFlash env.md5 env.mcuFileAddr app.mcu.file.fileLen app.mcu.url.md5).run m =
      (some 0, m)) :
    (otaTurn env input app).run m = (some { app with mcu := app.mcu.setState .notifyMcu }, m) := by
  rw [otaTurn_idle idle, yaMcuOtaDownload, at_]
  dsimp only
  rw [mcuChecksumStep, yaVerifyMcuFileChecksum, run_bind, passed]
  rfl

/-- Only a checksum that passes leads to `YA_NOTIFY_MCU`. -/
theorem yaMcuOtaDownload_notify {app' : OtaApp env.md5} {m m' : ByteMem}
    (ran : (yaMcuOtaDownload env input app).run m = (some app', m'))
    (enters : app'.mcu.para.httpState = .notifyMcu) :
    app.mcu.para.httpState = .httpChecksum ∧
      (verifyFlash env.md5 env.mcuFileAddr app.mcu.file.fileLen app.mcu.url.md5).run m =
        (some 0, m) := by
  unfold yaMcuOtaDownload at ran
  split at ran
  next =>
    cases ran
    have successor : (app.mcu.startStep input).para.httpState ∈ OtaStatus.successors .httpStart :=
      startStep_successor app.mcu
    rw [show (app.mcu.startStep input).para.httpState = _ from enters] at successor
    exact absurd successor (by decide)
  next =>
    cases ran
    have successor : (app.mcu.connectStep input).para.httpState ∈
        OtaStatus.successors .httpConnect := connectStep_successor app.mcu
    rw [show (app.mcu.connectStep input).para.httpState = _ from enters] at successor
    exact absurd successor (by decide)
  next =>
    obtain ⟨mcu, moved, rfl⟩ := Option.map_eq_some_iff.mp (congrArg Prod.fst ran)
    have successor := sendGetStep_successor moved
    rw [show mcu.para.httpState = _ from enters] at successor
    exact absurd successor (by decide)
  next at_ =>
    obtain ⟨ret, mcu, read, rfl | ⟨-, rfl⟩ | ⟨-, -, rfl⟩⟩ :=
      mcuHeaderStep_cases (congrArg Prod.fst ran)
    · cases enters
    · obtain ⟨buffer, response, buffer', -, -, rfl⟩ := headerRead_eq read
      rw [show app.mcu.para.httpState = _ from enters] at at_
      cases at_
    · cases enters
  next at_ =>
    rw [run_bind, mcuEarseStep, run_bind] at ran
    cases ran
    change (if _ then OtaStatus.errorHandle else .httpBodyHandle) = _ at enters
    split at enters
    · cases enters
    · cases enters
  next at_ =>
    obtain ⟨buffer, result, -, -, ⟨-, rfl⟩ | ⟨-, rfl⟩ | ⟨-, rfl⟩⟩ := mcuBodyStep_cases ran
    · cases enters
    · cases enters
    · rw [show app.mcu.para.httpState = _ from enters] at at_
      cases at_
  next at_ =>
    obtain ⟨-, ret, verified, ⟨-, rfl⟩ | ⟨rfl, -⟩⟩ := mcuChecksumStep_cases ran
    · cases enters
    · exact ⟨at_, verified⟩
  next =>
    cases ran
    have successor := errorStep_successor app.mcu
    rw [show app.mcu.errorStep.para.httpState = _ from enters] at successor
    exact absurd successor (by decide)
  next at_ =>
    cases ran
    have successor : (app.mcu.retryStep input).para.httpState ∈
        OtaStatus.successors .httpRetryWait := retryStep_successor at_
    rw [show (app.mcu.retryStep input).para.httpState = _ from enters] at successor
    exact absurd successor (by decide)
  next =>
    cases ran
    cases enters
  all_goals
    rename_i at_
    cases ran
    rw [enters] at at_
    cases at_

end Machine

/-! ## Stored where it is verified -/

/-- The writer takes the file, the checksum loop gets through it, and `addr` is where the writer
puts it (with zeros in what runs over the end of the partition), or anywhere in the erased
partition for a file of `0xFF` bytes. -/
structure OtaPlace.StoresAt (place : OtaPlace) (addr : Nat) {file : List UInt8}
    (delivery : BodyDelivery file) : Prop where
  takes : place.Takes delivery
  sections : totalSections file.length ≤ 65535
  address : (addr = place.writeAddr (pkgSize file) ∧ ∀ i < file.length,
      place.base + place.len ≤ place.writeAddr (pkgSize file) + i → file.getD i 0 = 0) ∨
    ((∀ i < file.length, file.getD i 0 = 0xFF) ∧ place.base ≤ addr ∧
      addr + file.length ≤ place.base + place.len)

theorem bodyLoop_fileLen {rest : List (List UInt8)} {file : HttpFilePara} {mem : ByteMem}
    {hal : OtaOperateInfo} {m m' : ByteMem} {result : BodyResult}
    (ran : (bodyLoop file mem hal rest).run m = (some result, m')) :
    result.file.fileLen = file.fileLen := by
  induction rest generalizing file mem hal m with
  | nil => exact (yaHttpBodyHandle_frame ran).1
  | cons chunk chunks ih =>
    rw [bodyLoop, run_bind] at ran
    rcases handled : (yaHttpBodyHandle file (offered chunk) mem hal).run m with ⟨_ | first, m₁⟩
    · rw [handled] at ran
      cases ran
    rw [handled] at ran
    have kept := (yaHttpBodyHandle_frame handled).1
    dsimp only at ran
    split at ran
    · exact (ih ran).trans kept
    · cases ran
      exact kept

section Stored

variable {env : OtaEnv} {file : List UInt8} {delivery : BodyDelivery file} {app : OtaApp env.md5}
  {first last : StepInput} {inputs : List StepInput}

/-- The application behind the erasure. -/
def OtaApp.erased {md5 : Md5} (app : OtaApp md5) (place : OtaPlace) : OtaApp md5 :=
  { app with hal := place.fresh, mcu := app.mcu.setState .httpBodyHandle }

/-- The turns up to the end of the body are the erasure and the calls of the body handler. -/
theorem mcuTurns_run {place : OtaPlace} (part : env.part = place.entry)
    (arrived : McuArrived env delivery app)
    (delivers : inputs.map StepInput.incoming = delivery.rest.map some ++ [none])
    {buffer : ByteMem} (held : app.mcu.para.otaBuffer = some buffer) (m : ByteMem) :
    (mcuTurns env first inputs app).run m =
      (((bodyLoop (fileAt file.length delivery.headerLen 0 delivery.first.length) buffer place.fresh
          delivery.rest).run (m.erase place.base place.len)).1.map (app.erased place).behindBody,
        ((bodyLoop (fileAt file.length delivery.headerLen 0 delivery.first.length) buffer place.fresh
          delivery.rest).run (m.erase place.base place.len)).2) := by
  have erased : (otaTurn env first app).run m =
      (some (app.erased place), m.erase place.base place.len) := by
    rw [eraseTurn_run arrived.wifi arrived.state, part, otaHalInit_run]
    rfl
  have idle : (app.erased place).wifi.para.httpState = .httpIdle := arrived.wifi
  have at_ : (app.erased place).mcu.para.httpState = .httpBodyHandle := rfl
  have buffered : (app.erased place).mcu.para.otaBuffer = some buffer := held
  have socket : 0 ≤ (app.erased place).mcu.para.otaServerSocket := arrived.socket
  have para : (app.erased place).mcu.file =
      fileAt file.length delivery.headerLen 0 delivery.first.length := arrived.para
  rw [mcuTurns, run_bind, erased]
  dsimp only
  rw [bodyTurns_run delivers idle at_ buffered socket, para]
  rfl

/-- A verdict of `YA_NOTIFY_MCU` needs a body that is complete and a checksum that passes. -/
theorem mcuVerdict_notify {m m' : ByteMem} {app' : OtaApp env.md5}
    (ran : (mcuVerdict env first inputs last app).run m = (some app', m'))
    (enters : app'.mcu.para.httpState = .notifyMcu) :
    ∃ app₁ m₁, (mcuTurns env first inputs app).run m = (some app₁, m₁) ∧
      (app₁.wifi.para.httpState = .httpIdle → app₁.mcu.para.httpState = .httpChecksum ∧
        (verifyFlash env.md5 env.mcuFileAddr app₁.mcu.file.fileLen app₁.mcu.url.md5).run m₁ =
          (some 0, m₁)) := by
  rw [mcuVerdict, run_bind] at ran
  rcases turned : (mcuTurns env first inputs app).run m with ⟨_ | app₁, m₁⟩
  · rw [turned] at ran
    cases ran
  rw [turned] at ran
  refine ⟨app₁, m₁, rfl, fun idle => ?_⟩
  dsimp only at ran
  rw [otaTurn_idle idle] at ran
  exact yaMcuOtaDownload_notify ran enters

/-- The machine does not get anywhere without a partition to erase. -/
theorem not_stored_of_fails (fails : ∀ m, ∃ hal, (otaHalInit env.part).run m = ((-1, hal), m))
    (arrived : McuArrived env delivery app) (m : ByteMem) :
    ¬ McuStored env file first inputs last app m := by
  intro stored
  obtain ⟨app', m', ran, enters⟩ := stored.notified
  obtain ⟨app₁, m₁, turned, verdict⟩ := mcuVerdict_notify ran enters
  obtain ⟨hal, failed⟩ := fails m
  rw [mcuTurns, run_bind, eraseTurn_run arrived.wifi arrived.state, failed] at turned
  dsimp only at turned
  rw [if_pos (by decide), bodyTurns_left (by nofun)] at turned
  cases turned
  cases (verdict arrived.wifi).1

theorem behindBody_checksum {md5 : Md5} {app : OtaApp md5} {result : BodyResult}
    (state : (app.behindBody result).mcu.para.httpState = .httpChecksum)
    (running : app.mcu.para.httpState = .httpBodyHandle) :
    0 < result.ret ∧ (app.behindBody result).mcu.file = result.file := by
  unfold OtaApp.behindBody at state ⊢
  dsimp only at state ⊢
  split at state
  · cases state
  next low =>
    split at state
    next high =>
      rw [if_neg low, if_pos high]
      exact ⟨high, rfl⟩
    · rw [show app.mcu.para.httpState = _ from state] at running
      cases running

/-- What a stored file says about the calls of the body handler. -/
theorem McuStored.completes {place : OtaPlace} (part : env.part = place.entry)
    (arrived : McuArrived env delivery app)
    (delivers : inputs.map StepInput.incoming = delivery.rest.map some ++ [none])
    {buffer : ByteMem} (held : app.mcu.para.otaBuffer = some buffer) {m : ByteMem}
    (stored : McuStored env file first inputs last app m) :
    ∃ result image, (bodyLoop (fileAt file.length delivery.headerLen 0 delivery.first.length) buffer
        place.fresh delivery.rest).run (m.erase place.base place.len) = (some result, image) ∧
      0 < result.ret ∧ totalSections file.length ≤ 65535 ∧ image.Holds env.mcuFileAddr file := by
  obtain ⟨app', m', ran, enters⟩ := stored.notified
  obtain ⟨app₁, m₁, turned, verdict⟩ := mcuVerdict_notify ran enters
  have same := turned
  rw [mcuTurns_run part arrived delivers held] at same
  rcases looped : (bodyLoop (fileAt file.length delivery.headerLen 0 delivery.first.length) buffer
    place.fresh delivery.rest).run (m.erase place.base place.len) with ⟨_ | result, image⟩
  · rw [looped] at same
    cases same
  rw [looped] at same
  cases same
  obtain ⟨state, verified⟩ := verdict arrived.wifi
  obtain ⟨complete, para⟩ := behindBody_checksum state rfl
  rw [para, bodyLoop_fileLen looped] at verified
  exact ⟨result, image, rfl, complete, totalSections_of_verify verified,
    stored.stored _ _ turned state⟩

/-- A body that is complete and whose checksum passes is a stored file. -/
theorem mcuStored_of_completes {place : OtaPlace} (part : env.part = place.entry)
    (arrived : McuArrived env delivery app)
    (delivers : inputs.map StepInput.incoming = delivery.rest.map some ++ [none])
    {buffer : ByteMem} (held : app.mcu.para.otaBuffer = some buffer) {m image : ByteMem} {n : Nat}
    {mem' : ByteMem} {hal : OtaOperateInfo}
    (looped : (bodyLoop (fileAt file.length delivery.headerLen 0 delivery.first.length) buffer
        place.fresh delivery.rest).run (m.erase place.base place.len) =
      (some ⟨1, fileAt file.length 0 file.length n, mem', hal⟩, image))
    (stored : image.Holds env.mcuFileAddr file)
    (verified : (verifyFlash env.md5 env.mcuFileAddr file.length (env.md5.digest file)).run image =
      (some 0, image)) :
    McuStored env file first inputs last app m := by
  have turned : (mcuTurns env first inputs app).run m =
      (some ((app.erased place).behindBody ⟨1, fileAt file.length 0 file.length n, mem', hal⟩),
        image) := by
    rw [mcuTurns_run part arrived delivers held, looped]
    rfl
  rw [← arrived.md5] at verified
  constructor
  · intro app' m' ran complete
    rw [turned] at ran
    cases ran
    exact stored
  · rw [mcuVerdict, run_bind, turned]
    have idle : ((app.erased place).behindBody
        ⟨1, fileAt file.length 0 file.length n, mem', hal⟩).wifi.para.httpState = .httpIdle :=
      arrived.wifi
    exact ⟨_, _, checksumTurn_run idle rfl verified, rfl⟩

/-- The address space has room for the partition and a file that can be verified. -/
theorem OtaPlace.room_of_sections {place : OtaPlace} (part : env.part = place.entry)
    (few : totalSections file.length ≤ 65535) :
    place.base + place.len ≤ 2 ^ 24 ∧ place.base + place.len + file.length < 2 ^ 32 := by
  have inFlash := env.partInFlash place.base place.len part
  have short := le_of_totalSections few
  unfold httpBufSize at short
  omega

/-- A file that is stored whatever the flash held is one that the writer takes and puts where it
is verified. -/
theorem storesAt_of_stored {place : OtaPlace} (part : env.part = place.entry)
    (arrived : McuArrived env delivery app)
    (delivers : inputs.map StepInput.incoming = delivery.rest.map some ++ [none])
    (filled : file ≠ []) (stored : ∀ m, McuStored env file first inputs last app m) :
    place.StoresAt env.mcuFileAddr delivery := by
  obtain ⟨buffer, held, behind⟩ := arrived.buffer
  have some := List.length_pos_iff.mpr filled
  obtain ⟨-, -, -, -, few, -⟩ := (stored fun _ => 0).completes part arrived delivers held
  obtain ⟨-, low⟩ := OtaPlace.room_of_sections part few
  have takes : place.Takes delivery := by
    by_contra refused
    obtain ⟨result, image, looped, complete, -⟩ :=
      (stored fun _ => 0).completes part arrived delivers held
    obtain ⟨result', image', looped', ret⟩ := bodyLoop_not_taken some low refused behind
      (ByteMem.erase (fun _ => 0) place.base place.len)
    rw [looped] at looped'
    cases looped'
    rw [ret] at complete
    cases complete
  have readBack (m : ByteMem) :
      ((m.erase place.base place.len).program (place.writeAddr (pkgSize file)) file).Holds
        env.mcuFileAddr file := by
    obtain ⟨result, image, looped, -, -, holds⟩ := (stored m).completes part arrived delivers held
    obtain ⟨n, mem', hal, looped'⟩ := bodyLoop_taken some low takes behind
      (m.erase place.base place.len)
    rw [looped] at looped'
    cases looped'
    exact holds
  have below : place.base ≤ place.writeAddr (pkgSize file) := by
    have room := takes.room
    unfold OtaPlace.writeAddr
    omega
  exact ⟨takes, few, (readBack_iff filled below).mp readBack⟩

/-- A file that the writer takes and puts where it is verified is stored. -/
theorem stored_of_storesAt {place : OtaPlace} (part : env.part = place.entry)
    (arrived : McuArrived env delivery app)
    (delivers : inputs.map StepInput.incoming = delivery.rest.map some ++ [none])
    (filled : file ≠ []) (stores : place.StoresAt env.mcuFileAddr delivery) (m : ByteMem) :
    McuStored env file first inputs last app m := by
  obtain ⟨buffer, held, behind⟩ := arrived.buffer
  obtain ⟨high, low⟩ := OtaPlace.room_of_sections part stores.sections
  have below : place.base ≤ place.writeAddr (pkgSize file) ∧
      place.writeAddr (pkgSize file) ≤ place.base + place.len := by
    have room := stores.takes.room
    unfold OtaPlace.writeAddr
    omega
  obtain ⟨n, mem', hal, looped⟩ := bodyLoop_taken (List.length_pos_iff.mpr filled) low stores.takes
    behind (m.erase place.base place.len)
  have holds := (readBack_iff filled below.1).mpr stores.address m
  have inside : env.mcuFileAddr + file.length ≤ 2 ^ 32 := by
    rcases stores.address with ⟨same, -⟩ | ⟨-, -, within⟩ <;> omega
  refine mcuStored_of_completes part arrived delivers held looped holds ?_
  rw [verifyFlash_run inside stores.sections, holds.load, if_pos rfl]

/-- An empty file is complete at once. -/
theorem stored_of_empty {place : OtaPlace} (part : env.part = place.entry)
    (arrived : McuArrived env delivery app)
    (delivers : inputs.map StepInput.incoming = delivery.rest.map some ++ [none])
    (empty : file = []) (m : ByteMem) : McuStored env file first inputs last app m := by
  subst empty
  obtain ⟨buffer, held, -⟩ := arrived.buffer
  have nothing := List.append_eq_nil_iff.mp delivery.whole
  have noRest : delivery.rest = [] := by
    rcases rest : delivery.rest with _ | ⟨chunk, chunks⟩
    · rfl
    · have member : chunk ∈ delivery.rest := by
        rw [rest]
        exact List.mem_cons_self
      exact absurd (List.flatten_eq_nil_iff.mp nothing.2 chunk member)
        (delivery.nonempty chunk member)
  have looped : (bodyLoop (fileAt 0 delivery.headerLen 0 delivery.first.length) buffer place.fresh
      delivery.rest).run (m.erase place.base place.len) =
      (some ⟨1, fileAt 0 0 0 0, buffer, place.fresh⟩, m.erase place.base place.len) := by
    rw [noRest, nothing.1]
    rfl
  have digest : env.md5.finish env.md5.starts = env.md5.digest [] := by
    rw [Md5.digest, env.md5.update_nil]
  refine mcuStored_of_completes part arrived delivers held looped rfl ?_
  change (some (if env.md5.finish env.md5.starts = env.md5.digest [] then 0 else -1), _) = _
  rw [if_pos digest]

/-- A delivered file is stored where it is verified, whatever the flash held, exactly when it is
empty or the shared writer takes it and puts it there. -/
theorem mcuDownload_stored_iff (arrived : McuArrived env delivery app)
    (delivers : inputs.map StepInput.incoming = delivery.rest.map some ++ [none]) :
    (∀ m, McuStored env file first inputs last app m) ↔
      ∃ place : OtaPlace, env.part = place.entry ∧
        (file = [] ∨ place.StoresAt env.mcuFileAddr delivery) := by
  constructor
  · intro stored
    rcases otaHalInit_cases env with ⟨place, part⟩ | fails
    · refine ⟨place, part, ?_⟩
      by_cases empty : file = []
      · exact .inl empty
      · exact .inr (storesAt_of_stored part arrived delivers empty stored)
    · exact absurd (stored fun _ => 0) (not_stored_of_fails fails arrived _)
  · rintro ⟨place, part, stores⟩ m
    by_cases empty : file = []
    · exact stored_of_empty part arrived delivers empty m
    · exact stored_of_storesAt part arrived delivers empty (stores.resolve_left empty) m

end Stored

/-! ## One file, two addresses -/

/-- The device with the controller's file at `addr`. -/
def mcuEnv (addr : Nat) : OtaEnv := { countingEnv with mcuFileAddr := addr }

/-- A package of 64 bytes has been asked for, and has arrived behind a header of 100 bytes. -/
def packageArrived (addr : Nat) : OtaApp (mcuEnv addr).md5 where
  wifi := OtaModule.initial.setState .httpIdle
  mcu :=
    { para := ⟨.earseFlash, some (bufferWith headerPackage.bytes), 3, 0, 0⟩
      url := { OtaUrlPara.zero with
        md5 := countingHash.digest headerPackage.bytes, otaSize := headerPackage.bytes.length }
      response := .zero
      file := fileAt headerPackage.bytes.length 100 0 headerPackage.bytes.length }
  md5Stat := ⟨false, false, countingHash.freed, 0⟩
  checkMd5Result := 0
  hal := .zero

/-- A turn in which nothing more arrives. -/
def silentInput : StepInput := { okInput [] with incoming := none }

theorem packageArrived_arrived (addr : Nat) :
    McuArrived (mcuEnv addr) oneRead (packageArrived addr) where
  wifi := rfl
  state := rfl
  para := rfl
  buffer := ⟨bufferWith headerPackage.bytes, rfl, store_holds _ _ _⟩
  socket := show (0 : Int) ≤ 3 by decide
  md5 := rfl

/-- The writer puts the package at `0xF8000`. -/
theorem headerPackage_writeAddr : dataOta.writeAddr (pkgSize headerPackage.bytes) = 0xF8000 := by
  decide

theorem mcuDownload_stored_writeAddr :
    dataOta.StoresAt (mcuEnv 0xF8000).mcuFileAddr oneRead ∧
      ∀ m, McuStored (mcuEnv 0xF8000) headerPackage.bytes silentInput [silentInput] silentInput
        (packageArrived 0xF8000) m := by
  have stores : dataOta.StoresAt (mcuEnv 0xF8000).mcuFileAddr oneRead := by
    refine ⟨⟨by decide, by decide, by decide⟩, by decide,
      .inl ⟨headerPackage_writeAddr.symm, fun i inside outside => ?_⟩⟩
    rw [headerPackage_writeAddr, show dataOta.base + dataOta.len = 0xFB000 from rfl] at outside
    rw [show headerPackage.bytes.length = 64 from rfl] at inside
    omega
  exact ⟨stores, (mcuDownload_stored_iff (packageArrived_arrived 0xF8000) rfl).mpr
    ⟨dataOta, rfl, .inr stores⟩⟩

/-- With the `ya_mcu_ota_download_addr` of the light the package is complete, and the flash there is
as before. -/
theorem mcuDownload_light_not_stored :
    McuArrived (mcuEnv 0x1A0000) oneRead (packageArrived 0x1A0000) ∧
      ¬ McuStored (mcuEnv 0x1A0000) headerPackage.bytes silentInput [silentInput] silentInput
        (packageArrived 0x1A0000) (fun _ => 0) := by
  refine ⟨packageArrived_arrived 0x1A0000, fun stored => ?_⟩
  have complete : ((mcuTurns (mcuEnv 0x1A0000) silentInput [silentInput]
      (packageArrived 0x1A0000)).run fun _ => 0).1.map (fun app => app.mcu.para.httpState) =
      some .httpChecksum := by decide +kernel
  have flash : ((mcuTurns (mcuEnv 0x1A0000) silentInput [silentInput]
      (packageArrived 0x1A0000)).run fun _ => 0).2.load 0x1A0000 64 = List.replicate 64 0 := by
    decide +kernel
  obtain ⟨app, ran, state⟩ := Option.map_eq_some_iff.mp complete
  have holds := stored.stored app _ (Prod.ext ran rfl) state
  have same : headerPackage.bytes = List.replicate 64 0 := holds.symm.trans flash
  exact absurd same (by decide)

end Tr6260
