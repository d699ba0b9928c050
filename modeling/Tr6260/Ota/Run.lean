import Tr6260.Ota.Machine
import Tr6260.Ota.Writer

/-!
# Runs of the OTA application

`OtaTrace` is the state of `ya_http_ota_app` with its flash and two records of
the past: the body bytes received since the last connection was opened, and
what the last accepted request asked for. `OtaTrace.next` is one action of the
loop on it. The lemmas below say what the writer, the body handler and the
controller's machine can do to the parts that the proofs about runs look at.
-/

namespace Tr6260

open FlashProg ByteMem

/-- The application, its flash, and what has happened. -/
structure OtaTrace (env : OtaEnv) where
  app : OtaApp env.md5
  flash : ByteMem
  /-- The body bytes received since the last `YA_HTTP_CONNECT` step. -/
  received : List UInt8
  /-- `md5sum` and `size` of the last accepted request. -/
  accepted : Option (List UInt8 × Nat)

namespace OtaTrace

variable {env : OtaEnv}

/-- The application at its start. -/
def initial (flash : ByteMem) : OtaTrace env := ⟨.initial env.md5, flash, [], none⟩

/-- The state of the WiFi machine. -/
def status (t : OtaTrace env) : OtaStatus := t.app.wifi.para.httpState

/-- The body bytes behind a step of the WiFi machine that ends in `app`: a connection starts
from none, the end of the header brings what the buffer holds behind it, and a step that stays
in `YA_HTTP_BODY_HANDLE` has read some more. -/
def receivedBy (t : OtaTrace env) (input : StepInput) (app : OtaApp env.md5) : List UInt8 :=
  match t.status with
  | .httpConnect => []
  | .httpHeaderHandle =>
    if app.wifi.para.httpState = .preFileHandle then
      md5Bytes app.wifi (otaBuf + app.wifi.response.headerLen) (toI32 app.wifi.response.bodyReadLen)
    else
      t.received
  | .httpBodyHandle =>
    if app.wifi.para.httpState = .httpBodyHandle then
      t.received ++ (input.read t.app.wifi.para.otaServerSocket httpBufSize).getD []
    else
      t.received
  | _ => t.received

/-- The last accepted request behind `request`. -/
def acceptedBy (t : OtaTrace env) (request : OtaRequest) : Option (List UInt8 × Nat) :=
  match yaOtaRequireHandle .wifi env.curVersion request .zero with
  | none => t.accepted
  | some (ret, url) =>
    if ret < 0 ∨ ret = yaHttpSuccess then t.accepted else some (url.md5, url.otaSize)

/-- The records behind an action that ends in `app`. -/
def record (t : OtaTrace env) (event : OtaEvent) (app : OtaApp env.md5) (flash : ByteMem) :
    OtaTrace env where
  app := app
  flash := flash
  received := match event with
    | .wifi input => t.receivedBy input app
    | _ => t.received
  accepted := match event with
    | .wifiRequest request => t.acceptedBy request
    | _ => t.accepted

/-- One action of the loop. -/
def next (t : OtaTrace env) (event : OtaEvent) : Option (OtaTrace env) :=
  match (otaStep env t.app event).run t.flash with
  | (none, _) => none
  | (some app, flash) => some (t.record event app flash)

/-- Several actions. -/
def nexts (t : OtaTrace env) : List OtaEvent → Option (OtaTrace env)
  | [] => some t
  | event :: events => (t.next event).bind fun t => t.nexts events

/-- What every action of a run keeps holds at its end. -/
theorem nexts_kept {holds : OtaTrace env → Prop} {events : List OtaEvent} {t t' : OtaTrace env}
    (step : ∀ event ∈ events, ∀ t t', holds t → t.next event = some t' → holds t')
    (start : holds t) (moved : t.nexts events = some t') : holds t' := by
  induction events generalizing t with
  | nil =>
    cases moved
    exact start
  | cons event events ih =>
    rcases Option.bind_eq_some_iff.mp moved with ⟨t₁, first, rest⟩
    exact ih (fun event mem => step event (List.mem_cons_of_mem _ mem))
      (step event List.mem_cons_self t t₁ start first) rest

theorem next_eq {t t' : OtaTrace env} {event : OtaEvent} (moved : t.next event = some t') :
    ∃ app flash, (otaStep env t.app event).run t.flash = (some app, flash) ∧
      t' = t.record event app flash := by
  unfold next at moved
  split at moved
  next => cases moved
  next app flash ran => exact ⟨app, flash, ran, (Option.some.inj moved).symm⟩

theorem next_of_run {t : OtaTrace env} {event : OtaEvent} {app : OtaApp env.md5} {flash : ByteMem}
    (ran : (otaStep env t.app event).run t.flash = (some app, flash)) :
    t.next event = some (t.record event app flash) := by
  rw [next, ran]

section Received

variable {t : OtaTrace env} {input : StepInput}

theorem receivedBy_headerEnd {app : OtaApp env.md5} (at_ : t.status = .httpHeaderHandle)
    (ends : app.wifi.para.httpState = .preFileHandle) :
    t.receivedBy input app =
      md5Bytes app.wifi (otaBuf + app.wifi.response.headerLen)
        (toI32 app.wifi.response.bodyReadLen) := by
  rw [receivedBy, at_]
  exact if_pos ends

theorem receivedBy_body {app : OtaApp env.md5} (at_ : t.status = .httpBodyHandle)
    (stays : app.wifi.para.httpState = .httpBodyHandle) :
    t.receivedBy input app =
      t.received ++ (input.read t.app.wifi.para.otaServerSocket httpBufSize).getD [] := by
  rw [receivedBy, at_]
  exact if_pos stays

theorem receivedBy_bodyEnd {app : OtaApp env.md5} (at_ : t.status = .httpBodyHandle)
    (ends : app.wifi.para.httpState ≠ .httpBodyHandle) : t.receivedBy input app = t.received := by
  rw [receivedBy, at_]
  exact if_neg ends

theorem receivedBy_other {app : OtaApp env.md5} (quiet : t.status ≠ .httpConnect)
    (header : t.status ≠ .httpHeaderHandle) (body : t.status ≠ .httpBodyHandle) :
    t.receivedBy input app = t.received := by
  unfold receivedBy
  cases state : t.status <;> first | rfl | contradiction

end Received

end OtaTrace

/-! ## The writer -/

/-- The writer's address stays within the flash. -/
def OtaOperateInfo.InFlash (info : OtaOperateInfo) : Prop :=
  info.sAddr + (if info.getFirstFrame then 0 else info.maxLen) ≤ 2 ^ 24

theorem otaHalInit_inFlash {part : OtaPartition}
    (bound : ∀ addr len, part = some (addr, len) → addr + len ≤ 2 ^ 24) (m : ByteMem) :
    ((otaHalInit part).run m).1.2.InFlash := by
  cases part with
  | none => exact Nat.zero_le _
  | some entry =>
    have small := bound entry.1 entry.2 rfl
    unfold otaHalInit halSpiflashErase
    dsimp only
    split <;> exact small

theorem otaHalAppend_inFlash {info : OtaOperateInfo} (inFlash : info.InFlash) (data : List UInt8)
    (m : ByteMem) : ((otaHalAppend info data).run m).1.2.InFlash := by
  unfold otaHalAppend
  split
  · exact inFlash
  · rw [run_bind, run_pure]
    exact inFlash

theorem otaHalWrite_inFlash {info : OtaOperateInfo} (inFlash : info.InFlash) (data : List UInt8)
    (m : ByteMem) : ((otaHalWrite info data).run m).1.2.InFlash := by
  unfold otaHalWrite
  split
  · exact otaHalAppend_inFlash inFlash data m
  next first =>
    rw [OtaOperateInfo.InFlash, if_neg first] at inFlash
    split
    · rw [run_pure, OtaOperateInfo.InFlash, if_neg first]
      exact inFlash
    split
    · rw [run_pure, OtaOperateInfo.InFlash, if_neg first]
      exact inFlash
    next fits =>
      refine otaHalAppend_inFlash ?_ data m
      unfold u32 at fits
      unfold OtaOperateInfo.InFlash OtaOperateInfo.firstFrame u32
      dsimp only
      rw [if_pos rfl]
      omega

/-! ## The header parser -/

section Header

variable {mem : ByteMem} {responseLen : Nat}

theorem findHeaderEnd_lt {left i j : Nat} (found : findHeaderEnd mem left i = some j) :
    j < i + left := by
  induction left generalizing i with
  | zero => cases found
  | succ left ih =>
    rw [findHeaderEnd] at found
    split at found
    · cases found
      omega
    · have := ih found
      omega

/-- The loop over the lines ends in the status it started in, in status 2, or with the end of
the header. -/
theorem headerLines_ended {left i p : Nat} {result result' : HttpResponseResult}
    (early : result.parseStatus = 1 ∨ result.parseStatus = 2)
    (ended : headerLines mem responseLen left i p result = .ended result') :
    (result'.parseStatus = 1 ∨ result'.parseStatus = 2) ∨
      ∃ j < i + left, ∃ result, result' = HttpResponseResult.complete result responseLen j := by
  induction left generalizing i p result with
  | zero =>
    cases ended
    exact .inl early
  | succ left ih =>
    rw [headerLines] at ended
    split at ended
    · cases ended
    next result₁ line =>
      have early₁ : result₁.parseStatus = 1 ∨ result₁.parseStatus = 2 := by
        split at line
        · obtain ⟨n, -, rfl⟩ := Option.map_eq_some_iff.mp line
          exact .inr rfl
        · cases line
          exact early
      split at ended
      · split at ended
        · cases ended
          exact .inr ⟨i, by omega, result₁, rfl⟩
        · cases ended
      · rcases ih early₁ ended with quiet | ⟨j, inside, result₂, same⟩
        · exact .inl quiet
        · exact .inr ⟨j, by omega, result₂, same⟩

theorem parseStatusLine_status {result result' : HttpResponseResult} {passed : Bool}
    (parsed : parseStatusLine mem responseLen result = (passed, result')) :
    result'.parseStatus = result.parseStatus ∨ result'.parseStatus = 1 := by
  unfold parseStatusLine at parsed
  split at parsed
  · split at parsed
    · cases parsed
      exact .inl rfl
    · dsimp only at parsed
      split at parsed <;> cases parsed
      · exact .inr rfl
      · exact .inl rfl
  · cases parsed
    exact .inl rfl

/-- Status 4 is reached at an end of the header that starts within the bytes received. -/
theorem yaParseHttpHeaderResponse_complete {result result' : HttpResponseResult} {ret : Int}
    (early : result.parseStatus ≤ 3)
    (parsed : yaParseHttpHeaderResponse mem responseLen result = some (ret, result'))
    (late : 3 < result'.parseStatus) :
    ∃ i < responseLen, ∃ result, result' = HttpResponseResult.complete result responseLen i := by
  unfold yaParseHttpHeaderResponse at parsed
  split at parsed
  next result₁ status =>
    cases parsed
    have := parseStatusLine_status status
    omega
  next result₁ status =>
    have early₁ := parseStatusLine_status status
    split at parsed
    next three =>
      split at parsed
      next i found =>
        cases parsed
        exact ⟨i, by have := findHeaderEnd_lt found; omega, _, rfl⟩
      · cases parsed
        change 3 < result₁.eraseTail.parseStatus at late
        rw [eraseTail_parseStatus three] at late
        split at late <;> omega
    split at parsed
    next one =>
      split at parsed
      · cases parsed
      · cases parsed
        omega
      next result₂ ended =>
        have outcome := headerLines_ended (.inl one) ended
        split at parsed
        next same =>
          cases parsed
          change 3 < result₂.parseStatus at late
          omega
        split at parsed
        · cases parsed
          exact absurd late (Nat.lt_irrefl 3)
        · cases parsed
          rcases outcome with quiet | ⟨j, inside, result₃, rfl⟩
          · omega
          · exact ⟨j, by omega, result₃, rfl⟩
    next =>
      cases parsed
      omega

/-- The number of bytes behind the header, when the header handler is done: at most what the
buffer holds, and negative when the end of the header was found beyond the bytes received. -/
theorem yaHttpHeaderHandle_bodyReadLen {response response' : HttpResponseResult}
    {read : Nat → Option (List UInt8)} (short : ∀ n bytes, read n = some bytes → bytes.length ≤ n)
    {mem mem' : ByteMem} (early : response.parseStatus ≤ 3)
    (handled : yaHttpHeaderHandle response read mem = some (1, response', mem')) :
    -4 < toI32 response'.bodyReadLen ∧ toI32 response'.bodyReadLen ≤ httpBufSize := by
  unfold yaHttpHeaderHandle at handled
  rw [if_pos early] at handled
  dsimp only at handled
  have small : (if response.parseStatus = 1 ∨ response.parseStatus = 3 then httpHeaderBakLen else 0) ≤
      httpBufSize := by
    split <;> decide
  generalize (if response.parseStatus = 1 ∨ response.parseStatus = 3 then httpHeaderBakLen else 0) =
    backupLen at handled small
  split at handled
  · cases handled
  · cases handled
  next bytes _ found =>
    have length := short _ _ found
    split at handled
    · cases handled
    next parsed =>
      split at handled
      · cases handled
      split at handled
      next late =>
        cases handled
        obtain ⟨i, inside, result, rfl⟩ := yaParseHttpHeaderResponse_complete early parsed late
        have readLen : (result.complete (bytes.length + backupLen) i).bodyReadLen =
            (bytes.length + backupLen + 2 ^ 32 - (i + 4)) % 2 ^ 32 := rfl
        rw [readLen]
        unfold httpBufSize at *
        unfold toI32
        split <;> omega
      · cases handled

end Header

/-! ## The body handler -/

section Body

variable {file : HttpFilePara} {read : Nat → Option (List UInt8)} {mem : ByteMem}
  {hal : OtaOperateInfo} {m m' : ByteMem} {result : BodyResult}

/-- The position behind the bytes in the buffer. -/
def HttpFilePara.reached (file : HttpFilePara) : Nat := toU32 (file.bodyCurPos + file.bodyReadLen)

/-- The file parameters with the bytes in the buffer written. -/
def HttpFilePara.advance (file : HttpFilePara) : HttpFilePara :=
  { file with headerLen := 0, bodyCurPos := file.reached }

theorem bodyRead_cases (file : HttpFilePara) (read : Nat → Option (List UInt8)) (mem : ByteMem)
    (hal : OtaOperateInfo) :
    (bodyRead file read mem hal = ⟨1, file, mem, hal⟩ ∧ file.fileLen ≤ file.bodyCurPos) ∨
    (bodyRead file read mem hal = ⟨-1, { file with bodyReadLen := -1 }, mem, hal⟩ ∧
      read httpBufSize = none) ∨
    (∃ bytes, bodyRead file read mem hal =
        ⟨0, { file with bodyReadLen := bytes.length }, mem.store otaBuf bytes, hal⟩ ∧
      file.bodyCurPos < file.fileLen ∧ read httpBufSize = some bytes) := by
  unfold bodyRead
  split
  next finished => exact .inl ⟨rfl, finished⟩
  next more =>
    cases found : read httpBufSize with
    | none => exact .inr (.inl ⟨rfl, rfl⟩)
    | some bytes => exact .inr (.inr ⟨bytes, rfl, by omega, rfl⟩)

/-- The bytes in the buffer, as the sector write takes them. -/
def HttpFilePara.pending (file : HttpFilePara) (mem : ByteMem) : List UInt8 :=
  mem.load (otaBuf + file.headerLen) (file.bodyReadLen % 65536).toNat

theorem bodyFileHeader_enabled (enabled : file.bodyFileHeaderEnbable = true) :
    bodyFileHeader file = some ({ file with headerLen := 0 }, otaBuf + file.headerLen) :=
  if_neg (by rw [enabled]; simp)

/-- A call of `ya_http_body_handle` for a file that is stored with its header: the bytes in
the buffer, if any, go to the writer, and the next ones are read. -/
theorem yaHttpBodyHandle_run (enabled : file.bodyFileHeaderEnbable = true)
    (small : file.bodyCurPos < 2 ^ 32) :
    (yaHttpBodyHandle file read mem hal).run m =
      if file.bodyReadLen = 0 then
        (some (bodyRead file.advance read mem hal), m)
      else
        (some (if ((otaHalWrite hal (file.pending mem)).run m).1.1 < 0 then
            ⟨-1, { file with headerLen := 0 }, mem, ((otaHalWrite hal (file.pending mem)).run m).1.2⟩
          else
            bodyRead file.advance read mem ((otaHalWrite hal (file.pending mem)).run m).1.2),
          ((otaHalWrite hal (file.pending mem)).run m).2) := by
  have header := bodyFileHeader_enabled enabled
  unfold yaHttpBodyHandle yaHttpOtaSectorWrite HttpFilePara.pending
  by_cases empty : file.bodyReadLen = 0
  · have reached : file.reached = file.bodyCurPos := by
      unfold HttpFilePara.reached toU32
      rw [empty]
      omega
    rw [if_neg (not_not.mpr empty), if_pos empty, HttpFilePara.advance, reached]
    rfl
  · rw [if_pos empty, if_neg empty, header]
    dsimp only
    rw [if_pos empty, run_bind]
    generalize (otaHalWrite hal _).run m = written
    by_cases failed : written.1.1 < 0
    · rw [if_pos failed, if_pos failed]
      rfl
    · rw [if_neg failed, if_neg failed]
      rfl

/-- Apart from the writer, a call fails or goes on with the file advanced. -/
theorem yaHttpBodyHandle_cases (enabled : file.bodyFileHeaderEnbable = true)
    (small : file.bodyCurPos < 2 ^ 32)
    (ran : (yaHttpBodyHandle file read mem hal).run m = (some result, m')) :
    result.ret = -1 ∨ ∃ hal', result = bodyRead file.advance read mem hal' := by
  rw [yaHttpBodyHandle_run enabled small] at ran
  split at ran
  · exact .inr ⟨hal, (Option.some.inj (congrArg Prod.fst ran)).symm⟩
  · have result_eq := Option.some.inj (congrArg Prod.fst ran)
    split at result_eq
    · exact .inl (by rw [← result_eq])
    · exact .inr ⟨_, result_eq.symm⟩

theorem bodyRead_hal (file : HttpFilePara) (read : Nat → Option (List UInt8)) (mem : ByteMem)
    (hal : OtaOperateInfo) : (bodyRead file read mem hal).hal = hal := by
  rcases bodyRead_cases file read mem hal with ⟨same, -⟩ | ⟨same, -⟩ | ⟨bytes, same, -⟩ <;> rw [same]

theorem bodyRead_fileLen (file : HttpFilePara) (read : Nat → Option (List UInt8)) (mem : ByteMem)
    (hal : OtaOperateInfo) : (bodyRead file read mem hal).file.fileLen = file.fileLen := by
  rcases bodyRead_cases file read mem hal with ⟨same, -⟩ | ⟨same, -⟩ | ⟨bytes, same, -⟩ <;> rw [same]

theorem bodyFileHeader_fileLen {file file' : HttpFilePara} {pos : Nat}
    (header : bodyFileHeader file = some (file', pos)) : file'.fileLen = file.fileLen := by
  unfold bodyFileHeader at header
  split at header
  · dsimp only at header
    generalize (if file.bodyReadLen > httpFileHeaderLen - file.bodyFlieHeaderCurLen then
      httpFileHeaderLen - file.bodyFlieHeaderCurLen else file.bodyReadLen) = remain at header
    split at header
    · cases header
    · cases header
      rfl
  · cases header
    rfl

/-- The bytes that a call of `ya_http_body_handle` hands to the writer, if any. -/
def HttpFilePara.handsOver (file : HttpFilePara) (mem : ByteMem) : Option (List UInt8) :=
  if file.bodyReadLen ≠ 0 then
    match bodyFileHeader file with
    | none => none
    | some (file, pos) =>
      if file.bodyReadLen ≠ 0 then some (mem.load pos (file.bodyReadLen % 65536).toNat) else none
  else
    none

/-- What `ya_http_body_handle` does to the writer and the file, whatever the file's parameters. -/
theorem yaHttpBodyHandle_frame
    (ran : (yaHttpBodyHandle file read mem hal).run m = (some result, m')) :
    result.file.fileLen = file.fileLen ∧
      ((file.handsOver mem = none ∧ result.hal = hal ∧ m' = m) ∨ ∃ data ret,
        file.handsOver mem = some data ∧
        (otaHalWrite hal data).run m = ((ret, result.hal), m')) := by
  unfold yaHttpBodyHandle yaHttpOtaSectorWrite at ran
  unfold HttpFilePara.handsOver
  split at ran
  next bytes =>
    rw [if_pos bytes]
    cases header : bodyFileHeader file with
    | none =>
      rw [header] at ran
      cases ran
    | some entry =>
      obtain ⟨file', pos⟩ := entry
      have length := bodyFileHeader_fileLen header
      rw [header] at ran
      dsimp only at ran ⊢
      split at ran
      next more =>
        rw [if_pos more]
        rw [run_bind] at ran
        generalize outcome : (otaHalWrite hal (mem.load pos (file'.bodyReadLen % 65536).toNat)).run m =
          after at ran
        obtain ⟨⟨ret, hal'⟩, m''⟩ := after
        dsimp only at ran
        split at ran
        · cases ran
          exact ⟨length, .inr ⟨_, _, rfl, outcome⟩⟩
        · cases ran
          rw [bodyRead_fileLen, bodyRead_hal]
          exact ⟨length, .inr ⟨_, _, rfl, outcome⟩⟩
      next none =>
        rw [if_neg none]
        cases ran
        rw [bodyRead_fileLen, bodyRead_hal]
        exact ⟨length, .inl ⟨rfl, rfl, rfl⟩⟩
  next none =>
    rw [if_neg none]
    cases ran
    rw [bodyRead_fileLen, bodyRead_hal]
    exact ⟨rfl, .inl ⟨rfl, rfl, rfl⟩⟩

theorem yaHttpBodyHandle_inFlash (inFlash : hal.InFlash)
    (ran : (yaHttpBodyHandle file read mem hal).run m = (some result, m')) :
    result.hal.InFlash := by
  obtain ⟨-, ⟨-, same, -⟩ | ⟨data, ret, -, written⟩⟩ := yaHttpBodyHandle_frame ran
  · rw [same]
    exact inFlash
  · have kept := otaHalWrite_inFlash inFlash data m
    rw [written] at kept
    exact kept

end Body

/-! ## The checksum -/

section Checksum

variable {md5 : Md5} {addr fileSize : Nat}

theorem md5Sections_flash (total left index curLen : Nat) (ctx : md5.Ctx) (m : ByteMem) :
    ((md5Sections md5 addr fileSize total left index curLen ctx).run m).2 = m := by
  induction left generalizing index curLen ctx with
  | zero => rfl
  | succ left ih =>
    rw [md5Sections, run_bind]
    exact ih _ _ _

/-- The sections from `index` on are the rest of the file. -/
theorem md5Sections_run (inside : addr + fileSize ≤ 2 ^ 32) {total : Nat}
    (whole : total = totalSections fileSize) {left index : Nat} (sections : index + left = total)
    (ctx : md5.Ctx) (m : ByteMem) :
    ((md5Sections md5 addr fileSize total left index (index * httpBufSize) ctx).run m).1 =
      md5.update ctx (m.load (addr + index * httpBufSize) (fileSize - index * httpBufSize)) := by
  have full : total * httpBufSize < fileSize + httpBufSize ∧ fileSize ≤ total * httpBufSize := by
    rw [whole]
    unfold totalSections httpBufSize
    split <;> omega
  unfold httpBufSize at *
  induction left generalizing index ctx with
  | zero =>
    have ended : fileSize - index * 4096 = 0 := by omega
    rw [md5Sections, ended, load_zero, md5.update_nil]
    rfl
  | succ left ih =>
    have addr_eq : u32 (addr + index * 4096) = addr + index * 4096 :=
      Nat.mod_eq_of_lt (by omega)
    rw [md5Sections, run_bind, halSpiflashRead_run, addr_eq]
    dsimp only
    by_cases last : index = total - 1
    · have noneLeft : left = 0 := by omega
      rw [if_pos last, noneLeft, ← last]
      rfl
    · have split : fileSize - index * 4096 = 4096 + (fileSize - (index + 1) * 4096) := by omega
      rw [if_neg last]
      unfold httpBufSize
      rw [show index * 4096 + 4096 = (index + 1) * 4096 by omega, ih (by omega), md5.update_append,
        show addr + (index + 1) * 4096 = addr + index * 4096 + 4096 by omega, ← load_add, ← split]

theorem le_of_totalSections (few : totalSections fileSize ≤ 65535) :
    fileSize ≤ 65535 * httpBufSize := by
  unfold totalSections at few
  unfold httpBufSize at *
  split at few <;> omega

/-- The checksum of a file that is not too long compares its digest. -/
theorem verifyFlash_run (inside : addr + fileSize ≤ 2 ^ 32) (few : totalSections fileSize ≤ 65535)
    (fileMd5 : List UInt8) (m : ByteMem) :
    (verifyFlash md5 addr fileSize fileMd5).run m =
      (some (if md5.digest (m.load addr fileSize) = fileMd5 then 0 else -1), m) := by
  have sections := md5Sections_run inside rfl (Nat.zero_add (totalSections fileSize)) md5.starts m
  rw [Nat.zero_mul, Nat.add_zero, Nat.sub_zero] at sections
  rw [verifyFlash, if_neg (Nat.not_lt.mpr few), run_bind, sections, md5Sections_flash]
  rfl

/-- With too many sections there is no result. -/
theorem totalSections_of_verify {fileMd5 : List UInt8} {ret : Int} {m m' : ByteMem}
    (ran : (verifyFlash md5 addr fileSize fileMd5).run m = (some ret, m')) :
    totalSections fileSize ≤ 65535 := by
  by_contra many
  rw [verifyFlash, if_pos (Nat.not_le.mp many)] at ran
  cases ran

theorem verifyFlash_flash (fileMd5 : List UInt8) (m : ByteMem) :
    ((verifyFlash md5 addr fileSize fileMd5).run m).2 = m := by
  unfold verifyFlash
  split
  · rfl
  · rw [run_bind]
    exact md5Sections_flash _ _ _ _ _ m

end Checksum

/-- The machine behind a call of the body handler. -/
def OtaModule.withBody (wifi : OtaModule) (result : BodyResult) : OtaModule :=
  { wifi with file := result.file, para := { wifi.para with otaBuffer := some result.mem } }

/-! ## The controller's machine -/

section Mcu

variable {env : OtaEnv} {app app' : OtaApp env.md5}

/-- What the WiFi machine has to itself. -/
def OtaApp.SameWifi (app app' : OtaApp env.md5) : Prop :=
  app'.wifi = app.wifi ∧ app'.md5Stat = app.md5Stat ∧ app'.checkMd5Result = app.checkMd5Result

theorem mcuHeaderStep_cases {input : StepInput}
    (moved : mcuHeaderStep env input app = some app') :
    ∃ ret mcu, app.mcu.headerRead input = some (ret, mcu) ∧
      (app' = { app with mcu := mcu.setState .errorHandle } ∨
        (ret = 0 ∧ app' = { app with mcu }) ∨
        (0 < ret ∧ mcu.response.bodyLen = mcu.url.otaSize ∧
          app' = { app with mcu := { mcu.setState .earseFlash with file := mcu.filePara } })) := by
  unfold mcuHeaderStep at moved
  split at moved
  · cases moved
  next ret mcu read =>
    refine ⟨ret, mcu, read, ?_⟩
    split at moved
    · exact .inl (Option.some.inj moved).symm
    split at moved
    next positive =>
      split at moved
      · exact .inl (Option.some.inj moved).symm
      next size => exact .inr (.inr ⟨positive, not_not.mp size, (Option.some.inj moved).symm⟩)
    · exact .inr (.inl ⟨by omega, (Option.some.inj moved).symm⟩)

/-- A step that leaves flash and writer alone. -/
def McuOnly (app app' : OtaApp env.md5) (m m' : ByteMem) : Prop :=
  (∃ mcu, app' = { app with mcu }) ∧ m' = m

theorem McuOnly.of_pure {mcu : OtaModule} {m m' : ByteMem}
    (ran : (Pure.pure (some { app with mcu }) : FlashProg (Option (OtaApp env.md5))).run m =
      (some app', m')) : McuOnly app app' m m' :=
  ⟨⟨mcu, (Option.some.inj (congrArg Prod.fst ran)).symm⟩, (congrArg Prod.snd ran).symm⟩

theorem mcuChecksumStep_cases {m m' : ByteMem}
    (ran : (mcuChecksumStep env app).run m = (some app', m')) :
    m' = m ∧ ∃ ret, (verifyFlash env.md5 env.mcuFileAddr app.mcu.file.fileLen app.mcu.url.md5).run
        m = (some ret, m) ∧
      ((ret ≠ 0 ∧ app' = { app with mcu := { app.mcu with para := { app.mcu.para with
          erorCode := yaCheckFileFailed, httpState := .errorHandle } } }) ∨
        (ret = 0 ∧ app' = { app with mcu := app.mcu.setState .notifyMcu })) := by
  unfold mcuChecksumStep yaVerifyMcuFileChecksum at ran
  have flash : ((verifyFlash env.md5 env.mcuFileAddr app.mcu.file.fileLen app.mcu.url.md5).run
      m).2 = m := verifyFlash_flash _ m
  rw [run_bind] at ran
  generalize (verifyFlash env.md5 env.mcuFileAddr app.mcu.file.fileLen app.mcu.url.md5).run m =
    outcome at ran flash
  obtain ⟨_ | verdict, m''⟩ := outcome
  · cases ran
  · subst flash
    dsimp only at ran
    split at ran
    next failed =>
      cases ran
      exact ⟨rfl, verdict, rfl, .inl ⟨failed, rfl⟩⟩
    next passed =>
      cases ran
      exact ⟨rfl, verdict, rfl, .inr ⟨not_not.mp passed, rfl⟩⟩

theorem mcuBodyStep_cases {input : StepInput} {m m' : ByteMem}
    (ran : (mcuBodyStep env input app).run m = (some app', m')) :
    ∃ buffer result, app.mcu.para.otaBuffer = some buffer ∧
      (yaHttpBodyHandle app.mcu.file (input.read app.mcu.para.otaServerSocket) buffer app.hal).run m =
        (some result, m') ∧
      ((result.ret < 0 ∧ app' = { app with
          hal := result.hal, mcu := (app.mcu.withBody result).setState .errorHandle }) ∨
        (0 < result.ret ∧ app' = { app with
          hal := result.hal, mcu := (app.mcu.withBody result).setState .httpChecksum }) ∨
        (result.ret = 0 ∧ app' = { app with
          hal := result.hal, mcu := app.mcu.withBody result })) := by
  unfold mcuBodyStep at ran
  cases buffered : app.mcu.para.otaBuffer with
  | none =>
    rw [buffered] at ran
    cases ran
  | some buffer =>
    rw [buffered] at ran
    dsimp only at ran
    rw [run_bind] at ran
    generalize handled : (yaHttpBodyHandle app.mcu.file (input.read app.mcu.para.otaServerSocket)
      buffer app.hal).run m = outcome at ran
    obtain ⟨_ | result, m''⟩ := outcome
    · cases ran
    · dsimp only at ran
      split at ran
      next negative =>
        cases ran
        exact ⟨buffer, result, rfl, handled, .inl ⟨negative, rfl⟩⟩
      split at ran
      next positive =>
        cases ran
        exact ⟨buffer, result, rfl, handled, .inr (.inl ⟨positive, rfl⟩)⟩
      · cases ran
        exact ⟨buffer, result, rfl, handled, .inr (.inr ⟨by omega, rfl⟩)⟩

/-- A step of the controller's machine changes its own parameters and, in two states, the
writer and the flash. -/
theorem yaMcuOtaDownload_cases {input : StepInput} {m m' : ByteMem}
    (ran : (yaMcuOtaDownload env input app).run m = (some app', m')) :
    McuOnly app app' m m' ∨
    (app.mcu.para.httpState = .earseFlash ∧ ∃ mcu,
      app' = { app with mcu, hal := ((otaHalInit env.part).run m).1.2 } ∧
      m' = ((otaHalInit env.part).run m).2) ∨
    (app.mcu.para.httpState = .httpBodyHandle ∧ ∃ mcu buffer result,
      app.mcu.para.otaBuffer = some buffer ∧
      (yaHttpBodyHandle app.mcu.file (input.read app.mcu.para.otaServerSocket) buffer app.hal).run m =
        (some result, m') ∧
      app' = { app with mcu, hal := result.hal }) := by
  unfold yaMcuOtaDownload at ran
  split at ran
  next => exact .inl (.of_pure ran)
  next => exact .inl (.of_pure ran)
  next =>
    obtain ⟨mcu, -, same⟩ := Option.map_eq_some_iff.mp (congrArg Prod.fst ran)
    exact .inl ⟨⟨mcu, same.symm⟩, (congrArg Prod.snd ran).symm⟩
  next =>
    have flash := (congrArg Prod.snd ran).symm
    obtain ⟨ret, mcu, -, rfl | ⟨-, rfl⟩ | ⟨-, -, rfl⟩⟩ :=
      mcuHeaderStep_cases (congrArg Prod.fst ran)
    · exact .inl ⟨⟨_, rfl⟩, flash⟩
    · exact .inl ⟨⟨_, rfl⟩, flash⟩
    · exact .inl ⟨⟨_, rfl⟩, flash⟩
  next state =>
    rw [run_bind, mcuEarseStep, run_bind] at ran
    exact .inr (.inl ⟨state, _, (Option.some.inj (congrArg Prod.fst ran)).symm,
      (congrArg Prod.snd ran).symm⟩)
  next state =>
    obtain ⟨buffer, result, held, handled, ⟨-, rfl⟩ | ⟨-, rfl⟩ | ⟨-, rfl⟩⟩ := mcuBodyStep_cases ran
    · exact .inr (.inr ⟨state, _, buffer, result, held, handled, rfl⟩)
    · exact .inr (.inr ⟨state, _, buffer, result, held, handled, rfl⟩)
    · exact .inr (.inr ⟨state, _, buffer, result, held, handled, rfl⟩)
  next =>
    obtain ⟨flash, ret, -, ⟨-, rfl⟩ | ⟨-, rfl⟩⟩ := mcuChecksumStep_cases ran
    · exact .inl ⟨⟨_, rfl⟩, flash⟩
    · exact .inl ⟨⟨_, rfl⟩, flash⟩
  next => exact .inl (.of_pure ran)
  next => exact .inl (.of_pure ran)
  next => exact .inl (.of_pure ran)
  all_goals exact .inl ⟨⟨app.mcu, (Option.some.inj (congrArg Prod.fst ran)).symm⟩,
    (congrArg Prod.snd ran).symm⟩

theorem yaMcuOtaDownload_wifi {input : StepInput} {m m' : ByteMem}
    (ran : (yaMcuOtaDownload env input app).run m = (some app', m')) :
    app'.wifi = app.wifi := by
  rcases yaMcuOtaDownload_cases ran with ⟨⟨mcu, rfl⟩, -⟩ | ⟨-, mcu, rfl, -⟩ |
    ⟨-, mcu, buffer, result, -, -, rfl⟩
  · rfl
  · rfl
  · rfl

/-- A request that is refused replaces the parameters of a running download, one that is taken
starts a new one. -/
theorem mcuRequire_cases {request : OtaRequest} (moved : mcuRequire env request app = some app') :
    ∃ ret url, yaOtaRequireHandle .mcu env.mcuVersion request .zero = some (ret, url) ∧
      (((ret < 0 ∨ ret = yaHttpSuccess) ∧
          app' = { app with mcu := { app.mcu.otaInit with url := url.freeResource } }) ∨
        (¬ (ret < 0 ∨ ret = yaHttpSuccess) ∧
          app' = { app with
            mcu := OtaModule.setState { app.mcu.otaInit with url } .httpStart })) := by
  unfold mcuRequire at moved
  dsimp only at moved
  split at moved
  · cases moved
  next ret url handled =>
    refine ⟨ret, url, handled, ?_⟩
    split at moved
    next refused => exact .inl ⟨refused, (Option.some.inj moved).symm⟩
    next taken => exact .inr ⟨taken, (Option.some.inj moved).symm⟩

theorem mcuRequire_eq {request : OtaRequest} (moved : mcuRequire env request app = some app') :
    ∃ mcu, app' = { app with mcu } := by
  obtain ⟨ret, url, -, ⟨-, rfl⟩ | ⟨-, rfl⟩⟩ := mcuRequire_cases moved
  · exact ⟨_, rfl⟩
  · exact ⟨_, rfl⟩

end Mcu

/-! ## The WiFi machine -/

section Wifi

variable {env : OtaEnv} {app app' : OtaApp env.md5} {input : StepInput}

theorem read_socket {socket : Int} {n : Nat} {bytes : List UInt8}
    (read : input.read socket n = some bytes) : 0 ≤ socket := by
  unfold StepInput.read at read
  split at read
  · cases read
  · omega

theorem read_length {socket : Int} {n : Nat} {bytes : List UInt8}
    (read : input.read socket n = some bytes) : bytes.length ≤ n := by
  unfold StepInput.read at read
  split at read
  · cases read
  · obtain ⟨whole, -, rfl⟩ := Option.map_eq_some_iff.mp read
    rw [List.length_take]
    exact Nat.min_le_left _ _

/-- A header read either fails or has found bytes. -/
theorem yaHttpHeaderHandle_cases {response response' : HttpResponseResult}
    {read : Nat → Option (List UInt8)} {mem mem' : ByteMem} {ret : Int}
    (early : response.parseStatus ≤ 3)
    (handled : yaHttpHeaderHandle response read mem = some (ret, response', mem')) :
    ret = -1 ∨
      (∃ n bytes, read n = some bytes) ∧ (ret = 1 ∨ ret = 0 ∧ response'.parseStatus ≤ 3) := by
  unfold yaHttpHeaderHandle at handled
  rw [if_pos early] at handled
  dsimp only at handled
  generalize (if response.parseStatus = 1 ∨ response.parseStatus = 3 then httpHeaderBakLen else 0) =
    backupLen at handled
  split at handled
  next => exact .inl (by cases handled; rfl)
  next => exact .inl (by cases handled; rfl)
  next bytes _ found =>
    split at handled
    · cases handled
    · split at handled
      · exact .inl (by cases handled; rfl)
      split at handled
      · cases handled
        exact .inr ⟨⟨_, _, found⟩, .inl rfl⟩
      next low =>
        cases handled
        exact .inr ⟨⟨_, _, found⟩, .inr ⟨rfl, Nat.not_lt.mp low⟩⟩

/-- What a header read leaves alone. -/
theorem headerRead_eq {mod mod' : OtaModule} {ret : Int}
    (read : mod.headerRead input = some (ret, mod')) :
    ∃ buffer response buffer', mod.para.otaBuffer = some buffer ∧
      yaHttpHeaderHandle mod.response (input.read mod.para.otaServerSocket) buffer =
        some (ret, response, buffer') ∧
      mod' = { mod with response, para := { mod.para with otaBuffer := some buffer' } } := by
  unfold OtaModule.headerRead at read
  split at read
  · cases read
  next buffer held =>
    split at read
    · cases read
    next ret response buffer' handled =>
      cases read
      exact ⟨buffer, response, buffer', held, handled, rfl⟩

theorem wifiHeaderStep_cases (moved : wifiHeaderStep env input app = some app') :
    ∃ ret wifi, app.wifi.headerRead input = some (ret, wifi) ∧
      (app' = { app with wifi := wifi.setState .errorHandle } ∨
        (ret = 0 ∧ app' = { app with wifi }) ∨
        (0 < ret ∧ wifi.response.bodyLen = wifi.url.otaSize ∧ app' = { app with
          wifi := { wifi.setState .preFileHandle with file := wifi.filePara }
          md5Stat := (updateOtaBufferMd5 app.md5Stat wifi.response.bodyLen wifi.url.md5
            (md5Bytes wifi (otaBuf + wifi.filePara.headerLen) wifi.filePara.bodyReadLen)
            wifi.filePara.bodyReadLen).2
          checkMd5Result := (updateOtaBufferMd5 app.md5Stat wifi.response.bodyLen wifi.url.md5
            (md5Bytes wifi (otaBuf + wifi.filePara.headerLen) wifi.filePara.bodyReadLen)
            wifi.filePara.bodyReadLen).1 })) := by
  unfold wifiHeaderStep at moved
  split at moved
  · cases moved
  next ret wifi read =>
    refine ⟨ret, wifi, read, ?_⟩
    split at moved
    · exact .inl (Option.some.inj moved).symm
    split at moved
    next positive =>
      split at moved
      · exact .inl (Option.some.inj moved).symm
      next size => exact .inr (.inr ⟨positive, not_not.mp size, (Option.some.inj moved).symm⟩)
    · exact .inr (.inl ⟨by omega, (Option.some.inj moved).symm⟩)

theorem wifiBodyStep_cases {m m' : ByteMem}
    (ran : (wifiBodyStep env input app).run m = (some app', m')) :
    ∃ buffer result, app.wifi.para.otaBuffer = some buffer ∧
      (yaHttpBodyHandle app.wifi.file (input.read app.wifi.para.otaServerSocket) buffer
        app.hal).run m = (some result, m') ∧
      ((result.ret < 0 ∧ app' = { app with
          hal := result.hal, wifi := (app.wifi.withBody result).setState .errorHandle }) ∨
        (0 < result.ret ∧ app' = { app with
          hal := result.hal
          wifi := (app.wifi.withBody result).setState
            (if app.checkMd5Result = 1 then .httpChecksum else .errorHandle) }) ∨
        (result.ret = 0 ∧ app' = { app with
          hal := result.hal
          wifi := app.wifi.withBody result
          md5Stat := (updateOtaBufferMd5 app.md5Stat app.wifi.response.bodyLen app.wifi.url.md5
            (result.mem.load otaBuf result.file.bodyReadLen.toNat) result.file.bodyReadLen).2
          checkMd5Result := (updateOtaBufferMd5 app.md5Stat app.wifi.response.bodyLen
            app.wifi.url.md5 (result.mem.load otaBuf result.file.bodyReadLen.toNat)
            result.file.bodyReadLen).1 })) := by
  unfold wifiBodyStep at ran
  cases buffered : app.wifi.para.otaBuffer with
  | none =>
    rw [buffered] at ran
    cases ran
  | some buffer =>
    rw [buffered] at ran
    dsimp only at ran
    rw [run_bind] at ran
    generalize handled : (yaHttpBodyHandle app.wifi.file (input.read app.wifi.para.otaServerSocket)
      buffer app.hal).run m = outcome at ran
    obtain ⟨_ | result, m''⟩ := outcome
    · cases ran
    · dsimp only at ran
      split at ran
      next negative =>
        cases ran
        exact ⟨buffer, result, rfl, handled, .inl ⟨negative, rfl⟩⟩
      split at ran
      next positive =>
        cases ran
        exact ⟨buffer, result, rfl, handled, .inr (.inl ⟨positive, rfl⟩)⟩
      · cases ran
        exact ⟨buffer, result, rfl, handled, .inr (.inr ⟨by omega, rfl⟩)⟩

theorem wifiChecksumStep_cases {m m' : ByteMem}
    (ran : (wifiChecksumStep env app).run m = (some app', m')) :
    m' = m ∧
      (app' = { app with wifi := { app.wifi with para := { app.wifi.para with
          erorCode := yaCheckFileFailed, httpState := .errorHandle } } } ∨
        (app' = { app with wifi := app.wifi.setState .waitToReboot } ∧
          (verifyFlash env.md5 app.hal.sAddr app.wifi.file.fileLen app.wifi.url.md5).run m =
            (some 0, m))) := by
  unfold wifiChecksumStep yaVerifyOtaChecksum at ran
  have flash : ((verifyFlash env.md5 app.hal.sAddr app.wifi.file.fileLen app.wifi.url.md5).run
      m).2 = m := verifyFlash_flash _ m
  rw [run_bind] at ran
  generalize (verifyFlash env.md5 app.hal.sAddr app.wifi.file.fileLen app.wifi.url.md5).run m =
    outcome at ran flash
  obtain ⟨_ | verdict, m''⟩ := outcome
  · cases ran
  · subst flash
    dsimp only at ran
    split at ran
    · cases ran
      exact ⟨rfl, .inl rfl⟩
    next passed =>
      cases ran
      rw [not_not.mp passed]
      exact ⟨rfl, .inr ⟨rfl, rfl⟩⟩

theorem wifiEarseStep_run {place : OtaPlace} (part : env.part = place.entry) (m : ByteMem) :
    (wifiEarseStep env app).run m =
      ({ app with hal := place.fresh, wifi := app.wifi.setState .httpBodyHandle },
        m.erase place.base place.len) := by
  rw [wifiEarseStep, yaHttpOtaSectorErase, part, run_bind, otaHalInit_run]
  rfl

/-- The transitions of `ya_wifi_ota_download`. -/
def OtaStatus.successors : OtaStatus → List OtaStatus
  | .httpStart => [.httpIdle, .httpConnect]
  | .httpConnect => [.httpSendGet, .errorHandle]
  | .httpSendGet => [.httpHeaderHandle, .errorHandle]
  | .httpHeaderHandle => [.httpHeaderHandle, .preFileHandle, .errorHandle]
  | .preFileHandle => [.earseFlash]
  | .earseFlash => [.httpBodyHandle, .errorHandle]
  | .httpBodyHandle => [.httpBodyHandle, .httpChecksum, .errorHandle]
  | .httpChecksum => [.waitToReboot, .errorHandle]
  | .errorHandle => [.httpRetryWait, .httpIdle]
  | .httpRetryWait => [.httpRetryWait, .httpStart]
  | .waitToReboot => []
  | .httpIdle => [.httpIdle]
  | .parseHttpUrl => [.parseHttpUrl]
  | .notifyMcu => [.notifyMcu]

theorem startStep_successor (mod : OtaModule) :
    (mod.startStep input).para.httpState ∈ OtaStatus.successors .httpStart := by
  unfold OtaModule.startStep
  split
  · exact List.mem_cons_self
  · split
    · exact List.mem_cons_self
    · exact List.mem_cons_of_mem _ List.mem_cons_self

theorem connectStep_successor (mod : OtaModule) :
    (mod.connectStep input).para.httpState ∈ OtaStatus.successors .httpConnect := by
  unfold OtaModule.connectStep
  cases input.connect with
  | none => exact List.mem_cons_of_mem _ List.mem_cons_self
  | some socket => exact List.mem_cons_self

theorem sendGetStep_successor {mod mod' : OtaModule} (moved : mod.sendGetStep input = some mod') :
    mod'.para.httpState ∈ OtaStatus.successors .httpSendGet := by
  unfold OtaModule.sendGetStep at moved
  split at moved
  · split at moved
    · cases moved
    split at moved
    · cases moved
      exact List.mem_cons_of_mem _ List.mem_cons_self
    split at moved
    · cases moved
    · cases moved
      exact List.mem_cons_self
  · cases moved

theorem errorStep_successor (mod : OtaModule) :
    mod.errorStep.para.httpState ∈ OtaStatus.successors .errorHandle := by
  unfold OtaModule.errorStep
  dsimp only
  split
  · exact List.mem_cons_self
  · exact List.mem_cons_of_mem _ List.mem_cons_self

theorem retryStep_successor {mod : OtaModule} (at_ : mod.para.httpState = .httpRetryWait) :
    (mod.retryStep input).para.httpState ∈ OtaStatus.successors .httpRetryWait := by
  unfold OtaModule.retryStep
  split
  · exact List.mem_cons_of_mem _ List.mem_cons_self
  · rw [at_]
    exact List.mem_cons_self

/-- A step of the WiFi machine is one of its transitions. -/
theorem yaWifiOtaDownload_successor {m m' : ByteMem}
    (ran : (yaWifiOtaDownload env input app).run m = (some app', m')) :
    app'.wifi.para.httpState ∈ app.wifi.para.httpState.successors := by
  unfold yaWifiOtaDownload at ran
  split at ran
  next at_ =>
    cases ran
    rw [at_]
    exact startStep_successor _
  next at_ =>
    cases ran
    rw [at_]
    exact connectStep_successor _
  next at_ =>
    obtain ⟨mapped, rfl⟩ := Prod.mk.inj ran
    obtain ⟨wifi, moved, rfl⟩ := Option.map_eq_some_iff.mp mapped
    rw [at_]
    exact sendGetStep_successor moved
  next at_ =>
    obtain ⟨moved, rfl⟩ := Prod.mk.inj ran
    obtain ⟨ret, wifi, read, rfl | ⟨-, rfl⟩ | ⟨-, -, rfl⟩⟩ := wifiHeaderStep_cases moved
    · rw [at_]
      exact List.mem_cons_of_mem _ (List.mem_cons_of_mem _ List.mem_cons_self)
    · obtain ⟨buffer, response, buffer', -, -, rfl⟩ := headerRead_eq read
      change app.wifi.para.httpState ∈ _
      rw [at_]
      exact List.mem_cons_self
    · rw [at_]
      exact List.mem_cons_of_mem _ List.mem_cons_self
  next at_ =>
    cases ran
    rw [at_]
    exact List.mem_cons_self
  next at_ =>
    rw [run_bind] at ran
    cases ran
    rw [at_]
    unfold wifiEarseStep
    rw [run_bind]
    change (if _ then OtaStatus.errorHandle else .httpBodyHandle) ∈ _
    split
    · exact List.mem_cons_of_mem _ List.mem_cons_self
    · exact List.mem_cons_self
  next at_ =>
    obtain ⟨buffer, result, -, -, ⟨-, rfl⟩ | ⟨-, rfl⟩ | ⟨-, rfl⟩⟩ := wifiBodyStep_cases ran
    · rw [at_]
      exact List.mem_cons_of_mem _ (List.mem_cons_of_mem _ List.mem_cons_self)
    · rw [at_]
      change (if _ then OtaStatus.httpChecksum else .errorHandle) ∈ _
      split
      · exact List.mem_cons_of_mem _ List.mem_cons_self
      · exact List.mem_cons_of_mem _ (List.mem_cons_of_mem _ List.mem_cons_self)
    · change app.wifi.para.httpState ∈ _
      rw [at_]
      exact List.mem_cons_self
  next at_ =>
    obtain ⟨-, rfl | ⟨rfl, -⟩⟩ := wifiChecksumStep_cases ran
    · rw [at_]
      exact List.mem_cons_of_mem _ List.mem_cons_self
    · rw [at_]
      exact List.mem_cons_self
  next at_ =>
    cases ran
    rw [at_]
    exact errorStep_successor _
  next at_ =>
    cases ran
    rw [at_]
    exact retryStep_successor at_
  next =>
    rw [run_bind] at ran
    cases ran
  all_goals
    rename_i at_
    cases ran
    rw [at_]
    exact List.mem_cons_self

theorem yaWifiOtaDownload_mcu {m m' : ByteMem}
    (ran : (yaWifiOtaDownload env input app).run m = (some app', m')) :
    app'.mcu = app.mcu := by
  unfold yaWifiOtaDownload at ran
  split at ran
  next => cases ran; rfl
  next => cases ran; rfl
  next =>
    obtain ⟨wifi, -, rfl⟩ := Option.map_eq_some_iff.mp (congrArg Prod.fst ran)
    rfl
  next =>
    obtain ⟨ret, wifi, -, rfl | ⟨-, rfl⟩ | ⟨-, -, rfl⟩⟩ :=
      wifiHeaderStep_cases (congrArg Prod.fst ran)
    · rfl
    · rfl
    · rfl
  next => cases ran; rfl
  next =>
    rw [run_bind, wifiEarseStep, run_bind] at ran
    cases ran
    rfl
  next =>
    obtain ⟨buffer, result, -, -, ⟨-, rfl⟩ | ⟨-, rfl⟩ | ⟨-, rfl⟩⟩ := wifiBodyStep_cases ran
    · rfl
    · rfl
    · rfl
  next =>
    obtain ⟨-, rfl | ⟨rfl, -⟩⟩ := wifiChecksumStep_cases ran
    · rfl
    · rfl
  next => cases ran; rfl
  next => cases ran; rfl
  next =>
    rw [run_bind] at ran
    cases ran
  all_goals
    cases ran
    rfl

/-- A request that is refused or cannot be noted in flash replaces the parameters of a running
download; one that is taken starts a new one. -/
theorem wifiRequire_cases {request : OtaRequest} {m m' : ByteMem}
    (ran : (wifiRequire env request app).run m = (some app', m')) :
    ∃ ret url, yaOtaRequireHandle .wifi env.curVersion request .zero = some (ret, url) ∧
      (((ret < 0 ∨ ret = yaHttpSuccess) ∧ m' = m ∧
          app' = { app with wifi := { app.wifi.otaInit with url := url.freeResource } }) ∨
        (¬ (ret < 0 ∨ ret = yaHttpSuccess) ∧ ∃ code,
          (yaWriteOtaEnableIntoFlash request.board url).run m = (some code, m') ∧
          ((code ≠ 0 ∧ app' = { app with wifi := { app.wifi.otaInit with url } }) ∨
            (code = 0 ∧
              app' = { app with
                wifi := OtaModule.setState { app.wifi.otaInit with url } .httpStart })))) := by
  unfold wifiRequire at ran
  dsimp only at ran
  split at ran
  · cases ran
  next ret url handled =>
    refine ⟨ret, url, handled, ?_⟩
    split at ran
    next refused =>
      cases ran
      exact .inl ⟨refused, rfl, rfl⟩
    next taken =>
      refine .inr ⟨taken, ?_⟩
      rw [run_bind] at ran
      generalize (yaWriteOtaEnableIntoFlash request.board url).run m = outcome at ran
      obtain ⟨_ | code, m''⟩ := outcome
      · cases ran
      · dsimp only at ran
        split at ran
        next failed =>
          cases ran
          exact ⟨code, rfl, .inl ⟨failed, rfl⟩⟩
        next noted =>
          cases ran
          exact ⟨code, rfl, .inr ⟨not_not.mp noted, rfl⟩⟩

end Wifi

end Tr6260
