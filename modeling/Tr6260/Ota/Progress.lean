import Tr6260.Ota.Integrity

/-!
# The progress of a download

Whether a download comes to an end. A step in `YA_HTTP_BODY_HANDLE` writes what the one before it
has read and reads on; a connection that the server has closed reads as 0 bytes, with which the
machine stays in its state for good.
-/

namespace Tr6260

open FlashProg ByteMem

namespace OtaTrace

variable {env : OtaEnv} {t t' : OtaTrace env} {input : StepInput}

/-! ## The property -/

/-- The states of all runs. -/
inductive Arrives : OtaTrace env → Prop
  | initial (flash : ByteMem) : Arrives (.initial flash)
  | next {t t' : OtaTrace env} {event : OtaEvent} (before : Arrives t)
      (moved : t.next event = some t') : Arrives t'

/-- `file_len` bytes of the body are the whole file. -/
def fileLen (t : OtaTrace env) : Nat := t.app.wifi.file.fileLen

/-- `body_cur_pos`. -/
def curPos (t : OtaTrace env) : Nat := t.app.wifi.file.bodyCurPos

/-- What the read of a step in `YA_HTTP_BODY_HANDLE` returns. -/
def bodyBytes (t : OtaTrace env) (input : StepInput) : Option (List UInt8) :=
  input.read t.app.wifi.para.otaServerSocket httpBufSize

/-- What the writer returns for the bytes in the buffer, if there are any. -/
def written (t : OtaTrace env) (buffer : ByteMem) : Int :=
  if t.app.wifi.file.bodyReadLen = 0 then 0
  else ((otaHalWrite t.app.hal (t.app.wifi.file.pending buffer)).run t.flash).1.1

/-- A step in `YA_HTTP_BODY_HANDLE` gets as far as its read: the bytes in the buffer can be written,
and the file is not complete with them. -/
def GetsToRead (t : OtaTrace env) : Prop :=
  (∀ buffer, t.app.wifi.para.otaBuffer = some buffer → 0 ≤ t.written buffer) ∧
    t.app.wifi.file.reached < t.fileLen

/-- The connection is closed before the whole file has arrived. -/
def Starved (t : OtaTrace env) (input : StepInput) : Prop :=
  t.GetsToRead ∧ t.bodyBytes input = some []

/-- The next step hands `chunk` to the writer. -/
def Hands (t : OtaTrace env) (chunk : List UInt8) : Prop :=
  ∃ buffer, t.app.wifi.para.otaBuffer = some buffer ∧
    t.app.wifi.file.handsOver buffer = some chunk

/-- A step in `YA_HTTP_BODY_HANDLE` that makes progress. -/
structure Progresses (t : OtaTrace env) (input : StepInput) (t' : OtaTrace env) : Prop where
  moves : t'.status = .httpBodyHandle → t.curPos < t'.curPos ∨
    ∃ chunk, chunk ≠ [] ∧ t.bodyBytes input = some chunk ∧ t'.Hands chunk
  closed : t.GetsToRead → t.bodyBytes input = some [] → t'.status = .errorHandle

/-- The position behind the bytes in the buffer fits its variable, as long as the file is not
complete. -/
def Unwrapped (t : OtaTrace env) : Prop :=
  t.app.wifi.file.reached < t.fileLen →
    (t.app.wifi.file.reached : Int) = t.curPos + t.app.wifi.file.bodyReadLen

/-- A run with `n` steps of the WiFi machine, all in `YA_HTTP_BODY_HANDLE`, none of which is
starved. -/
inductive BodyRun : OtaTrace env → Nat → OtaTrace env → Prop
  | start (t : OtaTrace env) : BodyRun t 0 t
  | body {t u u' : OtaTrace env} {n : Nat} {input : StepInput} (run : BodyRun t n u)
      (at_ : u.status = .httpBodyHandle) (fed : ¬ u.Starved input) (unwrapped : u.Unwrapped)
      (moved : u.next (.wifi input) = some u') : BodyRun t (n + 1) u'
  | other {t u u' : OtaTrace env} {n : Nat} {event : OtaEvent} (run : BodyRun t n u)
      (other : ∀ input, event ≠ .wifi input) (moved : u.next event = some u') : BodyRun t n u'

/-! ## The file between header and checksum -/

/-- The file goes to the flash with its header, and the position is in range. -/
def Opened (t : OtaTrace env) : Prop :=
  t.status.receiving = true →
    t.app.wifi.file.bodyFileHeaderEnbable = true ∧ t.curPos < 2 ^ 32

theorem opened_of_body (opened : t.Opened) (at_ : t.status = .httpBodyHandle) :
    t.app.wifi.file.bodyFileHeaderEnbable = true ∧ t.curPos < 2 ^ 32 :=
  opened (by rw [at_]; rfl)

/-- The body handler stops at a failed write, or goes on to its read. -/
theorem bodyHandle_written (opened : t.Opened) (at_ : t.status = .httpBodyHandle)
    {read : Nat → Option (List UInt8)} {buffer m' : ByteMem} {result : BodyResult}
    (handled : (yaHttpBodyHandle t.app.wifi.file read buffer t.app.hal).run t.flash =
      (some result, m')) :
    result.ret < 0 ∧ t.written buffer < 0 ∨
      0 ≤ t.written buffer ∧
        ∃ hal, result = bodyRead t.app.wifi.file.advance read buffer hal := by
  rcases opened_of_body opened at_ with ⟨enabled, small⟩
  rw [yaHttpBodyHandle_run enabled small] at handled
  unfold written
  split at handled
  next none_ =>
    cases handled
    rw [if_pos none_]
    exact .inr ⟨Int.le_refl 0, t.app.hal, rfl⟩
  next some_ =>
    rw [if_neg some_]
    have same := Option.some.inj (congrArg Prod.fst handled)
    split at same
    next failed =>
      rw [← same]
      exact .inl ⟨Int.negSucc_lt_zero 0, failed⟩
    next passed => exact .inr ⟨Int.not_lt.mp passed, _, same.symm⟩

/-- What a step that stays in `YA_HTTP_BODY_HANDLE` has done. -/
structure Stays (t : OtaTrace env) (input : StepInput) (t' : OtaTrace env) : Prop where
  status : t'.status = .httpBodyHandle
  reads : t.GetsToRead
  fileLen : t'.fileLen = t.fileLen
  curPos : t'.curPos = t.app.wifi.file.reached
  enabled : t'.app.wifi.file.bodyFileHeaderEnbable = true
  chunk : ∃ chunk, t.bodyBytes input = some chunk ∧ t'.app.wifi.file.bodyReadLen = chunk.length ∧
    (chunk ≠ [] → t'.Hands chunk)

theorem hands_read {file : HttpFilePara} {mem : ByteMem} {chunk : List UInt8}
    (enabled : file.bodyFileHeaderEnbable = true) (start : file.headerLen = 0)
    (length : file.bodyReadLen = chunk.length) (some_ : chunk ≠ [])
    (short : chunk.length ≤ httpBufSize) :
    file.handsOver (mem.store otaBuf chunk) = some chunk := by
  have more : file.bodyReadLen ≠ 0 := by
    rw [length]
    exact Int.natCast_ne_zero.mpr (List.length_pos_iff.mpr some_).ne'
  have small : chunk.length < 65536 := Nat.lt_of_le_of_lt short (by decide)
  rw [HttpFilePara.handsOver, if_pos more, bodyFileHeader_enabled enabled]
  dsimp only
  rw [if_pos more, start, length, Nat.add_zero]
  have count : ((chunk.length : Int) % 65536).toNat = chunk.length := by omega
  rw [count, (store_holds mem otaBuf chunk).load]

theorem bodyStep_cases (opened : t.Opened) (at_ : t.status = .httpBodyHandle)
    (moved : t.next (.wifi input) = some t') :
    t'.status ≠ .httpBodyHandle ∧ ¬ t.Starved input ∨ t.Stays input t' := by
  rcases opened_of_body opened at_ with ⟨enabled, small⟩
  rcases next_eq moved with ⟨app, flash, ran, rfl⟩
  have step : (wifiBodyStep env input t.app).run t.flash = (some app, flash) := by
    unfold status at at_
    rw [otaStep, yaWifiOtaDownload, at_] at ran
    exact ran
  rcases wifiBodyStep_cases step with ⟨buffer, result, held, handled, outcome⟩
  have writes (reads : t.GetsToRead) : 0 ≤ t.written buffer := reads.1 buffer held
  rcases bodyHandle_written opened at_ handled with ⟨negative, failed⟩ | ⟨passed, hal, rfl⟩
  · rcases outcome with ⟨-, rfl⟩ | ⟨positive, -⟩ | ⟨zero, -⟩
    · exact .inl ⟨nofun, fun starved => by have := writes starved.1; omega⟩
    · omega
    · omega
  rcases bodyRead_cases t.app.wifi.file.advance (input.read t.app.wifi.para.otaServerSocket) buffer
    hal with ⟨same, finished⟩ | ⟨same, failed⟩ | ⟨chunk, same, more, read⟩
  · rw [same] at outcome
    rcases outcome with ⟨negative, -⟩ | ⟨-, rfl⟩ | ⟨zero, -⟩
    · cases negative
    · refine .inl ⟨?_, fun starved => absurd starved.1.2 (Nat.not_lt.mpr finished)⟩
      change (if t.app.checkMd5Result = 1 then OtaStatus.httpChecksum else .errorHandle) ≠ _
      split <;> nofun
    · cases zero
  · rw [same] at outcome
    rcases outcome with ⟨-, rfl⟩ | ⟨positive, -⟩ | ⟨zero, -⟩
    · refine .inl ⟨nofun, fun starved => ?_⟩
      have closed := starved.2
      rw [bodyBytes, failed] at closed
      cases closed
    · cases positive
    · cases zero
  · rw [same] at outcome
    rcases outcome with ⟨negative, -⟩ | ⟨positive, -⟩ | ⟨-, rfl⟩
    · cases negative
    · cases positive
    · refine .inr ⟨at_, ⟨fun other held' => ?_, more⟩, rfl, rfl, enabled, chunk, read, rfl,
        fun some_ => ?_⟩
      · rw [held] at held'
        cases held'
        exact passed
      · exact ⟨_, rfl, hands_read enabled rfl rfl some_ (read_length read)⟩

theorem opened_request {request : OtaRequest} (opened : t.Opened)
    (moved : t.next (.wifiRequest request) = some t') : t'.Opened := by
  rcases next_eq moved with ⟨app, flash, ran, rfl⟩
  rcases wifiRequire_cases ran with
    ⟨ret, url, -, ⟨-, -, rfl⟩ | ⟨-, code, -, ⟨-, rfl⟩ | ⟨-, rfl⟩⟩⟩
  · exact opened
  · exact opened
  · exact fun at_ => nomatch at_

/-- Before the end of the header, no step leads behind it. -/
theorem receiving_successor {state : OtaStatus} (early : state.receiving = false)
    (header : state ≠ .httpHeaderHandle) : ∀ next ∈ state.successors, next.receiving = false := by
  cases state <;> first
    | exact absurd early (by decide)
    | exact absurd rfl header
    | decide

theorem opened_body (opened : t.Opened) (at_ : t.status = .httpBodyHandle)
    (moved : t.next (.wifi input) = some t') : t'.Opened := by
  rcases bodyStep_cases opened at_ moved with ⟨leaves, -⟩ | stays
  · rcases next_eq moved with ⟨app, flash, ran, rfl⟩
    have ends : ∀ next ∈ OtaStatus.successors .httpBodyHandle, next ≠ .httpBodyHandle →
        next.receiving = false := by decide
    have successor := yaWifiOtaDownload_successor ran
    rw [show t.app.wifi.para.httpState = .httpBodyHandle from at_] at successor
    intro receiving
    have quiet : app.wifi.para.httpState.receiving = false := ends _ successor leaves
    exact absurd (receiving.symm.trans quiet) (by decide)
  · refine fun _ => ⟨stays.enabled, ?_⟩
    rw [stays.curPos, HttpFilePara.reached, toU32]
    omega

theorem opened_wifi (opened : t.Opened) (moved : t.next (.wifi input) = some t') : t'.Opened := by
  by_cases body : t.status = .httpBodyHandle
  · exact opened_body opened body moved
  rcases next_eq moved with ⟨app, flash, ran, rfl⟩
  have successor := yaWifiOtaDownload_successor ran
  rw [otaStep, yaWifiOtaDownload] at ran
  cases state : t.app.wifi.para.httpState
  case httpBodyHandle => exact absurd state body
  case httpHeaderHandle =>
    rw [state] at ran
    rcases wifiHeaderStep_cases (congrArg Prod.fst ran) with
      ⟨ret, wifi, read, rfl | ⟨-, rfl⟩ | ⟨-, -, rfl⟩⟩
    · exact fun at_ => nomatch at_
    · rcases headerRead_eq read with ⟨buffer, response, buffer', -, -, rfl⟩
      intro at_
      change t.app.wifi.para.httpState.receiving = true at at_
      rw [state] at at_
      cases at_
    · exact fun _ => ⟨rfl, Nat.two_pow_pos 32⟩
  case preFileHandle =>
    rw [state] at ran
    cases ran
    have file := opened (by rw [status, state]; rfl)
    exact fun _ => file
  case earseFlash =>
    rw [state] at ran
    have file := opened (by rw [status, state]; rfl)
    dsimp only at ran
    rw [run_bind, wifiEarseStep, run_bind] at ran
    cases ran
    exact fun _ => file
  all_goals
    intro receiving
    rw [state] at successor
    have quiet := receiving_successor (by decide) (by decide) _ successor
    exact absurd (receiving.symm.trans quiet) (by decide)

theorem Arrives.opened (arrives : t.Arrives) : t.Opened := by
  induction arrives with
  | initial flash => exact fun at_ => nomatch at_
  | @next t t' event before moved opened =>
    cases event with
    | wifi input => exact opened_wifi opened moved
    | wifiRequest request => exact opened_request opened moved
    | mcu input =>
      rcases next_eq moved with ⟨app, flash, ran, rfl⟩
      have same : app.wifi = t.app.wifi := yaMcuOtaDownload_wifi ran
      unfold Opened status curPos record
      rw [same]
      exact opened
    | mcuRequest request =>
      rcases next_eq moved with ⟨app, flash, ran, rfl⟩
      rcases mcuRequire_eq (Prod.mk.inj ran).1 with ⟨mcu, rfl⟩
      exact opened

/-! ## Progress -/

/-- A step makes progress exactly when its connection has not been closed early. -/
theorem progresses_iff (opened : t.Opened) (at_ : t.status = .httpBodyHandle)
    (moved : t.next (.wifi input) = some t') : t.Progresses input t' ↔ ¬ t.Starved input := by
  constructor
  · intro progresses starved
    have error := progresses.closed starved.1 starved.2
    rcases bodyStep_cases opened at_ moved with ⟨-, fed⟩ | stays
    · exact fed starved
    · rw [stays.status] at error
      cases error
  · intro fed
    refine ⟨fun status => ?_, fun reads closed => absurd ⟨reads, closed⟩ fed⟩
    rcases bodyStep_cases opened at_ moved with ⟨leaves, -⟩ | stays
    · exact absurd status leaves
    · rcases stays.chunk with ⟨chunk, read, -, hands⟩
      have some_ : chunk ≠ [] := by
        rintro rfl
        exact fed ⟨stays.reads, read⟩
      exact .inr ⟨chunk, some_, read, hands some_⟩

/-- Other actions of the loop leave the file as it is, or take the machine out of the state. -/
theorem next_other {event : OtaEvent} (other : ∀ input, event ≠ .wifi input)
    (moved : t.next event = some t') :
    t'.app.wifi.file = t.app.wifi.file ∧ (t'.status = t.status ∨ t'.status = .httpStart) := by
  rcases next_eq moved with ⟨app, flash, ran, rfl⟩
  cases event with
  | wifi input => exact absurd rfl (other input)
  | mcu input =>
    have same : app.wifi = t.app.wifi := yaMcuOtaDownload_wifi ran
    unfold status record
    rw [same]
    exact ⟨rfl, .inl rfl⟩
  | wifiRequest request =>
    rcases wifiRequire_cases ran with
      ⟨ret, url, -, ⟨-, -, rfl⟩ | ⟨-, code, -, ⟨-, rfl⟩ | ⟨-, rfl⟩⟩⟩
    · exact ⟨rfl, .inl rfl⟩
    · exact ⟨rfl, .inl rfl⟩
    · exact ⟨rfl, .inr rfl⟩
  | mcuRequest request =>
    rcases mcuRequire_eq (Prod.mk.inj ran).1 with ⟨mcu, rfl⟩
    exact ⟨rfl, .inl rfl⟩

/-- What holds behind `n` steps: each but the first has written a byte. -/
structure Counted (t : OtaTrace env) (n : Nat) (u : OtaTrace env) : Prop where
  bound : n ≤ t.fileLen + 1
  opened : u.status = .httpBodyHandle → u.Opened
  fileLen : u.status = .httpBodyHandle → u.fileLen = t.fileLen
  written : u.status = .httpBodyHandle → 0 < n →
    n ≤ u.curPos + 1 ∧ u.curPos < t.fileLen ∧ 0 < u.app.wifi.file.bodyReadLen

theorem Counted.body {u u' : OtaTrace env} {n : Nat} (counted : t.Counted n u)
    (at_ : u.status = .httpBodyHandle) (fed : ¬ u.Starved input) (unwrapped : u.Unwrapped)
    (moved : u.next (.wifi input) = some u') : t.Counted (n + 1) u' := by
  have opened := counted.opened at_
  have bound : n + 1 ≤ t.fileLen + 1 := by
    rcases Nat.eq_zero_or_pos n with rfl | some_
    · omega
    · rcases counted.written at_ some_ with ⟨before, less, -⟩
      omega
  rcases bodyStep_cases opened at_ moved with ⟨leaves, -⟩ | stays
  · exact ⟨bound, fun again => absurd again leaves, fun again => absurd again leaves,
      fun again => absurd again leaves⟩
  · refine ⟨bound, fun _ => opened_body opened at_ moved, fun _ => ?_, fun _ _ => ?_⟩
    · rw [stays.fileLen, counted.fileLen at_]
    · rcases stays.chunk with ⟨chunk, read, length, -⟩
      have some_ : 0 < chunk.length := by
        refine List.length_pos_iff.mpr ?_
        rintro rfl
        exact fed ⟨stays.reads, read⟩
      have less := stays.reads.2
      have position := unwrapped less
      rw [counted.fileLen at_] at less
      rw [stays.curPos, length]
      refine ⟨?_, less, by omega⟩
      rcases Nat.eq_zero_or_pos n with rfl | more
      · omega
      · rcases counted.written at_ more with ⟨before, -, pending⟩
        omega

theorem Counted.other {u u' : OtaTrace env} {n : Nat} (counted : t.Counted n u) {event : OtaEvent}
    (other : ∀ input, event ≠ .wifi input) (moved : u.next event = some u') :
    t.Counted n u' := by
  rcases next_other other moved with ⟨file, same | start⟩
  · refine ⟨counted.bound, fun at_ receiving => ?_, fun at_ => ?_, fun at_ => ?_⟩
    · rw [same] at at_ receiving
      unfold OtaTrace.curPos
      rw [file]
      exact counted.opened at_ receiving
    · rw [same] at at_
      rw [OtaTrace.fileLen, file]
      exact counted.fileLen at_
    · rw [same] at at_
      unfold OtaTrace.curPos
      rw [file]
      exact counted.written at_
  · have out : u'.status ≠ .httpBodyHandle := by
      rw [start]
      nofun
    exact ⟨counted.bound, fun at_ => absurd at_ out, fun at_ => absurd at_ out,
      fun at_ => absurd at_ out⟩

theorem BodyRun.counted {n : Nat} {u : OtaTrace env} (opened : t.Opened) (run : t.BodyRun n u) :
    t.Counted n u := by
  induction run with
  | start =>
    exact ⟨Nat.zero_le _, fun _ => opened, fun _ => rfl, fun _ some_ => absurd some_ (by decide)⟩
  | body run at_ fed unwrapped moved ih => exact ih.body at_ fed unwrapped moved
  | other run other moved ih => exact ih.other other moved

/-- In every run: a step in `YA_HTTP_BODY_HANDLE` makes progress exactly when its connection has not
been closed before the whole file has arrived; and where all steps do, the state is left after
`2 * file_len + 2` of them. -/
theorem bodyProgress (arrives : t.Arrives) :
    (t.status = .httpBodyHandle → ∀ input t', t.next (.wifi input) = some t' →
      (t.Progresses input t' ↔ ¬ t.Starved input)) ∧
    ∀ n u, t.BodyRun n u → n ≤ 2 * t.fileLen + 2 := by
  refine ⟨fun at_ input t' moved => progresses_iff arrives.opened at_ moved, fun n u run => ?_⟩
  have bound := (run.counted arrives.opened).bound
  omega

theorem Arrives.nexts (arrives : t.Arrives) {events : List OtaEvent}
    (moved : t.nexts events = some t') : t'.Arrives :=
  nexts_kept (fun _ _ _ _ before moved => before.next moved) arrives moved

end OtaTrace

/-! ## A whole file, and a server that closes its connection -/

/-- A run up to the body of a file of 64 bytes, of which `bytes` come with the header. -/
def intoBody64 (bytes : List UInt8) : Option (OtaTrace countingEnv) :=
  (OtaTrace.initial fun _ => 0).nexts (.wifiRequest request64 ::
    (headerSteps bytes ++ List.replicate 2 (okInput [])).map .wifi)

theorem bodyProgress_download64 : ∃ t : OtaTrace countingEnv, intoBody64 (bodyOf 64 0) = some t ∧
    (t.status = .httpBodyHandle → ∀ input t', t.next (.wifi input) = some t' →
      (t.Progresses input t' ↔ ¬ t.Starved input)) ∧
    ∀ n u, t.BodyRun n u → n ≤ 2 * t.fileLen + 2 := by
  have ran : (intoBody64 (bodyOf 64 0)).isSome = true := by decide +kernel
  rcases Option.isSome_iff_exists.mp ran with ⟨t, moved⟩
  exact ⟨t, moved, OtaTrace.bodyProgress ((OtaTrace.Arrives.initial _).nexts moved)⟩

/-- With nothing but a header, the machine reads 0 bytes for 131 steps, and stays where it was. -/
theorem bodyProgress_closed64 : ∃ t u : OtaTrace countingEnv, intoBody64 [] = some t ∧
    t.status = .httpBodyHandle ∧ t.fileLen = 64 ∧
    t.nexts (List.replicate (2 * 64 + 3) (.wifi (okInput []))) = some u ∧
    u.status = .httpBodyHandle ∧ u.curPos = 0 ∧
    ∃ t', t.next (.wifi (okInput [])) = some t' ∧ ¬ t.Progresses (okInput []) t' := by
  have ran : ((intoBody64 []).bind fun t =>
      (t.nexts (List.replicate (2 * 64 + 3) (.wifi (okInput [])))).map fun u =>
        (t.status, t.fileLen, u.status, u.curPos)) =
      some (.httpBodyHandle, 64, .httpBodyHandle, 0) := by decide +kernel
  have step : ((intoBody64 []).bind fun t => (t.next (.wifi (okInput []))).map fun t' =>
      (t.curPos, t'.curPos, t'.status, t.bodyBytes (okInput []))) =
      some (0, 0, .httpBodyHandle, some []) := by decide +kernel
  rcases Option.bind_eq_some_iff.mp ran with ⟨t, first, mapped⟩
  rcases Option.map_eq_some_iff.mp mapped with ⟨u, moved, states⟩
  rw [first, Option.bind_some] at step
  rcases Option.map_eq_some_iff.mp step with ⟨t', moved', same⟩
  simp only [Prod.mk.injEq] at states same
  rcases states with ⟨at_, length, stays, position⟩
  rcases same with ⟨start, start', stuck, read⟩
  refine ⟨t, u, first, at_, length, moved, stays, position, t', moved', fun progresses => ?_⟩
  rcases progresses.moves stuck with further | ⟨chunk, some_, read', -⟩
  · omega
  · rw [read] at read'
    exact some_ (Option.some.inj read').symm

end Tr6260
