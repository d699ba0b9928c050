import Tr6260.Ota.Resources
import Tr6260.UserData

/-!
# The result of an update

A WiFi request that is accepted leaves a flag and the version it asks for in a
record of 64 bytes (`ya_write_ota_enable_into_flash`). A start of
`ya_http_ota_app` looks for that record first: it compares the version with the
one that runs now, keeps the outcome for the report to the cloud and overwrites
the record (`ya_read_ota_result_from_flash`).

`ResultRun` is every history of requests and starts, with changes of the mode,
which drop the record, and whatever else writes to the flash outside its
sector. The code keeps to "once" and "truthfully" only while there is memory:
the result of the write that clears the record is not looked at, and a record
left behind is reported again by the next start.
-/

namespace Tr6260

open FlashProg ByteMem

/-! ## The model -/

/-- `ya_app_ota_sys_restart_t`, the values of `ota_result_upload_enable`. -/
inductive OtaRestart
  | normal
  | withOtaSuccess
  | withOtaFaile
  deriving DecidableEq

/-- The content of `cur_version`. -/
abbrev FirmwareVersion := { version : CString // version.strlen ≤ versionLen }

/-- `new_ota_version` after `memset` and `ya_get_ver_string`. -/
def FirmwareVersion.buffer (version : FirmwareVersion) : List UInt8 :=
  version.1.1 ++ List.replicate (versionLen + 1 - version.1.strlen) 0

/-- `ya_read_ota_result_from_flash` under the version that runs: return code, and the value given to
`ota_result_upload_enable`, if any. -/
def yaReadOtaResultFromFlash (reads clears : Board) (curVersion : FirmwareVersion) :
    FlashProg (Int × Option OtaRestart) := do
  match ← yaReadFlashWithFixLen reads yaOtaDataAddr 64 1 with
  | none => return (-1, none)
  | some stored =>
    let buf := (stored ++ List.replicate 64 0).take 64
    if buf.getD 0 0 > 0 then do
      let result :=
        if (buf.drop 1).take versionLen = curVersion.buffer.take versionLen then
          OtaRestart.withOtaSuccess
        else
          OtaRestart.withOtaFaile
      let _ ← yaWriteFlash clears yaOtaDataAddr (List.replicate 64 0) 1
      return (0, some result)
    else
      return (0, none)

/-- What requests and starts leave behind. -/
structure ResultWorld where
  flash : ByteMem
  curVersion : FirmwareVersion
  /-- `ota_result_upload_enable`. -/
  uploadEnable : OtaRestart
  /-- The version of the last request that was accepted, until a start has looked for it or a
  change of the mode has dropped it. The device does not have this. -/
  recorded : Option CString

/-- What happens to the record. -/
inductive ResultEvent (env : OtaEnv)
  /-- A WiFi request, wherever the two machines are. -/
  | wifiRequest (request : OtaRequest) (app : OtaApp env.md5)
  /-- A start with some firmware. -/
  | reboot (version : FirmwareVersion) (reads clears : Board)
  /-- The erase in `ya_set_mode_internal` and `ya_erase_all_user_data`. -/
  | setMode
  /-- Other parts of the firmware have left the flash so. -/
  | elsewhere (flash : ByteMem)

namespace ResultWorld

variable {env : OtaEnv}

/-- The device with the firmware that runs. -/
def running (w : ResultWorld) (env : OtaEnv) : OtaEnv := { env with curVersion := w.curVersion.1 }

/-- The version of a request, if it is accepted. -/
def accepted (w : ResultWorld) (request : OtaRequest) : Option CString :=
  match yaOtaRequireHandle .wifi w.curVersion.1 request .zero with
  | none => none
  | some (ret, url) =>
    if ret < 0 ∨ ret = yaHttpSuccess then
      none
    else if ((yaWriteOtaEnableIntoFlash request.board url).run w.flash).1 = some 0 then
      some url.otaVer
    else
      none

/-- One event; `none` for a request that ends in a fault, and for a change of the record's sector by
other parts. -/
def next (w : ResultWorld) : ResultEvent env → Option ResultWorld
  | .wifiRequest request app =>
    match (wifiRequire (w.running env) request app).run w.flash with
    | (none, _) => none
    | (some _, flash) =>
      some { w with
        flash
        -- `ya_wifi_ota_init`
        uploadEnable := .normal
        recorded := w.accepted request <|> w.recorded }
  | .reboot version reads clears =>
    match (yaReadOtaResultFromFlash reads clears version).run w.flash with
    | ((_, set), flash) => some ⟨flash, version, set.getD .normal, none⟩
  | .setMode =>
    some { w with
      flash := ((yaEraseFlash yaOtaDataAddr 0x1000).run w.flash).2
      recorded := none }
  | .elsewhere flash =>
    if w.flash.load yaOtaDataAddr spiflashSectorSize =
        flash.load yaOtaDataAddr spiflashSectorSize then
      some { w with flash }
    else
      none

/-- A device that has never had a request. -/
def Fresh (w : ResultWorld) : Prop := w.recorded = none ∧ w.flash yaOtaDataAddr ≠ 0xAA

end ResultWorld

/-- The histories in which every event meets a condition. -/
inductive ResultRun (env : OtaEnv) (meets : ResultWorld → ResultEvent env → Prop) :
    ResultWorld → Prop
  | start {w : ResultWorld} (fresh : w.Fresh) : ResultRun env meets w
  | step {w w' : ResultWorld} {event : ResultEvent env} (run : ResultRun env meets w)
      (met : meets w event) (moved : w.next event = some w') : ResultRun env meets w'

/-- What a start has to report. -/
def expectedResult : Option CString → FirmwareVersion → Option OtaRestart
  | none, _ => none
  | some version, curVersion =>
    some (if version = curVersion.1 then .withOtaSuccess else .withOtaFaile)

/-- Every start that meets the condition sets the result of the version recorded, and sets nothing
when there is none. -/
def ResultWorld.Truthful (env : OtaEnv) (meets : ResultWorld → ResultEvent env → Prop)
    (w : ResultWorld) : Prop :=
  ∀ version reads clears, meets w (.reboot version reads clears) →
    ((yaReadOtaResultFromFlash reads clears version).run w.flash).1.2 =
      expectedResult w.recorded version

/-- Bytes asked for to write or read a record of 64 bytes. -/
def flagBlockSize : Nat := recordAllocLen 64 + 4

/-- The events that do what they are for: a start finds memory to read a record that is there and to
clear it, and a flag that is written is reported as written. -/
def ResultWorld.Provided {env : OtaEnv} (w : ResultWorld) : ResultEvent env → Prop
  | .wifiRequest request _ => ∀ ret url,
    yaOtaRequireHandle .wifi w.curVersion.1 request .zero = some (ret, url) → ¬ Refuses ret →
    (request.board.memoryAlloc flagBlockSize).isSome → request.board.flashWriteResult = 0
  | .reboot _ reads clears => w.recorded.isSome →
    (reads.memoryAlloc flagBlockSize).isSome ∧ (clears.memoryAlloc flagBlockSize).isSome
  | .setMode => True
  | .elsewhere _ => True

/-! ## The comparison -/

/-- Text survives being filled up with zeros and cut behind its end. -/
theorem CString.ofBytes_padded (s : CString) (pad : Nat) {size : Nat} (fits : s.strlen ≤ size) :
    CString.ofBytes ((s.1 ++ List.replicate pad 0).take size) = s := by
  have clear : ∀ b ∈ s.1, decide (b ≠ 0) = true := fun b mem =>
    decide_eq_true fun zero => s.2 (zero ▸ mem)
  have whole : s.1.take size = s.1 := List.take_of_length_le fits
  apply Subtype.ext
  change ((s.1 ++ List.replicate pad 0).take size).takeWhile _ = s.1
  rw [List.take_append, whole, List.take_replicate, List.takeWhile_append_of_pos clear,
    List.takeWhile_replicate]
  simp

/-- The bytes of the record with the version asked for. -/
def flagRecord (version : CString) : List UInt8 :=
  [1] ++ version.1 ++ List.replicate (63 - version.strlen) 0

theorem length_flagRecord {version : CString} (short : version.strlen ≤ versionLen) :
    (flagRecord version).length = 64 := by
  unfold CString.strlen versionLen at short
  simp only [flagRecord, CString.strlen, List.length_append, List.length_cons, List.length_nil,
    List.length_replicate]
  omega

/-- Comparing the two buffers compares the versions. -/
theorem flagRecord_compare {version : CString} (short : version.strlen ≤ versionLen)
    (curVersion : FirmwareVersion) :
    ((flagRecord version).drop 1).take versionLen = curVersion.buffer.take versionLen ↔
      version = curVersion.1 := by
  have recorded := CString.ofBytes_padded version (63 - version.strlen) short
  have runs := CString.ofBytes_padded curVersion.1 (versionLen + 1 - curVersion.1.strlen) curVersion.2
  have tail : (flagRecord version).drop 1 =
      version.1 ++ List.replicate (63 - version.strlen) 0 := rfl
  rw [tail]
  constructor
  · intro same
    rw [same] at recorded
    exact recorded.symm.trans runs
  · rintro rfl
    have room := curVersion.2
    unfold FirmwareVersion.buffer
    rw [List.take_append, List.take_append, List.take_replicate, List.take_replicate]
    unfold CString.strlen versionLen at *
    rw [Nat.min_eq_left (by omega), Nat.min_eq_left (by omega)]

/-! ## What a start finds -/

theorem otaDataAddr_aligned : yaOtaDataAddr % spiflashSectorSize = 0 := by decide

section FlagWrite

variable {board : Board} {data : List UInt8} (len : data.length = 64)
include len

/-- With memory a record of 64 bytes is written, whatever the HAL reports. -/
theorem flagWrite_memory (memory : (board.memoryAlloc flagBlockSize).isSome) (m : ByteMem) :
    ∃ m', (yaWriteFlash board yaOtaDataAddr data 1).run m = (some board.flashWriteResult, m') ∧
      RecordAt m' yaOtaDataAddr data := by
  have block : (1 : UInt8) ≠ 0 := by decide
  have bound : data.length ≤ maxDataLen * (1 : UInt8).toNat - 10 := by rw [len]; decide
  rw [flagBlockSize, ← len] at memory
  rcases yaWriteFlash_memory otaDataAddr_aligned block (by omega) bound
    (by omega) memory m with ⟨m', written, stored, -⟩
  exact ⟨m', written, stored⟩

/-- Without memory nothing is written. -/
theorem flagWrite_exhausted (memory : board.memoryAlloc flagBlockSize = none) (m : ByteMem) :
    (yaWriteFlash board yaOtaDataAddr data 1).run m = (some (-1), m) := by
  have bound : maxDataLen * (1 : UInt8).toNat - 10 = 4086 := by decide
  rw [yaWriteFlash, if_neg (by decide), if_neg (by omega), len]
  simp only [show board.memoryAlloc (recordAllocLen 64 + 4) = none from memory]
  rfl

end FlagWrite

/-- A start finds no flag here, with or without memory. -/
def Silent (m : ByteMem) : Prop :=
  ∀ board stored, ((yaReadFlashWithFixLen board yaOtaDataAddr 64 1).run m).1 = some stored →
    stored.getD 0 0 = 0

theorem Silent.of_no_magic {m : ByteMem} (magic : m yaOtaDataAddr ≠ 0xAA) : Silent m := by
  intro board stored found
  rw [yaReadFlashWithFixLen, run_bind, readFlashRecord_no_magic board 64 1 _ magic] at found
  cases found

theorem Silent.congr {m m' : ByteMem} (same : AgreeOn m m' yaOtaDataAddr spiflashSectorSize)
    (silent : Silent m) : Silent m' := by
  intro board stored found
  rw [← yaReadFlashWithFixLen_congr board same] at found
  exact silent board stored found

/-- The cleared record is read and has no flag. -/
theorem Silent.of_cleared {m : ByteMem} (stored : RecordAt m yaOtaDataAddr (List.replicate 64 0)) :
    Silent m := by
  intro board found read
  rw [yaReadFlashWithFixLen_memory board stored (by decide) (by decide) (by decide) (by decide)]
    at read
  dsimp only at read
  split at read
  · cases read
    rfl
  · cases read

/-- Without a flag a start sets nothing and writes nothing. -/
theorem yaReadOtaResultFromFlash_silent {m : ByteMem} (silent : Silent m) (reads clears : Board)
    (curVersion : FirmwareVersion) :
    ((yaReadOtaResultFromFlash reads clears curVersion).run m).1.2 = none ∧
      ((yaReadOtaResultFromFlash reads clears curVersion).run m).2 = m := by
  have same : ((yaReadFlashWithFixLen reads yaOtaDataAddr 64 1).run m).2 = m :=
    (yaReadFlashWithFixLen_readOnly reads yaOtaDataAddr 64 1).run m
  unfold yaReadOtaResultFromFlash
  rw [run_bind, same]
  cases found : ((yaReadFlashWithFixLen reads yaOtaDataAddr 64 1).run m).1 with
  | none => exact ⟨rfl, rfl⟩
  | some stored =>
    have zero : ((stored ++ List.replicate 64 0).take 64).getD 0 0 = 0 := by
      have first := silent reads stored found
      cases stored with
      | nil => rfl
      | cons b rest => exact first
    dsimp only
    rw [if_neg (by rw [zero]; decide)]
    exact ⟨rfl, rfl⟩

/-- With the flag of a version and memory a start sets its result and clears the record. -/
theorem yaReadOtaResultFromFlash_flagged {m : ByteMem} {version : CString}
    (short : version.strlen ≤ versionLen) (stored : RecordAt m yaOtaDataAddr (flagRecord version))
    {reads clears : Board} (memory : (reads.memoryAlloc flagBlockSize).isSome)
    (room : (clears.memoryAlloc flagBlockSize).isSome) (curVersion : FirmwareVersion) :
    ((yaReadOtaResultFromFlash reads clears curVersion).run m).1.2 =
        expectedResult (some version) curVersion ∧
      Silent ((yaReadOtaResultFromFlash reads clears curVersion).run m).2 := by
  have len := length_flagRecord short
  have read : (yaReadFlashWithFixLen reads yaOtaDataAddr 64 1).run m =
      (some (flagRecord version), m) := by
    rw [yaReadFlashWithFixLen_memory reads stored (by rw [len]; decide) (by decide) (by decide)
      (by decide), len, if_pos ⟨by decide, memory⟩, List.take_of_length_le (Nat.le_of_eq len)]
  have buf : (flagRecord version ++ List.replicate 64 0).take 64 = flagRecord version :=
    List.take_left' len
  rcases flagWrite_memory List.length_replicate room m with ⟨m', written, cleared⟩
  unfold yaReadOtaResultFromFlash
  rw [run_bind, read]
  dsimp only
  rw [buf, if_pos (show (flagRecord version).getD 0 0 > 0 from (by decide : (1 : UInt8) > 0)), run_bind, written]
  refine ⟨?_, .of_cleared cleared⟩
  simp only [run_pure, expectedResult, flagRecord_compare short]

/-! ## Histories -/

/-- The flash shows the version recorded, or no flag. -/
def ResultWorld.Shown (w : ResultWorld) : Prop :=
  match w.recorded with
  | none => Silent w.flash
  | some version =>
    version.strlen ≤ versionLen ∧ RecordAt w.flash yaOtaDataAddr (flagRecord version)

section Runs

variable {env : OtaEnv} {w w' : ResultWorld}

theorem ResultWorld.Shown.congr {flash : ByteMem} (shown : w.Shown)
    (same : AgreeOn w.flash flash yaOtaDataAddr spiflashSectorSize) :
    ResultWorld.Shown { w with flash } := by
  unfold ResultWorld.Shown at *
  dsimp only
  split at shown
  · exact shown.congr same
  next version _ =>
    rcases shown with ⟨short, pad, held, total⟩
    have room : (recordHeader (flagRecord version) ++ flagRecord version ++ pad).length ≤
        spiflashSectorSize := by
      rw [total, length_flagRecord short]
      decide
    have record : AgreeOn w.flash flash yaOtaDataAddr
        (recordHeader (flagRecord version) ++ flagRecord version ++ pad).length :=
      same.sub (Nat.le_refl _) (Nat.add_le_add_left room _)
    exact ⟨short, pad, held.congr record, total⟩

/-- Whether a request that is taken is accepted is for the write to say. -/
theorem ResultWorld.accepted_taken {request : OtaRequest} {ret : Int} {url : OtaUrlPara}
    (handled : yaOtaRequireHandle .wifi w.curVersion.1 request .zero = some (ret, url))
    (taken : ¬ (ret < 0 ∨ ret = yaHttpSuccess)) :
    w.accepted request =
      if ((yaWriteFlash request.board yaOtaDataAddr (flagRecord url.otaVer) 1).run w.flash).1 =
          some 0 then
        some url.otaVer
      else
        none := by
  rw [accepted, handled]
  exact if_neg taken

/-- A request that is refused or cannot be noted leaves the record, one that is accepted leaves its
version. -/
theorem ResultWorld.Shown.request (shown : w.Shown) {request : OtaRequest} {app : OtaApp env.md5}
    (provided : w.Provided (.wifiRequest request app : ResultEvent env))
    (moved : w.next (.wifiRequest request app : ResultEvent env) = some w') : w'.Shown := by
  unfold ResultWorld.next at moved
  dsimp only at moved
  split at moved
  · cases moved
  next app' flash ran =>
    cases moved
    rcases wifiRequire_cases ran with ⟨ret, url, handled, outcome⟩
    have handled' : yaOtaRequireHandle .wifi w.curVersion.1 request .zero = some (ret, url) := handled
    rcases outcome with ⟨refused, rfl, -⟩ | ⟨taken, code, written, -⟩
    · have none : w.accepted request = none := by
        rw [accepted, handled']
        exact if_pos refused
      rw [none]
      exact shown
    · have short := (yaOtaRequireHandle_filled handled' taken).2
      have len := length_flagRecord short
      change (yaWriteFlash request.board yaOtaDataAddr (flagRecord url.otaVer) 1).run w.flash =
        (some code, flash) at written
      cases memory : request.board.memoryAlloc flagBlockSize with
      | none =>
        rw [flagWrite_exhausted len memory] at written
        cases written
        have none : w.accepted request = none := by
          rw [accepted_taken handled' taken, flagWrite_exhausted len memory]
          rfl
        rw [none]
        exact shown
      | some block =>
        have memory : (request.board.memoryAlloc flagBlockSize).isSome := by rw [memory]; rfl
        have success := provided ret url handled' taken memory
        rcases flagWrite_memory len memory w.flash with ⟨m', ran', stored⟩
        have version : w.accepted request = some url.otaVer := by
          rw [accepted_taken handled' taken, ran', success]
          rfl
        rw [ran'] at written
        cases written
        rw [version]
        exact ⟨short, stored⟩

/-- A start leaves no flag. -/
theorem ResultWorld.Shown.reboot (shown : w.Shown) {version : FirmwareVersion}
    {reads clears : Board}
    (provided : w.Provided (.reboot version reads clears : ResultEvent env)) :
    ((yaReadOtaResultFromFlash reads clears version).run w.flash).1.2 =
        expectedResult w.recorded version ∧
      Silent ((yaReadOtaResultFromFlash reads clears version).run w.flash).2 := by
  unfold ResultWorld.Shown at shown
  split at shown
  next none =>
    rcases yaReadOtaResultFromFlash_silent shown reads clears version with ⟨quiet, same⟩
    rw [none, quiet, same]
    exact ⟨rfl, shown⟩
  next recorded some =>
    rcases provided (by rw [some]; rfl) with ⟨memory, room⟩
    rw [some]
    exact yaReadOtaResultFromFlash_flagged shown.1 shown.2 memory room version

theorem ResultWorld.Shown.next {event : ResultEvent env} (shown : w.Shown)
    (provided : w.Provided event) (moved : w.next event = some w') : w'.Shown := by
  cases event with
  | wifiRequest request app => exact shown.request provided moved
  | reboot version reads clears =>
    cases moved
    exact (shown.reboot provided).2
  | setMode =>
    cases moved
    have blank := erase_erased w.flash yaOtaDataAddr (sectorCount 0x1000 * spiflashSectorSize)
      yaOtaDataAddr (Nat.le_refl _) (by decide)
    refine Silent.of_no_magic ?_
    rw [yaEraseFlash_run otaDataAddr_aligned]
    dsimp only
    rw [blank]
    decide
  | elsewhere flash =>
    unfold ResultWorld.next at moved
    dsimp only at moved
    split at moved
    next same =>
      cases moved
      refine shown.congr fun a low high => ?_
      have before := (holds_load w.flash yaOtaDataAddr spiflashSectorSize).apply
        (show a - yaOtaDataAddr < _ by rw [length_load]; omega)
      have after := (holds_load flash yaOtaDataAddr spiflashSectorSize).apply
        (show a - yaOtaDataAddr < _ by rw [length_load]; omega)
      rw [Nat.add_sub_cancel' low] at before after
      rw [before, after, same]
    · cases moved

theorem ResultRun.shown (run : ResultRun env ResultWorld.Provided w) : w.Shown := by
  induction run with
  | start fresh =>
    unfold ResultWorld.Shown
    rw [fresh.1]
    exact .of_no_magic fresh.2
  | step run met moved shown => exact shown.next met moved

/-- Every start sets the result of the version recorded, and sets nothing when there is none. -/
theorem otaResult_truthful (run : ResultRun env ResultWorld.Provided w) :
    w.Truthful env ResultWorld.Provided :=
  fun _ _ _ provided => (run.shown.reboot provided).1

end Runs

/-- The version that runs on `countingEnv`, and the one `request64` asks for. -/
def version001 : FirmwareVersion := ⟨.lit ['1', '.', '0', '0', '1'], by decide⟩

def version002 : FirmwareVersion := ⟨.lit ['1', '.', '0', '0', '2'], by decide⟩

/-- A device with blank flash. -/
def blankWorld : ResultWorld := ⟨fun _ => 0xFF, version001, .normal, none⟩

/-- The request that the device accepts. -/
def askUpdate : ResultEvent countingEnv := .wifiRequest request64 (.initial _)

theorem blankWorld_fresh : blankWorld.Fresh := ⟨rfl, by decide⟩

theorem otaResult_truthful_update : ∃ w, ResultRun countingEnv ResultWorld.Provided w ∧
    w.recorded = some version002.1 ∧ w.Truthful countingEnv ResultWorld.Provided := by
  have asked : (blankWorld.next askUpdate).map (·.recorded) = some (some version002.1) := by
    decide +kernel
  rcases Option.map_eq_some_iff.mp asked with ⟨w, moved, recorded⟩
  have provided : blankWorld.Provided askUpdate := fun _ _ _ _ _ => rfl
  have run : ResultRun countingEnv ResultWorld.Provided w :=
    .step (.start blankWorld_fresh) provided moved
  exact ⟨w, run, recorded, otaResult_truthful run⟩

/-- A start that has no memory to clear the record leaves the next start to report again. -/
theorem otaResult_reported_twice : ¬ ∀ w, ResultRun countingEnv (fun _ _ => True) w →
    w.Truthful countingEnv fun _ _ => True := by
  intro truthful
  have again : ((blankWorld.next askUpdate).bind fun w =>
      (w.next (.reboot version002 .zeroed .exhausted : ResultEvent countingEnv)).map fun w =>
        (w.recorded,
          ((yaReadOtaResultFromFlash .zeroed .zeroed version002).run w.flash).1.2)) =
      some (none, some .withOtaSuccess) := by decide +kernel
  rcases Option.bind_eq_some_iff.mp again with ⟨w₁, asked, started⟩
  rcases Option.map_eq_some_iff.mp started with ⟨w₂, started, found⟩
  rcases Prod.mk.inj found with ⟨recorded, second⟩
  have run : ResultRun countingEnv (fun _ _ => True) w₂ :=
    .step (.step (.start blankWorld_fresh) trivial asked) trivial started
  have once := truthful w₂ run version002 .zeroed .zeroed trivial
  rw [recorded, second] at once
  cases once

end Tr6260
