import Tr6260.SpiFlash

/-!
# Flash writes page by page

`hal_spifiash_write` cuts what it writes at the boundaries of the pages. Before every
`spiflash_program` it waits until the flash accepts a write, after it until the flash is done, and
it gives up when a wait runs out. What a status reading says is left to the flash: it may depend
on everything that was sent to it.
-/

namespace Tr6260

open FlashProg

/-- `SPIFLASH_PAGE_SIZE`. -/
def spiflashPageSize : Nat := 0x100

/-- `SPIFLASH_TIMEOUT_COUNT`. -/
def spiflashTimeoutCount : Nat := 0xFFFFFFFF

/-- `SPIFLASH_STATUS_WEL` is set. -/
def welSet (data : UInt32) : Bool := data &&& 2 ≠ 0

/-- `SPIFLASH_STATUS_WIP` is not set. -/
def wipClear (data : UInt32) : Bool := data &&& 1 = 0

/-- What is sent to the flash. -/
inductive SpiCmd
  | wren
  | rdsr
  | program (addr : Nat) (bytes : List UInt8)

/-- The address and the bytes of a `spiflash_program`. -/
def SpiCmd.programCall : SpiCmd → Option (Nat × List UInt8)
  | .program addr bytes => some (addr, bytes)
  | _ => none

/-- What was sent so far, and for every wait whether it ended with a flash that is ready. -/
structure SpiTrace where
  cmds : List SpiCmd
  waits : List Bool

/-- The flash: what a status reading at the end of these commands says. -/
abbrev StatusRegister := List SpiCmd → UInt32

namespace SpiTrace

/-- The calls of `spiflash_program`. -/
def programs (t : SpiTrace) : List (Nat × List UInt8) := t.cmds.filterMap SpiCmd.programCall

/-- `spiflash_program`. -/
def spiflashProgram (addr : Nat) (bytes : List UInt8) (t : SpiTrace) : SpiTrace :=
  { t with cmds := t.cmds ++ [.program addr bytes] }

end SpiTrace

/-! ## The driver -/

section Driver

variable (status : StatusRegister)

/-- The loops over `j`: `count` turns are left, and `data` was read last. -/
def waitLoop (before : List SpiCmd) (ready : UInt32 → Bool) :
    Nat → UInt32 → List SpiCmd → UInt32 × List SpiCmd
  | 0, data, cmds => (data, cmds)
  | count + 1, _, cmds =>
    let cmds := cmds ++ before ++ [.rdsr]
    let data := status cmds
    if ready data then (data, cmds) else waitLoop before ready count data cmds

/-- A wait, with the test behind its loop. -/
def statusWait (before : List SpiCmd) (ready : UInt32 → Bool) (t : SpiTrace) : Bool × SpiTrace :=
  let (data, cmds) := waitLoop status before ready spiflashTimeoutCount 0 t.cmds
  (ready data, { cmds, waits := t.waits ++ [ready data] })

/-- The `do` loop of `hal_spifiash_write`; `fuel` bounds its turns. `length` is at most `len`. -/
def halSpifiashWriteLoop (addr : Nat) (buf : List UInt8) :
    Nat → Nat → Nat → Nat → SpiTrace → Option (Int × SpiTrace)
  | 0, _, _, _, _ => none
  | fuel + 1, len, address, length, t =>
    let (enabled, t) := statusWait status [.wren] welSet t
    if ¬ enabled then
      some (-1, t)
    else
      let bytes := (buf.drop ((address + (2 ^ 32 - addr)) % 2 ^ 32)).take length
      let t := t.spiflashProgram address bytes
      let len := len - length
      let address := (address + length) % 2 ^ 32
      let length := if len > spiflashPageSize then spiflashPageSize else len
      let (done, t) := statusWait status [] wipClear t
      if ¬ done then
        some (-1, t)
      else if length = 0 then
        some (0, t)
      else
        halSpifiashWriteLoop addr buf fuel len address length t

/-- `hal_spifiash_write`, with everything that is sent to the flash. -/
def halSpifiashWritePages (fuel addr : Nat) (buf : List UInt8) (t : SpiTrace) :
    Option (Int × SpiTrace) :=
  let len := buf.length
  if len = 0 then
    some (0, t)
  else
    let length := addr % spiflashPageSize
    let length := if len > spiflashPageSize - length then spiflashPageSize - length else len
    halSpifiashWriteLoop status addr buf fuel len addr length t

end Driver

/-! ## Page by page -/

/-- Writes put `bytes` down from `addr` on, in order and without gap or overlap, none of them empty
or across the boundary of a page. -/
structure PageSplit (addr : Nat) (ws : List (Nat × List UInt8)) (bytes : List UInt8) : Prop where
  covers : InOrder addr ws bytes
  pages : ∀ w ∈ ws, 0 < w.2.length ∧ w.2.length ≤ spiflashPageSize ∧
    w.1 % spiflashPageSize + w.2.length ≤ spiflashPageSize

/-- A flash that is ready whenever it is asked. -/
structure AlwaysReady (status : StatusRegister) : Prop where
  wel : ∀ cmds, welSet (status (cmds ++ [.wren] ++ [.rdsr])) = true
  wip : ∀ cmds addr bytes,
    wipClear (status (cmds ++ [.program addr bytes] ++ [] ++ [.rdsr])) = true

/-- How a write of `bytes` at `addr` ends: with all of them programmed and 0 when every wait found
the flash ready, else with -1 and the first of them programmed. -/
structure PagesWritten (status : StatusRegister) (addr : Nat) (bytes : List UInt8) (t : SpiTrace)
    (result : Int) (t' : SpiTrace) : Prop where
  split : ∃ ws k, t'.programs = t.programs ++ ws ∧ PageSplit addr ws (bytes.take k) ∧
    (result = 0 → bytes.length ≤ k)
  waits : ∃ waits, t'.waits = t.waits ++ waits ∧
    (result = 0 ∧ false ∉ waits ∨ result = -1 ∧ false ∈ waits)
  ready : AlwaysReady status → result = 0

/-! ## Waiting -/

section Wait

variable {status : StatusRegister} {before : List SpiCmd} {ready : UInt32 → Bool} {count : Nat}
  {data : UInt32} {cmds : List SpiCmd}

/-- A wait programs nothing. -/
theorem waitLoop_programs (quiet : before.filterMap SpiCmd.programCall = []) :
    (waitLoop status before ready count data cmds).2.filterMap SpiCmd.programCall =
      cmds.filterMap SpiCmd.programCall := by
  induction count generalizing data cmds with
  | zero => rfl
  | succ count ih =>
    have now : (cmds ++ before ++ [SpiCmd.rdsr]).filterMap SpiCmd.programCall =
        cmds.filterMap SpiCmd.programCall := by
      rw [List.filterMap_append, List.filterMap_append, quiet, List.append_nil]
      exact List.append_nil _
    rw [waitLoop]
    split
    next => exact now
    next => rw [ih, now]

/-- A flash that is ready at the first reading ends the wait. -/
theorem waitLoop_ready (turns : 0 < count)
    (now : ready (status (cmds ++ before ++ [.rdsr])) = true) :
    ready (waitLoop status before ready count data cmds).1 = true := by
  cases count with
  | zero => cases turns
  | succ count =>
    rw [waitLoop, if_pos now]
    exact now

variable {t t' : SpiTrace} {ok : Bool}

theorem statusWait_spec (quiet : before.filterMap SpiCmd.programCall = [])
    (waited : statusWait status before ready t = (ok, t')) :
    t'.programs = t.programs ∧ t'.waits = t.waits ++ [ok] := by
  have ended : (statusWait status before ready t).1 = ok := congrArg Prod.fst waited
  have after : (statusWait status before ready t).2 = t' := congrArg Prod.snd waited
  rw [← after, ← ended]
  constructor
  · simp only [statusWait, SpiTrace.programs]
    exact waitLoop_programs quiet
  · rfl

theorem statusWait_ready (waited : statusWait status before ready t = (ok, t'))
    (now : ready (status (t.cmds ++ before ++ [.rdsr])) = true) : ok = true := by
  have ended : (statusWait status before ready t).1 = ok := congrArg Prod.fst waited
  rw [← ended]
  simp only [statusWait]
  exact waitLoop_ready (by decide) now

end Wait

/-! ## The loop -/

section Loop

variable {status : StatusRegister} {addr address length : Nat} {buf bytes : List UInt8}

theorem spiflashProgram_programs (t : SpiTrace) :
    (t.spiflashProgram addr bytes).programs = t.programs ++ [(addr, bytes)] := by
  rw [SpiTrace.programs, SpiTrace.spiflashProgram, List.filterMap_append]
  rfl

theorem spiflashProgram_waits (t : SpiTrace) : (t.spiflashProgram addr bytes).waits = t.waits := rfl

/-- The first piece up to the end of its page, and the rest. -/
theorem PageSplit.cons {ws : List (Nat × List UInt8)} {later : List UInt8}
    (some_ : 0 < bytes.length) (inside : addr % spiflashPageSize + bytes.length ≤ spiflashPageSize)
    (rest : PageSplit (addr + bytes.length) ws later) :
    PageSplit addr ((addr, bytes) :: ws) (bytes ++ later) where
  covers := ⟨rfl, later, rfl, rest.covers⟩
  pages := by
    intro w mem
    rcases List.mem_cons.mp mem with first | other
    · rw [first]
      exact ⟨some_, Nat.le_trans (Nat.le_add_left ..) inside, inside⟩
    · exact rest.pages w other

theorem PageSplit.nil (addr : Nat) : PageSplit addr [] [] where
  covers := rfl
  pages := by
    intro w mem
    cases mem

/-- The wait before a piece runs out. -/
theorem PagesWritten.refused {t t' : SpiTrace}
    (waited : statusWait status [.wren] welSet t = (false, t')) :
    PagesWritten status addr bytes t (-1) t' := by
  obtain ⟨programs, waits⟩ := statusWait_spec rfl waited
  refine ⟨⟨[], 0, ?_, PageSplit.nil addr, ?_⟩,
    ⟨[false], waits, .inr ⟨rfl, List.mem_singleton_self _⟩⟩, ?_⟩
  · rw [programs, List.append_nil]
  · intro zero
    cases zero
  · intro ready
    cases statusWait_ready waited (ready.wel t.cmds)

/-- The wait after a piece runs out. -/
theorem PagesWritten.stuck {t t₁ t₂ : SpiTrace} {k : Nat} (some_ : 0 < k)
    (most : k ≤ bytes.length) (inside : addr % spiflashPageSize + k ≤ spiflashPageSize)
    (enabled : statusWait status [.wren] welSet t = (true, t₁))
    (waited :
      statusWait status [] wipClear (t₁.spiflashProgram addr (bytes.take k)) = (false, t₂)) :
    PagesWritten status addr bytes t (-1) t₂ := by
  obtain ⟨programs₁, waits₁⟩ := statusWait_spec rfl enabled
  obtain ⟨programs₂, waits₂⟩ := statusWait_spec rfl waited
  have size : (bytes.take k).length = k := List.length_take_of_le most
  refine ⟨⟨[(addr, bytes.take k)], k, ?_, ?_, ?_⟩, ⟨[true, false], ?_, .inr ⟨rfl, by decide⟩⟩, ?_⟩
  · rw [programs₂, spiflashProgram_programs, programs₁]
  · have split := @PageSplit.cons addr (bytes.take k) _ _ (by rwa [size]) (by rwa [size])
      (PageSplit.nil _)
    rwa [List.append_nil] at split
  · intro zero
    cases zero
  · rw [waits₂, spiflashProgram_waits, waits₁, List.append_assoc]
    rfl
  · intro ready
    cases statusWait_ready waited (ready.wip t₁.cmds addr (bytes.take k))

/-- A piece is written, and then the rest. -/
theorem PagesWritten.piece {t t₁ t₂ t' : SpiTrace} {k : Nat} {result : Int} (some_ : 0 < k)
    (most : k ≤ bytes.length) (inside : addr % spiflashPageSize + k ≤ spiflashPageSize)
    (enabled : statusWait status [.wren] welSet t = (true, t₁))
    (done : statusWait status [] wipClear (t₁.spiflashProgram addr (bytes.take k)) = (true, t₂))
    (rest : PagesWritten status (addr + k) (bytes.drop k) t₂ result t') :
    PagesWritten status addr bytes t result t' := by
  obtain ⟨programs₁, waits₁⟩ := statusWait_spec rfl enabled
  obtain ⟨programs₂, waits₂⟩ := statusWait_spec rfl done
  obtain ⟨⟨ws, more, programs', split, whole⟩, ⟨waits, waits', outcome⟩, ready⟩ := rest
  have size : (bytes.take k).length = k := List.length_take_of_le most
  refine ⟨⟨(addr, bytes.take k) :: ws, k + more, ?_, ?_, ?_⟩,
    ⟨true :: true :: waits, ?_, ?_⟩, ready⟩
  · rw [programs', programs₂, spiflashProgram_programs, programs₁, List.append_assoc]
    rfl
  · rw [List.take_add]
    exact PageSplit.cons (by rwa [size]) (by rwa [size]) (by rwa [size])
  · intro zero
    have rest := whole zero
    rw [List.length_drop] at rest
    omega
  · rw [waits', waits₂, spiflashProgram_waits, waits₁, List.append_assoc, List.append_assoc]
    rfl
  · simpa using outcome

theorem PagesWritten.done (addr : Nat) (t : SpiTrace) : PagesWritten status addr [] t 0 t where
  split := ⟨[], 0, (List.append_nil _).symm, PageSplit.nil addr, fun _ => Nat.le_refl _⟩
  waits := ⟨[], (List.append_nil _).symm, .inl ⟨rfl, List.not_mem_nil⟩⟩
  ready := fun _ => rfl

/-- The loop: what is left is cut at the end of the page at hand, and from there on page by page. -/
theorem halSpifiashWriteLoop_written {done len : Nat} (fits : addr + buf.length < 2 ^ 32)
    (left : done + len = buf.length) (some_ : 0 < len)
    (piece : length = min len (spiflashPageSize - (addr + done) % spiflashPageSize))
    (t : SpiTrace) : ∃ result t',
      (∀ fuel, len ≤ fuel →
        halSpifiashWriteLoop status addr buf fuel len (addr + done) length t = some (result, t')) ∧
      PagesWritten status (addr + done) (buf.drop done) t result t' := by
  induction len using Nat.strongRecOn generalizing done length t with
  | _ len ih =>
    have size : spiflashPageSize = 256 := rfl
    have small : (addr + done) % spiflashPageSize < spiflashPageSize := Nat.mod_lt _ (by decide)
    have length_pos : 0 < length := by omega
    have inside : (addr + done) % spiflashPageSize + length ≤ spiflashPageSize := by omega
    have most : length ≤ (buf.drop done).length := by
      rw [List.length_drop]
      omega
    have offset : (addr + done + (2 ^ 32 - addr)) % 2 ^ 32 = done := by omega
    have next : (addr + done + length) % 2 ^ 32 = addr + (done + length) := by omega
    have turn : ∀ fuel, len ≤ fuel → ∃ fuel', fuel = fuel' + 1 ∧ len - length ≤ fuel' := by
      intro fuel enough
      exact ⟨fuel - 1, by omega, by omega⟩
    obtain ⟨enabled, t₁, waited⟩ : ∃ ok t₁, statusWait status [.wren] welSet t = (ok, t₁) :=
      ⟨_, _, rfl⟩
    obtain ⟨over_, t₂, waited'⟩ : ∃ ok t₂, statusWait status [] wipClear
        (t₁.spiflashProgram (addr + done) ((buf.drop done).take length)) = (ok, t₂) := ⟨_, _, rfl⟩
    cases enabled with
    | false =>
      refine ⟨-1, t₁, ?_, PagesWritten.refused waited⟩
      intro fuel enough
      obtain ⟨fuel', rfl, -⟩ := turn fuel enough
      simp only [halSpifiashWriteLoop, waited]
      rfl
    | true =>
      cases over_ with
      | false =>
        refine ⟨-1, t₂, ?_, PagesWritten.stuck length_pos most inside waited waited'⟩
        intro fuel enough
        obtain ⟨fuel', rfl, -⟩ := turn fuel enough
        simp only [halSpifiashWriteLoop, waited, offset, waited']
        rfl
      | true =>
        by_cases last : len - length = 0
        · refine ⟨0, t₂, ?_, PagesWritten.piece length_pos most inside waited waited' ?_⟩
          · intro fuel enough
            obtain ⟨fuel', rfl, -⟩ := turn fuel enough
            simp only [halSpifiashWriteLoop, waited, offset, waited', last]
            rfl
          · rw [List.drop_drop, List.drop_eq_nil_of_le (by omega)]
            exact PagesWritten.done _ _
        · -- the piece ends with its page
          have aligned : (addr + (done + length)) % spiflashPageSize = 0 := by
            rw [size] at piece ⊢
            omega
          have rest : (if len - length > spiflashPageSize then spiflashPageSize else len - length) =
              min (len - length)
                (spiflashPageSize - (addr + (done + length)) % spiflashPageSize) := by
            rw [aligned]
            split <;> omega
          obtain ⟨result, t', runs, written⟩ :=
            ih (len - length) (by omega) (by omega) (by omega) rest t₂
          refine ⟨result, t', ?_, PagesWritten.piece length_pos most inside waited waited' ?_⟩
          · intro fuel enough
            obtain ⟨fuel', rfl, enough'⟩ := turn fuel enough
            rw [← runs fuel' enough']
            simp only [halSpifiashWriteLoop, waited, offset, waited', next]
            rw [if_neg (by simp), if_neg (by simp), if_neg (by split <;> omega)]
          · rw [List.drop_drop, Nat.add_assoc]
            exact written

end Loop

/-- A write whose end is below 2^32 returns, and its calls of `spiflash_program` cut what they
program at the boundaries of the pages. It returns 0 exactly when no wait ran out, as with a flash
that is always ready, and all is programmed then, in effect as `hal_spifiash_write` has it for its
callers; else it returns -1, and what was programmed is a beginning. -/
theorem halSpifiashWrite_pages (status : StatusRegister) {addr : Nat} {buf : List UInt8}
    (fits : addr + buf.length < 2 ^ 32) : ∃ result t,
      (∀ fuel, buf.length ≤ fuel →
        halSpifiashWritePages status fuel addr buf ⟨[], []⟩ = some (result, t)) ∧
      (∃ k, PageSplit addr t.programs (buf.take k) ∧ (result = 0 → buf.length ≤ k)) ∧
      (result = 0 ∧ false ∉ t.waits ∨ result = -1 ∧ false ∈ t.waits) ∧
      (AlwaysReady status → result = 0) ∧
      (result = 0 → ∀ m, ((halSpifiashWrite addr buf).run m).2 =
        t.programs.foldl (fun m w => m.program w.1 w.2) m) := by
  have written : ∃ result t,
      (∀ fuel, buf.length ≤ fuel →
        halSpifiashWritePages status fuel addr buf ⟨[], []⟩ = some (result, t)) ∧
      PagesWritten status addr buf ⟨[], []⟩ result t := by
    by_cases empty : buf.length = 0
    · refine ⟨0, ⟨[], []⟩, ?_, ?_⟩
      · intro fuel _
        rw [halSpifiashWritePages, if_pos empty]
      · rw [List.length_eq_zero_iff.mp empty]
        exact PagesWritten.done addr _
    · have piece : (if buf.length > spiflashPageSize - addr % spiflashPageSize then
          spiflashPageSize - addr % spiflashPageSize else buf.length) =
          min buf.length (spiflashPageSize - (addr + 0) % spiflashPageSize) := by
        rw [Nat.add_zero]
        split <;> omega
      obtain ⟨result, t, runs, written⟩ := @halSpifiashWriteLoop_written status addr _ buf 0 _ fits
        (Nat.zero_add _) (by omega) piece ⟨[], []⟩
      refine ⟨result, t, ?_, written⟩
      intro fuel enough
      rw [halSpifiashWritePages, if_neg empty]
      exact runs fuel enough
  obtain ⟨result, t, runs, ⟨ws, k, programs, split, whole⟩, ⟨waits, waits', outcome⟩, ready⟩ :=
    written
  have programs' : t.programs = ws := programs
  have waits'' : t.waits = waits := waits'
  rw [← programs'] at split
  rw [← waits''] at outcome
  refine ⟨result, t, runs, ⟨k, split, whole⟩, outcome, ready, ?_⟩
  intro zero m
  rw [split.covers.program, halSpifiashWrite_run, List.take_of_length_le (whole zero)]

/-- Four bytes around the end of a page, with a flash that is always ready. -/
theorem halSpifiashWrite_pages_ready : ∃ result t,
    halSpifiashWritePages (fun _ => 2) 4 0xFE [1, 2, 3, 4] ⟨[], []⟩ = some (result, t) ∧
      result = 0 ∧ ∃ k, PageSplit 0xFE t.programs ([1, 2, 3, 4].take k) := by
  obtain ⟨result, t, runs, ⟨k, split, -⟩, -, ready, -⟩ :=
    @halSpifiashWrite_pages (fun _ => 2) 0xFE [1, 2, 3, 4] (by decide)
  have asked : AlwaysReady fun _ => 2 := ⟨fun _ => by decide, fun _ _ _ => by decide⟩
  exact ⟨result, t, runs 4 (Nat.le_refl _), ready asked, k, split⟩

end Tr6260
