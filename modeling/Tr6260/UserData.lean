import Tr6260.FlashRecord

/-!
# User data in two slots

`ya_user_data` is kept in two flash records, a main slot and a backup. `ya_save_user_data` writes
the backup first; `ya_read_user_data` takes the main slot, falls back to the backup and then writes
it over the main slot, and starts afresh when both fail, or when the record asks to connect with a
name or a password that cannot be.

`UserRun` is every state that saves, reads and power losses lead to. While memory is available one
of the slots is always valid and a read finds the record of the last save that was completed, or of
the one that was interrupted. A reader out of memory, though, reports the same error as for a slot
that is not valid, and the read then takes a stale backup or throws the user data away.
-/

namespace Tr6260

open FlashProg ByteMem

/-! ## The model -/

/-- `sizeof (ya_user_data_t)`. -/
def sizeofUserData : Nat := 564

/-- `YA_USER_DATA_ADDR` of this board. -/
def yaUserDataAddr : Nat := 0xAD000

/-- `YA_USER_DATA_BACK_ADDR`. -/
def yaUserDataBackAddr : Nat := yaUserDataAddr + 0x1000

/-- `CONNECT_MODE`. -/
def connectMode : UInt8 := 2

/-- The bytes of a `ya_user_data_t`. -/
abbrev UserData := { bytes : List UInt8 // bytes.length = sizeofUserData }

namespace UserData

/-- The field of one byte at an offset. -/
def byte (d : UserData) (offset : Nat) : UInt8 := d.1.getD offset 0

def mode (d : UserData) : UInt8 := d.byte 0
def ssidFirst (d : UserData) : UInt8 := d.byte 1
def ssidLen (d : UserData) : UInt8 := d.byte 34
def pwdLen (d : UserData) : UInt8 := d.byte 100

/-- The zeroed structure after `memcpy` of at most its size of the stored bytes. -/
def ofRecord (stored : List UInt8) : UserData :=
  ⟨(stored ++ List.replicate sizeofUserData 0).take sizeofUserData, by simp⟩

/-- The zeroed structure with its mode. -/
@[irreducible] def init (initMode : UInt8) : UserData :=
  ⟨initMode :: List.replicate (sizeofUserData - 1) 0, by
    rw [List.length_cons, List.length_replicate]
    rfl⟩

/-- A record that asks to connect, without a usable name or password. -/
def BadConnect (d : UserData) : Prop :=
  d.mode = connectMode ∧ (d.ssidLen = 0 ∨ d.ssidLen > 32 ∨ d.pwdLen > 64 ∨ d.ssidFirst = 0)

instance (d : UserData) : Decidable d.BadConnect := inferInstanceAs (Decidable (_ ∧ _))

end UserData

/-- Memory at the flash calls of a read and of the save in it. -/
structure UserBoards where
  readMain : Board
  readBack : Board
  repair : Board
  saveBack : Board
  saveMain : Board

/-- All of them are of a kind. -/
def UserBoards.All (kind : Board → Prop) (boards : UserBoards) : Prop :=
  kind boards.readMain ∧ kind boards.readBack ∧ kind boards.repair ∧ kind boards.saveBack ∧
    kind boards.saveMain

/-- `ya_save_user_data`. -/
def yaSaveUserData (boards : UserBoards) (data : UserData) : FlashProg Int := do
  let ret ← yaWriteFlash boards.saveBack yaUserDataBackAddr data.1 1
  let ret1 ← yaWriteFlash boards.saveMain yaUserDataAddr data.1 1
  if ret ≠ some 0 ∨ ret1 ≠ some 0 then
    return -1
  else
    return 0

/-- The first half of `ya_read_user_data`: the record found, with the repair of the main slot;
`none` sets `read_error`. -/
def readUserRecord (boards : UserBoards) : FlashProg (Option UserData) := do
  match ← yaReadFlashWithFixLen boards.readMain yaUserDataAddr sizeofUserData 1 with
  | some stored => return some (.ofRecord stored)
  | none =>
    match ← yaReadFlashWithFixLen boards.readBack yaUserDataBackAddr sizeofUserData 1 with
    | none => return none
    | some stored => do
      let _ ← yaWriteFlash boards.repair yaUserDataAddr (UserData.ofRecord stored).1 1
      return some (.ofRecord stored)

/-- `read_error` at the end: nothing found, or a record that cannot be used. -/
def ReadError : Option UserData → Prop
  | none => True
  | some data => data.BadConnect

instance : (found : Option UserData) → Decidable (ReadError found)
  | none => isTrue trivial
  | some data => inferInstanceAs (Decidable data.BadConnect)

/-- The second half: the record, or a new one that is saved. -/
def finishUserData (initMode : UInt8) (boards : UserBoards) (found : Option UserData) :
    FlashProg UserData :=
  if ReadError found then do
    let _ ← yaSaveUserData boards (.init initMode)
    return .init initMode
  else
    return found.getD (.init initMode)

/-- `ya_read_user_data`: what it leaves in `ya_user_data`. -/
def yaReadUserData (initMode : UInt8) (boards : UserBoards) : FlashProg UserData := do
  finishUserData initMode boards (← readUserRecord boards)

/-! ## Slots -/

/-- What a reader with memory finds in a slot; `none` when it rejects the slot. -/
def slotRecord (m : ByteMem) (addr : Nat) : Option UserData :=
  ((yaReadFlashWithFixLen Board.zeroed addr sizeofUserData 1).run m).1.map .ofRecord

/-- What a reader finds does not depend on where its buffer lies. -/
theorem readFlashRecord_board {board board' : Board} (alloc : board.AllocOk)
    (alloc' : board'.AllocOk) (addr len : Nat) (block : UInt8) (fits : Nat → Bool) (m : ByteMem) :
    (readFlashRecord board addr len block fits).run m =
      (readFlashRecord board' addr len block fits).run m := by
  unfold readFlashRecord
  split
  next => rfl
  next =>
  split
  next => rfl
  next =>
  rw [run_bind, run_bind, yaHalFlashRead_run]
  dsimp only
  split
  next => rfl
  next =>
  split
  next => rfl
  next =>
  split
  next => rfl
  next =>
  obtain ⟨buf, found, -⟩ := alloc.block
    (recordAllocLen (((m.load addr 4).getD 1 0).toNat + ((m.load addr 4).getD 2 0).toNat <<< 8) + 4)
  obtain ⟨buf', found', -⟩ := alloc'.block
    (recordAllocLen (((m.load addr 4).getD 1 0).toNat + ((m.load addr 4).getD 2 0).toNat <<< 8) + 4)
  rw [found, found']

theorem yaReadFlashWithFixLen_readOnly (board : Board) (addr len : Nat) (block : UInt8) :
    (yaReadFlashWithFixLen board addr len block).ReadOnly :=
  (readFlashRecord_readOnly ..).bind fun _ => trivial

/-- A read of a slot, with memory. -/
theorem readSlot_run {board : Board} (alloc : board.AllocOk) (addr : Nat) (m : ByteMem) :
    ∃ stored, (yaReadFlashWithFixLen board addr sizeofUserData 1).run m = (stored, m) ∧
      stored.map UserData.ofRecord = slotRecord m addr := by
  have same : (yaReadFlashWithFixLen board addr sizeofUserData 1).run m =
      (yaReadFlashWithFixLen Board.zeroed addr sizeofUserData 1).run m := by
    rw [yaReadFlashWithFixLen, yaReadFlashWithFixLen, run_bind, run_bind,
      readFlashRecord_board alloc Board.zeroed_allocOk]
  refine ⟨((yaReadFlashWithFixLen Board.zeroed addr sizeofUserData 1).run m).1, ?_, rfl⟩
  rw [same]
  exact Prod.ext rfl ((yaReadFlashWithFixLen_readOnly _ _ _ _).run m)

/-- A reader that bounds the stored length looks at so many bytes only. -/
theorem readFlashRecord_congr (board : Board) (fits : Nat → Bool) {m m' : ByteMem}
    {addr size : Nat} (same : AgreeOn m m' addr size) (header : 4 ≤ size)
    (bounded : ∀ n, fits n = true → recordAllocLen n + 4 ≤ size) (len : Nat) (block : UInt8) :
    ((readFlashRecord board addr len block fits).run m).1 =
      ((readFlashRecord board addr len block fits).run m').1 := by
  have front : m.load addr 4 = m'.load addr 4 :=
    load_congr (same.sub (Nat.le_refl _) (Nat.add_le_add_left header addr))
  unfold readFlashRecord
  split
  next => rfl
  next =>
  split
  next => rfl
  next =>
  rw [run_bind, run_bind, yaHalFlashRead_run, yaHalFlashRead_run, front]
  dsimp only
  split
  next => rfl
  next =>
  split
  next => rfl
  next =>
  split
  next => rfl
  next fit =>
  have room := bounded _ (Bool.not_eq_false _ ▸ fit)
  split
  next => rfl
  next =>
  rw [run_bind, run_bind, yaHalFlashRead_run, yaHalFlashRead_run,
    load_congr (same.sub (Nat.le_refl _) (Nat.add_le_add_left room addr))]
  dsimp only
  split
  next => rfl
  next => split <;> rfl

/-- The reader without a capacity looks at one sector only. -/
theorem yaReadFlashWithFixLen_congr (board : Board) {m m' : ByteMem} {addr : Nat}
    (same : AgreeOn m m' addr spiflashSectorSize) (len : Nat) (block : UInt8) :
    ((yaReadFlashWithFixLen board addr len block).run m).1 =
      ((yaReadFlashWithFixLen board addr len block).run m').1 := by
  have bounded : ∀ n, decide (n ≤ maxDataLen - 10) = true →
      recordAllocLen n + 4 ≤ spiflashSectorSize := by
    intro n small
    have := of_decide_eq_true small
    unfold maxDataLen at this
    unfold recordAllocLen spiflashSectorSize
    omega
  have found := readFlashRecord_congr board (fun n => decide (n ≤ maxDataLen - 10)) same
    (by decide) bounded len block
  rw [yaReadFlashWithFixLen, run_bind, run_bind, run_pure, run_pure, found]

/-- A slot is read from its own sector. -/
theorem slotRecord_congr {m m' : ByteMem} {addr : Nat}
    (same : AgreeOn m m' addr spiflashSectorSize) : slotRecord m addr = slotRecord m' addr := by
  rw [slotRecord, slotRecord, yaReadFlashWithFixLen_congr _ same]

theorem take_ofRecord (data : UserData) : UserData.ofRecord (data.1.take sizeofUserData) = data := by
  have len := data.2
  have whole : data.1.take sizeofUserData = data.1 := List.take_of_length_le (Nat.le_of_eq len)
  apply Subtype.ext
  change (data.1.take sizeofUserData ++ _).take sizeofUserData = data.1
  rw [whole, List.take_append_of_le_length (Nat.le_of_eq len.symm), whole]

/-! ## Slot writes -/

/-- The two slots, each a sector of its own. -/
structure IsSlot (addr other : Nat) : Prop where
  aligned : addr % spiflashSectorSize = 0
  apart : other + spiflashSectorSize ≤ addr ∨ addr + spiflashSectorSize ≤ other

theorem mainSlot : IsSlot yaUserDataAddr yaUserDataBackAddr := ⟨by decide, .inr (by decide)⟩

theorem backSlot : IsSlot yaUserDataBackAddr yaUserDataAddr := ⟨by decide, .inl (by decide)⟩

section Write

variable {board : Board} {addr other : Nat} {data : UserData} {m c : ByteMem}

/-- A HAL write of at most a sector: one erase and one programming operation. -/
theorem yaHalFlashWrite_eq (board : Board) (aligned : addr % spiflashSectorSize = 0)
    {buf : List UInt8} (some : buf ≠ []) (fits : buf.length ≤ spiflashSectorSize) :
    yaHalFlashWrite board addr buf =
      .erase addr spiflashSectorSize (.program addr buf (.pure board.flashWriteResult)) := by
  have pos : 0 < buf.length := List.length_pos_iff.mpr some
  have one : sectorCount buf.length = 1 := by
    unfold sectorCount spiflashSectorSize at *
    split <;> omega
  rw [yaHalFlashWrite, yaHalFlashErase, one, yaHalFlashEraseLoop, halSpiflashErase,
    if_neg (by rw [Nat.mod_self]; omega), yaHalFlashEraseLoop, halSpifiashWrite, if_neg (by omega)]
  rfl

/-- The bytes of a slot, with what is left over in the buffer behind them. -/
def slotBytes (data : UserData) (block : List UInt8) : List UInt8 :=
  recordHeader data.1 ++ data.1 ++ block.drop (4 + data.1.length)

/-- A slot write with memory. -/
theorem yaWriteFlash_slot (data : UserData) (alloc : board.AllocOk) (slot : IsSlot addr other) :
    ∃ block, yaWriteFlash board addr data.1 1 =
      .erase addr spiflashSectorSize
        (.program addr (slotBytes data block) (.pure (some board.flashWriteResult))) ∧
      (slotBytes data block).length ≤ spiflashSectorSize := by
  have len := data.2
  obtain ⟨block, found, size⟩ := alloc.block (recordAllocLen data.1.length + 4)
  have total : (slotBytes data block).length = 572 := by
    simp only [slotBytes, List.length_append, length_recordHeader, List.length_drop, size, len]
    rfl
  have some : slotBytes data block ≠ [] := by
    intro none
    rw [none] at total
    cases total
  refine ⟨block, ?_, by rw [total]; decide⟩
  rw [yaWriteFlash, if_neg (by decide), if_neg (by rw [len]; decide), found]
  dsimp only
  rw [if_neg (by rw [size, len]; decide)]
  change (yaHalFlashWrite board addr (slotBytes data block) >>= fun ret =>
    Pure.pure (Option.some ret)) = _
  rw [yaHalFlashWrite_eq board slot.aligned some (by rw [total]; decide)]
  rfl

/-- A complete slot write: the record is in the slot, and the other slot is as it was. -/
theorem yaWriteFlash_slot_run (data : UserData) (alloc : board.AllocOk) (slot : IsSlot addr other)
    (m : ByteMem) :
    slotRecord ((yaWriteFlash board addr data.1 1).run m).2 addr = some data ∧
      slotRecord ((yaWriteFlash board addr data.1 1).run m).2 other = slotRecord m other := by
  have len := data.2
  obtain ⟨m', ran, stored, frame⟩ := yaWriteFlash_run alloc slot.aligned
    (show (1 : UInt8) ≠ 0 by decide) (by rw [len]; decide) (by rw [len]; decide)
    (show data.1.length < 65532 by rw [len]; decide) m
  rw [ran]
  constructor
  · rw [slotRecord, yaReadFlashWithFixLen_run Board.zeroed_allocOk stored
      (by rw [len]; decide) (by decide) (by decide) (by decide), if_pos (by rw [len]; decide)]
    exact congrArg some (take_ofRecord data)
  · refine (slotRecord_congr (frame other spiflashSectorSize ?_)).symm
    have one : sectorCount (recordAllocLen data.1.length + 4) = 1 := by rw [len]; decide
    rw [one, Nat.one_mul]
    exact slot.apart

/-- A power loss: between two operations, or inside one, which leaves a slot that is rejected. -/
def PowerLost {α : Type} (p : FlashProg α) (m c : ByteMem) : Prop :=
  c ∈ p.cuts m ∨ ∃ addr, p.torn m addr c ∧ slotRecord c addr = none

theorem PowerLost.bind {α β : Type} {p : FlashProg α} {f : α → FlashProg β}
    (lost : PowerLost (p >>= f) m c) :
    PowerLost p m c ∨ PowerLost (f (p.run m).1) (p.run m).2 c := by
  rcases lost with cut | ⟨addr, torn, rejected⟩
  · exact (mem_cuts_bind cut).imp .inl .inl
  · exact (torn_bind.mp torn).imp (fun first => .inr ⟨addr, first, rejected⟩)
      fun second => .inr ⟨addr, second, rejected⟩

theorem PowerLost.readOnly {α : Type} {p : FlashProg α} (reads : p.ReadOnly)
    (lost : PowerLost p m c) : c = m := by
  rcases lost with cut | ⟨addr, torn, -⟩
  · exact reads.cut cut
  · exact absurd torn reads.not_torn

theorem slotRecord_blank (blank : m addr ≠ 0xAA) : slotRecord m addr = none := by
  rw [slotRecord, yaReadFlashWithFixLen, run_bind, readFlashRecord_no_magic _ _ _ _ blank]
  rfl

theorem slotRecord_erased (m : ByteMem) (addr : Nat) :
    slotRecord (m.erase addr spiflashSectorSize) addr = none := by
  refine slotRecord_blank ?_
  rw [ByteMem.erase, if_pos ⟨Nat.le_refl _, by simp [spiflashSectorSize]⟩]
  decide

/-- A slot write that loses power: the other slot is as it was, and the slot is as it was, rejected,
or written. -/
theorem yaWriteFlash_slot_lost (alloc : board.AllocOk) (slot : IsSlot addr other)
    (lost : PowerLost (yaWriteFlash board addr data.1 1) m c) :
    slotRecord c other = slotRecord m other ∧
      (slotRecord c addr = slotRecord m addr ∨ slotRecord c addr = none ∨
        slotRecord c addr = some data) := by
  have apart := slot.apart
  obtain ⟨written, frame⟩ := yaWriteFlash_slot_run data alloc slot m
  obtain ⟨block, steps, fits⟩ := yaWriteFlash_slot data alloc slot
  rw [steps] at lost written frame
  have untouched : ∀ {c : ByteMem}, (∀ a, a < addr ∨ addr + spiflashSectorSize ≤ a → c a = m a) →
      slotRecord c other = slotRecord m other := by
    intro c same
    exact slotRecord_congr fun a low high => same a (by omega)
  have erased : ∀ a, a < addr ∨ addr + spiflashSectorSize ≤ a →
      m.erase addr spiflashSectorSize a = m a := by
    intro a outside
    rw [ByteMem.erase, if_neg (by omega)]
  rcases lost with cut | ⟨site, torn, rejected⟩
  · rcases List.mem_cons.mp cut with rfl | cut
    · exact ⟨rfl, .inl rfl⟩
    rcases List.mem_cons.mp cut with rfl | cut
    · exact ⟨untouched erased, .inr (.inl (slotRecord_erased m addr))⟩
    obtain rfl := List.mem_singleton.mp cut
    exact ⟨frame, .inr (.inr written)⟩
  · rcases torn with ⟨rfl, same⟩ | ⟨rfl, same⟩ | never
    · exact ⟨untouched same, .inr (.inl rejected)⟩
    · refine ⟨untouched fun a outside => ?_, .inr (.inl rejected)⟩
      rw [same a (by omega), erased a outside]
    · cases never

end Write

/-! ## Saves and reads -/

section Calls

variable {boards : UserBoards} {m c : ByteMem} {data r : UserData}

theorem yaSaveUserData_run (memory : boards.All Board.AllocOk) :
    slotRecord ((yaSaveUserData boards data).run m).2 yaUserDataAddr = some data := by
  obtain ⟨-, -, -, -, main⟩ := memory
  rw [yaSaveUserData, run_bind, run_bind]
  have written := (yaWriteFlash_slot_run data main mainSlot
    ((yaWriteFlash boards.saveBack yaUserDataBackAddr data.1 1).run m).2).1
  split <;> exact written

/-- A save that loses power leaves the record there was in the main slot, or the new one in the
main slot, or the new one in the backup and nothing in the main slot. -/
theorem yaSaveUserData_lost (memory : boards.All Board.AllocOk)
    (before : slotRecord m yaUserDataAddr = some r)
    (lost : PowerLost (yaSaveUserData boards data) m c) :
    slotRecord c yaUserDataAddr = some r ∨ slotRecord c yaUserDataAddr = some data ∨
      (slotRecord c yaUserDataAddr = none ∧ slotRecord c yaUserDataBackAddr = some data) := by
  obtain ⟨-, -, -, back, main⟩ := memory
  rcases lost.bind with first | lost
  · exact .inl ((yaWriteFlash_slot_lost back backSlot first).1.trans before)
  obtain ⟨backup, kept⟩ := yaWriteFlash_slot_run data back backSlot m
  rw [before] at kept
  rcases lost.bind with second | done
  · obtain ⟨backup', main'⟩ := yaWriteFlash_slot_lost main mainSlot second
    rw [backup] at backup'
    rcases main' with same | rejected | written
    · exact .inl (same.trans kept)
    · exact .inr (.inr ⟨rejected, backup'⟩)
    · exact .inr (.inl written)
  · have final := done.readOnly (by split <;> trivial)
    rw [final]
    exact .inr (.inl (yaWriteFlash_slot_run data main mainSlot _).1)

/-- The main slot is valid. -/
theorem readUserRecord_main (memory : boards.All Board.AllocOk)
    (main : slotRecord m yaUserDataAddr = some r) :
    (readUserRecord boards).run m = (some r, m) := by
  obtain ⟨stored, read, found⟩ := readSlot_run memory.1 yaUserDataAddr m
  rw [main] at found
  obtain ⟨bytes, rfl, rfl⟩ := Option.map_eq_some_iff.mp found
  rw [readUserRecord, run_bind, read]
  rfl

/-- Only the backup is. -/
theorem readUserRecord_back (memory : boards.All Board.AllocOk)
    (main : slotRecord m yaUserDataAddr = none)
    (back : slotRecord m yaUserDataBackAddr = some r) :
    ((readUserRecord boards).run m).1 = some r ∧
      slotRecord ((readUserRecord boards).run m).2 yaUserDataAddr = some r := by
  obtain ⟨readMain, readBack, repair, -⟩ := memory
  obtain ⟨stored, read, found⟩ := readSlot_run readMain yaUserDataAddr m
  obtain ⟨stored', read', found'⟩ := readSlot_run readBack yaUserDataBackAddr m
  rw [main] at found
  rw [back] at found'
  obtain rfl := Option.map_eq_none_iff.mp found
  obtain ⟨bytes, rfl, rfl⟩ := Option.map_eq_some_iff.mp found'
  rw [readUserRecord, run_bind, read]
  dsimp only
  rw [run_bind, read']
  dsimp only
  rw [run_bind, run_pure]
  exact ⟨rfl, (yaWriteFlash_slot_run _ repair mainSlot m).1⟩

theorem readUserRecord_main_lost (memory : boards.All Board.AllocOk)
    (main : slotRecord m yaUserDataAddr = some r) (lost : PowerLost (readUserRecord boards) m c) :
    c = m := by
  obtain ⟨stored, read, found⟩ := readSlot_run memory.1 yaUserDataAddr m
  rw [main] at found
  obtain ⟨bytes, rfl, rfl⟩ := Option.map_eq_some_iff.mp found
  rcases lost.bind with first | second
  · exact first.readOnly (yaReadFlashWithFixLen_readOnly _ _ _ _)
  · rw [read] at second
    refine second.readOnly ?_
    trivial

theorem readUserRecord_back_lost (memory : boards.All Board.AllocOk)
    (main : slotRecord m yaUserDataAddr = none) (back : slotRecord m yaUserDataBackAddr = some r)
    (lost : PowerLost (readUserRecord boards) m c) :
    slotRecord c yaUserDataBackAddr = some r ∧
      (slotRecord c yaUserDataAddr = none ∨ slotRecord c yaUserDataAddr = some r) := by
  obtain ⟨readMain, readBack, repair, -⟩ := memory
  obtain ⟨stored, read, found⟩ := readSlot_run readMain yaUserDataAddr m
  obtain ⟨stored', read', found'⟩ := readSlot_run readBack yaUserDataBackAddr m
  rw [main] at found
  rw [back] at found'
  obtain rfl := Option.map_eq_none_iff.mp found
  obtain ⟨bytes, rfl, rfl⟩ := Option.map_eq_some_iff.mp found'
  rcases lost.bind with first | lost
  · rw [first.readOnly (yaReadFlashWithFixLen_readOnly _ _ _ _)]
    exact ⟨back, .inl main⟩
  rw [read] at lost
  rcases lost.bind with first | lost
  · rw [first.readOnly (yaReadFlashWithFixLen_readOnly _ _ _ _)]
    exact ⟨back, .inl main⟩
  rw [read'] at lost
  rcases lost.bind with writing | done
  · obtain ⟨backup, slot⟩ := yaWriteFlash_slot_lost repair mainSlot writing
    rw [main] at slot
    refine ⟨backup.trans back, ?_⟩
    rcases slot with same | rejected | written
    · exact .inl same
    · exact .inl rejected
    · exact .inr written
  · obtain ⟨written, backup⟩ := yaWriteFlash_slot_run (.ofRecord bytes) repair mainSlot m
    obtain rfl := done.readOnly (by trivial)
    exact ⟨backup.trans back, .inr written⟩

end Calls

/-! ## Runs -/

/-- The flash, with the record of the last save that was completed (or that a read has found since)
and the record of a save that a power loss has interrupted since. Without power, or before the
device has read its user data again, `running` is false. -/
structure UserWorld where
  flash : ByteMem
  last : UserData
  saving : Option UserData
  running : Bool

/-- The states of the device, with flash calls that all find memory of a `kind`. A start finds a
record in the main slot; a save comes after a read. -/
inductive UserRun (kind : Board → Prop) (initMode : UInt8) : UserWorld → Prop
  | start {m : ByteMem} {r : UserData} (valid : slotRecord m yaUserDataAddr = some r) :
      UserRun kind initMode ⟨m, r, none, true⟩
  | save {w : UserWorld} (before : UserRun kind initMode w) (on : w.running = true)
      {boards : UserBoards} (memory : boards.All kind) (data : UserData) :
      UserRun kind initMode ⟨((yaSaveUserData boards data).run w.flash).2, data, none, true⟩
  | saveLost {w : UserWorld} (before : UserRun kind initMode w) (on : w.running = true)
      {boards : UserBoards} (memory : boards.All kind) {data : UserData} {c : ByteMem}
      (lost : PowerLost (yaSaveUserData boards data) w.flash c) :
      UserRun kind initMode ⟨c, w.last, some data, false⟩
  | read {w : UserWorld} (before : UserRun kind initMode w) {boards : UserBoards}
      (memory : boards.All kind) :
      UserRun kind initMode ⟨((yaReadUserData initMode boards).run w.flash).2,
        ((yaReadUserData initMode boards).run w.flash).1, none, true⟩
  | readLost {w : UserWorld} (before : UserRun kind initMode w) {boards : UserBoards}
      (memory : boards.All kind) {c : ByteMem}
      (lost : PowerLost (readUserRecord boards) w.flash c) :
      UserRun kind initMode ⟨c, w.last, w.saving, false⟩
  | initLost {w : UserWorld} (before : UserRun kind initMode w) {boards : UserBoards}
      (memory : boards.All kind) (error : ReadError ((readUserRecord boards).run w.flash).1)
      {c : ByteMem}
      (lost : PowerLost (yaSaveUserData boards (.init initMode))
        ((readUserRecord boards).run w.flash).2 c) :
      UserRun kind initMode ⟨c, ((readUserRecord boards).run w.flash).1.getD w.last,
        some (.init initMode), false⟩

/-- What the slots have to give: one of them is valid, and a read finds, whole, the record of the
last save or of the interrupted one, and starts afresh only when that record cannot be used. -/
def UserWorld.Safe (kind : Board → Prop) (initMode : UInt8) (w : UserWorld) : Prop :=
  (slotRecord w.flash yaUserDataAddr ≠ none ∨ slotRecord w.flash yaUserDataBackAddr ≠ none) ∧
    ∀ boards : UserBoards, boards.All kind →
      ∃ r, (r = w.last ∨ w.saving = some r) ∧
        ((readUserRecord boards).run w.flash).1 = some r ∧
        ((yaReadUserData initMode boards).run w.flash).1 =
          if r.BadConnect then .init initMode else r

/-- Between two calls: the last record is in the main slot; after a power loss it may be the new
one, or the new one in the backup alone. -/
def UserWorld.Ready (w : UserWorld) : Prop :=
  if w.running then
    slotRecord w.flash yaUserDataAddr = some w.last ∧ w.saving = none
  else
    (∃ r, slotRecord w.flash yaUserDataAddr = some r ∧ (r = w.last ∨ w.saving = some r)) ∨
      (slotRecord w.flash yaUserDataAddr = none ∧
        ∃ r, slotRecord w.flash yaUserDataBackAddr = some r ∧ w.saving = some r)

section Runs

variable {initMode : UInt8} {w : UserWorld} {boards : UserBoards}

/-- The two shapes of a state, whether it runs or not. -/
theorem UserWorld.Ready.slots (ready : w.Ready) :
    (∃ r, slotRecord w.flash yaUserDataAddr = some r ∧ (r = w.last ∨ w.saving = some r)) ∨
      (slotRecord w.flash yaUserDataAddr = none ∧
        ∃ r, slotRecord w.flash yaUserDataBackAddr = some r ∧ w.saving = some r) := by
  unfold Ready at ready
  split at ready
  · exact .inl ⟨w.last, ready.1, .inl rfl⟩
  · exact ready

/-- What a read finds, and that it is in the main slot afterwards. -/
theorem UserWorld.Ready.found (ready : w.Ready) (memory : boards.All Board.AllocOk) :
    ∃ r, (r = w.last ∨ w.saving = some r) ∧ ((readUserRecord boards).run w.flash).1 = some r ∧
      slotRecord ((readUserRecord boards).run w.flash).2 yaUserDataAddr = some r := by
  rcases ready.slots with ⟨r, main, which⟩ | ⟨main, r, back, which⟩
  · refine ⟨r, which, ?_, ?_⟩ <;> rw [readUserRecord_main memory main]
    exact main
  · obtain ⟨found, repaired⟩ := readUserRecord_back memory main back
    exact ⟨r, .inr which, found, repaired⟩

/-- The second half of a read, on a record in the main slot. -/
theorem finishUserData_run (memory : boards.All Board.AllocOk) {m : ByteMem} {r : UserData}
    (main : slotRecord m yaUserDataAddr = some r) :
    ((finishUserData initMode boards (some r)).run m).1 =
        (if r.BadConnect then .init initMode else r) ∧
      slotRecord ((finishUserData initMode boards (some r)).run m).2 yaUserDataAddr =
        some ((finishUserData initMode boards (some r)).run m).1 := by
  unfold finishUserData
  by_cases bad : ReadError (some r)
  · have saved : slotRecord ((yaSaveUserData boards (.init initMode)).run m).2 yaUserDataAddr =
        some (.init initMode) := yaSaveUserData_run memory
    rw [if_pos bad, if_pos (show r.BadConnect from bad), run_bind]
    exact ⟨rfl, saved⟩
  · rw [if_neg bad, if_neg (show ¬ r.BadConnect from bad)]
    exact ⟨rfl, main⟩

theorem UserWorld.Ready.safe (ready : w.Ready) : w.Safe Board.AllocOk initMode := by
  refine ⟨?_, fun boards memory => ?_⟩
  · rcases ready.slots with ⟨r, main, -⟩ | ⟨-, r, back, -⟩
    · exact .inl (by simp [main])
    · exact .inr (by simp [back])
  · obtain ⟨r, which, found, main⟩ := ready.found memory
    refine ⟨r, which, found, ?_⟩
    rw [yaReadUserData, run_bind, found]
    exact (finishUserData_run memory main).1

/-- The invariant of runs with memory. -/
theorem UserRun.ready (run : UserRun Board.AllocOk initMode w) : w.Ready := by
  induction run with
  | start valid => exact ⟨valid, rfl⟩
  | save before on memory data ih => exact ⟨yaSaveUserData_run memory, rfl⟩
  | saveLost before on memory lost ih =>
    rw [UserWorld.Ready, if_pos on] at ih
    rcases yaSaveUserData_lost memory ih.1 lost with old | new | backup
    · exact .inl ⟨_, old, .inl rfl⟩
    · exact .inl ⟨_, new, .inr rfl⟩
    · exact .inr ⟨backup.1, _, backup.2, rfl⟩
  | read before memory ih =>
    obtain ⟨r, -, found, main⟩ := ih.found memory
    refine ⟨?_, rfl⟩
    dsimp only
    rw [yaReadUserData, run_bind, found]
    exact (finishUserData_run memory main).2
  | readLost before memory lost ih =>
    rcases ih.slots with ⟨r, main, which⟩ | ⟨main, r, back, which⟩
    · obtain rfl := readUserRecord_main_lost memory main lost
      exact .inl ⟨r, main, which⟩
    · obtain ⟨back', main' | main'⟩ := readUserRecord_back_lost memory main back lost
      · exact .inr ⟨main', r, back', which⟩
      · exact .inl ⟨r, main', .inr which⟩
  | initLost before memory error lost ih =>
    obtain ⟨r, -, found, main⟩ := ih.found memory
    rw [found]
    rcases yaSaveUserData_lost memory main lost with old | new | backup
    · exact .inl ⟨_, old, .inl rfl⟩
    · exact .inl ⟨_, new, .inr rfl⟩
    · exact .inr ⟨backup.1, _, backup.2, rfl⟩

/-- With memory at every flash call, user data survives any number of power losses. -/
theorem userData_survives (run : UserRun Board.AllocOk initMode w) :
    w.Safe Board.AllocOk initMode :=
  run.ready.safe

end Runs

/-! ## Out of memory -/

/-- A board without memory. -/
def Board.exhausted : Board where
  memoryAlloc _ := none
  memoryAlloc_length := by simp
  flashWriteResult := 0

/-- Without memory every record is rejected. -/
theorem readFlashRecord_exhausted (m : ByteMem) (addr len : Nat) (block : UInt8)
    (fits : Nat → Bool) :
    (readFlashRecord Board.exhausted addr len block fits).run m = (none, m) := by
  unfold readFlashRecord
  split
  next => rfl
  next =>
  split
  next => rfl
  next =>
  rw [run_bind, yaHalFlashRead_run]
  dsimp only
  split
  next => rfl
  next =>
  split
  next => rfl
  next => split <;> rfl

/-- The same board for all calls. -/
def UserBoards.const (board : Board) : UserBoards := ⟨board, board, board, board, board⟩

theorem UserBoards.const_all {kind : Board → Prop} {board : Board} (fits : kind board) :
    (UserBoards.const board).All kind :=
  ⟨fits, fits, fits, fits, fits⟩

/-- A record for idle mode. -/
def idleUserData : UserData := .init 3

/-- A chip with that record in the main slot and nothing else. -/
def idleFlash : ByteMem :=
  ((yaWriteFlash Board.zeroed yaUserDataAddr idleUserData.1 1).run fun _ => 0xFF).2

theorem idleFlash_main : slotRecord idleFlash yaUserDataAddr = some idleUserData :=
  (yaWriteFlash_slot_run idleUserData Board.zeroed_allocOk mainSlot _).1

/-- A save that loses power while it erases the main slot, and leaves zeros there. -/
theorem userData_survives_torn : ∃ c, slotRecord c yaUserDataAddr = none ∧
    UserRun Board.AllocOk 1 ⟨c, idleUserData, some (.init 1), false⟩ ∧
    UserWorld.Safe Board.AllocOk 1 ⟨c, idleUserData, some (.init 1), false⟩ := by
  have memory := UserBoards.const_all Board.zeroed_allocOk
  generalize saved :
    ((yaWriteFlash Board.zeroed yaUserDataBackAddr (UserData.init 1).1 1).run idleFlash).2 = m
  let c : ByteMem := fun a =>
    if yaUserDataAddr ≤ a ∧ a < yaUserDataAddr + spiflashSectorSize then 0 else m a
  have rejected : slotRecord c yaUserDataAddr = none := by
    refine slotRecord_blank ?_
    rw [show c yaUserDataAddr = 0 from if_pos ⟨Nat.le_refl _, by decide⟩]
    decide
  have lost : PowerLost (yaSaveUserData (.const Board.zeroed) (.init 1)) idleFlash c := by
    obtain ⟨block, steps, -⟩ := yaWriteFlash_slot (.init 1) Board.zeroed_allocOk mainSlot
    refine .inr ⟨yaUserDataAddr, torn_bind.mpr (.inr (torn_bind.mpr (.inl ?_))), rejected⟩
    rw [UserBoards.const, saved, steps]
    exact .inl ⟨rfl, fun a outside => if_neg (by omega)⟩
  have run : UserRun Board.AllocOk 1 ⟨c, idleUserData, some (.init 1), false⟩ :=
    .saveLost (.start idleFlash_main) rfl memory lost
  exact ⟨c, rejected, run, userData_survives run⟩

/-- A read without memory takes neither slot and throws the record away. -/
theorem userData_exhausted_lost : ¬ ∀ w, UserRun (fun _ => True) 1 w → w.Safe (fun _ => True) 1 := by
  intro safe
  obtain ⟨r, -, found, -⟩ := (safe _ (.start idleFlash_main)).2 (.const Board.exhausted)
    (UserBoards.const_all trivial)
  have main := readFlashRecord_exhausted idleFlash yaUserDataAddr sizeofUserData 1
    fun totalLen => decide (totalLen ≤ maxDataLen - 10)
  have back := readFlashRecord_exhausted idleFlash yaUserDataBackAddr sizeofUserData 1
    fun totalLen => decide (totalLen ≤ maxDataLen - 10)
  rw [readUserRecord, run_bind, yaReadFlashWithFixLen, run_bind, UserBoards.const, main] at found
  dsimp only at found
  rw [run_pure] at found
  dsimp only [Option.map_none] at found
  rw [run_bind, yaReadFlashWithFixLen, run_bind, back] at found
  cases found

end Tr6260
