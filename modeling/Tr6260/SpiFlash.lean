import Tr6260.FlashProg

/-!
# The SPI flash driver and the flash HAL of the application

`hal_spiflash.c` seen by its callers, with a device that always reports ready:
reads return the stored bytes, writes program them, erases take whole sectors
and refuse unaligned arguments. `ya_hal_flash.c` sits on top of it.

`ya_hal_flash_write` ends without a `return` on its successful path, so its
result there is whatever the caller finds in the result register. The `Board`
record carries that value, together with the allocator: neither is decided by
the code modelled here.
-/

namespace Tr6260

open FlashProg

/-- Bytes of one erase sector (`SPIFLASH_SECTOR_SIZE`). -/
def spiflashSectorSize : Nat := 0x1000

/-- `hal_spiflash_read`: result code and bytes. -/
def halSpiflashRead (addr len : Nat) : FlashProg (Int × List UInt8) := do
  let bs ← readOp addr len
  return (0, bs)

/-- `hal_spifiash_write` (the driver's spelling). -/
def halSpifiashWrite (addr : Nat) (buf : List UInt8) : FlashProg Int :=
  if buf.length = 0 then
    return 0
  else do
    programOp addr buf
    return 0

/-- `hal_spiflash_erase`. -/
def halSpiflashErase (addr len : Nat) : FlashProg Int :=
  if addr % spiflashSectorSize ≠ 0 ∨ len % spiflashSectorSize ≠ 0 then
    return -23
  else do
    eraseOp addr len
    return 0

/-- What the flash layer takes from its surroundings. -/
structure Board where
  /-- `ya_hal_os_memory_alloc`: `NULL`, or a block with its previous content. -/
  memoryAlloc : Nat → Option (List UInt8)
  memoryAlloc_length : ∀ size block, memoryAlloc size = some block → block.length = size
  /-- The result of a `ya_hal_flash_write` that runs off its end. -/
  flashWriteResult : Int

/-- Allocation succeeds. -/
def Board.AllocOk (board : Board) : Prop := ∀ size, (board.memoryAlloc size).isSome

theorem Board.AllocOk.block {board : Board} (ok : board.AllocOk) (size : Nat) :
    ∃ block, board.memoryAlloc size = some block ∧ block.length = size := by
  obtain ⟨block, found⟩ := Option.isSome_iff_exists.mp (ok size)
  exact ⟨block, found, board.memoryAlloc_length size block found⟩

/-- A board whose allocator returns zeroed blocks and whose `ya_hal_flash_write`
leaves `0` in the result register. -/
def Board.zeroed : Board where
  memoryAlloc size := some (List.replicate size 0)
  memoryAlloc_length size block found := by
    rw [← Option.some.inj found, List.length_replicate]
  flashWriteResult := 0

theorem Board.zeroed_allocOk : Board.zeroed.AllocOk := fun _ => rfl

/-- `ya_hal_flash_read`. -/
def yaHalFlashRead (flashAddr dataLen : Nat) : FlashProg (Int × List UInt8) :=
  halSpiflashRead flashAddr dataLen

/-- The loop of `ya_hal_flash_erase`, `count` sectors to go. -/
def yaHalFlashEraseLoop (flashAddr : Nat) : Nat → FlashProg Int
  | 0 => return 0
  | count + 1 => do
    let ret ← halSpiflashErase flashAddr spiflashSectorSize
    if ret ≠ 0 then
      return -1
    else
      yaHalFlashEraseLoop (flashAddr + spiflashSectorSize) count

/-- Sectors needed for `size` bytes, rounded up. -/
def sectorCount (size : Nat) : Nat :=
  size / spiflashSectorSize + if size % spiflashSectorSize > 0 then 1 else 0

/-- `ya_hal_flash_erase`. -/
def yaHalFlashErase (flashAddr size : Nat) : FlashProg Int :=
  yaHalFlashEraseLoop flashAddr (sectorCount size)

/-- `ya_hal_flash_write`. -/
def yaHalFlashWrite (board : Board) (flashAddr : Nat) (data : List UInt8) : FlashProg Int := do
  let ret ← yaHalFlashErase flashAddr data.length
  if ret ≠ 0 then
    return -1
  else
    let ret ← halSpifiashWrite flashAddr data
    if ret ≠ 0 then
      return -1
    else
      return board.flashWriteResult

/-! ## Driver specifications -/

@[simp] theorem halSpiflashRead_run (addr len : Nat) (m : ByteMem) :
    (halSpiflashRead addr len).run m = ((0, m.load addr len), m) := rfl

@[simp] theorem yaHalFlashRead_run (addr len : Nat) (m : ByteMem) :
    (yaHalFlashRead addr len).run m = ((0, m.load addr len), m) := rfl

@[simp] theorem halSpifiashWrite_run (addr : Nat) (buf : List UInt8) (m : ByteMem) :
    (halSpifiashWrite addr buf).run m = (0, m.program addr buf) := by
  unfold halSpifiashWrite
  split
  next empty =>
    rw [List.length_eq_zero_iff.mp empty, ByteMem.program_nil]
    rfl
  next => rfl

theorem halSpifiashWrite_writes (addr : Nat) {buf : List UInt8} (some : buf ≠ []) (m : ByteMem) :
    (halSpifiashWrite addr buf).writes m = [(addr, buf)] := by
  rw [halSpifiashWrite, if_neg (fun empty => some (List.length_eq_zero_iff.mp empty))]
  rfl

theorem halSpiflashErase_run_aligned {addr len : Nat} (aligned : addr % spiflashSectorSize = 0)
    (whole : len % spiflashSectorSize = 0) (m : ByteMem) :
    (halSpiflashErase addr len).run m = (0, m.erase addr len) := by
  rw [halSpiflashErase, if_neg (by omega)]
  rfl

theorem halSpiflashErase_run_unaligned {addr len : Nat} (off : addr % spiflashSectorSize ≠ 0)
    (m : ByteMem) : (halSpiflashErase addr len).run m = (-23, m) := by
  rw [halSpiflashErase, if_pos (Or.inl off)]
  rfl

/-- A driver read followed by `f` is `f` on the bytes stored. -/
theorem halSpiflashRead_bind {α : Type} (addr len : Nat) (f : Int × List UInt8 → FlashProg α)
    (m : ByteMem) : EqAt m (halSpiflashRead addr len >>= f) (f (0, m.load addr len)) :=
  ⟨rfl, rfl⟩

theorem halSpifiashWrite_cuts (addr : Nat) (buf : List UInt8) {m c : ByteMem}
    (cut : c ∈ (halSpifiashWrite addr buf).cuts m) : c = m ∨ c = m.program addr buf := by
  unfold halSpifiashWrite at cut
  split at cut
  next => exact .inl (List.mem_singleton.mp cut)
  next => exact List.mem_pair.mp cut

/-- Crash rule for a driver write. -/
theorem halSpifiashWrite_triple {pre crash : ByteMem → Prop} {post : Int → ByteMem → Prop}
    {addr : Nat} {buf : List UInt8} (ends : ∀ m, pre m → post 0 (m.program addr buf))
    (before : ∀ m, pre m → crash m) (after : ∀ m, post 0 m → crash m) :
    Triple pre (halSpifiashWrite addr buf) post crash := by
  intro m start
  rw [halSpifiashWrite_run]
  refine ⟨ends m start, fun c cut => ?_⟩
  rcases halSpifiashWrite_cuts addr buf cut with rfl | rfl
  · exact before _ start
  · exact after _ (ends m start)

/-- Crash rule for an aligned driver erase. -/
theorem halSpiflashErase_triple {pre crash : ByteMem → Prop} {post : Int → ByteMem → Prop}
    {addr len : Nat} (aligned : addr % spiflashSectorSize = 0)
    (whole : len % spiflashSectorSize = 0) (ends : ∀ m, pre m → post 0 (m.erase addr len))
    (before : ∀ m, pre m → crash m) (after : ∀ m, post 0 m → crash m) :
    Triple pre (halSpiflashErase addr len) post crash := by
  intro m start
  rw [halSpiflashErase_run_aligned aligned whole]
  refine ⟨ends m start, fun c cut => ?_⟩
  rw [halSpiflashErase, if_neg (by omega)] at cut
  rcases List.mem_pair.mp (show c ∈ [m, m.erase addr len] from cut) with rfl | rfl
  · exact before _ start
  · exact after _ (ends m start)

theorem le_sectorCount_mul (size : Nat) : size ≤ sectorCount size * spiflashSectorSize := by
  unfold sectorCount spiflashSectorSize
  split <;> omega

theorem sectorCount_pos {size : Nat} (pos : 0 < size) : 0 < sectorCount size := by
  unfold sectorCount spiflashSectorSize
  split <;> omega

/-- Erasing `count` sectors at an aligned address succeeds, blanks all of them and
touches nothing else. -/
theorem yaHalFlashEraseLoop_run {addr : Nat} (aligned : addr % spiflashSectorSize = 0)
    (count : Nat) (m : ByteMem) :
    (yaHalFlashEraseLoop addr count).run m = (0, m.erase addr (count * spiflashSectorSize)) := by
  induction count generalizing addr m with
  | zero =>
    refine Prod.ext rfl (funext fun a => ?_)
    change m a = ByteMem.erase m addr (0 * spiflashSectorSize) a
    rw [ByteMem.erase, if_neg (by omega)]
  | succ count ih =>
    rw [yaHalFlashEraseLoop, run_bind, halSpiflashErase_run_aligned aligned (Nat.mod_self _)]
    simp only [ne_eq, not_true_eq_false, ↓reduceIte]
    rw [ih (by rw [Nat.add_mod_right]; exact aligned)]
    rw [ByteMem.erase_erase_adjacent, Nat.succ_mul, Nat.add_comm (count * _)]

theorem yaHalFlashEraseLoop_run_unaligned {addr : Nat} (off : addr % spiflashSectorSize ≠ 0)
    {count : Nat} (pos : 0 < count) (m : ByteMem) :
    (yaHalFlashEraseLoop addr count).run m = (-1, m) := by
  cases count with
  | zero => cases pos
  | succ count =>
    rw [yaHalFlashEraseLoop, run_bind, halSpiflashErase_run_unaligned off]
    rfl

theorem yaHalFlashErase_run {addr : Nat} (aligned : addr % spiflashSectorSize = 0)
    (size : Nat) (m : ByteMem) :
    (yaHalFlashErase addr size).run m =
      (0, m.erase addr (sectorCount size * spiflashSectorSize)) :=
  yaHalFlashEraseLoop_run aligned _ m

/-- A write at an aligned address leaves exactly its bytes behind, over blank
rounding space. -/
theorem yaHalFlashWrite_run (board : Board) {addr : Nat}
    (aligned : addr % spiflashSectorSize = 0) (data : List UInt8) (m : ByteMem) :
    (yaHalFlashWrite board addr data).run m =
      (board.flashWriteResult,
        (m.erase addr (sectorCount data.length * spiflashSectorSize)).program addr data) := by
  rw [yaHalFlashWrite, run_bind, yaHalFlashErase_run aligned]
  simp only [ne_eq, not_true_eq_false, ↓reduceIte]
  rw [run_bind, halSpifiashWrite_run]
  rfl

theorem yaHalFlashWrite_run_unaligned (board : Board) {addr : Nat}
    (off : addr % spiflashSectorSize ≠ 0) {data : List UInt8} (pos : 0 < data.length)
    (m : ByteMem) : (yaHalFlashWrite board addr data).run m = (-1, m) := by
  rw [yaHalFlashWrite, run_bind, yaHalFlashErase,
    yaHalFlashEraseLoop_run_unaligned off (sectorCount_pos pos)]
  rfl

/-- The bytes just written by the HAL can be read back. -/
theorem written_holds (m : ByteMem) (addr : Nat) (data : List UInt8) :
    ((m.erase addr (sectorCount data.length * spiflashSectorSize)).program addr data).Holds
      addr data :=
  ByteMem.program_holds ((ByteMem.erase_erased m addr _).sub (Nat.le_refl _)
    (Nat.add_le_add_left (le_sectorCount_mul data.length) addr))

end Tr6260
