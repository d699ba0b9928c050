import Tr6260.Ota.Hal

/-!
# What the OTA writer does with a package that fits

A package of `size` bytes in a partition of `len` bytes lies right below the two
state sectors, at `OtaPlace.start`. `fresh` and `placed` are the only values of
`g_otaInfo` between `otaHal_init` and the end of such a package: before its
first frame, and with the first `k` bytes written.
-/

namespace Tr6260

open FlashProg ByteMem

/-- An OTA partition: whole sectors, inside the address space. -/
structure OtaPlace where
  base : Nat
  len : Nat
  aligned : base % spiflashSectorSize = 0
  whole : len % spiflashSectorSize = 0
  bound : base + len < 2 ^ 32

namespace OtaPlace

variable (place : OtaPlace)

/-- The entry of the partition table. -/
def entry : OtaPartition := some (place.base, place.len)

/-- The sectors a package takes. -/
def sectors (size : Nat) : Nat := (size + 4095) / 4096 * 4096

/-- A package of this size fits in front of the state sectors. -/
def Fits (size : Nat) : Prop := sectors size + 8192 ≤ place.len

/-- Where a package of this size goes. -/
def start (size : Nat) : Nat := place.base + place.len - sectors size - 8192

/-- `g_otaInfo` after `otaHal_init`. -/
def fresh : OtaOperateInfo where
  init := true
  getFirstFrame := false
  sAddr := place.base
  eAddr := place.base + place.len
  offset := 0
  maxLen := place.len
  dataLen := 0

/-- `g_otaInfo` with `k` bytes of a package of `size` bytes written. -/
def placed (size k : Nat) : OtaOperateInfo where
  init := true
  getFirstFrame := true
  sAddr := place.start size
  eAddr := place.base + place.len
  offset := k
  maxLen := place.len
  dataLen := size

theorem fresh_getFirstFrame : ¬ place.fresh.getFirstFrame = true := Bool.false_ne_true

variable {place}

theorem le_sectors (size : Nat) : size ≤ sectors size := by
  unfold sectors
  omega

theorem Fits.start_add {size : Nat} (fits : place.Fits size) :
    place.start size + sectors size + 8192 = place.base + place.len := by
  unfold Fits at fits
  unfold start
  omega

/-- The package lies in the partition and in front of the state sectors. -/
theorem Fits.start_inside {size : Nat} (fits : place.Fits size) :
    place.base ≤ place.start size ∧ place.start size + size + 8192 ≤ place.base + place.len := by
  have room := fits.start_add
  have whole := le_sectors size
  unfold Fits at fits
  omega

theorem Fits.alignFileLen_eq {size : Nat} (fits : place.Fits size) :
    alignFileLen size = sectors size := by
  have bound := place.bound
  unfold Fits sectors at fits
  unfold alignFileLen sectors u32 otaStatPartSize
  split <;> omega

end OtaPlace

/-- `data_ota` of the partition table `TR6260_partition_ali_0x6000_diff.bin`. -/
def dataOta : OtaPlace where
  base := 0xB6000
  len := 0x45000
  aligned := by decide
  whole := by decide
  bound := by decide

section Specs

variable {place : OtaPlace} {size : Nat}

theorem u32_of_lt {n : Nat} (small : n < 2 ^ 32) : u32 n = n := Nat.mod_eq_of_lt small

/-- `otaHal_init` erases the partition. -/
theorem otaHalInit_run (place : OtaPlace) (m : ByteMem) :
    (otaHalInit place.entry).run m = ((0, place.fresh), m.erase place.base place.len) := by
  have bound := place.bound
  unfold otaHalInit OtaPlace.entry
  dsimp only
  rw [run_bind, halSpiflashErase_run_aligned place.aligned place.whole]
  simp only [ne_eq, not_true_eq_false, ↓reduceIte, run_pure, u32_of_lt bound]
  rfl

theorem otaHalInit_writes (place : OtaPlace) (m : ByteMem) :
    (otaHalInit place.entry).writes m = [] := by
  unfold otaHalInit OtaPlace.entry halSpiflashErase
  dsimp only
  rw [if_neg (by have := place.aligned; have := place.whole; omega)]
  rfl

/-- Bytes that stay inside the package go behind the ones before. -/
theorem otaHalAppend_eq (fits : place.Fits size) {k : Nat} {data : List UInt8}
    (inside : k + data.length ≤ size) :
    otaHalAppend (place.placed size k) data =
      (halSpifiashWrite (place.start size + k) data >>= fun _ =>
        Pure.pure (0, place.placed size (k + data.length))) := by
  have bound := place.bound
  have room := fits.start_add
  have whole := OtaPlace.le_sectors size
  unfold otaHalAppend
  have offset : (place.placed size k).offset = k := rfl
  have sAddr : (place.placed size k).sAddr = place.start size := rfl
  have dataLen : (place.placed size k).dataLen = size := rfl
  rw [offset, sAddr, dataLen, u32_of_lt (by omega), u32_of_lt (by omega), if_neg (by omega)]
  rfl

/-- A first frame without a whole header is refused. -/
theorem otaHalWrite_short {data : List UInt8} (short : data.length < sizeofOtaPkgHeader) :
    otaHalWrite place.fresh data = Pure.pure (-1, place.fresh) := by
  unfold otaHalWrite
  rw [if_neg place.fresh_getFirstFrame, if_pos short]

/-- A first frame with the header of a package that fits. -/
theorem otaHalWrite_first (fits : place.Fits size) {data : List UInt8}
    (header : sizeofOtaPkgHeader ≤ data.length) (announced : pkgSize data = size) :
    otaHalWrite place.fresh data = otaHalAppend (place.placed size 0) data := by
  have bound := place.bound
  have room := fits.start_add
  have aligned := fits.alignFileLen_eq
  have first : place.fresh.firstFrame data = place.placed size 0 := by
    unfold OtaOperateInfo.firstFrame OtaPlace.fresh OtaPlace.placed
    simp only [announced, aligned, OtaOperateInfo.mk.injEq, true_and, and_true]
    unfold u32 otaStatPartSize OtaPlace.start
    omega
  unfold otaHalWrite
  rw [if_neg place.fresh_getFirstFrame, if_neg (Nat.not_lt.mpr header), announced, aligned, first,
    if_neg]
  have maxLen : place.fresh.maxLen = place.len := rfl
  unfold OtaPlace.Fits at fits
  unfold otaStatPartSize
  rw [maxLen, u32_of_lt (by omega)]
  omega

/-- Later frames. -/
theorem otaHalWrite_next (k : Nat) (data : List UInt8) :
    otaHalWrite (place.placed size k) data = otaHalAppend (place.placed size k) data := rfl

end Specs

theorem le32At_lt (bs : List UInt8) (i : Nat) : le32At bs i < 2 ^ 32 := by
  have byte (k : Nat) : (bs.getD k 0).toNat < 256 := UInt8.toNat_lt _
  have := byte i
  have := byte (i + 1)
  have := byte (i + 2)
  have := byte (i + 3)
  unfold le32At
  omega

/-- The header of a package is within its first 64 bytes. -/
theorem pkgSize_append {data : List UInt8} (header : sizeofOtaPkgHeader ≤ data.length)
    (rest : List UInt8) : pkgSize (data ++ rest) = pkgSize data := by
  unfold sizeofOtaPkgHeader at header
  unfold pkgSize le32At
  rw [List.getD_append _ _ _ _ (by omega), List.getD_append _ _ _ _ (by omega),
    List.getD_append _ _ _ _ (by omega), List.getD_append _ _ _ _ (by omega)]

end Tr6260
