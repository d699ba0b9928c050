import Mathlib.Tactic.Linarith
import Tr6260.OtaHal.Image

/-!
# Which images are accepted

A session is the calls of `otaHal_write` behind an `otaHal_init`. While what was taken
fits the partition it stands there as it came in, and `otaHal_done` reads it back; the
first write that does not fit goes out of the partition.
-/

namespace Tr6260

open FlashProg ByteMem

namespace OtaHal

/-! ## Numbers of four bytes -/

theorem or_shiftLeft {a b k : Nat} (small : b < 2 ^ k) : a <<< k ||| b = a * 2 ^ k + b := by
  rw [Nat.shiftLeft_eq, Nat.mul_comm, Nat.two_pow_add_eq_or_of_lt small]

theorem beWord_eq (b0 b1 b2 b3 : UInt8) :
    beWord b0 b1 b2 b3 =
      b0.toNat * 16777216 + b1.toNat * 65536 + b2.toNat * 256 + b3.toNat := by
  have h0 := b0.toNat_lt
  have h1 := b1.toNat_lt
  have h2 := b2.toNat_lt
  have h3 := b3.toNat_lt
  have low : b2.toNat <<< 8 ||| b3.toNat = b2.toNat * 256 + b3.toNat := or_shiftLeft h3
  have mid : b1.toNat <<< 16 ||| (b2.toNat * 256 + b3.toNat) =
      b1.toNat * 65536 + (b2.toNat * 256 + b3.toNat) := or_shiftLeft (by omega)
  have high : b0.toNat <<< 24 ||| (b1.toNat * 65536 + (b2.toNat * 256 + b3.toNat)) =
      b0.toNat * 16777216 + (b1.toNat * 65536 + (b2.toNat * 256 + b3.toNat)) :=
    or_shiftLeft (by omega)
  rw [beWord, Nat.or_assoc, Nat.or_assoc, low, mid, high]
  omega

/-- A byte cut out by a mask. -/
theorem and_byteMask (n k : Nat) : n &&& 255 <<< k = (n / 2 ^ k % 256) <<< k := by
  have mask : (255 : Nat) = 2 ^ 8 - 1 := rfl
  apply Nat.eq_of_testBit_eq
  intro i
  rw [Nat.testBit_and, Nat.testBit_shiftLeft, Nat.testBit_shiftLeft, mask,
    Nat.testBit_two_pow_sub_one, show (256 : Nat) = 2 ^ 8 from rfl, Nat.testBit_mod_two_pow,
    Nat.testBit_div_two_pow]
  by_cases low : k ≤ i
  · rw [Nat.sub_add_cancel low]
    cases n.testBit i <;> simp [low]
  · simp [low]

theorem swapWord_eq (b0 b1 b2 b3 : UInt8) :
    swapWord (leNat [b0, b1, b2, b3]) = beWord b0 b1 b2 b3 := by
  have h0 := b0.toNat_lt
  have h1 := b1.toNat_lt
  have h2 := b2.toNat_lt
  have h3 := b3.toNat_lt
  have word : leNat [b0, b1, b2, b3] =
      b0.toNat + 256 * b1.toNat + 65536 * b2.toNat + 16777216 * b3.toNat := by
    simp only [leNat]
    omega
  rw [word]
  generalize same : b0.toNat + 256 * b1.toNat + 65536 * b2.toNat + 16777216 * b3.toNat = n
  have first : n >>> 24 = b3.toNat := by
    rw [Nat.shiftRight_eq_div_pow]
    omega
  have second : u32 (n <<< 24) = b0.toNat <<< 24 := by
    rw [Nat.shiftLeft_eq, Nat.shiftLeft_eq, u32]
    omega
  have third : n >>> 8 &&& 0xFF00 = b2.toNat <<< 8 := by
    have byte : n >>> 8 / 2 ^ 8 % 256 = b2.toNat := by
      rw [Nat.shiftRight_eq_div_pow]
      omega
    rw [show (0xFF00 : Nat) = 255 <<< 8 from rfl, and_byteMask, byte]
  have fourth : u32 (n <<< 8) &&& 0xFF0000 = b1.toNat <<< 16 := by
    have byte : u32 (n <<< 8) / 2 ^ 16 % 256 = b1.toNat := by
      rw [Nat.shiftLeft_eq, u32]
      omega
    rw [show (0xFF0000 : Nat) = 255 <<< 16 from rfl, and_byteMask, byte]
  rw [swapWord, first, second, third, fourth, beWord]
  generalize b0.toNat <<< 24 = w0, b1.toNat <<< 16 = w1, b2.toNat <<< 8 = w2, b3.toNat = w3
  rw [Nat.or_comm w3, Nat.or_assoc, Nat.or_assoc, Nat.or_assoc, Nat.or_assoc, ← Nat.or_assoc w3,
    Nat.or_comm _ w1, Nat.or_comm w3]

/-! ## The checksum -/

theorem crc32Le_append (crc : UInt32) (xs ys : List UInt8) :
    crc32Le (crc32Le crc xs) ys = crc32Le crc (xs ++ ys) := by
  rw [crc32Le, crc32Le, crc32Le, UInt32.not_not, crc32LeLoop, crc32LeLoop, crc32LeLoop,
    List.foldl_append]

theorem crc32Le_nil (crc : UInt32) : crc32Le crc [] = crc := by
  rw [crc32Le, crc32LeLoop, List.foldl_nil, UInt32.not_not]

/-- The checksum of pieces of a sector is that of the whole. -/
theorem verifyLoop_run (offset remainSize : Nat) (result : UInt32) (m : ByteMem)
    (bound : offset + remainSize < 2 ^ 32) :
    ∃ offset' remainSize' result', (verifyLoop offset remainSize result).run m =
        ((offset', remainSize', result'), m) ∧
      offset' + remainSize' = offset + remainSize ∧
      crc32Le result' (m.load offset' remainSize') = crc32Le result (m.load offset remainSize) := by
  induction remainSize using Nat.strong_induction_on generalizing offset result with
  | _ remainSize ih =>
    rw [verifyLoop]
    split
    · next more =>
      have sector : spiflashSectorSize = 4096 := rfl
      have next : u32 (offset + spiflashSectorSize) = offset + spiflashSectorSize :=
        u32_of_lt (by omega)
      rcases ih (remainSize - spiflashSectorSize) (by omega) (offset + spiflashSectorSize)
        (crc32Le result (m.load offset spiflashSectorSize)) (by omega) with
        ⟨offset', remainSize', result', run, sum, same⟩
      refine ⟨offset', remainSize', result', ?_, by omega, ?_⟩
      · rw [run_bind, halSpiflashRead_run, next]
        exact run
      · rw [same, crc32Le_append, ← load_add, Nat.add_sub_cancel' (Nat.le_of_lt more)]
    · exact ⟨offset, remainSize, result, rfl, rfl, rfl⟩

/-- The verdict of `trs_ota_verify` on what is stored. -/
theorem trsOtaVerify_run (calloc : Bool) (offset size : Nat) (m : ByteMem)
    (bound : offset + size + 8 < 2 ^ 32) :
    ∃ ret, (trsOtaVerify calloc offset size).run m = (ret, m) ∧
      (ret = 0 ↔ calloc = true ∧
        leNat (m.load (offset + (size + 4)) 4) =
          (crc32Le 0xFFFFFFFF (m.load offset (size + 4))).toNat) := by
  unfold trsOtaVerify
  split
  · next none_ =>
    rw [none_]
    exact ⟨_, rfl, fun zero => absurd zero (by decide), fun right => absurd right.1 (by decide)⟩
  · next granted =>
    have granted := Bool.eq_true_of_not_eq_false granted
    have remain : u32 (size + 4) = size + 4 := u32_of_lt (by omega)
    rcases verifyLoop_run offset (size + 4) 0xFFFFFFFF m (by omega) with
      ⟨offset', remainSize', result', run, sum, same⟩
    have result : (if remainSize' ≠ 0 then crc32Le result' (m.load offset' remainSize')
        else result') = crc32Le 0xFFFFFFFF (m.load offset (size + 4)) := by
      rw [← same]
      split
      · rfl
      · next zero => rw [not_not.mp zero, load_zero, crc32Le_nil]
    have at_ : u32 (offset' + remainSize') = offset + (size + 4) := by
      rw [sum]
      exact u32_of_lt (by omega)
    rw [run_bind, remain, run]
    dsimp only
    rw [run_bind, halSpiflashRead_run]
    dsimp only
    rw [run_bind, halSpiflashRead_run, at_]
    dsimp only
    rw [result]
    split
    · next differs =>
      refine ⟨_, rfl, ?_⟩
      constructor
      · intro zero
        exact absurd zero (by decide)
      · rintro ⟨-, equal⟩
        exact absurd equal.symm differs
    · next equal => exact ⟨_, rfl, fun _ => ⟨granted, (not_not.mp equal).symm⟩, fun _ => rfl⟩

/-! ## Sessions -/

/-- `otaHal_write` calls behind an `otaHal_init`: the record, the flash, the bytes of the accepted
calls, and what was programmed. -/
structure Session where
  info : OperateInfo
  flash : ByteMem
  taken : List UInt8
  writes : List (Nat × List UInt8)

def Session.start (env : Lookup) (info : OperateInfo) (m : ByteMem) : Session where
  info := ((init env info).run m).1.2
  flash := ((init env info).run m).2
  taken := []
  writes := []

/-- A call of `otaHal_write`, accepted when it returns `TRS_OK`. -/
def Session.feed (s : Session) (chunk : Chunk) : Session where
  info := ((write s.info chunk).run s.flash).1.2
  flash := ((write s.info chunk).run s.flash).2
  taken := if ((write s.info chunk).run s.flash).1.1 = 0 then s.taken ++ chunk.data else s.taken
  writes := s.writes ++ (write s.info chunk).writes s.flash

def Session.resets (s : Session) (calloc : Bool) : Bool :=
  ((done calloc s.info).run s.flash).1.reset

/-- The first four bytes as a length. -/
def imageLen (bytes : List UInt8) : Nat :=
  beWord (bytes.getD 0 0) (bytes.getD 1 0) (bytes.getD 2 0) (bytes.getD 3 0)

/-- A complete image with the right checksum. -/
def Intact (bytes : List UInt8) : Prop :=
  bytes.length = imageLen bytes + 8 ∧
    leNat (bytes.drop (imageLen bytes + 4)) =
      (crc32Le 0xFFFFFFFF (bytes.take (imageLen bytes + 4))).toNat

instance (bytes : List UInt8) : Decidable (Intact bytes) := inferInstanceAs (Decidable (_ ∧ _))

/-- A write that stays in the partition. -/
def Inside (place : OtaPlace) (w : Nat × List UInt8) : Prop :=
  place.base ≤ w.1 ∧ w.1 + w.2.length ≤ place.base + place.len

/-- The image is accepted exactly when it is complete and intact, and no write left the
partition. -/
structure Session.Sound (s : Session) (place : OtaPlace) (calloc : Bool) : Prop where
  verdict : s.resets calloc = true ↔ Intact s.taken
  inside : ∀ w ∈ s.writes, Inside place w

/-- The bytes of the calls that are not refused. -/
def acceptable (maxLen : Nat) : List Chunk → List UInt8
  | [] => []
  | chunk :: chunks =>
    if chunk.lenRight > maxLen ∨ chunk.data = [] then acceptable maxLen chunks
    else chunk.data ++ chunks.flatMap Chunk.data

/-- What was taken stands in the partition, the rest of which is blank. -/
structure Receiving (place : OtaPlace) (s : Session) : Prop where
  init : s.info.init = true
  otaPartion : s.info.otaPartion = 0
  sAddr : s.info.sAddr = place.base
  maxLen : s.info.maxLen = place.len
  offset : s.info.offset = s.taken.length
  fits : s.taken.length ≤ place.len
  held : s.flash.Holds place.base s.taken
  blank : s.flash.Erased (place.base + s.taken.length) (place.len - s.taken.length)
  first : s.taken ≠ [] → (s.taken.getD 0 0).toNat * 16777216 ≤ place.len
  inside : ∀ w ∈ s.writes, Inside place w

section Session

variable {place : OtaPlace} {s : Session} (chunk : Chunk)

theorem write_refused {info : OperateInfo} (ready : info.init = true) (data : info.otaPartion = 0)
    (large : info.offset = 0 ∧ chunk.lenRight > info.maxLen) :
    write info chunk = Pure.pure (trsErrNoMem, info) := by
  rw [write, if_neg (by rw [ready]; decide), if_pos data, if_pos large]

theorem write_taken {info : OperateInfo} (ready : info.init = true) (data : info.otaPartion = 0)
    (right : ¬ (info.offset = 0 ∧ chunk.lenRight > info.maxLen)) (m : ByteMem) :
    (write info chunk).run m =
        ((0, { info with offset := u32 (info.offset + chunk.data.length) }),
          m.program (u32 (info.sAddr + info.offset)) chunk.data) ∧
      (write info chunk).writes m =
        if chunk.data = [] then [] else [(u32 (info.sAddr + info.offset), chunk.data)] := by
  rw [write, if_neg (by rw [ready]; decide), if_pos data, if_neg right]
  constructor
  · rw [run_bind, halSpifiashWrite_run]
    rfl
  · rw [writes_bind]
    by_cases empty : chunk.data = []
    · rw [if_pos empty, empty]
      rfl
    · rw [if_neg empty, halSpifiashWrite_writes _ empty]
      rfl

/-- A call that is refused changes nothing. -/
theorem Receiving.refused (recv : Receiving place s) (none_ : s.taken = [])
    (large : chunk.lenRight > place.len) : s.feed chunk = s := by
  have refused := write_refused chunk recv.init recv.otaPartion
    ⟨by rw [recv.offset, none_]; rfl, by rw [recv.maxLen]; exact large⟩
  unfold Session.feed
  rw [refused, writes_pure, List.append_nil]
  rfl

/-- A call that is not refused programs its bytes behind the others. -/
theorem Receiving.taken (recv : Receiving place s)
    (right : s.taken ≠ [] ∨ chunk.lenRight ≤ place.len) :
    (s.feed chunk).taken = s.taken ++ chunk.data ∧
      (s.feed chunk).info = { s.info with offset := u32 (s.taken.length + chunk.data.length) } ∧
      (s.feed chunk).flash = s.flash.program (place.base + s.taken.length) chunk.data ∧
      (s.feed chunk).writes = s.writes ++
        if chunk.data = [] then [] else [(place.base + s.taken.length, chunk.data)] := by
  have bound := place.bound
  have fits := recv.fits
  have at_ : u32 (s.info.sAddr + s.info.offset) = place.base + s.taken.length := by
    rw [recv.sAddr, recv.offset]
    exact u32_of_lt (by omega)
  rcases write_taken chunk recv.init recv.otaPartion (by
    rintro ⟨zero, large⟩
    rw [recv.offset] at zero
    rw [recv.maxLen] at large
    rcases right with some_ | small
    · exact some_ (List.length_eq_zero_iff.mp zero)
    · omega) s.flash with ⟨run, writes⟩
  rw [at_, recv.offset] at run
  rw [at_] at writes
  unfold Session.feed
  rw [run, writes]
  exact ⟨rfl, rfl, rfl, rfl⟩

/-- A call that fits is stored. -/
theorem Receiving.feed (recv : Receiving place s)
    (right : s.taken ≠ [] ∨ chunk.lenRight ≤ place.len)
    (fits : s.taken.length + chunk.data.length ≤ place.len) : Receiving place (s.feed chunk) := by
  have bound := place.bound
  rcases recv.taken chunk right with ⟨taken, info, flash, writes⟩
  have blank : s.flash.Erased (place.base + s.taken.length) chunk.data.length :=
    recv.blank.sub (Nat.le_refl _) (by omega)
  refine ⟨?_, ?_, ?_, ?_, ?_, ?_, ?_, ?_, ?_, ?_⟩
  case refine_1 => rw [info]; exact recv.init
  case refine_2 => rw [info]; exact recv.otaPartion
  case refine_3 => rw [info]; exact recv.sAddr
  case refine_4 => rw [info]; exact recv.maxLen
  case refine_5 =>
    rw [info, taken, List.length_append]
    exact u32_of_lt (by omega)
  case refine_6 =>
    rw [taken, List.length_append]
    exact fits
  case refine_7 =>
    rw [taken, flash, holds_append]
    exact ⟨recv.held.congr (program_frame _ _ _ (.inl (Nat.le_refl _))), program_holds blank⟩
  case refine_8 =>
    rw [taken, flash, List.length_append]
    exact (recv.blank.sub (by omega) (by omega)).congr
      (program_frame _ _ _ (.inr (by omega)))
  case refine_9 =>
    rw [taken]
    intro some_
    by_cases none_ : s.taken = []
    · rw [none_, List.nil_append] at some_ ⊢
      have small := right.resolve_left (not_not.mpr none_)
      rcases List.exists_cons_of_ne_nil some_ with ⟨b, rest, data⟩
      have byte : chunk.byte 0 = b := by
        rw [Chunk.byte, data]
        rfl
      rw [Chunk.lenRight, beWord_eq, byte] at small
      rw [data, List.getD_cons_zero]
      refine Nat.le_trans ?_ small
      rw [Nat.add_assoc, Nat.add_assoc]
      exact Nat.le_add_right ..
    · rw [List.getD_append _ _ _ _ (List.length_pos_iff.mpr none_)]
      exact recv.first none_
  case refine_10 =>
    rw [writes]
    intro w member
    rcases List.mem_append.mp member with before | now
    · exact recv.inside w before
    · split at now
      · cases now
      · rw [List.mem_singleton.mp now]
        exact ⟨Nat.le_add_right .., by dsimp only; omega⟩

/-- A call that does not fit goes out of the partition. -/
theorem Receiving.leaves (recv : Receiving place s)
    (right : s.taken ≠ [] ∨ chunk.lenRight ≤ place.len)
    (over_ : place.len < s.taken.length + chunk.data.length) :
    ∃ w ∈ (s.feed chunk).writes, ¬ Inside place w := by
  have fits := recv.fits
  have some_ : chunk.data ≠ [] := by
    intro empty
    rw [empty, List.length_nil] at over_
    omega
  refine ⟨(place.base + s.taken.length, chunk.data), ?_, ?_⟩
  · rw [(recv.taken chunk right).2.2.2, if_neg some_]
    exact List.mem_append_right _ List.mem_cons_self
  · rintro ⟨-, high⟩
    dsimp only at high
    omega

/-! ## Runs -/

theorem writes_foldl (s : Session) (chunks : List Chunk) {w : Nat × List UInt8}
    (member : w ∈ s.writes) : w ∈ (chunks.foldl Session.feed s).writes := by
  induction chunks generalizing s with
  | nil => exact member
  | cons chunk chunks ih => exact ih (s.feed chunk) (List.mem_append_left _ member)

/-- Bytes that fit have been stored, others left the partition. -/
def Ends (place : OtaPlace) (bytes : List UInt8) (s : Session) : Prop :=
  (bytes.length ≤ place.len → Receiving place s ∧ s.taken = bytes) ∧
    (place.len < bytes.length → ∃ w ∈ s.writes, ¬ Inside place w)

/-- Behind the first bytes every call is taken. -/
theorem Receiving.rest (recv : Receiving place s) (some_ : s.taken ≠ []) (chunks : List Chunk) :
    Ends place (s.taken ++ chunks.flatMap Chunk.data) (chunks.foldl Session.feed s) := by
  induction chunks generalizing s with
  | nil =>
    have fits := recv.fits
    rw [List.flatMap_nil, List.append_nil]
    exact ⟨fun _ => ⟨recv, rfl⟩, fun long => absurd fits (by omega)⟩
  | cons chunk chunks ih =>
    rw [List.flatMap_cons, ← List.append_assoc]
    by_cases now : s.taken.length + chunk.data.length ≤ place.len
    · have taken := (recv.taken chunk (.inl some_)).1
      have later := ih (recv.feed chunk (.inl some_) now) (by
        rw [taken]
        exact fun empty => some_ (List.append_eq_nil_iff.mp empty).1)
      rwa [taken] at later
    · constructor
      · intro fits
        rw [List.length_append, List.length_append] at fits
        omega
      · intro _
        rcases recv.leaves chunk (.inl some_) (by omega) with ⟨w, member, outside⟩
        exact ⟨w, writes_foldl (s.feed chunk) chunks member, outside⟩

/-- A whole session. -/
theorem Receiving.run (recv : Receiving place s) (none_ : s.taken = []) (chunks : List Chunk) :
    Ends place (acceptable place.len chunks) (chunks.foldl Session.feed s) := by
  induction chunks generalizing s with
  | nil => exact ⟨fun _ => ⟨recv, none_⟩, fun long => absurd long (Nat.not_lt_zero _)⟩
  | cons chunk chunks ih =>
    rw [acceptable, List.foldl_cons]
    by_cases large : chunk.lenRight > place.len
    · rw [if_pos (Or.inl large), recv.refused chunk none_ large]
      exact ih recv none_
    · have right : s.taken ≠ [] ∨ chunk.lenRight ≤ place.len := .inr (by omega)
      have taken := (recv.taken chunk right).1
      rw [none_, List.nil_append] at taken
      by_cases empty : chunk.data = []
      · rw [if_pos (Or.inr empty)]
        exact ih (recv.feed chunk right (by rw [none_, empty]; exact Nat.zero_le _))
          (taken.trans empty)
      · rw [if_neg (not_or.mpr ⟨large, empty⟩)]
        by_cases now : s.taken.length + chunk.data.length ≤ place.len
        · have later := (recv.feed chunk right now).rest (by rw [taken]; exact empty) chunks
          rwa [taken] at later
        · rw [none_, List.length_nil, Nat.zero_add] at now
          constructor
          · intro fits
            rw [List.length_append] at fits
            omega
          · intro _
            rcases recv.leaves chunk right (by rw [none_, List.length_nil]; omega) with
              ⟨w, member, outside⟩
            exact ⟨w, writes_foldl (s.feed chunk) chunks member, outside⟩

/-! ## The verdict -/

theorem imageLen_lt (bytes : List UInt8) (first : (bytes.getD 0 0).toNat * 16777216 < 0xFF000000) :
    imageLen bytes < 0xFF000000 := by
  have h1 := (bytes.getD 1 0).toNat_lt
  have h2 := (bytes.getD 2 0).toNat_lt
  have h3 := (bytes.getD 3 0).toNat_lt
  rw [imageLen, beWord_eq]
  generalize (bytes.getD 0 0).toNat = b0 at *
  generalize (bytes.getD 1 0).toNat = b1 at *
  generalize (bytes.getD 2 0).toNat = b2 at *
  generalize (bytes.getD 3 0).toNat = b3 at *
  have top : b0 ≤ 254 := by omega
  linarith

/-- Only the first four bytes count. -/
theorem imageLen_take {bytes : List UInt8} {n : Nat} (four : 4 ≤ n) :
    imageLen (bytes.take n) = imageLen bytes := by
  have byte (i : Nat) (low : i < 4) : (bytes.take n).getD i 0 = bytes.getD i 0 := by
    rw [List.getD_eq_getElem?_getD, List.getD_eq_getElem?_getD, List.getElem?_take_of_lt (by omega)]
  rw [imageLen, imageLen, byte 0 (by decide), byte 1 (by decide), byte 2 (by decide),
    byte 3 (by decide)]

/-- The length as `otaHal_done` reads it back. -/
theorem swapWord_load (m : ByteMem) (addr : Nat) :
    swapWord (leNat (m.load addr 4)) = imageLen (m.load addr 4) := swapWord_eq ..

/-- Blank flash does not announce a length that was written. -/
theorem Receiving.short (recv : Receiving place s) (less : s.taken.length < 4)
    (room : 4 ≤ place.len) :
    u32 (imageLen (s.flash.load place.base 4) + 8) ≠ s.taken.length := by
  have last : (s.flash.load place.base 4).getD 3 0 = 0xFF := recv.blank (place.base + 3) (by omega)
    (by omega)
  have h0 := ((s.flash.load place.base 4).getD 0 0).toNat_lt
  have h1 := ((s.flash.load place.base 4).getD 1 0).toNat_lt
  have h2 := ((s.flash.load place.base 4).getD 2 0).toNat_lt
  rw [imageLen, beWord_eq, last, show (0xFF : UInt8).toNat = 255 from rfl, u32]
  generalize ((s.flash.load place.base 4).getD 0 0).toNat = b0 at *
  generalize ((s.flash.load place.base 4).getD 1 0).toNat = b1 at *
  generalize ((s.flash.load place.base 4).getD 2 0).toNat = b2 at *
  omega

theorem Intact.length {bytes : List UInt8} (intact : Intact bytes) : 8 ≤ bytes.length := by
  rw [intact.1]
  exact Nat.le_add_left ..

/-- What was taken, in front of a position and behind it. -/
theorem Receiving.split (recv : Receiving place s) {n k : Nat} (all : n + k = s.taken.length) :
    s.flash.load place.base n = s.taken.take n ∧
      s.flash.load (place.base + n) k = s.taken.drop n := by
  have whole := recv.held.load
  rw [← all, load_add] at whole
  constructor
  · rw [← whole, List.take_left' (length_load ..)]
  · rw [← whole, List.drop_left' (length_load ..)]

/-- `otaHal_done` on what was taken. -/
theorem Receiving.resets_iff (recv : Receiving place s) (some_ : 0 < place.len)
    (chip : place.len < 0xFF000000) (calloc : Bool) :
    s.resets calloc = true ↔ calloc = true ∧ Intact s.taken := by
  have whole := place.whole
  have bound := place.bound
  have fits := recv.fits
  rw [spiflashSectorSize] at whole
  have run : ((done calloc s.info).run s.flash).1 =
      ((if u32 (imageLen (s.flash.load place.base 4) + 8) = s.taken.length then do
        let verified ← trsOtaVerify calloc place.base (imageLen (s.flash.load place.base 4))
        if verified = 0 then
          let nvStr := (Nat.toDigits 10 s.info.otaPartion).map fun c => UInt8.ofNat c.toNat
          return ⟨0, some ((nvStr.take 3).take (nvStr.length - 1)), true⟩
        else
          return ⟨-1, none, false⟩
      else return ⟨-1, none, false⟩ : FlashProg Outcome).run s.flash).1 := by
    rw [done, run_bind, halSpiflashRead_run, recv.sAddr]
    dsimp only
    rw [swapWord_load, recv.offset]
  rw [Session.resets, run]
  by_cases less : s.taken.length < 4
  · rw [if_neg (recv.short less (by omega))]
    exact ⟨fun yes => absurd yes Bool.false_ne_true,
      fun intact => absurd intact.2.length (by omega)⟩
  · have head := (recv.split (by omega : 4 + (s.taken.length - 4) = s.taken.length)).1
    have len : imageLen (s.flash.load place.base 4) = imageLen s.taken := by
      rw [head, imageLen_take (Nat.le_refl _)]
    have first := recv.first (by
      intro empty
      rw [empty] at less
      exact less (by decide))
    have small := imageLen_lt s.taken (by omega)
    rw [len, u32_of_lt (by omega)]
    split
    · next complete =>
      rcases trsOtaVerify_run calloc place.base (imageLen s.taken) s.flash (by omega) with
        ⟨ret, verified, zero⟩
      rcases recv.split (n := imageLen s.taken + 4) (k := 4) (by omega) with ⟨front, back⟩
      rw [front, back] at zero
      rw [run_bind, verified]
      dsimp only
      rw [Intact, ← complete, eq_self_iff_true, true_and, ← zero]
      split
      · next right => exact ⟨fun _ => right, fun _ => rfl⟩
      · next wrong =>
        exact ⟨fun yes => absurd yes Bool.false_ne_true, fun right => absurd right wrong⟩
    · next partial_ =>
      exact ⟨fun yes => absurd yes Bool.false_ne_true,
        fun intact => absurd intact.2.1.symm partial_⟩

/-! ## The whole of it -/

/-- A session starts with a blank partition. -/
theorem Receiving.start {env : Lookup} {info : OperateInfo} (found : env.dataOta = place.entry)
    (data : info.otaPartion = 0) (m : ByteMem) : Receiving place (Session.start env info m) := by
  have run : (OtaHal.init env info).run m = ((0, { info with
      offset := 0
      getFirstFrame := false
      sAddr := place.base
      maxLen := place.len
      init := true }), m.erase place.base place.len) := by
    rw [OtaHal.init, found, OtaPlace.entry]
    dsimp only
    rw [run_bind, halSpiflashErase_run_aligned place.aligned place.whole]
    rfl
  unfold Session.start
  rw [run]
  refine ⟨rfl, data, rfl, rfl, rfl, Nat.zero_le _, holds_nil _ _, ?_, fun some_ => ?_, ?_⟩
  · exact erase_erased m place.base place.len
  · exact absurd rfl some_
  · intro w member
    cases member

end Session

/-- An image is accepted exactly when it is complete and intact, and all writes stay in the
partition, exactly when the bytes that come in fit it and `os_calloc` finds a sector of memory for
an image that is complete and intact. -/
theorem otaHal_image_iff {place : OtaPlace} {env : Lookup} {info : OperateInfo}
    (found : env.dataOta = place.entry) (data : info.otaPartion = 0) (some_ : 0 < place.len)
    (chip : place.len < 0xFF000000) (m : ByteMem) (calloc : Bool) (chunks : List Chunk) :
    (chunks.foldl Session.feed (Session.start env info m)).Sound place calloc ↔
      (acceptable place.len chunks).length ≤ place.len ∧
        (Intact (acceptable place.len chunks) → calloc = true) := by
  have ends := (Receiving.start found data m).run rfl chunks
  by_cases fits : (acceptable place.len chunks).length ≤ place.len
  · rcases ends.1 fits with ⟨recv, taken⟩
    have verdict := recv.resets_iff some_ chip calloc
    rw [← taken]
    constructor
    · intro sound
      rw [taken]
      exact ⟨fits, fun intact => (verdict.mp (sound.verdict.mpr (taken ▸ intact))).1⟩
    · rintro ⟨-, granted⟩
      exact ⟨verdict.trans ⟨fun right => right.2, fun intact => ⟨granted intact, intact⟩⟩,
        recv.inside⟩
  · rcases ends.2 (by omega) with ⟨w, member, outside⟩
    exact ⟨fun sound => absurd (sound.inside w member) outside, fun right => absurd right.1 fits⟩

/-- Only the data partition is looked up. -/
def dataOtaLookup : Lookup := ⟨dataOta.entry, none, none, none⟩

/-- An image of eight bytes in three calls. -/
def smallImage : List Chunk :=
  [⟨[0, 0, 0, 8, 1, 2], [], by decide⟩, ⟨[3, 4, 5, 6, 7, 8, 75], [], by decide⟩,
    ⟨[10, 207, 30], [], by decide⟩]

theorem otaHal_image_small :
    (smallImage.foldl Session.feed
        (Session.start dataOtaLookup OperateInfo.zero fun _ => 0)).Sound dataOta true ∧
      Intact (acceptable dataOta.len smallImage) :=
  ⟨(otaHal_image_iff rfl rfl (by decide) (by decide) _ true smallImage).mpr
      ⟨by decide, fun _ => rfl⟩,
    by decide +kernel⟩

/-- A call with zero bytes only. -/
def zeroChunk (len : Nat) (short : len < 2 ^ 16) : Chunk :=
  ⟨List.replicate len 0, [], by rwa [List.length_replicate]⟩

theorem length_zeroChunk (len : Nat) (short : len < 2 ^ 16) :
    (zeroChunk len short).data.length = len := List.length_replicate

/-- An image that announces as many bytes as the partition has, with the eight bytes that are not
counted. -/
def fullImage (chunk last : Chunk) : List Chunk :=
  [⟨[0, 4, 0x50, 0], [], by decide⟩, chunk, chunk, chunk, chunk, last]

theorem length_fullImage {chunk last : Chunk} (long : chunk.data.length = 60000)
    (rest : last.data.length = 42628) :
    (acceptable dataOta.len (fullImage chunk last)).length = 282632 := by
  have announced : ¬ (Chunk.lenRight ⟨[0, 4, 0x50, 0], [], by decide⟩ > dataOta.len ∨
      ([0, 4, 0x50, 0] : List UInt8) = []) := by
    decide
  rw [fullImage, acceptable, if_neg announced]
  simp only [List.flatMap_cons, List.flatMap_nil, List.length_append, long, rest,
    List.length_cons, List.length_nil]

/-- The last eight bytes go out of the partition. -/
theorem otaHal_image_broken :
    ¬ ((fullImage (zeroChunk 60000 (by decide)) (zeroChunk 42628 (by decide))).foldl Session.feed
      (Session.start dataOtaLookup OperateInfo.zero fun _ => 0)).Sound dataOta true := by
  intro sound
  have start : Receiving dataOta (Session.start dataOtaLookup OperateInfo.zero fun _ => 0) :=
    Receiving.start rfl rfl _
  have length := length_fullImage (length_zeroChunk 60000 (by decide))
    (length_zeroChunk 42628 (by decide))
  rcases (start.run rfl (fullImage (zeroChunk 60000 (by decide)) (zeroChunk 42628 (by decide)))).2
    (by rw [length]; decide) with ⟨w, member, outside⟩
  exact outside (sound.inside w member)

end OtaHal

end Tr6260
