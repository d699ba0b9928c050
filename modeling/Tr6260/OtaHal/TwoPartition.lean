import Tr6260.OtaHal.Accept

/-!
# Images for two program partitions

Without a data partition the image is two programs behind each other, one for each program
partition, behind sixteen decimal digits with their sizes. `otaHal_write` programs the part that
is for the partition the device does not run from, and keeps track of where it is in the image by
different counters for the two. How the image is cut into calls makes no difference to what is
programmed, as long as its length fits the counter.
-/

namespace Tr6260

open FlashProg ByteMem

namespace OtaHal

/-! ## The image -/

/-- The value of decimal digits. -/
def decimal (digits : List UInt8) : Nat :=
  digits.foldl (fun n b => n * 10 + (b.toNat - 48)) 0

/-- Where the first program ends: behind the digits, eight each for the size of its two parts. -/
def firstEnd (image : List UInt8) : Nat :=
  16 + decimal ((image.drop 8).take 8) + decimal (image.take 8)

/-- What is for this partition of bytes the first `dataLen` of which are the first program. -/
def partOf (otaPartion dataLen : Nat) (bytes : List UInt8) : List UInt8 :=
  if otaPartion = 2 then bytes.drop dataLen else bytes.take dataLen

/-- The part of the image that is for this partition. -/
def programPart (otaPartion : Nat) (image : List UInt8) : List UInt8 :=
  partOf otaPartion (firstEnd image) image

/-- Writes that put `bytes` down from `sAddr` on, in order and without gap or overlap, at addresses
of 32 bits. -/
def Placed (sAddr : Nat) (ws : List (Nat × List UInt8)) (bytes : List UInt8) : Prop :=
  ∃ ws', ws = ws'.map (fun w => (u32 (sAddr + w.1), w.2)) ∧ InOrder 0 ws' bytes

/-- A session with a program partition, before its first write. -/
structure Session.Started (s : Session) : Prop where
  init : s.info.init = true
  fresh : s.info.getFirstFrame = false
  offset : s.info.offset = 0
  otaPartion : s.info.otaPartion = 1 ∨ s.info.otaPartion = 2
  sAddr : s.info.sAddr < 2 ^ 32
  writes : s.writes = []

/-- All bytes of the calls. -/
def imageOf (chunks : List Chunk) : List UInt8 := chunks.flatMap Chunk.data

/-! ## Placing -/

section Placed

variable {sAddr addr : Nat} {ws : List (Nat × List UInt8)} {bytes more : List UInt8}

theorem Placed.nil (sAddr : Nat) : Placed sAddr [] [] := ⟨[], rfl, rfl⟩

/-- A write behind the others. -/
theorem Placed.write (placed : Placed sAddr ws bytes) (at_ : addr = u32 (sAddr + bytes.length))
    (m : ByteMem) : Placed sAddr (ws ++ (halSpifiashWrite addr more).writes m) (bytes ++ more) := by
  obtain ⟨ws', rfl, order⟩ := placed
  by_cases empty : more = []
  · subst empty
    exact ⟨ws', List.append_nil _, by rwa [List.append_nil]⟩
  · refine ⟨ws' ++ [(bytes.length, more)], ?_, order.append ?_⟩
    · rw [halSpifiashWrite_writes addr empty, List.map_append, at_]
      rfl
    · exact ⟨Nat.zero_add _ |>.symm, [], (List.append_nil _).symm, rfl⟩

/-- Inside the address space the writes go up from `sAddr`. -/
theorem inOrder_shift {ws' : List (Nat × List UInt8)} (order : InOrder addr ws' bytes)
    (fits : sAddr + addr + bytes.length < 2 ^ 32) :
    InOrder (sAddr + addr) (ws'.map fun w => (u32 (sAddr + w.1), w.2)) bytes := by
  induction ws' generalizing addr bytes with
  | nil => exact order
  | cons w ws' ih =>
    obtain ⟨here, later, rfl, rest⟩ := order
    rw [List.length_append] at fits
    refine ⟨?_, later, rfl, ?_⟩
    · rw [here]
      exact u32_of_lt (by omega)
    · rw [Nat.add_assoc]
      exact ih rest (by omega)

theorem Placed.inOrder (placed : Placed sAddr ws bytes) (fits : sAddr + bytes.length < 2 ^ 32) :
    InOrder sAddr ws bytes := by
  obtain ⟨ws', rfl, order⟩ := placed
  exact inOrder_shift order fits

theorem Placed.flatMap (placed : Placed sAddr ws bytes) : ws.flatMap Prod.snd = bytes := by
  obtain ⟨ws', rfl, order⟩ := placed
  rw [List.flatMap_map]
  exact order.bytes

end Placed

/-! ## The sizes in front -/

section Digits

variable {chunk : Chunk}

theorem decimal_concat (digits : List UInt8) (b : UInt8) :
    decimal (digits ++ [b]) = decimal digits * 10 + (b.toNat - 48) := by
  rw [decimal, List.foldl_append]
  rfl

/-- Reading `k` digits from position `i` on. -/
theorem digits_foldl {i k : Nat} (inside : i + k ≤ chunk.data.length) (few : k ≤ 8)
    (decimals : ∀ b ∈ (chunk.data.drop i).take k, 48 ≤ b.toNat ∧ b.toNat ≤ 57) :
    (List.range k).foldl
        (fun n j => u32 ((chunk.byte (i + j)).toNat + (2 ^ 32 - 48) + n * 10)) 0 =
      decimal ((chunk.data.drop i).take k) ∧ decimal ((chunk.data.drop i).take k) < 10 ^ k := by
  induction k with
  | zero => exact ⟨rfl, Nat.zero_lt_one⟩
  | succ k ih =>
    have place : k < (chunk.data.drop i).length := by
      rw [List.length_drop]
      omega
    have split : (chunk.data.drop i).take (k + 1) =
        (chunk.data.drop i).take k ++ [(chunk.data.drop i)[k]] :=
      List.take_succ_eq_append_getElem place
    have byte : chunk.byte (i + k) = (chunk.data.drop i)[k] := by
      rw [Chunk.byte, List.getElem_drop, List.getD_append _ _ _ _ (by omega),
        List.getD_eq_getElem _ _ (by omega)]
    rw [split] at decimals
    obtain ⟨value, small⟩ := ih (by omega) (by omega) fun b mem =>
      decimals b (List.mem_append_left _ mem)
    have last := decimals (chunk.data.drop i)[k] (by simp)
    have most : 10 ^ k ≤ 10 ^ 7 := Nat.pow_le_pow_right (by decide) (by omega)
    rw [List.range_succ, List.foldl_append, value, split, decimal_concat, List.foldl_cons,
      List.foldl_nil, byte, u32, Nat.pow_succ]
    omega

/-- The first call tells where the first program ends. -/
theorem firstEnd_read (enough : 16 ≤ chunk.data.length)
    (decimals : ∀ b ∈ chunk.data.take 16, 48 ≤ b.toNat ∧ b.toNat ≤ 57) :
    u32 (0x10 + eightDigits chunk 8 + eightDigits chunk 0) = firstEnd chunk.data := by
  have split : chunk.data.take 16 = chunk.data.take 8 ++ (chunk.data.drop 8).take 8 :=
    List.take_add (i := 8) (j := 8)
  rw [split] at decimals
  obtain ⟨front, small⟩ := @digits_foldl chunk 0 8 (by omega) (by omega)
    fun b mem => decimals b (List.mem_append_left _ mem)
  obtain ⟨behind, small'⟩ := @digits_foldl chunk 8 8 (by omega) (by omega)
    fun b mem => decimals b (List.mem_append_right _ mem)
  rw [List.drop_zero] at front small
  rw [eightDigits, eightDigits, front, behind, firstEnd]
  exact u32_of_lt (by omega)

end Digits

/-- The sizes stand in the first sixteen bytes. -/
theorem firstEnd_append {front : List UInt8} (enough : 16 ≤ front.length) (rest : List UInt8) :
    firstEnd (front ++ rest) = firstEnd front := by
  rw [firstEnd, firstEnd, List.take_append_of_le_length (by omega),
    List.drop_append_of_le_length (by omega),
    List.take_append_of_le_length (by rw [List.length_drop]; omega)]

/-! ## One call -/

section Call

variable {info : OperateInfo} (chunk : Chunk) (m : ByteMem)

/-- A call that programs one piece, maybe an empty one. -/
structure Writes (addr : Nat) (piece : List UInt8) (info' : OperateInfo)
    (p : FlashProg (Int × OperateInfo)) : Prop where
  run : p.run m = ((0, info'), m.program addr piece)
  writes : p.writes m = (halSpifiashWrite addr piece).writes m

theorem writes_piece (addr : Nat) (piece : List UInt8) (info' : OperateInfo) :
    Writes m addr piece info' (do
      let _ ← halSpifiashWrite addr piece
      return (0, info')) where
  run := by
    rw [run_bind, halSpifiashWrite_run]
    rfl
  writes := by
    rw [writes_bind, writes_pure, List.append_nil]

theorem writes_none (addr : Nat) (info' : OperateInfo) :
    Writes m addr [] info' (return (0, info')) where
  run := by
    rw [program_nil]
    rfl
  writes := rfl

/-- The first call takes the sizes out of its bytes. -/
theorem writeProgram_first (fresh : info.getFirstFrame = false) :
    writeProgram info chunk = writeProgram
      { info with
        dataLen := u32 (0x10 + eightDigits chunk 8 + eightDigits chunk 0)
        getFirstFrame := true } chunk := by
  simp only [writeProgram, fresh, if_true, Bool.false_eq_true, if_false]

/-- The piece a later call has for the first partition. -/
theorem writeProgram_one (known : info.getFirstFrame = true) (one : info.otaPartion = 1)
    (short : info.offset + info.dataLen < 2 ^ 32) :
    Writes m (u32 (info.sAddr + info.offset)) (chunk.data.take info.dataLen)
      { info with
        offset := info.offset + min info.dataLen chunk.data.length
        dataLen := info.dataLen - min info.dataLen chunk.data.length }
      (writeProgram info chunk) := by
  have sum : u32 (info.offset + min info.dataLen chunk.data.length) =
      info.offset + min info.dataLen chunk.data.length := u32_of_lt (by omega)
  have piece : chunk.data.take info.dataLen =
      chunk.data.take (min info.dataLen chunk.data.length) := List.take_eq_take_min ..
  have other : ¬ info.otaPartion = 2 := by omega
  simp only [writeProgram, known, if_true, if_neg other, sum]
  by_cases over_ : info.dataLen = 0
  · have same : { info with
        offset := info.offset + min info.dataLen chunk.data.length
        dataLen := info.dataLen - min info.dataLen chunk.data.length
        getFirstFrame := true } = info := by
      cases info
      cases known
      cases over_
      simp
    rw [if_neg (not_not.mpr over_), same, over_, List.take_zero]
    exact writes_none m _ _
  · rw [if_pos over_, piece]
    exact writes_piece m _ _ _

/-- All of a call behind the first program is for the second partition. -/
theorem writeProgram_behind (known : info.getFirstFrame = true) (two : info.otaPartion = 2)
    (behind : info.offset > info.dataLen) (size : info.dataLen < 2 ^ 32) :
    Writes m (u32 (info.sAddr + (info.offset - info.dataLen))) chunk.data
      { info with offset := u32 (info.offset + chunk.data.length) } (writeProgram info chunk) := by
  have addr : u32 (info.sAddr + info.offset + (2 ^ 32 - info.dataLen)) =
      u32 (info.sAddr + (info.offset - info.dataLen)) := by
    rw [u32, u32]
    omega
  simp only [writeProgram, known, if_true, if_pos two]
  rw [if_pos behind, addr]
  exact writes_piece m _ _ _

/-- The piece a later call has for the second partition. -/
theorem writeProgram_two (known : info.getFirstFrame = true) (two : info.otaPartion = 2)
    (short : info.offset + chunk.data.length < 2 ^ 32) (sAddr : info.sAddr < 2 ^ 32)
    (size : info.dataLen < 2 ^ 32) :
    Writes m (u32 (info.sAddr + (info.offset - info.dataLen)))
      (chunk.data.drop (info.dataLen - info.offset))
      { info with offset := info.offset + chunk.data.length }
      (writeProgram info chunk) := by
  have sum : u32 (info.offset + chunk.data.length) = info.offset + chunk.data.length :=
    u32_of_lt short
  by_cases behind : info.offset > info.dataLen
  · have writes := writeProgram_behind chunk m known two behind size
    rw [sum] at writes
    rw [Nat.sub_eq_zero_of_le (Nat.le_of_lt behind), List.drop_zero]
    exact writes
  · simp only [writeProgram, known, if_true, if_pos two, sum]
    rw [if_neg behind]
    by_cases around : info.offset + chunk.data.length > info.dataLen
    · have addr : u32 (info.sAddr + (info.offset - info.dataLen)) = info.sAddr := by
        rw [u32]
        omega
      have from_ : chunk.data.length - (info.offset + chunk.data.length - info.dataLen) =
          info.dataLen - info.offset := by
        omega
      rw [if_pos around, addr, from_]
      exact writes_piece m _ _ _
    · rw [if_neg around, List.drop_eq_nil_of_le (by omega)]
      exact writes_none m _ _

end Call

/-! ## Sessions -/

/-- The record and the flash after the bytes `got`. -/
structure Programming (target base ends : Nat) (m : ByteMem) (got : List UInt8)
    (s : Session) : Prop where
  init : s.info.init = true
  known : s.info.getFirstFrame = true
  otaPartion : s.info.otaPartion = target
  sAddr : s.info.sAddr = base
  counters : if target = 2 then s.info.offset = got.length ∧ s.info.dataLen = ends
    else s.info.offset = min ends got.length ∧ s.info.dataLen = ends - got.length
  placed : Placed base s.writes (partOf target ends got)
  flash : s.flash = s.writes.foldl (fun m w => m.program w.1 w.2) m

section Session

variable {s : Session} {m : ByteMem} {got : List UInt8} {target base ends : Nat}

theorem feed_of_writes {chunk : Chunk} {addr : Nat} {piece : List UInt8} {info' : OperateInfo}
    (writes : Writes s.flash addr piece info' (write s.info chunk)) :
    (s.feed chunk).info = info' ∧ (s.feed chunk).flash = s.flash.program addr piece ∧
      (s.feed chunk).writes = s.writes ++ (halSpifiashWrite addr piece).writes s.flash := by
  obtain ⟨run, writes⟩ := writes
  unfold Session.feed
  rw [run, writes]
  exact ⟨rfl, rfl, rfl⟩

theorem program_writes (addr : Nat) (piece : List UInt8) (m : ByteMem) :
    ((halSpifiashWrite addr piece).writes m).foldl (fun m w => m.program w.1 w.2) m =
      m.program addr piece := by
  by_cases empty : piece = []
  · subst empty
    exact (program_nil m addr).symm
  · rw [halSpifiashWrite_writes addr empty]
    rfl

/-- A call goes on where the others ended. -/
theorem Programming.feed (programming : Programming target base ends m got s)
    (kind : target = 1 ∨ target = 2) (low : base < 2 ^ 32) (size : ends < 2 ^ 32)
    (chunk : Chunk) (short : target = 1 ∨ (got ++ chunk.data).length < 2 ^ 32) :
    Programming target base ends m (got ++ chunk.data) (s.feed chunk) := by
  obtain ⟨init, known, partion, addr, counters, placed, flash⟩ := programming
  rw [List.length_append] at short
  have call : write s.info chunk = writeProgram s.info chunk := by
    rw [write, if_neg (by rw [init]; decide), if_neg (by omega)]
  rcases kind with one | two
  · have first : ¬ target = 2 := by omega
    rw [if_neg first] at counters
    rw [partOf, if_neg first] at placed
    have writes := writeProgram_one chunk s.flash known (by omega) (by omega)
    rw [← call, addr] at writes
    obtain ⟨info', flash', writes'⟩ := feed_of_writes writes
    refine ⟨by rw [info']; exact init, by rw [info']; exact known, by rw [info']; exact partion,
      by rw [info'], ?_, ?_, ?_⟩
    · rw [if_neg first, info', List.length_append]
      dsimp only
      omega
    · rw [writes', partOf, if_neg first, List.take_append, ← counters.2]
      apply placed.write
      rw [List.length_take, counters.1]
    · rw [flash', writes', List.foldl_append, ← flash, program_writes]
  · rw [if_pos two] at counters
    rw [partOf, if_pos two] at placed
    have writes := writeProgram_two chunk s.flash known (by omega) (by omega) (by omega) (by omega)
    rw [← call, addr] at writes
    obtain ⟨info', flash', writes'⟩ := feed_of_writes writes
    refine ⟨by rw [info']; exact init, by rw [info']; exact known, by rw [info']; exact partion,
      by rw [info'], ?_, ?_, ?_⟩
    · rw [if_pos two, info', List.length_append]
      dsimp only
      omega
    · rw [writes', partOf, if_pos two, List.drop_append, counters.1, counters.2]
      apply placed.write
      rw [List.length_drop]
    · rw [flash', writes', List.foldl_append, ← flash, program_writes]

theorem Programming.run (programming : Programming target base ends m got s)
    (kind : target = 1 ∨ target = 2) (low : base < 2 ^ 32) (size : ends < 2 ^ 32)
    (chunks : List Chunk) (short : target = 1 ∨ (got ++ imageOf chunks).length < 2 ^ 32) :
    Programming target base ends m (got ++ imageOf chunks) (chunks.foldl Session.feed s) := by
  induction chunks generalizing s got with
  | nil =>
    rw [imageOf, List.flatMap_nil, List.append_nil]
    exact programming
  | cons chunk chunks ih =>
    have split : got ++ imageOf (chunk :: chunks) = (got ++ chunk.data) ++ imageOf chunks := by
      rw [imageOf, List.flatMap_cons, ← List.append_assoc]
      rfl
    rw [split] at short ⊢
    refine ih (programming.feed kind low size chunk ?_) short
    rw [List.length_append] at short
    omega

/-- The first call, which tells the sizes. -/
theorem Session.Started.feed (started : s.Started) {chunk : Chunk}
    (enough : 16 ≤ chunk.data.length)
    (decimals : ∀ b ∈ chunk.data.take 16, 48 ≤ b.toNat ∧ b.toNat ≤ 57) :
    firstEnd chunk.data < 2 ^ 32 ∧
      Programming s.info.otaPartion s.info.sAddr (firstEnd chunk.data) s.flash chunk.data
        (s.feed chunk) := by
  obtain ⟨init, fresh, offset, kind, low, writes⟩ := started
  have read := firstEnd_read enough decimals
  have size : firstEnd chunk.data < 2 ^ 32 := read ▸ Nat.mod_lt _ (by decide)
  let known : Session := { s with
    info := { s.info with dataLen := firstEnd chunk.data, getFirstFrame := true } }
  have same : s.feed chunk = known.feed chunk := by
    have call : write s.info chunk = write known.info chunk := by
      rw [write, write, if_neg (by rw [init]; decide), if_neg (by omega), if_neg, if_neg,
        writeProgram_first chunk fresh, read]
      · exact (by omega : ¬ s.info.otaPartion = 0)
      · exact (by rw [init]; decide : ¬ s.info.init = false)
    simp only [Session.feed, call]
    rfl
  have programming : Programming s.info.otaPartion s.info.sAddr (firstEnd chunk.data) s.flash []
      known := by
    refine ⟨init, rfl, rfl, rfl, ?_, ?_, ?_⟩
    · split
      next two => exact ⟨offset, rfl⟩
      next one => exact ⟨offset.trans (Nat.min_zero _).symm, rfl⟩
    · have none_ : partOf s.info.otaPartion (firstEnd chunk.data) [] = [] := by
        rw [partOf, List.drop_nil, List.take_nil, ite_self]
      rw [none_, show known.writes = [] from writes]
      exact Placed.nil _
    · rw [show known.writes = [] from writes]
      rfl
  rw [same]
  exact ⟨size, programming.feed kind low size chunk (.inr (Nat.lt_trans chunk.short (by decide)))⟩

end Session

/-- `otaHal_init` without a data partition, when it succeeds. -/
theorem started_start {env : Lookup} {info : OperateInfo} {m : ByteMem}
    (none_ : env.dataOta = none) (ok : ((init env info).run m).1.1 = 0)
    (low : (Session.start env info m).info.sAddr < 2 ^ 32) :
    (Session.start env info m).Started := by
  have erase : ∀ i : OperateInfo, ((do
      let ret ← halSpiflashErase i.sAddr i.maxLen
      if ret ≠ 0 then return (ret, i) else return (0, { i with init := true }) :
        FlashProg (Int × OperateInfo)).run m).1.1 = 0 →
      ((do
        let ret ← halSpiflashErase i.sAddr i.maxLen
        if ret ≠ 0 then return (ret, i) else return (0, { i with init := true }) :
          FlashProg (Int × OperateInfo)).run m).1.2 = { i with init := true } := by
    intro i ok
    rw [run_bind] at ok ⊢
    by_cases zero : ((halSpiflashErase i.sAddr i.maxLen).run m).1 = 0
    · rw [if_neg (not_not.mpr zero)]
      rfl
    · rw [if_pos zero] at ok
      exact absurd ok zero
  have after : ∃ i : OperateInfo, (Session.start env info m).info = { i with init := true } ∧
      i.getFirstFrame = false ∧ i.offset = 0 ∧ (i.otaPartion = 1 ∨ i.otaPartion = 2) := by
    simp only [init, none_] at ok
    simp only [Session.start, init, none_]
    rw [erase _ ok]
    split
    next => exact ⟨_, rfl, rfl, rfl, .inl rfl⟩
    next => exact ⟨_, rfl, rfl, rfl, .inr rfl⟩
  obtain ⟨i, same, fresh, offset, kind⟩ := after
  rw [same] at low
  exact ⟨by rw [same], by rw [same]; exact fresh, by rw [same]; exact offset,
    by rw [same]; exact kind, by rw [same]; exact low, rfl⟩

/-- However an image is cut into calls, the first of which has the sizes in front: what is
programmed is the part that is for this partition, in order from its start on. -/
theorem otaHal_write_placed {s : Session} (started : s.Started) {first : Chunk} (rest : List Chunk)
    (enough : 16 ≤ first.data.length)
    (decimals : ∀ b ∈ first.data.take 16, 48 ≤ b.toNat ∧ b.toNat ≤ 57)
    (short : s.info.otaPartion = 1 ∨ (imageOf (first :: rest)).length < 2 ^ 32) :
    Placed s.info.sAddr ((first :: rest).foldl Session.feed s).writes
        (programPart s.info.otaPartion (imageOf (first :: rest))) ∧
      (s.info.sAddr + (programPart s.info.otaPartion (imageOf (first :: rest))).length < 2 ^ 32 →
        ((first :: rest).foldl Session.feed s).flash = s.flash.program s.info.sAddr
          (programPart s.info.otaPartion (imageOf (first :: rest)))) := by
  obtain ⟨size, programming⟩ := started.feed enough decimals
  have image : imageOf (first :: rest) = first.data ++ imageOf rest := by
    rw [imageOf, List.flatMap_cons]
    rfl
  have ends : firstEnd (imageOf (first :: rest)) = firstEnd first.data := by
    rw [image]
    exact firstEnd_append enough _
  rw [programPart, ends]
  rw [image] at short ⊢
  have run := programming.run started.otaPartion started.sAddr size rest short
  refine ⟨run.placed, ?_⟩
  intro fits
  rw [List.foldl_cons, run.flash]
  exact (run.placed.inOrder fits).program s.flash

/-! ## Images that are too long for the counter -/

section Wraps

variable {s : Session} {m : ByteMem} {got : List UInt8} {base ends : Nat} {chunk last : Chunk}

theorem halSpifiashWrite_flatMap (addr : Nat) (piece : List UInt8) (m : ByteMem) :
    ((halSpifiashWrite addr piece).writes m).flatMap Prod.snd = piece := by
  by_cases empty : piece = []
  · subst empty
    rfl
  · rw [halSpifiashWrite_writes addr empty, List.flatMap_singleton]

/-- When the counter reaches 2^32 it starts again, and the bytes of the next call are taken for
those of the first program. -/
theorem Programming.wraps (programming : Programming 2 base ends m got s) (low : base < 2 ^ 32)
    (behind : ends < got.length) (full : got.length + chunk.data.length = 2 ^ 32)
    (few : last.data.length ≤ ends) (size : ends < 2 ^ 32) :
    ([chunk, last].foldl Session.feed s).writes.flatMap Prod.snd = got.drop ends ++ chunk.data := by
  obtain ⟨init, known, partion, addr, counters, placed, -⟩ := programming
  rw [if_pos rfl] at counters
  have call : ∀ info : OperateInfo, info.init = true → info.otaPartion = 2 → ∀ c,
      write info c = writeProgram info c := by
    intro info init two c
    rw [write, if_neg (by rw [init]; decide), if_neg (by omega)]
  have writes := writeProgram_behind chunk s.flash known partion (by omega) (by omega)
  rw [← call _ init partion] at writes
  obtain ⟨info', -, writes'⟩ := feed_of_writes writes
  have again : (s.feed chunk).info = { s.info with offset := 0 } := by
    rw [info', counters.1, full]
    rfl
  have init' : (s.feed chunk).info.init = true := by rw [again]; exact init
  have known' : (s.feed chunk).info.getFirstFrame = true := by rw [again]; exact known
  have partion' : (s.feed chunk).info.otaPartion = 2 := by rw [again]; exact partion
  have addr' : (s.feed chunk).info.sAddr = base := by rw [again]; exact addr
  have offset' : (s.feed chunk).info.offset = 0 := by rw [again]
  have ends' : (s.feed chunk).info.dataLen = ends := by rw [again]; exact counters.2
  have short := last.short
  have next := writeProgram_two last (s.feed chunk).flash known' partion' (by omega) (by omega)
    (by omega)
  rw [← call _ init' partion'] at next
  obtain ⟨-, -, writes''⟩ := feed_of_writes next
  have none_ : last.data.drop ((s.feed chunk).info.dataLen - (s.feed chunk).info.offset) = [] :=
    List.drop_eq_nil_of_le (by omega)
  rw [List.foldl_cons, List.foldl_cons, List.foldl_nil, writes'', none_, writes',
    List.flatMap_append, List.flatMap_append, placed.flatMap, halSpifiashWrite_flatMap,
    halSpifiashWrite_flatMap, List.append_nil]
  rfl

end Wraps

/-- The device runs from the first partition, and the second is at 0. -/
def secondLookup : Lookup := ⟨none, none, none, some 0⟩

/-- The device runs from the second partition, and the first is at 0x4000. -/
def firstLookup : Lookup := ⟨none, some 2, some 0x4000, none⟩

/-- A session for one of them. -/
def programSession (env : Lookup) : Session := Session.start env OperateInfo.zero fun _ => 0

theorem programSession_started {env : Lookup} (known : env = secondLookup ∨ env = firstLookup) :
    (programSession env).Started := by
  rcases known with rfl | rfl
  · exact started_start rfl rfl (by decide)
  · exact started_start rfl rfl (by decide)

/-- Nineteen bytes for the first partition in three calls, with two more behind them. -/
theorem otaHal_write_placed_first : Placed 0x4000
    (([⟨[48, 48, 48, 48, 48, 48, 48, 50, 48, 48, 48, 48, 48, 48, 48, 49, 1], [], by decide⟩,
      ⟨[2, 3, 4], [], by decide⟩, ⟨[5], [], by decide⟩] : List Chunk).foldl Session.feed
        (programSession firstLookup)).writes
    [48, 48, 48, 48, 48, 48, 48, 50, 48, 48, 48, 48, 48, 48, 48, 49, 1, 2, 3] :=
  (@otaHal_write_placed _ (programSession_started (.inr rfl))
    ⟨[48, 48, 48, 48, 48, 48, 48, 50, 48, 48, 48, 48, 48, 48, 48, 49, 1], [], by decide⟩
    [⟨[2, 3, 4], [], by decide⟩, ⟨[5], [], by decide⟩] (by decide) (by simp) (.inl rfl)).1

/-- A call with zeros, as digits. -/
def digitChunk (len : Nat) (short : len < 2 ^ 16) : Chunk :=
  ⟨List.replicate len 48, [], by rwa [List.length_replicate]⟩

/-- 2^32 bytes, and ten more. -/
def longImage : List Chunk :=
  List.replicate 131072 (digitChunk 32768 (by decide)) ++ [digitChunk 10 (by decide)]

theorem length_imageOf_replicate (n : Nat) (chunk : Chunk) :
    (imageOf (List.replicate n chunk)).length = n * chunk.data.length := by
  induction n with
  | zero => rw [Nat.zero_mul]; rfl
  | succ n ih =>
    rw [imageOf] at ih ⊢
    rw [List.replicate_succ, List.flatMap_cons, List.length_append, ih, Nat.succ_mul, Nat.add_comm]

/-- The ten bytes behind 2^32 others are not programmed. -/
theorem otaHal_write_placed_wraps :
    ¬ Placed 0 (longImage.foldl Session.feed (programSession secondLookup)).writes
      (programPart 2 (imageOf longImage)) := by
  have zeros : ∀ len short, (digitChunk len short).data = List.replicate len 48 := fun _ _ => rfl
  generalize kilos : digitChunk 32768 (by decide) = chunk
  generalize ten : digitChunk 10 (by decide) = last
  have data : chunk.data = List.replicate 32768 48 := by rw [← kilos, zeros]
  have length : chunk.data.length = 32768 := by rw [data, List.length_replicate]
  have few : last.data.length = 10 := by rw [← ten, zeros, List.length_replicate]
  have ends : firstEnd chunk.data = 16 := by
    rw [firstEnd, data, List.drop_replicate, List.take_replicate, List.take_replicate]
    rfl
  have image : longImage = (chunk :: List.replicate 131070 chunk) ++ [chunk, last] := by
    have more : List.replicate 131072 chunk =
        (chunk :: List.replicate 131070 chunk) ++ [chunk] := by
      rw [← List.replicate_succ, ← List.replicate_succ']
    rw [longImage, kilos, ten, more, List.append_assoc]
    rfl
  have joined : chunk.data ++ imageOf (List.replicate 131070 chunk) =
      imageOf (chunk :: List.replicate 131070 chunk) := (List.flatMap_cons ..).symm
  have front : (imageOf (chunk :: List.replicate 131070 chunk)).length = 4294934528 := by
    rw [← List.replicate_succ, length_imageOf_replicate, length]
  have decimals : ∀ b ∈ chunk.data.take 16, 48 ≤ b.toNat ∧ b.toNat ≤ 57 := by
    intro b mem
    rw [data] at mem
    rw [List.eq_of_mem_replicate (List.mem_of_mem_take mem)]
    decide
  obtain ⟨-, programming⟩ := (programSession_started (.inl rfl)).feed (by omega) decimals
  have run := programming.run (.inr rfl) (by decide) (by omega) (List.replicate 131070 chunk)
    (.inr (by rw [joined, front]; decide))
  rw [joined, ends, ← List.foldl_cons] at run
  have written := @Programming.wraps _ _ _ _ _ chunk last run (by decide) (by omega) (by omega)
    (by omega) (by decide)
  intro placed
  have all := placed.flatMap
  have tail : imageOf [chunk, last] = chunk.data ++ last.data := by
    rw [imageOf, List.flatMap_cons, List.flatMap_singleton]
  have whole : imageOf longImage =
      imageOf (chunk :: List.replicate 131070 chunk) ++ (chunk.data ++ last.data) := by
    rw [← tail, image]
    exact List.flatMap_append
  have ends' : firstEnd (imageOf longImage) = 16 := by
    rw [whole, ← joined, List.append_assoc, firstEnd_append (by omega), ends]
  rw [image, List.foldl_append, written, ← image, programPart, partOf, if_pos rfl, ends',
    whole] at all
  have lengths := congrArg List.length all
  simp only [List.length_append, List.length_drop, front, length, few] at lengths
  omega

end OtaHal

end Tr6260
