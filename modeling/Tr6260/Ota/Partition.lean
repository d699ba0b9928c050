import Tr6260.Ota.McuStore

/-!
# The OTA writer and the bounds of its partition

`otaHal_write` takes the size of a package out of its first frame, rounds it up to sectors and adds
the two state sectors, in an `unsigned int` each time; the base address and the check of the room
use these sums. From the size 0xFFFFD001 on they overflow, the check passes, and the package goes to
the state sectors or behind the partition. The offset would overflow as well, in a partition that
fills the address space up to less than one frame. `otaHalWrite_inside_iff`: frames of all other
kinds, in any order, stay inside.
-/

namespace Tr6260

open FlashProg

/-- Frames handed to `otaHal_write` after `otaHal_init`: the record, the flash, the bytes of the
accepted ones, and what was programmed. -/
structure OtaDownload where
  info : OtaOperateInfo
  flash : ByteMem
  taken : List UInt8
  writes : List (Nat × List UInt8)

namespace OtaDownload

/-- After `otaHal_init`. -/
def start (place : OtaPlace) (m : ByteMem) : OtaDownload where
  info := ((otaHalInit place.entry).run m).1.2
  flash := ((otaHalInit place.entry).run m).2
  taken := []
  writes := (otaHalInit place.entry).writes m

/-- One call of `otaHal_write`. -/
def feed (s : OtaDownload) (frame : List UInt8) : OtaDownload where
  info := ((otaHalWrite s.info frame).run s.flash).1.2
  flash := ((otaHalWrite s.info frame).run s.flash).2
  taken := if ((otaHalWrite s.info frame).run s.flash).1.1 = 0 then s.taken ++ frame else s.taken
  writes := s.writes ++ (otaHalWrite s.info frame).writes s.flash

/-- A write in front of the state sectors. -/
def Inside (place : OtaPlace) (w : Nat × List UInt8) : Prop :=
  place.base ≤ w.1 ∧ w.1 + w.2.length + 2 * otaStatPartSize ≤ place.base + place.len

/-- Every write is in front of the state sectors, the offset is within the package, and the accepted
frames lie one behind the other. -/
structure Safe (place : OtaPlace) (s : OtaDownload) : Prop where
  inside : ∀ w ∈ s.writes, Inside place w
  offset : s.info.offset ≤ s.info.dataLen
  contiguous : ∃ addr, InOrder addr s.writes s.taken

/-! ## What the frames announce -/

/-- The frame is as long as a header, and the size in it passes the check. -/
def Announces (place : OtaPlace) (frame : List UInt8) : Prop :=
  sizeofOtaPkgHeader ≤ frame.length ∧ OtaPlace.reserved (pkgSize frame) ≤ place.len

instance (place : OtaPlace) (frame : List UInt8) : Decidable (Announces place frame) :=
  inferInstanceAs (Decidable (_ ∧ _))

/-- The largest size that is rounded and added to without an overflow. -/
def largestSize : Nat := 0xFFFFD000

/-- A frame whose end would be 4 GiB or more behind the start of its package, where the frames that
go beyond its `size` are left out. `k` bytes are there. -/
def Overflows (size : Nat) : Nat → List (List UInt8) → Prop
  | _, [] => False
  | k, frame :: frames =>
    2 ^ 32 ≤ k + frame.length ∨
      Overflows size (if k + frame.length ≤ size then k + frame.length else k) frames

/-- No sum of the writer overflows. -/
def Fitting (place : OtaPlace) : List (List UInt8) → Prop
  | [] => True
  | frame :: frames =>
    if Announces place frame then
      pkgSize frame ≤ largestSize ∧ ¬ Overflows (pkgSize frame) 0 (frame :: frames)
    else
      Fitting place frames

section Steps

variable {place : OtaPlace} {s : OtaDownload} {frame : List UInt8} {size : Nat}

/-- Before a frame is taken for the first. -/
structure Waiting (place : OtaPlace) (s : OtaDownload) : Prop where
  info : ∃ dataLen, s.info = { place.fresh with dataLen }
  taken : s.taken = []
  writes : s.writes = []

/-- A package that fits is being written. -/
structure Receiving (place : OtaPlace) (size : Nat) (s : OtaDownload) : Prop where
  fits : place.Fits size
  info : s.info = place.placed size s.taken.length
  within : s.taken.length ≤ size
  inside : ∀ w ∈ s.writes, Inside place w
  order : InOrder (place.start size) s.writes s.taken

theorem start_waiting (place : OtaPlace) (m : ByteMem) : Waiting place (start place m) :=
  ⟨⟨0, by unfold start; rw [otaHalInit_run]; rfl⟩, rfl, otaHalInit_writes place m⟩

theorem Waiting.safe (waiting : Waiting place s) : Safe place s := by
  rcases waiting with ⟨⟨dataLen, info⟩, taken, writes⟩
  refine ⟨?_, ?_, ⟨0, ?_⟩⟩
  · rw [writes]
    exact fun w none_ => (nomatch none_)
  · rw [info]
    exact Nat.zero_le _
  · rw [writes, taken]
    rfl

theorem Receiving.safe (recv : Receiving place size s) : Safe place s := by
  refine ⟨recv.inside, ?_, ⟨_, recv.order⟩⟩
  rw [recv.info]
  exact recv.within

/-- Other frames are refused. -/
theorem Waiting.other (waiting : Waiting place s) (other : ¬ Announces place frame) :
    Waiting place (s.feed frame) := by
  rcases waiting with ⟨⟨dataLen, info⟩, taken, writes⟩
  have refused : ∃ dataLen', otaHalWrite s.info frame =
      Pure.pure (-1, { place.fresh with dataLen := dataLen' }) := by
    rw [info]
    unfold otaHalWrite
    rw [if_neg place.fresh_getFirstFrame]
    split
    case isTrue => exact ⟨dataLen, rfl⟩
    case isFalse long =>
      rw [if_pos]
      · exact ⟨pkgSize frame, rfl⟩
      · refine Nat.lt_of_not_le fun room => other ⟨Nat.not_lt.mp long, room⟩
  rcases refused with ⟨dataLen', refused⟩
  unfold feed
  rw [refused, taken, writes]
  exact ⟨⟨dataLen', rfl⟩, rfl, rfl⟩

/-- A frame that announces a package. -/
theorem Waiting.announces (waiting : Waiting place s) (announces : Announces place frame) :
    otaHalWrite s.info frame = otaHalAppend (place.fresh.firstFrame frame) frame := by
  rcases waiting with ⟨⟨dataLen, info⟩, -, -⟩
  rw [info]
  unfold otaHalWrite
  rw [if_neg place.fresh_getFirstFrame, if_neg (Nat.not_lt.mpr announces.1)]
  exact if_neg (Nat.not_lt.mpr announces.2)

theorem Announces.fits (announces : Announces place frame)
    (small : pkgSize frame ≤ largestSize) : place.Fits (pkgSize frame) := by
  have room := announces.2
  unfold largestSize at small
  unfold OtaPlace.reserved alignFileLen u32 otaStatPartSize at room
  unfold OtaPlace.Fits OtaPlace.sectors
  split at room <;> omega

/-- A package that fits begins. -/
theorem Waiting.begins (waiting : Waiting place s) (announces : Announces place frame)
    (small : pkgSize frame ≤ largestSize) :
    Receiving place (pkgSize frame) { s with info := place.placed (pkgSize frame) 0 } ∧
      s.feed frame = feed { s with info := place.placed (pkgSize frame) 0 } frame := by
  have fits := announces.fits small
  have same : otaHalWrite s.info frame = otaHalWrite (place.placed (pkgSize frame) 0) frame := by
    rw [waiting.announces announces, otaHalWrite_next, ← otaHalWrite_first fits announces.1 rfl]
    unfold otaHalWrite
    rw [if_neg place.fresh_getFirstFrame, if_neg (Nat.not_lt.mpr announces.1)]
    exact (if_neg (Nat.not_lt.mpr announces.2)).symm
  constructor
  · refine ⟨fits, ?_, ?_, ?_, ?_⟩
    · rw [waiting.taken]
      rfl
    · rw [waiting.taken]
      exact Nat.zero_le _
    · rw [waiting.writes]
      exact fun w none_ => (nomatch none_)
    · rw [waiting.taken, waiting.writes]
      rfl
  · unfold feed
    rw [same]

/-- A package with a size that overflows goes behind the last byte it may reach. -/
theorem Waiting.leaves (waiting : Waiting place s) (announces : Announces place frame)
    (large : largestSize < pkgSize frame) (short : frame.length < 2 ^ 16) :
    ∃ w ∈ (s.feed frame).writes, ¬ Inside place w := by
  have size : pkgSize frame < 2 ^ 32 := le32At_lt frame 8
  have bound := place.bound
  have address := firstFrame_sAddr announces.2
  have room := announces.2
  have header := announces.1
  have near : OtaPlace.reserved (pkgSize frame) ≤ 8192 := by
    unfold largestSize at large
    unfold OtaPlace.reserved alignFileLen u32 otaStatPartSize
    split <;> omega
  have written : ∃ info, otaHalAppend (place.fresh.firstFrame frame) frame =
      (halSpifiashWrite (place.writeAddr (pkgSize frame)) frame >>= fun _ =>
        Pure.pure (0, info)) := by
    have offset : (place.fresh.firstFrame frame).offset = 0 := rfl
    have dataLen : (place.fresh.firstFrame frame).dataLen = pkgSize frame := rfl
    unfold largestSize at large
    unfold otaHalAppend
    rw [offset, dataLen, address, Nat.zero_add, Nat.add_zero, u32_of_lt (by omega),
      if_neg (by omega)]
    unfold OtaPlace.writeAddr
    rw [u32_of_lt (by omega)]
    exact ⟨_, rfl⟩
  rcases written with ⟨info, written⟩
  refine ⟨(place.writeAddr (pkgSize frame), frame), ?_, ?_⟩
  · unfold feed
    dsimp only
    rw [waiting.announces announces, written, writes_bind, halSpifiashWrite_writes]
    · exact List.mem_append_right _ List.mem_cons_self
    · rintro rfl
      exact absurd header (by decide)
  · rintro ⟨-, high⟩
    unfold sizeofOtaPkgHeader at header
    unfold OtaPlace.writeAddr otaStatPartSize at high
    dsimp only at high
    omega

/-- A further frame of a package. -/
theorem Receiving.feed (recv : Receiving place size s)
    (sum : s.taken.length + frame.length < 2 ^ 32) :
    Receiving place size (s.feed frame) ∧ (s.feed frame).taken.length =
      if s.taken.length + frame.length ≤ size then s.taken.length + frame.length
      else s.taken.length := by
  have order := recv.order
  by_cases within : s.taken.length + frame.length ≤ size
  · have written := otaHalAppend_eq recv.fits within
    have start := recv.fits.start_inside
    have write : otaHalWrite s.info frame =
        (halSpifiashWrite (place.start size + s.taken.length) frame >>= fun _ =>
          Pure.pure (0, place.placed size (s.taken.length + frame.length))) := by
      rw [recv.info, otaHalWrite_next, written]
    have taken : (s.feed frame).taken = s.taken ++ frame := by
      unfold OtaDownload.feed
      rw [write, run_bind, halSpifiashWrite_run]
      rfl
    have writes : (s.feed frame).writes = s.writes ++
        (halSpifiashWrite (place.start size + s.taken.length) frame).writes s.flash := by
      unfold OtaDownload.feed
      dsimp only
      rw [write, writes_bind, writes_pure, List.append_nil]
    refine ⟨⟨recv.fits, ?_, ?_, ?_, ?_⟩, ?_⟩
    · rw [taken, List.length_append]
      unfold OtaDownload.feed
      rw [write, run_bind, halSpifiashWrite_run]
      rfl
    · rw [taken, List.length_append]
      exact within
    · intro w inside
      rw [writes] at inside
      rcases List.mem_append.mp inside with before | now
      · exact recv.inside w before
      · unfold halSpifiashWrite at now
        split at now
        · cases now
        · cases List.mem_singleton.mp now
          unfold Inside otaStatPartSize
          dsimp only
          omega
    · rw [writes, taken]
      refine order.append ?_
      by_cases empty : frame = []
      · rw [empty]
        rfl
      · rw [halSpifiashWrite_writes _ empty]
        exact ⟨rfl, [], (List.append_nil _).symm, rfl⟩
    · rw [taken, List.length_append, if_pos within]
  · have refused : otaHalWrite s.info frame = Pure.pure (-1, s.info) := by
      have bound := place.bound
      rw [recv.info, otaHalWrite_next]
      unfold otaHalAppend
      refine if_pos ?_
      change size < u32 (s.taken.length + frame.length)
      rw [u32_of_lt sum]
      exact Nat.lt_of_not_le within
    have same : s.feed frame = s := by
      unfold OtaDownload.feed
      rw [refused, writes_pure, List.append_nil]
      rfl
    rw [same, if_neg within]
    exact ⟨recv, rfl⟩

/-- The offset overflows. -/
theorem Receiving.leaves (recv : Receiving place size s) (short : frame.length < 2 ^ 16)
    (sum : 2 ^ 32 ≤ s.taken.length + frame.length) :
    ∃ w ∈ (s.feed frame).writes, ¬ Inside place w := by
  have bound := place.bound
  have start := recv.fits.start_inside
  have within := recv.within
  have write : otaHalWrite s.info frame =
      (halSpifiashWrite (place.start size + s.taken.length) frame >>= fun _ =>
        Pure.pure (0, place.placed size (u32 (s.taken.length + frame.length)))) := by
    rw [recv.info, otaHalWrite_next]
    unfold otaHalAppend
    have offset : (place.placed size s.taken.length).offset = s.taken.length := rfl
    have dataLen : (place.placed size s.taken.length).dataLen = size := rfl
    have sAddr : (place.placed size s.taken.length).sAddr = place.start size := rfl
    rw [offset, dataLen, sAddr, if_neg (by unfold u32; omega), u32_of_lt (by omega)]
    rfl
  refine ⟨(place.start size + s.taken.length, frame), ?_, ?_⟩
  · unfold OtaDownload.feed
    dsimp only
    rw [write, writes_bind, halSpifiashWrite_writes]
    · exact List.mem_append_right _ List.mem_cons_self
    · rintro rfl
      rw [List.length_nil] at sum
      omega
  · rintro ⟨-, high⟩
    dsimp only at high
    omega

/-! ## Runs -/

theorem writes_foldl_feed (s : OtaDownload) (frames : List (List UInt8)) {w : Nat × List UInt8}
    (member : w ∈ s.writes) : w ∈ (frames.foldl OtaDownload.feed s).writes := by
  induction frames generalizing s with
  | nil => exact member
  | cons frame frames ih => exact ih (s.feed frame) (List.mem_append_left _ member)

/-- The rest of a package that fits. -/
theorem Receiving.run (recv : Receiving place size s) {frames : List (List UInt8)}
    (short : ∀ frame ∈ frames, frame.length < 2 ^ 16) :
    Safe place (frames.foldl OtaDownload.feed s) ↔ ¬ Overflows size s.taken.length frames := by
  induction frames generalizing s with
  | nil => exact ⟨fun _ none_ => none_, fun _ => recv.safe⟩
  | cons frame frames ih =>
    rw [List.foldl_cons, Overflows, not_or]
    by_cases sum : 2 ^ 32 ≤ s.taken.length + frame.length
    · rcases recv.leaves (short frame List.mem_cons_self) sum with ⟨w, written, outside⟩
      constructor
      · exact fun safe => absurd (safe.inside w (writes_foldl_feed _ _ written)) outside
      · exact fun none_ => absurd sum none_.1
    · rcases recv.feed (Nat.lt_of_not_le sum) with ⟨recv', taken⟩
      have rest := ih recv' fun later inside => short later (List.mem_cons_of_mem _ inside)
      rw [taken] at rest
      rw [rest]
      exact ⟨fun right => ⟨sum, right⟩, fun both => both.2⟩

theorem Waiting.run (waiting : Waiting place s) {frames : List (List UInt8)}
    (short : ∀ frame ∈ frames, frame.length < 2 ^ 16) :
    Safe place (frames.foldl OtaDownload.feed s) ↔ Fitting place frames := by
  induction frames generalizing s with
  | nil => exact ⟨fun _ => trivial, fun _ => waiting.safe⟩
  | cons frame frames ih =>
    rw [Fitting]
    by_cases announces : Announces place frame
    · rw [if_pos announces]
      by_cases small : pkgSize frame ≤ largestSize
      · rcases waiting.begins announces small with ⟨recv, same⟩
        have run := recv.run short
        have rest : Safe place (frames.foldl OtaDownload.feed (s.feed frame)) ↔
            ¬ Overflows (pkgSize frame) s.taken.length (frame :: frames) := by
          rw [same]
          exact run
        rw [waiting.taken] at rest
        rw [List.foldl_cons, rest]
        exact ⟨fun right => ⟨small, right⟩, fun both => both.2⟩
      · rcases waiting.leaves announces (Nat.lt_of_not_le small) (short frame List.mem_cons_self)
          with ⟨w, written, outside⟩
        rw [List.foldl_cons]
        constructor
        · exact fun safe => absurd (safe.inside w (writes_foldl_feed _ _ written)) outside
        · exact fun both => absurd both.1 small
    · rw [if_neg announces, List.foldl_cons]
      exact ih (waiting.other announces) fun later inside =>
        short later (List.mem_cons_of_mem _ inside)

end Steps

/-- The writer stays in its partition exactly when none of its sums overflows. -/
theorem otaHalWrite_inside_iff (place : OtaPlace) (m : ByteMem) {frames : List (List UInt8)}
    (short : ∀ frame ∈ frames, frame.length < 2 ^ 16) :
    Safe place (frames.foldl feed (start place m)) ↔ Fitting place frames :=
  (start_waiting place m).run short

/-- A frame that is the header of a package of this size, and nothing else. -/
def headerFrame (size : Nat) : List UInt8 :=
  List.replicate 8 0 ++ le32Bytes size ++ List.replicate 52 0

/-- A package of one frame. -/
theorem otaHalWrite_inside_one :
    Safe dataOta ([headerFrame 64].foldl feed (start dataOta fun _ => 0)) := by
  refine (otaHalWrite_inside_iff dataOta (fun _ => 0) (by decide)).mpr ?_
  rw [Fitting, if_pos (by decide)]
  refine ⟨by decide, fun sums => ?_⟩
  rcases sums with large | none_
  · exact absurd large (by decide)
  · exact none_

/-- A package of nearly 4 GiB is put behind the partition. -/
theorem otaHalWrite_outside : (headerFrame 0xFFFFE000).length = 64 ∧
    ([headerFrame 0xFFFFE000].foldl feed (start dataOta fun _ => 0)).writes =
      [(dataOta.base + dataOta.len, headerFrame 0xFFFFE000)] ∧
    ¬ Safe dataOta ([headerFrame 0xFFFFE000].foldl feed (start dataOta fun _ => 0)) := by
  have written : ([headerFrame 0xFFFFE000].foldl feed (start dataOta fun _ => 0)).writes =
      [(dataOta.base + dataOta.len, headerFrame 0xFFFFE000)] := by
    decide
  refine ⟨by decide, written, fun safe => ?_⟩
  exact absurd (safe.inside _ (by rw [written]; exact List.mem_singleton_self _)).2 (by decide)

end OtaDownload

end Tr6260
