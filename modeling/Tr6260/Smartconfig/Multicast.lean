import Tr6260.Smartconfig.Broadcast

/-!
# Keys in multicast addresses

A multicast frame is a part of the key by itself: the three free bytes of its
address are a length, two neighbouring bytes, or the checksum, told apart by the
first of them, and the frame's own length repeats their sum. Parts may be lost
and come in any order and as often as they like; the last of an odd number of
bytes comes with a byte that means nothing.
-/

namespace Tr6260

/-- What `ya_parse_multicast` sees of a frame. -/
structure MulticastFrame where
  now : Nat
  bssid : Mac
  dsMac : DsMac
  saMac : Mac
  len : Int

/-- The parser with its parameters. -/
abbrev MulticastState := SconfigInfo × ParseMulticast

/-- One frame. -/
def multicastStep (s : MulticastState) (frame : MulticastFrame) : MulticastState :=
  yaParseMulticast frame.now frame.bssid frame.dsMac frame.saMac frame.len s.1 s.2

/-- Several frames. -/
def multicastRun (s : MulticastState) (frames : List MulticastFrame) : MulticastState :=
  frames.foldl multicastStep s

/-- The frame is from this sender. -/
def MulticastFrame.From (bssid saMac : Mac) (frame : MulticastFrame) : Bool :=
  frame.bssid = bssid ∧ frame.saMac = saMac

/-! ## Parts -/

/-- The keys a phone can send. -/
abbrev MulticastKey := { key : List UInt8 // 8 ≤ key.length ∧ key.length ≤ 128 }

/-- The parts of a key of some size. -/
inductive KeyPart (size : Nat)
  | length
  | pair (index : Fin ((size + 1) / 2))
  | checksum
  deriving DecidableEq

/-- The address bytes of a part. `pad` stands in for a byte behind the key. -/
def KeyPart.ds (key : List UInt8) (pad : UInt8) : KeyPart key.length → DsMac
  | .length => ⟨0x20, UInt8.ofNat key.length, UInt8.ofNat key.length⟩
  | .pair index => ⟨0x40 ||| UInt8.ofNat index.val, key.getD (2 * index.val) 0,
      key.getD (2 * index.val + 1) pad⟩
  | .checksum => ⟨0x01, key.sum, key.sum⟩

/-- What a frame shows that carries a part. -/
def KeyPart.shown (key : List UInt8) (part : KeyPart key.length × UInt8) : DsMac × Int :=
  (part.1.ds key part.2, (part.1.ds key part.2).lenCheck)

/-- Address bytes and length of a frame. -/
def MulticastFrame.shown (frame : MulticastFrame) : DsMac × Int := (frame.dsMac, frame.len)

/-- The parameters hold what the parts of a kind say, and nothing else of the key. -/
structure Collects (key : List UInt8) (has : KeyPart key.length → Prop) (p : ParseMulticast) :
    Prop where
  len : (p.keyLen.toNat = key.length ∧ has .length) ∨ (p.keyLen = 0 ∧ ¬ has .length)
  checksumFlag : p.keyChecksumFlag = true ↔ has .checksum
  checksum : p.keyChecksumFlag = true → p.keyChecksum = key.sum
  flag : ∀ index : Fin ((key.length + 1) / 2),
    (p.keyFlag (2 * index) ≠ 0 ↔ has (.pair index)) ∧
      (p.keyFlag (2 * index + 1) ≠ 0 ↔ has (.pair index))
  carries : Carries p.key p.keyFlag key

section Parts

variable {key : List UInt8} {has : KeyPart key.length → Prop} {p : ParseMulticast}

/-- The place of a byte in its pair. -/
theorem pair_place {i : Nat} (inside : i < key.length) :
    ∃ index : Fin ((key.length + 1) / 2), i = 2 * index.val ∨ i = 2 * index.val + 1 :=
  ⟨⟨i / 2, by omega⟩, by dsimp only; omega⟩

theorem Collects.flags (collects : Collects key has p) :
    (∀ i < key.length, p.keyFlag i ≠ 0) ↔ ∀ index, has (.pair index) := by
  constructor
  · intro flags index
    exact (collects.flag index).1.mp (flags _ (by omega))
  · intro all i inside
    rcases pair_place inside with ⟨index, rfl | rfl⟩
    · exact (collects.flag index).1.mpr (all index)
    · exact (collects.flag index).2.mpr (all index)

/-- The look for a whole key finds one exactly when all parts have come. -/
theorem Collects.check (collects : Collects key has p) (nonempty : key.length ≠ 0) :
    ((p.keyChecksumFlag = true ∧ p.keyLen ≠ 0) ∧
        checkCacul p.key p.keyFlag p.keyLen.toNat 0 0 = some p.keyChecksum) ↔
      ∀ part, has part := by
  rw [collects.carries.whole_iff nonempty collects.len collects.checksumFlag collects.checksum,
    collects.flags]
  constructor
  · rintro ⟨hasLength, hasChecksum, pairs⟩ part
    cases part with
    | length => exact hasLength
    | pair index => exact pairs index
    | checksum => exact hasChecksum
  · exact fun all => ⟨all _, all _, fun index => all _⟩

theorem Collects.addLength (collects : Collects key has p) (short : key.length < 256) :
    Collects key (fun part => has part ∨ part = .length)
      { p with keyLen := UInt8.ofNat key.length } where
  len := .inl ⟨by rw [UInt8.toNat_ofNat', Nat.mod_eq_of_lt short], .inr rfl⟩
  checksumFlag := collects.checksumFlag.trans (or_iff_left nofun).symm
  checksum := collects.checksum
  flag := fun i => ⟨(collects.flag i).1.trans (or_iff_left nofun).symm,
    (collects.flag i).2.trans (or_iff_left nofun).symm⟩
  carries := collects.carries

theorem Collects.addChecksum (collects : Collects key has p) :
    Collects key (fun part => has part ∨ part = .checksum)
      { p with keyChecksum := key.sum, keyChecksumFlag := true } where
  len := collects.len.imp (And.imp_right .inl) (And.imp_right fun none some => some.elim none nofun)
  checksumFlag := iff_of_true rfl (.inr rfl)
  checksum := fun _ => rfl
  flag := fun i => ⟨(collects.flag i).1.trans (or_iff_left nofun).symm,
    (collects.flag i).2.trans (or_iff_left nofun).symm⟩
  carries := collects.carries

theorem Collects.addPair (collects : Collects key has p) (index : Fin ((key.length + 1) / 2))
    (pad : UInt8) :
    Collects key (fun part => has part ∨ part = .pair index)
      { p with
        key := Function.update (Function.update p.key (index * 2) (key.getD (2 * index) 0))
          (index * 2 + 1) (key.getD (2 * index + 1) pad)
        keyFlag := Function.update (Function.update p.keyFlag (index * 2) 1) (index * 2 + 1) 1 } where
  len := collects.len.imp (And.imp_right .inl) (And.imp_right fun none some => some.elim none nofun)
  checksumFlag := collects.checksumFlag.trans (or_iff_left nofun).symm
  checksum := collects.checksum
  flag := by
    intro i
    by_cases here : i = index
    · subst here
      simp [Nat.mul_comm]
    · have apart : i.val ≠ index.val := fun same => here (Fin.ext same)
      have other : KeyPart.pair i ≠ .pair index := fun same => here (KeyPart.pair.inj same)
      dsimp only
      rw [Function.update_of_ne (by omega), Function.update_of_ne (by omega),
        Function.update_of_ne (by omega), Function.update_of_ne (by omega), or_iff_left other]
      exact collects.flag i
  carries := by
    refine (collects.carries.store fun _ => ?_).store fun inside => ?_
    · rw [Nat.mul_comm]
    · rw [Nat.mul_comm] at inside ⊢
      rw [List.getD_eq_getElem?_getD, List.getD_eq_getElem?_getD,
        List.getElem?_eq_getElem inside, Option.getD_some, Option.getD_some]

end Parts

/-! ## One frame -/

/-- The parser has had the parts of a kind from its sender. -/
structure Watches (bssid saMac : Mac) (key : List UInt8) (has : KeyPart key.length → Prop)
    (s : MulticastState) : Prop where
  locked : s.1.LockedOn bssid saMac
  collects : Collects key has s.2
  finish : s.2.finish = true ↔ ∀ part, has part

section Step

variable {bssid saMac : Mac} {s : MulticastState} {frame : MulticastFrame}

/-- Frames of other senders change nothing. -/
theorem multicastStep_other (locked : s.1.LockedOn bssid saMac)
    (other : ¬ frame.From bssid saMac) : multicastStep s frame = s := by
  rw [MulticastFrame.From, decide_eq_true_eq, ← locked.other_iff] at other
  unfold multicastStep yaParseMulticast
  rw [locked.locked]
  exact if_pos other

/-- A frame of the sender that carries one of the kinds of values. -/
theorem multicastStep_own (locked : s.1.LockedOn bssid saMac) (own : frame.From bssid saMac)
    (low : frame.dsMac.masked = frame.dsMac) (len : frame.len = frame.dsMac.lenCheck)
    {p : ParseMulticast} (value : multicastValue frame.dsMac s.2 = some p) :
    ∃ info : SconfigInfo, info.LockedOn bssid saMac ∧ multicastStep s frame = multicastFinish info p := by
  have mine : ¬ s.1.Other frame.bssid frame.saMac := by
    rw [locked.other_iff, not_not]
    exact of_decide_eq_true own
  refine ⟨if frame.dsMac.Known then { s.1 with channelLockTime := frame.now } else s.1, ?_, ?_⟩
  · split
    · exact ⟨locked.locked, locked.bssid, locked.saMac⟩
    · exact locked
  · unfold multicastStep yaParseMulticast
    dsimp only
    rw [locked.locked, low]
    dsimp only
    rw [if_neg mine, if_neg (not_not.mpr len), value]

variable {key : List UInt8} {has more : KeyPart key.length → Prop}

/-- The look for a whole key behind a value. -/
theorem multicastFinish_watches {info : SconfigInfo} (locked : info.LockedOn bssid saMac)
    {p : ParseMulticast} (collects : Collects key more p) (nonempty : key.length ≠ 0)
    (open_ : p.finish = true → ∀ part, more part) :
    Watches bssid saMac key more (multicastFinish info p) := by
  have check := collects.check nonempty
  unfold multicastFinish
  split
  next whole =>
    exact {
      locked := ⟨locked.locked, locked.bssid, locked.saMac⟩
      collects := ⟨collects.len, collects.checksumFlag, collects.checksum, collects.flag,
        collects.carries⟩
      finish := iff_of_true rfl (check.mp whole) }
  next part =>
    exact ⟨locked, collects, open_, fun all => absurd (check.mpr all) part⟩

/-- The first byte of a pair: no highest bit, no length, the mark of a pair, and its index. -/
theorem pairByte_bits : ∀ index : Fin 64,
    (0x40 ||| UInt8.ofNat index.val) &&& 0x7F = 0x40 ||| UInt8.ofNat index.val ∧
      0x40 ||| UInt8.ofNat index.val ≠ 0x20 ∧
      (0x40 ||| UInt8.ofNat index.val) &&& 0x40 ≠ 0 ∧
      ((0x40 ||| UInt8.ofNat index.val) &&& 0x3F).toNat = index.val := by
  decide

/-- No part has the highest bit. -/
theorem KeyPart.masked_ds (size : key.length ≤ 128) (part : KeyPart key.length) (pad : UInt8) :
    (part.ds key pad).masked = part.ds key pad := by
  cases part with
  | length => exact congrArg (DsMac.mk · _ _) (show (0x20 : UInt8) &&& 0x7F = 0x20 by decide)
  | pair index => exact congrArg (DsMac.mk · _ _) (pairByte_bits ⟨index.val, by omega⟩).1
  | checksum => exact congrArg (DsMac.mk · _ _) (show (0x01 : UInt8) &&& 0x7F = 0x01 by decide)

/-- A part adds what it carries. -/
theorem Watches.part (size : 8 ≤ key.length ∧ key.length ≤ 128)
    (watches : Watches bssid saMac key has s) (own : frame.From bssid saMac)
    {part : KeyPart key.length} {pad : UInt8} (shown : frame.shown = KeyPart.shown key (part, pad)) :
    Watches bssid saMac key (fun other => has other ∨ other = part) (multicastStep s frame) := by
  rcases Prod.mk.inj shown with ⟨ds, len⟩
  rw [← ds] at len
  have nonempty : key.length ≠ 0 := by omega
  have low : frame.dsMac.masked = frame.dsMac := by
    rw [ds]
    exact KeyPart.masked_ds size.2 part pad
  have collects := watches.collects
  have open_ : s.2.finish = true → ∀ other, has other ∨ other = part := fun finished other =>
    .inl (watches.finish.mp finished other)
  cases part with
  | length =>
    have value : multicastValue frame.dsMac s.2 =
        some { s.2 with keyLen := UInt8.ofNat key.length } := by
      have atLeast : UInt8.ofNat key.length ≥ 8 := by
        rw [ge_iff_le, UInt8.le_iff_toNat_le, UInt8.toNat_ofNat', Nat.mod_eq_of_lt (by omega)]
        exact size.1
      have atMost : UInt8.ofNat key.length ≤ 128 := by
        rw [UInt8.le_iff_toNat_le, UInt8.toNat_ofNat', Nat.mod_eq_of_lt (by omega)]
        exact size.2
      rw [ds, KeyPart.ds, multicastValue, if_pos ⟨rfl, rfl⟩]
      exact if_pos ⟨atLeast, atMost⟩
    rcases multicastStep_own watches.locked own low len value with ⟨info, locked, ran⟩
    rw [ran]
    exact multicastFinish_watches locked (collects.addLength (by omega)) nonempty open_
  | pair index =>
    obtain ⟨-, notLength, isPair, place⟩ := pairByte_bits ⟨index.val, by omega⟩
    have value : multicastValue frame.dsMac s.2 = some { s.2 with
        key := Function.update (Function.update s.2.key (index * 2) (key.getD (2 * index) 0))
          (index * 2 + 1) (key.getD (2 * index + 1) pad)
        keyFlag :=
          Function.update (Function.update s.2.keyFlag (index * 2) 1) (index * 2 + 1) 1 } := by
      rw [ds, KeyPart.ds, multicastValue, if_neg fun kind => notLength kind.1, if_pos isPair]
      dsimp only
      rw [place]
    rcases multicastStep_own watches.locked own low len value with ⟨info, locked, ran⟩
    rw [ran]
    exact multicastFinish_watches locked (collects.addPair index pad) nonempty open_
  | checksum =>
    have value : multicastValue frame.dsMac s.2 =
        some { s.2 with keyChecksum := key.sum, keyChecksumFlag := true } := by
      have notLength : (0x01 : UInt8) ≠ 0x20 := by decide
      have noPair : ¬ (0x01 : UInt8) &&& 0x40 ≠ 0 := by decide
      rw [ds, KeyPart.ds, multicastValue, if_neg fun kind => notLength kind.1]
      exact (if_neg noPair).trans (if_pos ⟨rfl, rfl⟩)
    rcases multicastStep_own watches.locked own low len value with ⟨info, locked, ran⟩
    rw [ran]
    exact multicastFinish_watches locked collects.addChecksum nonempty open_

/-- Any number of parts, with frames of other senders in between. -/
theorem Watches.parts (size : 8 ≤ key.length ∧ key.length ≤ 128)
    (watches : Watches bssid saMac key has s) {frames : List MulticastFrame}
    {parts : List (KeyPart key.length × UInt8)}
    (sent : (frames.filter (·.From bssid saMac)).map (·.shown) = parts.map (KeyPart.shown key)) :
    Watches bssid saMac key (fun part => has part ∨ part ∈ parts.map Prod.fst)
      (multicastRun s frames) := by
  induction frames generalizing s has parts with
  | nil =>
    rcases List.map_eq_nil_iff.mp sent.symm with rfl
    simp only [List.map_nil, List.not_mem_nil, or_false]
    exact watches
  | cons frame frames ih =>
    by_cases own : frame.From bssid saMac
    · rw [List.filter_cons_of_pos own, List.map_cons] at sent
      rcases List.map_eq_cons_iff.mp sent.symm with ⟨part, rest, rfl, first, sent⟩
      have next := ih (watches.part size own first.symm) sent.symm
      simp only [or_assoc, ← List.mem_cons, ← List.map_cons] at next
      exact next
    · rw [List.filter_cons_of_neg own] at sent
      rw [multicastRun, List.foldl_cons, multicastStep_other watches.locked own]
      exact ih watches sent

end Step

/-! ## Delivery -/

/-- The parameters as `memset` and the search for a sender leave them. -/
def ParseMulticast.Blank (p : ParseMulticast) : Prop :=
  p = { ParseMulticast.zero with countNum := p.countNum }

theorem ParseMulticast.zero_blank : ParseMulticast.zero.Blank := rfl

/-- A frame stores at places below 128 only. -/
theorem multicastValue_inside {ds : DsMac} {p p' : ParseMulticast}
    (value : multicastValue ds p = some p') {i : Nat} (outside : 128 ≤ i) :
    p'.key i = p.key i ∧ p'.keyFlag i = p.keyFlag i := by
  have small : (ds.d0 &&& 0x3F).toNat < 64 := by
    rw [UInt8.toNat_and]
    exact Nat.lt_of_le_of_lt Nat.and_le_right (by decide)
  unfold multicastValue at value
  split at value
  · split at value <;> cases value
    exact ⟨rfl, rfl⟩
  split at value
  · cases value
    dsimp only
    rw [Function.update_of_ne (by omega), Function.update_of_ne (by omega),
      Function.update_of_ne (by omega), Function.update_of_ne (by omega)]
    exact ⟨rfl, rfl⟩
  split at value <;> cases value
  exact ⟨rfl, rfl⟩

theorem multicastStep_inside (s : MulticastState) (frame : MulticastFrame) {i : Nat}
    (outside : 128 ≤ i) : (multicastStep s frame).2.key i = s.2.key i ∧
      (multicastStep s frame).2.keyFlag i = s.2.keyFlag i := by
  unfold multicastStep yaParseMulticast
  dsimp only
  split
  · unfold multicastLock
    dsimp only
    generalize (if frame.len = _ then s.2.countNum + 1 else 0) = count
    split <;> exact ⟨rfl, rfl⟩
  · split
    · exact ⟨rfl, rfl⟩
    split
    · exact ⟨rfl, rfl⟩
    split
    · exact ⟨rfl, rfl⟩
    next p value =>
      have inside := multicastValue_inside value outside
      unfold multicastFinish
      split <;> exact inside

/-- After the lock the parser finishes exactly when length, checksum and all pairs of the key have
come, whatever their order and number, and has the key then; frames of other senders change nothing,
and nothing is stored behind the arrays. -/
theorem multicast_delivery {bssid saMac : Mac} (key : MulticastKey) {info : SconfigInfo}
    {p : ParseMulticast} (locked : info.LockedOn bssid saMac) (blank : p.Blank)
    (parts : List (KeyPart key.1.length × UInt8)) {frames : List MulticastFrame}
    (sent : (frames.filter (·.From bssid saMac)).map (·.shown) = parts.map (KeyPart.shown key.1)) :
    ((multicastRun (info, p) frames).2.finish = true ↔ ∀ part, part ∈ parts.map Prod.fst) ∧
      ((multicastRun (info, p) frames).2.finish = true →
        (multicastRun (info, p) frames).2.keyLen.toNat = key.1.length ∧
          keyBytes (multicastRun (info, p) frames).2.key
            (multicastRun (info, p) frames).2.keyLen.toNat = key.1) ∧
      (∀ frame : MulticastFrame, ¬ frame.From bssid saMac →
        multicastStep (multicastRun (info, p) frames) frame = multicastRun (info, p) frames) ∧
      ∀ (s : MulticastState) (frame : MulticastFrame) (i : Nat), 128 ≤ i →
        (multicastStep s frame).2.key i = s.2.key i ∧
          (multicastStep s frame).2.keyFlag i = s.2.keyFlag i := by
  have start : Watches bssid saMac key.1 (fun _ => False) (info, p) := by
    refine ⟨locked, ?_, iff_of_false (by rw [blank]; nofun) fun all => all .length⟩
    rw [blank]
    exact {
      len := .inr ⟨rfl, id⟩
      checksumFlag := iff_of_false nofun id
      checksum := nofun
      flag := fun _ => ⟨iff_of_false (fun flagged => flagged rfl) id,
        iff_of_false (fun flagged => flagged rfl) id⟩
      carries := fun _ _ flagged => absurd rfl flagged }
  have watches := start.parts key.2 sent
  simp only [false_or] at watches
  refine ⟨watches.finish, fun finished => ?_, fun frame other => ?_, ?_⟩
  · have all := watches.finish.mp finished
    have len := watches.collects.len.elim And.left fun none => absurd (all .length) none.2
    refine ⟨len, ?_⟩
    rw [len]
    exact watches.collects.carries.keyBytes_eq (watches.collects.flags.mpr fun index => all _)
  · exact multicastStep_other watches.locked other
  · exact fun s frame i => multicastStep_inside s frame

/-- A key of nine bytes. -/
def oddKey : MulticastKey := ⟨[200, 1, 2, 3, 4, 5, 6, 7, 8], by decide⟩

/-- Its parts backwards, the last byte with a zero. -/
def oddParts : List (KeyPart oddKey.1.length × UInt8) :=
  (.checksum, 0) :: (List.finRange _).reverse.map (fun index => (.pair index, 0)) ++ [(.length, 0)]

/-- The phone's frames, behind one of another phone. -/
def oddFrames : List MulticastFrame :=
  ⟨0, homeMac, ⟨0x41, 0, 0⟩, otherMac, 0x42⟩ ::
    oddParts.map fun part =>
      ⟨0, homeMac, (KeyPart.shown oddKey.1 part).1, phoneMac, (KeyPart.shown oddKey.1 part).2⟩

theorem multicast_delivery_odd :
    (multicastRun (phoneLocked, .zero) oddFrames).2.finish = true ∧
      keyBytes (multicastRun (phoneLocked, .zero) oddFrames).2.key
        (multicastRun (phoneLocked, .zero) oddFrames).2.keyLen.toNat = oddKey.1 := by
  have sent : (oddFrames.filter (·.From homeMac phoneMac)).map (·.shown) =
      oddParts.map (KeyPart.shown oddKey.1) := by decide +kernel
  rcases multicast_delivery oddKey phoneLocked_lockedOn
    ParseMulticast.zero_blank oddParts sent with ⟨finish, whole, -⟩
  have all : ∀ part, part ∈ oddParts.map Prod.fst := by
    intro part
    cases part <;> simp [oddParts]
  exact ⟨finish.mpr all, (whole (finish.mpr all)).2⟩

end Tr6260
