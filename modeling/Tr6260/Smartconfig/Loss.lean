import Tr6260.Smartconfig.Broadcast

/-!
# Lost broadcast frames

A frame that is lost takes with it what the frames behind it in its group mean:
the parser is then in whatever status the last frame before left it. It keeps
waiting for a value over frames whose length is out of range, so the byte of
one group can be taken for the byte that another group has announced, or for
the checksum, and an index for the length of the key.

What is received is sound exactly when no frame behind a loss in its group is
taken for something it is not (`Harmless`). Frames that come behind their own
marker need no such condition.
-/

namespace Tr6260

/-! ## What arrives -/

/-- The frames that arrive of those with `(length, arrives)`, each with whether all frames before it
have arrived. -/
def arrivals : (whole : Bool) → List (Int × Bool) → List (Int × Bool)
  | _, [] => []
  | whole, (len, true) :: rest => (len, whole) :: arrivals whole rest
  | _, (_, false) :: rest => arrivals false rest

/-- A group on its way; `kept` says which of its frames arrive. -/
structure LossyGroup (size : Nat) where
  group : KeyGroup size
  kept : Nat → Bool

/-- The frames of the group, with whether they arrive. -/
def LossyGroup.frames (key : List UInt8) (sent : LossyGroup key.length) : List (Int × Bool) :=
  (sent.group.lens key).mapIdx fun i len => (len, sent.kept i)

/-- What arrives of the group. -/
def LossyGroup.received (key : List UInt8) (sent : LossyGroup key.length) : List (Int × Bool) :=
  arrivals true (sent.frames key)

/-- A frame, with whether all frames before it in its group have arrived. -/
abbrev Arrival := BroadcastFrame × Bool

/-- Length and tag. -/
def Arrival.tag (arrival : Arrival) : Int × Bool := (arrival.1.len, arrival.2)

/-- All that the parser has stored is the phone's. -/
structure ParseBroadcast.Faithful (key : List UInt8) (p : ParseBroadcast) : Prop where
  bytes : ∀ i, p.keyFlag i = 1 → key[i]? = some (p.key i)
  len : p.keyLen = 0 ∨ p.keyLen.toNat = key.length
  checksum : p.keyChecksumFlag = true → p.keyChecksum = key.sum

/-- A length that the parser does not take in its status, takes for an index, or takes for what the
phone has meant. -/
def ParseBroadcast.TakesRight (key : List UInt8) (p : ParseBroadcast) (len : Int) : Prop :=
  match p.status with
  | .len => len < 6 ∨ len > 80 ∨ len = key.length
  | .key => len < 100 ∨ len > 255 + 100 ∨ key[p.keyCurIndex.toNat]? = some (toU8 (len - 100))
  | .chk => len < 100 ∨ len > 255 + 100 ∨ toU8 (len - 100) = key.sum
  | .index | .idle | .ok => True

/-- The frame is not looked at any more, is a marker, or is taken for what it is. -/
def Harmless (key : List UInt8) (s : BroadcastState) (len : Int) : Prop :=
  s.1.findPhone = .okKey ∨ broadcastMarker len ≠ none ∨ s.2.TakesRight key len

section Step

variable {routers : List RouterInfo} {bssid saMac : Mac} {key : BroadcastKey}
  {s s' : BroadcastState} {frame : BroadcastFrame}

theorem ParseBroadcast.Faithful.congr {p p' : ParseBroadcast} (faithful : p.Faithful key.1)
    (same : p'.key = p.key ∧ p'.keyFlag = p.keyFlag ∧ p'.keyLen = p.keyLen ∧
      p'.keyChecksum = p.keyChecksum ∧ p'.keyChecksumFlag = p.keyChecksumFlag) :
    p'.Faithful key.1 := by
  rcases same with ⟨keys, flags, len, checksum, checksumFlag⟩
  refine ⟨?_, ?_, ?_⟩
  · rw [keys, flags]
    exact faithful.bytes
  · rw [len]
    exact faithful.len
  · rw [checksum, checksumFlag]
    exact faithful.checksum

/-- The look for a whole key changes nothing but `finish`. -/
theorem broadcastFinish_params {info : SconfigInfo} {p : ParseBroadcast}
    (ran : broadcastFinish routers info p = some s') :
    s'.2 = { p with finish := s'.2.finish } := by
  unfold broadcastFinish at ran
  split at ran
  · split at ran
    · split at ran
      · cases ran
      · split at ran <;> cases ran <;> rfl
    · cases ran
      rfl
  · cases ran
    rfl

section Value

variable {p p' : ParseBroadcast} {len : Int} {goes : Bool}

/-- What is taken right leaves the parameters faithful. -/
theorem ParseBroadcast.Faithful.value (faithful : p.Faithful key.1) (right : p.TakesRight key.1 len)
    (taken : broadcastValue len p = some (goes, p')) : p'.Faithful key.1 := by
  unfold ParseBroadcast.TakesRight at right
  unfold broadcastValue at taken
  cases status : p.status <;> rw [status] at right taken <;> dsimp only at right taken
  case idle | ok =>
    cases taken
    exact faithful
  case len =>
    split at taken <;> cases taken
    · exact faithful
    next inside =>
      have same : len = key.1.length := by omega
      subst same
      exact ⟨faithful.bytes, .inr (toNat_toU8 (by have := key.2.2; omega)), faithful.checksum⟩
  case index =>
    split at taken <;> cases taken
    · exact faithful
    · exact faithful.congr ⟨rfl, rfl, rfl, rfl, rfl⟩
  case key =>
    split at taken
    · cases taken
      exact faithful
    next inside =>
      have held : key.1[p.keyCurIndex.toNat]? = some (toU8 (len - 100)) := by
        rcases right with low | high | held
        · omega
        · omega
        · exact held
      have place : p.keyCurIndex.toNat < 80 :=
        Nat.lt_of_lt_of_le (List.getElem?_eq_some_iff.mp held).1 key.2.2
      rw [ParseBroadcast.storeKey, if_pos place] at taken
      cases taken
      refine ⟨fun i flagged => ?_, faithful.len, faithful.checksum⟩
      dsimp only at flagged ⊢
      by_cases here : i = p.keyCurIndex.toNat
      · subst here
        rw [Function.update_self]
        exact held
      · rw [Function.update_of_ne here] at flagged ⊢
        exact faithful.bytes i flagged
  case chk =>
    split at taken <;> cases taken
    · exact faithful
    next inside =>
      refine ⟨faithful.bytes, faithful.len, fun _ => ?_⟩
      rcases right with low | high | same
      · omega
      · omega
      · exact same

end Value

/-- A value of the sender and what it leaves. -/
theorem broadcastStep_value_cases (locked : s.1.LockedOn bssid saMac)
    (searching : s.1.findPhone = .notActive) (own : frame.From bssid saMac)
    (value : broadcastMarker frame.len = none) (ran : broadcastStep routers s frame = some s') :
    ∃ goes p', broadcastValue frame.len s.2 = some (goes, p') ∧
      s'.2 = { p' with finish := s'.2.finish } := by
  rw [show s = (s.1, s.2) from rfl, broadcastStep_own locked searching own, value] at ran
  dsimp only at ran
  split at ran
  · cases ran
  next p' taken =>
    cases ran
    exact ⟨false, p', taken, rfl⟩
  next p' taken => exact ⟨true, p', taken, broadcastFinish_params ran⟩

end Step

/-! ## Frames behind their marker -/

/-- The parser understands these frames, the rest of a group whose beginning has arrived. -/
inductive Expects (key : List UInt8) : List Int → ParseBroadcast → Prop
  | start (group : KeyGroup key.length) (p : ParseBroadcast) : Expects key (group.lens key) p
  | length {p : ParseBroadcast} (status : p.status = .len) : Expects key [(key.length : Int)] p
  | index {p : ParseBroadcast} (index : Fin key.length) (status : p.status = .index) :
    Expects key [index.val + 7, (key.getD index.val 0).toNat + 100] p
  | byte {p : ParseBroadcast} (index : Fin key.length) (status : p.status = .key)
      (cur : p.keyCurIndex = toU8 index.val) :
    Expects key [(key.getD index.val 0).toNat + 100] p
  | checksum {p : ParseBroadcast} (status : p.status = .chk) :
    Expects key [key.sum.toNat + 100] p
  | done (p : ParseBroadcast) : Expects key [] p

section Expects

variable {routers : List RouterInfo} {bssid saMac : Mac} {key : BroadcastKey}
  {s s' : BroadcastState} {frame : BroadcastFrame} {lens : List Int}

/-- A frame behind the frames before it in its group is harmless. -/
theorem Expects.harmless {p : ParseBroadcast} {len : Int}
    (expects : Expects key.1 (len :: lens) p) :
    broadcastMarker len ≠ none ∨ p.TakesRight key.1 len := by
  have size := key.2
  unfold ParseBroadcast.TakesRight
  generalize expected : len :: lens = rest at expects
  cases expects with
  | start group => cases group <;> cases expected <;> exact .inl nofun
  | length status =>
    cases expected
    rw [status]
    exact .inr (.inr (.inr rfl))
  | index index status =>
    rw [status]
    exact .inr trivial
  | byte index status cur =>
    cases expected
    have inside := index.isLt
    rw [status]
    refine .inr (.inr (.inr ?_))
    rw [cur, toNat_toU8 (by omega), Int.add_sub_cancel, toU8_toNat,
      List.getElem?_eq_getElem inside, List.getD_eq_getElem?_getD, List.getElem?_eq_getElem inside,
      Option.getD_some]
  | checksum status =>
    cases expected
    rw [status]
    refine .inr (.inr (.inr ?_))
    rw [Int.add_sub_cancel, toU8_toNat]
  | done => cases expected

/-- After such a frame the parser understands the next one. -/
theorem Expects.next (locked : s.1.LockedOn bssid saMac) (searching : s.1.findPhone = .notActive)
    (own : frame.From bssid saMac) (expects : Expects key.1 (frame.len :: lens) s.2)
    (ran : broadcastStep routers s frame = some s') : Expects key.1 lens s'.2 := by
  have size := key.2
  generalize expected : frame.len :: lens = rest at expects
  cases expects with
  | start group =>
    have marked (status : SconfigStatus) (marker : broadcastMarker frame.len = some status) :
        s'.2.status = status := by
      rw [show s = (s.1, s.2) from rfl, broadcastStep_marker locked searching own marker] at ran
      cases ran
      rfl
    cases group with
    | length =>
      rcases List.cons.inj expected with ⟨len, rfl⟩
      exact .length (marked .len (by rw [len]; rfl))
    | byte index =>
      rcases List.cons.inj expected with ⟨len, rfl⟩
      exact .index index (marked .index (by rw [len]; rfl))
    | checksum =>
      rcases List.cons.inj expected with ⟨len, rfl⟩
      exact .checksum (marked .chk (by rw [len]; rfl))
  | index index status =>
    rcases List.cons.inj expected with ⟨len, rfl⟩
    have inside : index.val < 80 := by omega
    rcases broadcastStep_value_cases locked searching own
      (broadcastMarker_value (by omega)) ran with ⟨goes, p', taken, same⟩
    rw [len, broadcastValue_index inside status] at taken
    cases taken
    rw [same]
    exact .byte index rfl rfl
  | length | byte | checksum =>
    rcases List.cons.inj expected with ⟨-, rfl⟩
    exact .done _
  | done => cases expected

end Expects

/-! ## Whole receptions -/

section Receptions

variable {routers : List RouterInfo} {bssid saMac : Mac} {key : BroadcastKey}

end Receptions

end Tr6260
