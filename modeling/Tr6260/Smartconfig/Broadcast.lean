import Tr6260.Smartconfig.Model

/-!
# Keys in the lengths of broadcast frames

The phone sends a key in groups of frames: a marker, and one or two lengths
that mean what the marker says. `KeyGroup.lens` are the lengths of a group.

A group that arrives whole leaves its part of the key, whatever the parser was
waiting for before, since the marker is no value. The groups may then come in
any order and as often as they like: what counts is which of them have come.
-/

namespace Tr6260

/-! ## Frames of one sender -/

/-- What `ya_parse_broadcast` sees of a frame. -/
structure BroadcastFrame where
  now : Nat
  bssid : Mac
  saMac : Mac
  len : Int

/-- The parser with its parameters. -/
abbrev BroadcastState := SconfigInfo × ParseBroadcast

/-- One frame. -/
def broadcastStep (routers : List RouterInfo) (s : BroadcastState) (frame : BroadcastFrame) :
    Option BroadcastState :=
  yaParseBroadcast routers frame.now frame.bssid frame.saMac frame.len s.1 s.2

/-- Several frames. -/
def broadcastRun (routers : List RouterInfo) (s : BroadcastState) :
    List BroadcastFrame → Option BroadcastState
  | [] => some s
  | frame :: frames => (broadcastStep routers s frame).bind fun s => broadcastRun routers s frames

/-- The frame is from this sender. -/
def BroadcastFrame.From (bssid saMac : Mac) (frame : BroadcastFrame) : Bool :=
  frame.bssid = bssid ∧ frame.saMac = saMac

section Step

variable {routers : List RouterInfo} {info info' : SconfigInfo} {p p' : ParseBroadcast}
  {bssid saMac : Mac} {frame : BroadcastFrame}

theorem BroadcastFrame.other_iff (locked : info.LockedOn bssid saMac) :
    info.Other frame.bssid frame.saMac ↔ ¬ frame.From bssid saMac := by
  rw [locked.other_iff, BroadcastFrame.From, decide_eq_true_eq]

theorem broadcastStep_found (found : info.findPhone = .okKey) :
    broadcastStep routers (info, p) frame = some (info, p) :=
  if_pos found

theorem broadcastStep_other (locked : info.LockedOn bssid saMac)
    (other : ¬ frame.From bssid saMac) : broadcastStep routers (info, p) frame = some (info, p) := by
  unfold broadcastStep yaParseBroadcast
  dsimp only
  split
  · rfl
  · rw [locked.locked]
    exact if_pos ((BroadcastFrame.other_iff locked).mpr other)

/-- A frame of the sender, while there is no key. -/
theorem broadcastStep_own (locked : info.LockedOn bssid saMac)
    (searching : info.findPhone = .notActive) (own : frame.From bssid saMac) :
    broadcastStep routers (info, p) frame =
      match broadcastMarker frame.len with
      | some status =>
        some ({ info with channelLockTime := frame.now }, { p with status, keyCurIndex := 0xff })
      | none =>
        match broadcastValue frame.len p with
        | none => none
        | some (false, p) => some (info, p)
        | some (true, p) => broadcastFinish routers info p := by
  have mine : ¬ info.Other frame.bssid frame.saMac := fun other => (BroadcastFrame.other_iff locked).mp other own
  unfold broadcastStep yaParseBroadcast
  dsimp only
  rw [searching, if_neg (by decide), locked.locked]
  exact if_neg mine

theorem broadcastStep_marker (locked : info.LockedOn bssid saMac)
    (searching : info.findPhone = .notActive) (own : frame.From bssid saMac)
    {status : SconfigStatus} (marker : broadcastMarker frame.len = some status) :
    broadcastStep routers (info, p) frame =
      some ({ info with channelLockTime := frame.now }, { p with status, keyCurIndex := 0xff }) := by
  rw [broadcastStep_own locked searching own, marker]

theorem broadcastMarker_value {len : Int} (value : 5 < len) : broadcastMarker len = none := by
  rw [broadcastMarker, if_neg (by omega), if_neg (by omega), if_neg (by omega)]

theorem broadcastStep_value (locked : info.LockedOn bssid saMac)
    (searching : info.findPhone = .notActive) (own : frame.From bssid saMac)
    (value : 5 < frame.len) (taken : broadcastValue frame.len p = some (true, p')) :
    broadcastStep routers (info, p) frame = broadcastFinish routers info p' := by
  rw [broadcastStep_own locked searching own, broadcastMarker_value value, taken]

theorem broadcastFinish_lockedOn (locked : info.LockedOn bssid saMac)
    (ran : broadcastFinish routers info p = some (info', p')) : info'.LockedOn bssid saMac := by
  unfold broadcastFinish at ran
  split at ran
  · split at ran
    · split at ran
      · cases ran
      · split at ran <;> cases ran
        · exact ⟨locked.locked, locked.bssid, locked.saMac⟩
        · exact locked
    · cases ran
      exact locked
  · cases ran
    exact locked

/-- The lock stays. -/
theorem broadcastStep_lockedOn (locked : info.LockedOn bssid saMac)
    (ran : broadcastStep routers (info, p) frame = some (info', p')) :
    info'.LockedOn bssid saMac := by
  cases searching : info.findPhone with
  | okKey =>
    rw [broadcastStep_found searching] at ran
    cases ran
    exact locked
  | notActive =>
    by_cases own : frame.From bssid saMac
    · rw [broadcastStep_own locked searching own] at ran
      split at ran
      · cases ran
        exact ⟨locked.locked, locked.bssid, locked.saMac⟩
      · split at ran
        · cases ran
        · cases ran
          exact locked
        · exact broadcastFinish_lockedOn locked ran
    · rw [broadcastStep_other locked own] at ran
      cases ran
      exact locked

/-- Frames of other senders change nothing. -/
theorem broadcastRun_own (locked : info.LockedOn bssid saMac) (frames : List BroadcastFrame) :
    broadcastRun routers (info, p) frames =
      broadcastRun routers (info, p) (frames.filter (·.From bssid saMac)) := by
  induction frames generalizing info p with
  | nil => rfl
  | cons frame frames ih =>
    by_cases own : frame.From bssid saMac
    · rw [List.filter_cons_of_pos own, broadcastRun, broadcastRun]
      cases ran : broadcastStep routers (info, p) frame with
      | none => rfl
      | some s => exact ih (broadcastStep_lockedOn locked ran)
    · rw [List.filter_cons_of_neg own, broadcastRun, broadcastStep_other locked own]
      exact ih locked

theorem broadcastRun_append (s : BroadcastState) (frames rest : List BroadcastFrame) :
    broadcastRun routers s (frames ++ rest) =
      (broadcastRun routers s frames).bind fun s => broadcastRun routers s rest := by
  induction frames generalizing s with
  | nil => rfl
  | cons frame frames ih =>
    rw [List.cons_append, broadcastRun, broadcastRun, Option.bind_assoc]
    exact congrArg _ (funext fun s => ih s)

end Step

/-! ## Groups -/

/-- The keys a phone can send. -/
abbrev BroadcastKey := { key : List UInt8 // 6 ≤ key.length ∧ key.length ≤ 80 }

/-- The groups for a key of some size. -/
inductive KeyGroup (size : Nat)
  | length
  | byte (index : Fin size)
  | checksum
  deriving DecidableEq

/-- The lengths of the frames of a group. -/
def KeyGroup.lens (key : List UInt8) : KeyGroup key.length → List Int
  | .length => [1, key.length]
  | .byte index => [3, index.val + 7, (key.getD index.val 0).toNat + 100]
  | .checksum => [5, key.sum.toNat + 100]

/-- The parameters hold what the groups of a kind say, and nothing else. -/
structure Gathers (key : List UInt8) (has : KeyGroup key.length → Prop) (p : ParseBroadcast) :
    Prop where
  len : (p.keyLen.toNat = key.length ∧ has .length) ∨ (p.keyLen = 0 ∧ ¬ has .length)
  checksumFlag : p.keyChecksumFlag = true ↔ has .checksum
  checksum : p.keyChecksumFlag = true → p.keyChecksum = key.sum
  flag : ∀ index : Fin key.length, p.keyFlag index ≠ 0 ↔ has (.byte index)
  carries : Carries p.key p.keyFlag key

/-- The parser has had the groups of a kind from its sender. -/
structure Follows (bssid saMac : Mac) (key : List UInt8) (has : KeyGroup key.length → Prop)
    (s : BroadcastState) : Prop where
  locked : s.1.LockedOn bssid saMac
  gathers : Gathers key has s.2
  finish : s.2.finish = true ↔ ∀ group, has group
  found : s.1.findPhone = .okKey ↔ s.2.finish = true

/-- The access point is in the list and has a name. -/
def Named (routers : List RouterInfo) (bssid : Mac) : Prop :=
  ∃ apInfo, getApInfo routers bssid = some apInfo ∧ apInfo.ssid.strlen ≠ 0

section Groups

variable {routers : List RouterInfo} {bssid saMac : Mac} {key : List UInt8}
  {has : KeyGroup key.length → Prop} {info : SconfigInfo} {p : ParseBroadcast}

/-- The look for a whole key finds one exactly when all groups have come. -/
theorem Gathers.check (gathers : Gathers key has p) (nonempty : key.length ≠ 0) :
    ((p.keyChecksumFlag = true ∧ p.keyLen ≠ 0) ∧
        checkCacul p.key p.keyFlag p.keyLen.toNat 0 0 = some p.keyChecksum) ↔
      ∀ group, has group := by
  rw [gathers.carries.whole_iff nonempty gathers.len gathers.checksumFlag gathers.checksum]
  constructor
  · rintro ⟨hasLength, hasChecksum, flags⟩ group
    cases group with
    | length => exact hasLength
    | byte index => exact (gathers.flag index).mp (flags index index.isLt)
    | checksum => exact hasChecksum
  · intro all
    exact ⟨all _, all _, fun i inside => (gathers.flag ⟨i, inside⟩).mpr (all _)⟩

theorem broadcastFinish_incomplete (gathers : Gathers key has p) (nonempty : key.length ≠ 0)
    (missing : ¬ ∀ group, has group) : broadcastFinish routers info p = some (info, p) := by
  unfold broadcastFinish
  split
  next present =>
    rw [if_neg fun sum => missing ((gathers.check nonempty).mp ⟨present, sum⟩)]
  next => rfl

/-- After a value the parser is done when no group is missing. -/
theorem broadcastFinish_follows (named : Named routers bssid)
    (locked : info.LockedOn bssid saMac) (searching : info.findPhone = .notActive)
    (open_ : p.finish = false) (gathers : Gathers key has p) (nonempty : key.length ≠ 0) :
    ∃ s, broadcastFinish routers info p = some s ∧ Follows bssid saMac key has s := by
  by_cases all : ∀ group, has group
  · rcases named with ⟨apInfo, found, name⟩
    rcases (gathers.check nonempty).mpr all with ⟨present, sum⟩
    refine ⟨({ info with findPhone := .okKey }, { p with finish := true }), ?_, ?_⟩
    · rw [broadcastFinish, if_pos present, if_pos sum, locked.bssid, found]
      exact if_pos name
    · exact {
        locked := ⟨locked.locked, locked.bssid, locked.saMac⟩
        gathers := ⟨gathers.len, gathers.checksumFlag, gathers.checksum, gathers.flag,
          gathers.carries⟩
        finish := iff_of_true rfl all
        found := iff_of_true rfl rfl }
  · refine ⟨(info, p), broadcastFinish_incomplete gathers nonempty all, locked, gathers, ?_, ?_⟩
    · exact iff_of_false (by rw [open_]; decide) all
    · exact iff_of_false (by rw [searching]; decide) (by rw [open_]; decide)

theorem Gathers.addLength (gathers : Gathers key has p) (short : key.length < 256)
    (index : UInt8) (status : SconfigStatus) :
    Gathers key (fun group => has group ∨ group = .length)
      { p with keyLen := toU8 key.length, keyCurIndex := index, status } where
  len := .inl ⟨toNat_toU8 short, .inr rfl⟩
  checksumFlag := gathers.checksumFlag.trans (or_iff_left nofun).symm
  checksum := gathers.checksum
  flag := fun i => (gathers.flag i).trans (or_iff_left nofun).symm
  carries := gathers.carries

theorem Gathers.addChecksum (gathers : Gathers key has p) (index : UInt8)
    (status : SconfigStatus) :
    Gathers key (fun group => has group ∨ group = .checksum)
      { p with keyChecksum := key.sum, keyChecksumFlag := true, keyCurIndex := index, status } where
  len := gathers.len.imp (And.imp_right .inl) (And.imp_right fun none some => some.elim none nofun)
  checksumFlag := iff_of_true rfl (.inr rfl)
  checksum := fun _ => rfl
  flag := fun i => (gathers.flag i).trans (or_iff_left nofun).symm
  carries := gathers.carries

theorem Gathers.addByte (gathers : Gathers key has p) (index : Fin key.length) (cur : UInt8)
    (status : SconfigStatus) :
    Gathers key (fun group => has group ∨ group = .byte index)
      { p with
        key := Function.update p.key index (key.getD index 0)
        keyFlag := Function.update p.keyFlag index 1
        keyCurIndex := cur
        status } where
  len := gathers.len.imp (And.imp_right .inl) (And.imp_right fun none some => some.elim none nofun)
  checksumFlag := gathers.checksumFlag.trans (or_iff_left nofun).symm
  checksum := gathers.checksum
  flag := by
    intro i
    by_cases here : i = index
    · subst here
      simp
    · have apart : i.val ≠ index.val := fun same => here (Fin.ext same)
      have other : KeyGroup.byte i ≠ .byte index := fun same => here (KeyGroup.byte.inj same)
      dsimp only
      rw [Function.update_of_ne apart, gathers.flag i, or_iff_left other]
  carries := gathers.carries.store fun _ => rfl

/-- A parser that has found its key has had every group. -/
theorem Follows.full {s : BroadcastState} (follows : Follows bssid saMac key has s)
    (found : s.1.findPhone = .okKey) {more : KeyGroup key.length → Prop}
    (grows : ∀ group, has group → more group) : Follows bssid saMac key more s := by
  have all := follows.finish.mp (follows.found.mp found)
  have same : has = more := funext fun group =>
    propext (iff_of_true (all group) (grows group (all group)))
  exact same ▸ follows

theorem broadcastRun_found {s : BroadcastState} (found : s.1.findPhone = .okKey)
    (frames : List BroadcastFrame) : broadcastRun routers s frames = some s := by
  induction frames with
  | nil => rfl
  | cons frame frames ih =>
    rw [broadcastRun, broadcastStep_found found]
    exact ih

/-- The parser is within a group, some groups of the key are still to come. -/
structure Awaits (bssid saMac : Mac) (key : List UInt8) (has : KeyGroup key.length → Prop)
    (status : SconfigStatus) (s : BroadcastState) : Prop where
  locked : s.1.LockedOn bssid saMac
  searching : s.1.findPhone = .notActive
  open_ : s.2.finish = false
  missing : ¬ ∀ group, has group
  gathers : Gathers key has s.2
  status : s.2.status = status

theorem Awaits.follows {status : SconfigStatus} {s : BroadcastState}
    (awaits : Awaits bssid saMac key has status s) : Follows bssid saMac key has s where
  locked := awaits.locked
  gathers := awaits.gathers
  finish := iff_of_false (by rw [awaits.open_]; decide) awaits.missing
  found := iff_of_false (by rw [awaits.searching]; decide) (by rw [awaits.open_]; decide)

/-- A marker is understood in every status. -/
theorem Follows.marker (routers : List RouterInfo) {s : BroadcastState} (follows : Follows bssid saMac key has s)
    (searching : s.1.findPhone = .notActive) {frame : BroadcastFrame}
    (own : frame.From bssid saMac) {status : SconfigStatus}
    (marker : broadcastMarker frame.len = some status) :
    ∃ s', broadcastStep routers s frame = some s' ∧ Awaits bssid saMac key has status s' := by
  have locked := follows.locked
  have gathers := follows.gathers
  have open_ : s.2.finish ≠ true := fun finished => by
    rw [follows.found.mpr finished] at searching
    cases searching
  refine ⟨_, broadcastStep_marker locked searching own marker, ?_⟩
  exact {
    locked := ⟨locked.locked, locked.bssid, locked.saMac⟩
    searching
    open_ := Bool.not_eq_true _ ▸ open_
    missing := fun all => open_ (follows.finish.mpr all)
    gathers := ⟨gathers.len, gathers.checksumFlag, gathers.checksum, gathers.flag, gathers.carries⟩
    status := rfl }

theorem broadcastValue_length (len : key.length ≤ 80) (low : 6 ≤ key.length)
    (status : p.status = .len) :
    broadcastValue key.length p =
      some (true, { p with keyLen := toU8 key.length, keyCurIndex := 0xff, status := .idle }) := by
  unfold broadcastValue
  rw [status]
  exact if_neg (by omega)

theorem broadcastValue_index {index : Nat} (inside : index < 80) (status : p.status = .index) :
    broadcastValue (index + 7) p =
      some (true, { p with keyCurIndex := toU8 index, status := .key }) := by
  unfold broadcastValue
  rw [status]
  dsimp only
  rw [if_neg (by omega), Int.add_sub_cancel]

theorem broadcastValue_byte {index : Nat} (inside : index < 80) (status : p.status = .key)
    (cur : p.keyCurIndex = toU8 index) (byte : UInt8) :
    broadcastValue (byte.toNat + 100) p =
      some (true, { p with
        key := Function.update p.key index byte
        keyFlag := Function.update p.keyFlag index 1
        status := .idle }) := by
  have small := byte.toNat_lt
  have place : p.keyCurIndex.toNat = index := by rw [cur, toNat_toU8 (by omega)]
  unfold broadcastValue
  rw [status]
  dsimp only
  rw [if_neg (by omega), Int.add_sub_cancel, toU8_toNat, place, ParseBroadcast.storeKey,
    if_pos inside]
  rfl

theorem broadcastValue_checksum (status : p.status = .chk) (byte : UInt8) :
    broadcastValue (byte.toNat + 100) p =
      some (true, { p with keyChecksum := byte, keyChecksumFlag := true, status := .idle }) := by
  have small := byte.toNat_lt
  unfold broadcastValue
  rw [status]
  dsimp only
  rw [if_neg (by omega), Int.add_sub_cancel, toU8_toNat]

section Values

variable {status : SconfigStatus} {s : BroadcastState} {frame : BroadcastFrame}

/-- An index behind its marker. -/
theorem Awaits.index (routers : List RouterInfo) (awaits : Awaits bssid saMac key has .index s)
    (nonempty : key.length ≠ 0) (own : frame.From bssid saMac) {index : Nat} (inside : index < 80)
    (value : frame.len = index + 7) :
    ∃ s', broadcastStep routers s frame = some s' ∧ Awaits bssid saMac key has .key s' ∧
      s'.2.keyCurIndex = toU8 index := by
  have gathers := awaits.gathers
  have taken := broadcastValue_index inside awaits.status
  rw [← value] at taken
  refine ⟨(s.1, { s.2 with keyCurIndex := toU8 index, status := .key }), ?_, ?_, rfl⟩
  · rw [broadcastStep_value awaits.locked awaits.searching own (by omega) taken]
    exact broadcastFinish_incomplete ⟨gathers.len, gathers.checksumFlag, gathers.checksum,
      gathers.flag, gathers.carries⟩ nonempty awaits.missing
  · exact {
      locked := awaits.locked
      searching := awaits.searching
      open_ := awaits.open_
      missing := awaits.missing
      gathers := ⟨gathers.len, gathers.checksumFlag, gathers.checksum, gathers.flag,
        gathers.carries⟩
      status := rfl }

/-- The value that ends a group. -/
theorem Awaits.value (named : Named routers bssid) (awaits : Awaits bssid saMac key has status s)
    (nonempty : key.length ≠ 0) (own : frame.From bssid saMac) {len : Int} (value : frame.len = len)
    (high : 5 < len) {p' : ParseBroadcast} (taken : broadcastValue len s.2 = some (true, p'))
    (open_ : p'.finish = false) {more : KeyGroup key.length → Prop} (gathers : Gathers key more p') :
    ∃ s', broadcastStep routers s frame = some s' ∧ Follows bssid saMac key more s' := by
  rcases broadcastFinish_follows named awaits.locked awaits.searching open_
    gathers nonempty with ⟨s', ran, follows⟩
  refine ⟨s', ?_, follows⟩
  rw [← ran]
  exact broadcastStep_value awaits.locked awaits.searching own (value ▸ high) (value ▸ taken)

end Values

/-- A whole group adds its part of the key. -/
theorem Follows.group (named : Named routers bssid) (size : 6 ≤ key.length ∧ key.length ≤ 80)
    {s : BroadcastState} (follows : Follows bssid saMac key has s) (group : KeyGroup key.length)
    {frames : List BroadcastFrame} (own : ∀ frame ∈ frames, frame.From bssid saMac)
    (lens : frames.map (·.len) = group.lens key) :
    ∃ s', broadcastRun routers s frames = some s' ∧
      Follows bssid saMac key (fun g => has g ∨ g = group) s' := by
  have nonempty : key.length ≠ 0 := by omega
  cases searching : s.1.findPhone with
  | okKey =>
    exact ⟨_, broadcastRun_found searching frames, follows.full searching fun _ => .inl⟩
  | notActive =>
    cases group with
    | length =>
      rcases List.map_eq_cons_iff.mp lens with ⟨first, rest, rfl, marker, lens⟩
      rcases List.map_eq_cons_iff.mp lens with ⟨second, rest, rfl, value, lens⟩
      rcases List.map_eq_nil_iff.mp lens with rfl
      rcases follows.marker routers searching (own first (by simp))
        (by rw [marker]; rfl) with ⟨s₁, ran₁, awaits⟩
      have taken := broadcastValue_length size.2 size.1 awaits.status
      rcases awaits.value named nonempty (own second (by simp)) value
        (by omega) taken awaits.open_ (awaits.gathers.addLength (by omega) _ _) with
        ⟨s₂, ran₂, follows₂⟩
      exact ⟨s₂, by simp only [broadcastRun, ran₁, ran₂, Option.bind_some], follows₂⟩
    | byte index =>
      rcases List.map_eq_cons_iff.mp lens with ⟨first, rest, rfl, marker, lens⟩
      rcases List.map_eq_cons_iff.mp lens with ⟨second, rest, rfl, place, lens⟩
      rcases List.map_eq_cons_iff.mp lens with ⟨third, rest, rfl, value, lens⟩
      rcases List.map_eq_nil_iff.mp lens with rfl
      have inside : index.val < 80 := by omega
      rcases follows.marker routers searching (own first (by simp))
        (by rw [marker]; rfl) with ⟨s₁, ran₁, awaits₁⟩
      rcases awaits₁.index routers nonempty (own second (by simp))
        inside place with ⟨s₂, ran₂, awaits₂, cur⟩
      have taken := broadcastValue_byte inside awaits₂.status cur (key.getD index 0)
      rcases awaits₂.value named nonempty (own third (by simp)) value
        (by omega) taken awaits₂.open_ (awaits₂.gathers.addByte index _ _) with ⟨s₃, ran₃, follows₃⟩
      exact ⟨s₃, by simp only [broadcastRun, ran₁, ran₂, ran₃, Option.bind_some], follows₃⟩
    | checksum =>
      rcases List.map_eq_cons_iff.mp lens with ⟨first, rest, rfl, marker, lens⟩
      rcases List.map_eq_cons_iff.mp lens with ⟨second, rest, rfl, value, lens⟩
      rcases List.map_eq_nil_iff.mp lens with rfl
      rcases follows.marker routers searching (own first (by simp))
        (by rw [marker]; rfl) with ⟨s₁, ran₁, awaits⟩
      have taken := broadcastValue_checksum awaits.status key.sum
      rcases awaits.value named nonempty (own second (by simp)) value
        (by omega) taken awaits.open_ (awaits.gathers.addChecksum _ _) with ⟨s₂, ran₂, follows₂⟩
      exact ⟨s₂, by simp only [broadcastRun, ran₁, ran₂, Option.bind_some], follows₂⟩

/-- A group that has not ended yet adds nothing. -/
theorem Follows.begun (size : 6 ≤ key.length ∧ key.length ≤ 80) {s : BroadcastState}
    (follows : Follows bssid saMac key has s) (group : KeyGroup key.length)
    {frames : List BroadcastFrame} (own : ∀ frame ∈ frames, frame.From bssid saMac)
    (lens : frames.map (·.len) <+: group.lens key) (unended : frames.map (·.len) ≠ group.lens key) :
    ∃ s', broadcastRun routers s frames = some s' ∧ Follows bssid saMac key has s' := by
  cases searching : s.1.findPhone with
  | okKey => exact ⟨s, broadcastRun_found searching frames, follows⟩
  | notActive =>
    have marked (first : BroadcastFrame) (status : SconfigStatus) (mine : first.From bssid saMac)
        (marker : broadcastMarker first.len = some status) :
        ∃ s', broadcastRun routers s [first] = some s' ∧ Awaits bssid saMac key has status s' := by
      rcases follows.marker routers searching mine marker with ⟨s₁, ran, awaits⟩
      exact ⟨s₁, by rw [broadcastRun, ran]; rfl, awaits⟩
    cases frames with
    | nil => exact ⟨s, rfl, follows⟩
    | cons first rest =>
      cases group with
      | length =>
        rw [KeyGroup.lens, List.map_cons, List.cons_prefix_cons] at lens
        cases rest with
        | nil =>
          rcases marked first .len (own _ (by simp)) (by rw [lens.1]; rfl) with ⟨s₁, ran, awaits⟩
          exact ⟨s₁, ran, awaits.follows⟩
        | cons second rest =>
          rw [List.map_cons, List.cons_prefix_cons, List.prefix_nil, List.map_eq_nil_iff] at lens
          rcases lens with ⟨marker, value, rfl⟩
          exact absurd (by simp [KeyGroup.lens, marker, value]) unended
      | byte index =>
        rw [KeyGroup.lens, List.map_cons, List.cons_prefix_cons] at lens
        rcases marked first .index (own _ (by simp)) (by rw [lens.1]; rfl) with ⟨s₁, ran₁, awaits₁⟩
        cases rest with
        | nil => exact ⟨s₁, ran₁, awaits₁.follows⟩
        | cons second rest =>
          rw [List.map_cons, List.cons_prefix_cons] at lens
          rcases lens with ⟨marker, place, lens⟩
          rcases awaits₁.index routers (by omega) (own second (by simp))
            (by omega) place with ⟨s₂, ran₂, awaits₂, -⟩
          cases rest with
          | nil =>
            refine ⟨s₂, ?_, awaits₂.follows⟩
            rw [show [first, second] = [first] ++ [second] from rfl, broadcastRun_append, ran₁,
              Option.bind_some, broadcastRun, ran₂]
            rfl
          | cons third rest =>
            rw [List.map_cons, List.cons_prefix_cons, List.prefix_nil, List.map_eq_nil_iff] at lens
            rcases lens with ⟨value, rfl⟩
            exact absurd (by simp [KeyGroup.lens, marker, place, value]) unended
      | checksum =>
        rw [KeyGroup.lens, List.map_cons, List.cons_prefix_cons] at lens
        cases rest with
        | nil =>
          rcases marked first .chk (own _ (by simp)) (by rw [lens.1]; rfl) with ⟨s₁, ran, awaits⟩
          exact ⟨s₁, ran, awaits.follows⟩
        | cons second rest =>
          rw [List.map_cons, List.cons_prefix_cons, List.prefix_nil, List.map_eq_nil_iff] at lens
          rcases lens with ⟨marker, value, rfl⟩
          exact absurd (by simp [KeyGroup.lens, marker, value]) unended

/-- Any number of whole groups. -/
theorem Follows.groups (named : Named routers bssid) (size : 6 ≤ key.length ∧ key.length ≤ 80)
    {s : BroadcastState} (follows : Follows bssid saMac key has s)
    (groups : List (KeyGroup key.length)) {frames : List BroadcastFrame}
    (own : ∀ frame ∈ frames, frame.From bssid saMac)
    (lens : frames.map (·.len) = groups.flatMap (KeyGroup.lens key)) :
    ∃ s', broadcastRun routers s frames = some s' ∧
      Follows bssid saMac key (fun g => has g ∨ g ∈ groups) s' := by
  induction groups generalizing s has frames with
  | nil =>
    rcases List.map_eq_nil_iff.mp lens with rfl
    exact ⟨s, rfl, by simpa using follows⟩
  | cons group groups ih =>
    rw [List.flatMap_cons] at lens
    rcases List.map_eq_append_iff.mp lens with ⟨front, rest, rfl, now, later⟩
    rcases follows.group named size group
      (fun frame mem => own frame (List.mem_append_left _ mem)) now with ⟨s₁, ran₁, follows₁⟩
    rcases ih follows₁
      (fun frame mem => own frame (List.mem_append_right _ mem)) later with ⟨s₂, ran₂, follows₂⟩
    refine ⟨s₂, by rw [broadcastRun_append, ran₁, Option.bind_some, ran₂], ?_⟩
    simpa only [List.mem_cons, or_assoc] using follows₂

end Groups

/-! ## Delivery -/

/-- The parameters as `memset` and the search for a sender leave them. -/
def ParseBroadcast.Blank (p : ParseBroadcast) : Prop :=
  p = { ParseBroadcast.zero with countNum := p.countNum }

theorem ParseBroadcast.zero_blank : ParseBroadcast.zero.Blank := rfl

theorem ParseBroadcast.Blank.gathers {p : ParseBroadcast} (blank : p.Blank) (key : List UInt8) :
    Gathers key (fun _ => False) p := by
  rw [blank]
  exact {
    len := .inr ⟨rfl, id⟩
    checksumFlag := iff_of_false nofun id
    checksum := nofun
    flag := fun _ => iff_of_false (fun flagged => flagged rfl) id
    carries := fun _ _ flagged => absurd rfl flagged }

/-- After the lock the parser finishes exactly when all groups of the key have come, whatever their
order and number and whoever else sends, and has the key then. The last group may still be under way
(`begun`). -/
theorem broadcast_delivery {routers : List RouterInfo} {bssid saMac : Mac}
    (named : Named routers bssid) (key : BroadcastKey) {info : SconfigInfo} {p : ParseBroadcast}
    (locked : info.LockedOn bssid saMac) (searching : info.findPhone = .notActive)
    (blank : p.Blank) (groups : List (KeyGroup key.1.length)) {begun : List Int}
    {group : KeyGroup key.1.length} (begins : begun <+: group.lens key.1)
    (unended : begun ≠ group.lens key.1) {frames : List BroadcastFrame}
    (sent : (frames.filter (·.From bssid saMac)).map (·.len) =
      groups.flatMap (KeyGroup.lens key.1) ++ begun) :
    ∃ s, broadcastRun routers (info, p) frames = some s ∧
      (s.2.finish = true ↔ ∀ group, group ∈ groups) ∧
      (s.2.finish = true → s.2.keyLen.toNat = key.1.length ∧
        keyBytes s.2.key s.2.keyLen.toNat = key.1) := by
  have start : Follows bssid saMac key.1 (fun _ => False) (info, p) := {
    locked
    gathers := blank.gathers key.1
    finish := iff_of_false (by rw [blank]; nofun) fun all => all .length
    found := iff_of_false (by rw [searching]; nofun) (by rw [blank]; nofun) }
  have own : ∀ frame ∈ frames.filter (·.From bssid saMac), frame.From bssid saMac :=
    fun frame mem => (List.mem_filter.mp mem).2
  rw [broadcastRun_own locked frames]
  generalize frames.filter (·.From bssid saMac) = mine at sent own
  rcases List.map_eq_append_iff.mp sent with ⟨front, rest, rfl, whole, last⟩
  rcases start.groups named key.2 groups
    (fun frame mem => own frame (List.mem_append_left _ mem)) whole with ⟨s₁, ran₁, follows₁⟩
  rcases follows₁.begun key.2 group
    (fun frame mem => own frame (List.mem_append_right _ mem)) (last ▸ begins) (last ▸ unended) with
    ⟨s₂, ran₂, follows⟩
  simp only [false_or] at follows
  refine ⟨s₂, by rw [broadcastRun_append, ran₁, Option.bind_some, ran₂], follows.finish, ?_⟩
  intro finished
  have all := follows.finish.mp finished
  have len : s₂.2.keyLen.toNat = key.1.length :=
    follows.gathers.len.elim And.left fun none => absurd (all .length) none.2
  refine ⟨len, ?_⟩
  rw [len]
  exact follows.gathers.carries.keyBytes_eq fun i inside =>
    (follows.gathers.flag ⟨i, inside⟩).mpr (all _)

/-- An access point, a phone in its network and another one. -/
def homeMac : Mac := #v[2, 0, 0, 0, 0, 1]

def phoneMac : Mac := #v[2, 0, 0, 0, 0, 2]

def otherMac : Mac := #v[2, 0, 0, 0, 0, 3]

def homeRouters : List RouterInfo := [⟨4, 6, (3, 3), homeMac, .lit ['h', 'o', 'm', 'e']⟩]

/-- The channel is locked on the phone. -/
def phoneLocked : SconfigInfo := ⟨.searchEnd, .notActive, homeMac, phoneMac, 0⟩

theorem phoneLocked_lockedOn : phoneLocked.LockedOn homeMac phoneMac := ⟨rfl, rfl, rfl⟩

theorem homeRouters_named : Named homeRouters homeMac := ⟨_, rfl, by decide⟩

/-- The frames of the phone with these lengths. -/
def phoneFrames (lens : List Int) : List BroadcastFrame :=
  lens.map fun len => ⟨0, homeMac, phoneMac, len⟩

/-- A key of six bytes. -/
def shortKey : BroadcastKey := ⟨[200, 1, 2, 3, 4, 5], by decide⟩

/-- Its groups, the checksum first, the bytes backwards and the length last. -/
def shortGroups : List (KeyGroup shortKey.1.length) :=
  .checksum :: (List.finRange _).reverse.map .byte ++ [.length]

theorem mem_shortGroups (group : KeyGroup shortKey.1.length) : group ∈ shortGroups := by
  cases group <;> simp [shortGroups]

/-- The phone's frames, behind one of the other phone. -/
def shortFrames : List BroadcastFrame :=
  ⟨0, homeMac, otherMac, 3⟩ :: phoneFrames (shortGroups.flatMap (KeyGroup.lens shortKey.1))

theorem broadcast_delivery_short : ∃ s,
    broadcastRun homeRouters (phoneLocked, .zero) shortFrames = some s ∧
      s.2.finish = true ∧ keyBytes s.2.key s.2.keyLen.toNat = shortKey.1 := by
  have sent : (shortFrames.filter (·.From homeMac phoneMac)).map (·.len) =
      shortGroups.flatMap (KeyGroup.lens shortKey.1) ++ [] := by decide +kernel
  have begins : [] <+: KeyGroup.lens shortKey.1 .length := List.nil_prefix
  rcases broadcast_delivery homeRouters_named shortKey
    phoneLocked_lockedOn rfl ParseBroadcast.zero_blank shortGroups begins nofun sent with
    ⟨s, ran, finish, whole⟩
  have finished := finish.mpr mem_shortGroups
  exact ⟨s, ran, finished, (whole finished).2⟩

end Tr6260
