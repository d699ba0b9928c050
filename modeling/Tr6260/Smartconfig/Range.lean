import Tr6260.Smartconfig.Broadcast

/-!
# The range of the broadcast parser

Which places of its two arrays `ya_parse_broadcast` writes. An index comes in a length from 7 to 87,
one more than there are places: the byte for index 80 goes into `key_flag[0]`, and its flag into
`key_len`. And the name of the access point is read without a look at whether it was found.
-/

namespace Tr6260

/-! ## The property -/

/-- A frame that is neither left out nor a marker. -/
structure TakesValue (info : SconfigInfo) (frame : BroadcastFrame) : Prop where
  searching : info.findPhone ≠ .okKey
  locked : info.switchChannel = .searchEnd
  own : ¬ info.Other frame.bssid frame.saMac
  value : broadcastMarker frame.len = none

/-- The length of a byte of the key. -/
def ByteLength (len : Int) : Prop := 100 ≤ len ∧ len ≤ 255 + 100

/-- The frame writes to this place of `key` and `key_flag`. -/
structure WritesKey (info : SconfigInfo) (p : ParseBroadcast) (frame : BroadcastFrame) (i : Nat) :
    Prop where
  takes : TakesValue info frame
  status : p.status = .key
  byte : ByteLength frame.len
  place : p.keyCurIndex.toNat = i

/-- Length and checksum have come, all bytes have, and their sum is right. -/
def ParseBroadcast.Whole (p : ParseBroadcast) : Prop :=
  (p.keyChecksumFlag = true ∧ p.keyLen ≠ 0) ∧
    checkCacul p.key p.keyFlag p.keyLen.toNat 0 0 = some p.keyChecksum

/-- A frame that the parser takes without leaving its arrays or reading through a `NULL`. -/
structure InRange (routers : List RouterInfo) (info : SconfigInfo) (p : ParseBroadcast)
    (frame : BroadcastFrame) : Prop where
  runs : ∃ s, broadcastStep routers (info, p) frame = some s
  index : ∀ i, WritesKey info p frame i → i < 80
  keyLen : ∀ s, broadcastStep routers (info, p) frame = some s → s.2.keyLen.toNat ≤ 80

/-- What is asked of a frame: behind index 80 it is no byte of a key, and if it makes the key whole,
a beacon of the access point has come. -/
structure RangeMet (routers : List RouterInfo) (info : SconfigInfo) (p : ParseBroadcast)
    (frame : BroadcastFrame) : Prop where
  index : TakesValue info frame → p.status = .key → p.keyCurIndex = 80 → ¬ ByteLength frame.len
  known : ∀ p', TakesValue info frame → broadcastValue frame.len p = some (true, p') → p'.Whole →
    ∃ router ∈ routers, router.bssid = info.bssid

/-- The parameters that frames lead to. The list of access points grows in between, and the other
parsers have the channel and the result in common. -/
inductive BroadcastReach : ParseBroadcast → Prop
  | zero : BroadcastReach .zero
  | step {routers : List RouterInfo} {info : SconfigInfo} {p : ParseBroadcast}
      {frame : BroadcastFrame} {s : BroadcastState} (before : BroadcastReach p)
      (ran : broadcastStep routers (info, p) frame = some s) : BroadcastReach s.2

/-! ## The invariant -/

/-- Only the place behind the last one can be waiting for its byte, and a key has a length in
range. -/
structure ParseBroadcast.Tidy (p : ParseBroadcast) : Prop where
  index : p.status = .key → p.keyCurIndex.toNat ≤ 80
  keyLen : p.keyLen.toNat ≤ 80

section Steps

variable {routers : List RouterInfo} {info : SconfigInfo} {p : ParseBroadcast}
  {frame : BroadcastFrame}

theorem broadcastLock_tidy (tidy : p.Tidy) (bssid saMac : Mac) (len : Int) (info : SconfigInfo) :
    (broadcastLock bssid saMac len info p).2.Tidy := by
  unfold broadcastLock
  split
  · split
    · exact ⟨nofun, Nat.zero_le _⟩
    · exact ⟨tidy.index, tidy.keyLen⟩
  · exact ⟨tidy.index, tidy.keyLen⟩

/-- A value is taken in every status. -/
theorem broadcastValue_tidy (tidy : p.Tidy) (len : Int) :
    ∃ r, broadcastValue len p = some r ∧ r.2.Tidy := by
  unfold broadcastValue
  split
  · split
    · exact ⟨_, rfl, tidy⟩
    next low =>
      refine ⟨_, rfl, nofun, ?_⟩
      change (toU8 len).toNat ≤ 80
      obtain ⟨n, rfl⟩ := Int.eq_ofNat_of_zero_le (by omega : 0 ≤ len)
      rw [toNat_toU8 (by omega)]
      omega
  · split
    · exact ⟨_, rfl, tidy⟩
    next low =>
      refine ⟨_, rfl, fun _ => ?_, tidy.keyLen⟩
      change (toU8 (len - 7)).toNat ≤ 80
      obtain ⟨n, same⟩ := Int.eq_ofNat_of_zero_le (by omega : 0 ≤ len - 7)
      rw [same, toNat_toU8 (by omega)]
      omega
  next status =>
    split
    · exact ⟨_, rfl, tidy⟩
    · have small := tidy.index status
      unfold ParseBroadcast.storeKey
      split
      · exact ⟨_, rfl, nofun, tidy.keyLen⟩
      · rw [if_pos (by omega)]
        refine ⟨_, rfl, nofun, ?_⟩
        change (1 : UInt8).toNat ≤ 80
        decide
  · split
    · exact ⟨_, rfl, tidy⟩
    · exact ⟨_, rfl, nofun, tidy.keyLen⟩
  · exact ⟨_, rfl, tidy⟩
  · exact ⟨_, rfl, tidy⟩

/-- The look for a whole key reads the name of an access point that is in the list. -/
theorem broadcastFinish_iff : (∃ s, broadcastFinish routers info p = some s) ↔
    (p.Whole → ∃ router ∈ routers, router.bssid = info.bssid) := by
  have listed : (∃ router ∈ routers, router.bssid = info.bssid) ↔
      getApInfo routers info.bssid ≠ none := by
    rw [getApInfo, ne_eq, List.find?_eq_none, not_forall]
    simp only [decide_eq_true_eq, not_forall, not_not, exists_prop]
  rw [listed]
  unfold broadcastFinish ParseBroadcast.Whole
  by_cases present : p.keyChecksumFlag = true ∧ p.keyLen ≠ 0
  · rw [if_pos present]
    by_cases sum : checkCacul p.key p.keyFlag p.keyLen.toNat 0 0 = some p.keyChecksum
    · rw [if_pos sum]
      cases getApInfo routers info.bssid with
      | none =>
        exact ⟨fun ⟨_, none_⟩ => (nomatch none_), fun all => absurd rfl (all ⟨present, sum⟩)⟩
      | some apInfo =>
        refine ⟨fun _ _ => nofun, fun _ => ?_⟩
        dsimp only
        split
        · exact ⟨_, rfl⟩
        · exact ⟨_, rfl⟩
    · rw [if_neg sum]
      exact ⟨fun _ whole => absurd whole.2 sum, fun _ => ⟨_, rfl⟩⟩
  · rw [if_neg present]
    exact ⟨fun _ whole => absurd whole.1 present, fun _ => ⟨_, rfl⟩⟩

theorem broadcastFinish_tidy (tidy : p.Tidy) {s : BroadcastState}
    (ran : broadcastFinish routers info p = some s) : s.2.Tidy := by
  unfold broadcastFinish at ran
  split at ran
  · split at ran
    · split at ran
      · cases ran
      · split at ran <;> cases ran
        · exact ⟨tidy.index, tidy.keyLen⟩
        · exact tidy
    · cases ran
      exact tidy
  · cases ran
    exact tidy

/-- A frame that is taken as a value. -/
theorem broadcastStep_takes (takes : TakesValue info frame) :
    broadcastStep routers (info, p) frame =
      match broadcastValue frame.len p with
      | none => none
      | some (false, p) => some (info, p)
      | some (true, p) => broadcastFinish routers info p := by
  unfold broadcastStep yaParseBroadcast
  dsimp only
  rw [if_neg takes.searching, takes.locked]
  dsimp only
  rw [if_neg takes.own]
  have marker := takes.value
  generalize broadcastMarker frame.len = status at marker ⊢
  cases marker
  rfl

/-- Any other frame. -/
theorem broadcastStep_keeps (tidy : p.Tidy) (keeps : ¬ TakesValue info frame) :
    ∃ s, broadcastStep routers (info, p) frame = some s ∧ s.2.Tidy := by
  unfold broadcastStep yaParseBroadcast
  dsimp only
  by_cases found : info.findPhone = .okKey
  · rw [if_pos found]
    exact ⟨_, rfl, tidy⟩
  rw [if_neg found]
  cases channel : info.switchChannel with
  | searchStart => exact ⟨_, rfl, broadcastLock_tidy tidy _ _ _ _⟩
  | searchEnd =>
    dsimp only
    by_cases other : info.Other frame.bssid frame.saMac
    · rw [if_pos other]
      exact ⟨_, rfl, tidy⟩
    rw [if_neg other]
    cases marker : broadcastMarker frame.len with
    | none => exact absurd ⟨found, channel, other, marker⟩ keeps
    | some status =>
      refine ⟨_, rfl, fun key => ?_, tidy.keyLen⟩
      unfold broadcastMarker at marker
      split at marker
      · cases marker
        cases key
      split at marker
      · cases marker
        cases key
      split at marker <;> cases marker
      cases key

theorem broadcastStep_tidy (tidy : p.Tidy) {s : BroadcastState}
    (ran : broadcastStep routers (info, p) frame = some s) : s.2.Tidy := by
  by_cases takes : TakesValue info frame
  · rcases broadcastValue_tidy tidy frame.len with ⟨⟨more, p'⟩, value, tidy'⟩
    rw [broadcastStep_takes takes, value] at ran
    cases more with
    | false =>
      cases ran
      exact tidy'
    | true => exact broadcastFinish_tidy tidy' ran
  · have kept : ∃ s, broadcastStep routers (info, p) frame = some s ∧ s.2.Tidy :=
      broadcastStep_keeps tidy takes
    rcases kept with ⟨s', ran', tidy'⟩
    rw [ran] at ran'
    cases ran'
    exact tidy'

/-- Whether a value leads to a read of the name. -/
theorem broadcastStep_runs (tidy : p.Tidy) :
    (∃ s, broadcastStep routers (info, p) frame = some s) ↔
      ∀ p', TakesValue info frame → broadcastValue frame.len p = some (true, p') → p'.Whole →
        ∃ router ∈ routers, router.bssid = info.bssid := by
  by_cases takes : TakesValue info frame
  · rw [broadcastStep_takes takes]
    rcases broadcastValue_tidy tidy frame.len with ⟨⟨more, p'⟩, value, -⟩
    rw [value]
    cases more with
    | false => exact ⟨fun _ p'' _ same => (nomatch same), fun _ => ⟨_, rfl⟩⟩
    | true =>
      dsimp only
      rw [broadcastFinish_iff]
      constructor
      · rintro listed p'' - same
        cases same
        exact listed
      · exact fun all => all p' takes rfl
  · have kept : ∃ s, broadcastStep routers (info, p) frame = some s ∧ s.2.Tidy :=
      broadcastStep_keeps tidy takes
    rcases kept with ⟨s, ran, -⟩
    exact ⟨fun _ _ here => absurd here takes, fun _ => ⟨s, ran⟩⟩

end Steps

theorem BroadcastReach.tidy {p : ParseBroadcast} (reach : BroadcastReach p) : p.Tidy := by
  induction reach with
  | zero => exact ⟨nofun, Nat.zero_le _⟩
  | step before ran ih => exact broadcastStep_tidy ih ran

/-- In every run, a frame keeps the parser in its arrays and off a missing access point exactly when
it meets the conditions. -/
theorem broadcastInRange_iff {p : ParseBroadcast} (reach : BroadcastReach p)
    (routers : List RouterInfo) (info : SconfigInfo) (frame : BroadcastFrame) :
    InRange routers info p frame ↔ RangeMet routers info p frame := by
  have tidy := reach.tidy
  constructor
  · intro inRange
    refine ⟨fun takes status last byte => ?_, (broadcastStep_runs tidy).mp inRange.runs⟩
    have place : p.keyCurIndex.toNat = 80 := by
      rw [last]
      rfl
    exact absurd (inRange.index 80 ⟨takes, status, byte, place⟩) (Nat.lt_irrefl 80)
  · intro met
    refine ⟨(broadcastStep_runs tidy).mpr met.known, ?_, fun s ran => ?_⟩
    · rintro i ⟨takes, status, byte, rfl⟩
      have small := tidy.index status
      have other : p.keyCurIndex ≠ 80 := fun last => met.index takes status last byte
      have apart : p.keyCurIndex.toNat ≠ 80 := fun last => other (UInt8.toNat_inj.mp last)
      omega
    · exact (broadcastStep_tidy tidy ran).keyLen

/-! ## A whole key, and an index too many -/

theorem BroadcastReach.run {routers : List RouterInfo} {s s' : BroadcastState}
    (reach : BroadcastReach s.2) {frames : List BroadcastFrame}
    (ran : broadcastRun routers s frames = some s') : BroadcastReach s'.2 := by
  induction frames generalizing s with
  | nil =>
    cases ran
    exact reach
  | cons frame frames ih =>
    rcases Option.bind_eq_some_iff.mp ran with ⟨s₁, first, rest⟩
    exact ih (reach.step first) rest

/-- The last frame of a key of six bytes. -/
theorem broadcastInRange_short : ∃ s : BroadcastState,
    broadcastRun homeRouters (phoneLocked, .zero) shortFrames.dropLast = some s ∧
      InRange homeRouters s.1 s.2 ⟨0, homeMac, phoneMac, 6⟩ := by
  have ran : (broadcastRun homeRouters (phoneLocked, .zero) shortFrames.dropLast).map
      (fun s => (s.1.bssid, s.2.status)) = some (homeMac, .len) := by decide +kernel
  rcases Option.map_eq_some_iff.mp ran with ⟨s, moved, parts⟩
  rcases Prod.mk.inj parts with ⟨bssid, status⟩
  refine ⟨s, moved, (broadcastInRange_iff (BroadcastReach.zero.run moved) _ _ _).mpr ⟨?_, ?_⟩⟩
  · intro _ key
    rw [status] at key
    cases key
  · intro _ _ _ _
    exact ⟨_, List.mem_singleton_self _, bssid.symm⟩

/-- A device that waits for a sender. -/
def phoneAwaited : SconfigInfo := ⟨.searchStart, .notActive, homeMac, homeMac, 0⟩

/-- A sender whose index is 80: its byte is written behind both arrays, and makes the key one byte
long. -/
theorem broadcastInRange_last : ∃ s s' : BroadcastState,
    broadcastRun homeRouters (phoneAwaited, .zero) (phoneFrames [3, 3, 3, 3, 3, 87]) = some s ∧
    ¬ InRange homeRouters s.1 s.2 ⟨0, homeMac, phoneMac, 105⟩ ∧
    broadcastStep homeRouters s ⟨0, homeMac, phoneMac, 105⟩ = some s' ∧
    s'.2.keyFlag 0 = 5 ∧ s'.2.keyLen = 1 := by
  have ran : (broadcastRun homeRouters (phoneAwaited, .zero) (phoneFrames [3, 3, 3, 3, 3, 87])).map
      (fun s => ((s.1.findPhone, s.1.switchChannel), (s.1.bssid, s.1.srcmac),
        s.2.status, s.2.keyCurIndex)) =
      some ((.notActive, .searchEnd), (homeMac, phoneMac), .key, 80) := by decide +kernel
  have next : ((broadcastRun homeRouters (phoneAwaited, .zero)
      (phoneFrames [3, 3, 3, 3, 3, 87])).bind fun s =>
        (broadcastStep homeRouters s ⟨0, homeMac, phoneMac, 105⟩).map fun s' =>
          (s'.2.keyFlag 0, s'.2.keyLen)) = some (5, 1) := by decide +kernel
  rcases Option.map_eq_some_iff.mp ran with ⟨s, first, parts⟩
  rw [first, Option.bind_some] at next
  rcases Option.map_eq_some_iff.mp next with ⟨s', second, effects⟩
  simp only [Prod.mk.injEq] at parts effects
  rcases parts with ⟨⟨searching, locked⟩, ⟨bssid, srcmac⟩, status, place⟩
  rcases effects with ⟨flag, length⟩
  refine ⟨s, s', first, fun inRange => ?_, second, flag, length⟩
  have takes : TakesValue s.1 ⟨0, homeMac, phoneMac, 105⟩ := by
    refine ⟨by rw [searching]; decide, locked, ?_, by decide⟩
    rintro (other | other)
    · exact other srcmac.symm
    · exact other bssid
  have last : s.2.keyCurIndex.toNat = 80 := by
    rw [place]
    rfl
  exact absurd (inRange.index 80 ⟨takes, status, ⟨by decide, by decide⟩, last⟩) (by decide)

end Tr6260
