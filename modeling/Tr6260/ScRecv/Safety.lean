import Tr6260.ScRecv.Model

/-!
# Safety of `sc_recv`

What a frame must not do: be taken without a direction, leave `get_base_len` without a result, or
complete the prefix code of more than 60 bytes. Everything else `sc_recv` does with a frame stays
inside its arrays, in every state it can be in.
-/

namespace Tr6260

namespace ScRecv

/-! ## Conditions -/

/-- A frame that is not dropped at once goes to or comes from an access point. -/
def Directed (frame : List UInt8) : Prop :=
  let flags := frame.getD 1 0
  24 ≤ frame.length → flags &&& 0x08 = 0 → flags &&& 0x40 ≠ 0 →
    flags &&& 0x02 = 0x02 ∨ flags &&& 0x01 = 0x01

/-- A guide length completes four of them. -/
def Full (s : ScContext) (length type : Nat) : Prop :=
  isGuide s length type → (appendPrefix s.data (rowOf maxGuideRecord type) length).2 = true

/-- A prefix code that is complete is one of at most 60 bytes. -/
def Short (s : ScContext) (length type : Nat) : Prop :=
  let row := rowOf maxPrefixCodeRecord type
  let data := pushRecord s.data row maxPrefixCodeRecord (codeOf s length type)
  s.baseLen type ≠ 0 → isPrefix data row → prefixGood data row → s.totalLen ≤ 60

/-- The frame is one that `sc_recv` looks for a guide length in. -/
def Guided (s : ScContext) (frame : List UInt8) : Prop :=
  match s.scState with
  | .idle => 50 ≤ frame.length
  | .srcLocked | .magicCodeComplete | .prefixCodeComplete => True
  | .stoped | .complete => False

/-- What is asked of a frame when the filter has let it through. -/
structure SwitchMet (aps : List ApInfo) (s : ScContext) (frame : List UInt8) (type : Nat) :
    Prop where
  full : Guided s frame → Full s (frame.length % 2 ^ 16) type
  short : s.scState = .magicCodeComplete →
    Short (getBaseLen aps s frame (frame.length % 2 ^ 16) type).context (frame.length % 2 ^ 16) type

/-- What is asked of a frame. -/
structure Met (aps : List ApInfo) (s : ScContext) (frame : List UInt8) : Prop where
  directed : Directed frame
  switch : ∀ f type, scFilter aps s frame = some f → f.type = some type →
    SwitchMet aps f.context frame type

/-- The part of it that the states to come depend on. -/
structure Walks (aps : List ApInfo) (s : ScContext) (frame : List UInt8) : Prop where
  directed : Directed frame
  short : ∀ f type, scFilter aps s frame = some f → f.type = some type →
    f.context.scState = .magicCodeComplete →
    Short (getBaseLen aps f.context frame (frame.length % 2 ^ 16) type).context
      (frame.length % 2 ^ 16) type

theorem Met.walks {aps : List ApInfo} {s : ScContext} {frame : List UInt8}
    (met : Met aps s frame) : Walks aps s frame :=
  ⟨met.directed, fun f type run accepted => (met.switch f type run accepted).short⟩

/-- The contexts of runs over frames. The list of access points may change between them. -/
inductive ScReach : ScContext → Prop
  | start : ScReach .start
  | step {s : ScContext} {aps : List ApInfo} {stack : Int} {frame : List UInt8} {r : Received} :
    ScReach s → Walks aps s frame → scRecv aps stack s frame = some r → ScReach r.context

/-- A frame is received without a type that is missing, and with accesses that are right. -/
def StepSafe (aps : List ApInfo) (stack : Int) (s : ScContext) (frame : List UInt8) : Prop :=
  ∃ r, scRecv aps stack s frame = some r ∧ ∀ a ∈ r.accesses, a.Ok

/-! ## The invariant -/

/-- The password fits its array and the pieces that are needed fit a map of 16. -/
structure ScInv (s : ScContext) : Prop where
  pswdLen : s.pswdLen ≤ passwordMaxLen
  needSeq : s.needSeq < 16

/-- Nothing that the invariant is about has changed. -/
structure Kept (s s' : ScContext) : Prop where
  pswdLen : s'.pswdLen = s.pswdLen
  needSeq : s'.needSeq = s.needSeq
  totalLen : s'.totalLen = s.totalLen

theorem Kept.inv {s s' : ScContext} (kept : Kept s s') (inv : ScInv s) : ScInv s' :=
  ⟨kept.pswdLen ▸ inv.pswdLen, kept.needSeq ▸ inv.needSeq⟩

theorem snCheck_kept (s : ScContext) (sn type : Nat) : Kept s (snCheck s sn type).2 := by
  rw [snCheck]
  split
  · exact ⟨rfl, rfl, rfl⟩
  · exact ⟨rfl, rfl, rfl⟩

/-- What a filter leaves. -/
structure FilterRight (s : ScContext) (f : Filtered) : Prop where
  kept : Kept s f.context
  type : ∀ t, f.type = some t → t < maxPtype
  accesses : ∀ a ∈ f.accesses, a.Ok

theorem filterRight_invalid (s : ScContext) : FilterRight s ⟨none, s, []⟩ :=
  ⟨⟨rfl, rfl, rfl⟩, fun _ none_ => (nomatch none_), fun _ inside => (nomatch inside)⟩

theorem scFilterEnd_right {s s' : ScContext} (kept : Kept s s') (sn : Nat) {type : Nat}
    (low : type < maxPtype) : FilterRight s (scFilterEnd s' sn type) := by
  have next := snCheck_kept s' sn type
  refine ⟨⟨next.pswdLen.trans kept.pswdLen, next.needSeq.trans kept.needSeq,
    next.totalLen.trans kept.totalLen⟩, ?_, ?_⟩
  · intro t accepted
    rw [scFilterEnd] at accepted
    dsimp only at accepted
    split at accepted
    · cases accepted
      exact low
    · cases accepted
  · intro a inside
    rw [List.mem_singleton.mp inside]
    exact low

theorem scFilterMulti_right (aps : List ApInfo) (s : ScContext) (frame mac : List UInt8)
    {type : Nat} (low : type < maxPtype) :
    FilterRight s (scFilterMulti aps s frame mac type) := by
  rw [scFilterMulti]
  split
  · have kept : Kept s s.lock := ⟨rfl, rfl, rfl⟩
    exact scFilterEnd_right kept 0 low
  · exact scFilterEnd_right ⟨rfl, rfl, rfl⟩ _ low

/-- A frame with a direction is filtered, and only such a frame. -/
theorem scFilter_right (aps : List ApInfo) (s : ScContext) (frame : List UInt8) :
    (∀ f, scFilter aps s frame = some f → FilterRight s f) ∧
      ((scFilter aps s frame).isSome ↔ Directed frame) := by
  unfold scFilter Directed
  dsimp only
  by_cases small : frame.length < 24
  · rw [if_pos small]
    refine ⟨?_, ?_⟩
    · rintro f ⟨⟩
      exact filterRight_invalid s
    · exact ⟨fun _ long => absurd small (Nat.not_lt_of_le long), fun _ => rfl⟩
  rw [if_neg small]
  by_cases retry : frame.getD 1 0 &&& 0x08 ≠ 0
  · rw [if_pos retry]
    refine ⟨?_, ?_⟩
    · rintro f ⟨⟩
      exact filterRight_invalid s
    · exact ⟨fun _ _ first => absurd first retry, fun _ => rfl⟩
  rw [if_neg retry]
  by_cases open_ : frame.getD 1 0 &&& 0x40 = 0
  · rw [if_pos open_]
    refine ⟨?_, ?_⟩
    · rintro f ⟨⟩
      exact filterRight_invalid s
    · exact ⟨fun _ _ _ encrypted => absurd open_ encrypted, fun _ => rfl⟩
  rw [if_neg open_]
  by_cases fromDs : frame.getD 1 0 &&& 0x02 = 0x02
  · rw [if_pos fromDs]
    refine ⟨?_, ?_⟩
    · intro f run
      split at run
      · cases run
        exact scFilterMulti_right aps s frame _ (by decide)
      · split at run
        · cases run
          exact scFilterEnd_right ⟨rfl, rfl, rfl⟩ _ (by decide)
        · cases run
          exact filterRight_invalid s
    · refine ⟨fun _ _ _ _ => .inl fromDs, fun _ => ?_⟩
      split
      · rfl
      · split
        · rfl
        · rfl
  rw [if_neg fromDs]
  by_cases toDs : frame.getD 1 0 &&& 0x01 = 0x01
  · rw [if_pos toDs]
    refine ⟨?_, ?_⟩
    · intro f run
      split at run
      · cases run
        exact scFilterMulti_right aps s frame _ (by decide)
      · split at run
        · cases run
          exact scFilterEnd_right ⟨rfl, rfl, rfl⟩ _ (by decide)
        · cases run
          exact filterRight_invalid s
    · refine ⟨fun _ _ _ _ => .inr toDs, fun _ => ?_⟩
      split
      · rfl
      · split
        · rfl
        · rfl
  rw [if_neg toDs]
  refine ⟨?_, ?_⟩
  · intro f run
    cases run
  · refine ⟨fun none_ => (nomatch none_), fun directed => ?_⟩
    rcases directed (Nat.le_of_not_lt small) (not_not.mp retry) open_ with came | goes
    · exact absurd came fromDs
    · exact absurd goes toDs

/-! ## The stages -/

theorem baseLenFound_right (aps : List ApInfo) (s : ScContext) (frame : List UInt8) (type : Nat) :
    Kept s (baseLenFound aps s frame type).context ∧
      ∀ a ∈ (baseLenFound aps s frame type).accesses, a.Ok := by
  unfold baseLenFound
  dsimp only
  split
  · exact ⟨⟨rfl, rfl, rfl⟩, fun _ inside => (nomatch inside)⟩
  · rename_i ap _
    split
    · exact ⟨⟨rfl, rfl, rfl⟩, fun _ inside => (nomatch inside)⟩
    · refine ⟨⟨rfl, rfl, rfl⟩, fun a inside => ?_⟩
      rw [List.mem_singleton.mp inside]
      have short := ap.short
      change 0 + ap.ssid.length ≤ 33
      omega

/-- `get_base_len` has set its result if and only if the guide lengths are four. -/
theorem getBaseLen_right (aps : List ApInfo) (s : ScContext) (frame : List UInt8) (length : Nat)
    {type : Nat} (low : type < maxPtype) :
    Kept s (getBaseLen aps s frame length type).context ∧
      ((∀ a ∈ (getBaseLen aps s frame length type).accesses, a.Ok) ↔ Full s length type) := by
  have index : (Access.index type).Ok := low
  have set : (Access.result true).Ok := rfl
  have unset : ¬ (Access.result false).Ok := Bool.false_ne_true
  unfold getBaseLen Full
  dsimp only
  by_cases guide : isGuide s length type
  · rw [if_pos guide]
    by_cases full : (appendPrefix s.data (rowOf maxGuideRecord type) length).2 = true
    · rw [if_pos full]
      split
      · have found := baseLenFound_right aps
          { s with data := (appendPrefix s.data (rowOf maxGuideRecord type) length).1 } frame type
        refine ⟨⟨found.1.pswdLen, found.1.needSeq, found.1.totalLen⟩, fun _ _ => full, fun _ => ?_⟩
        rw [List.forall_mem_cons, List.forall_mem_cons]
        exact ⟨index, set, found.2⟩
      · refine ⟨⟨rfl, rfl, rfl⟩, fun _ _ => full, fun _ => ?_⟩
        rw [List.forall_mem_cons, List.forall_mem_singleton]
        exact ⟨index, set⟩
    · rw [if_neg full]
      refine ⟨⟨rfl, rfl, rfl⟩, fun all => ?_, fun all => absurd (all guide) full⟩
      rw [List.forall_mem_cons, List.forall_mem_singleton] at all
      exact absurd all.2 unset
  · rw [if_neg guide]
    split
    · refine ⟨⟨rfl, rfl, rfl⟩, fun _ here => absurd here guide, fun _ => ?_⟩
      rw [List.forall_mem_cons, List.forall_mem_singleton]
      exact ⟨index, set⟩
    · refine ⟨⟨rfl, rfl, rfl⟩, fun _ here => absurd here guide, fun _ => ?_⟩
      rw [List.forall_mem_singleton]
      exact set

theorem scProcessMagicCode_right {s : ScContext} (inv : ScInv s) {type : Nat} (length : Nat)
    (low : type < maxPtype) :
    ScInv (scProcessMagicCode s type length).1 ∧
      ∀ a ∈ (scProcessMagicCode s type length).2, a.Ok := by
  have index : ∀ a ∈ [Access.index type], a.Ok := List.forall_mem_singleton.mpr low
  unfold scProcessMagicCode
  dsimp only
  split
  · exact ⟨inv, index⟩
  · split
    · exact ⟨⟨inv.pswdLen, inv.needSeq⟩, index⟩
    · exact ⟨⟨inv.pswdLen, inv.needSeq⟩, index⟩

theorem prefixLen_le (data : List Nat) (row : Nat) : prefixLen data row ≤ passwordMaxLen := by
  unfold prefixLen
  dsimp only
  split
  · exact Nat.zero_le _
  · rename_i fits
    exact Nat.le_of_not_lt fits

/-- The prefix code is handled with shifts below 16 if and only if it is of at most 60 bytes. -/
theorem scProcessPrefixCode_right {s : ScContext} (inv : ScInv s) {type : Nat} (length : Nat)
    (low : type < maxPtype) :
    (Short s length type → ∀ r, scProcessPrefixCode s type length = some r → ScInv r.1) ∧
      ((∃ r, scProcessPrefixCode s type length = some r ∧ ∀ a ∈ r.2, a.Ok) ↔
        Short s length type) := by
  have index : ∀ a ∈ [Access.index type], a.Ok := List.forall_mem_singleton.mpr low
  unfold scProcessPrefixCode Short
  dsimp only [ScContext.resestScData]
  by_cases unknown : s.baseLen type = 0
  · rw [if_pos unknown]
    refine ⟨?_, fun _ known => absurd unknown known, fun _ => ⟨_, rfl, index⟩⟩
    rintro - r ⟨⟩
    exact inv
  rw [if_neg unknown]
  generalize pushRecord s.data (rowOf maxPrefixCodeRecord type) maxPrefixCodeRecord
    (codeOf s length type) = data
  by_cases here : isPrefix data (rowOf maxPrefixCodeRecord type)
  · rw [if_pos here]
    by_cases good : prefixGood data (rowOf maxPrefixCodeRecord type)
    · rw [if_pos good]
      by_cases small : (s.totalLen + 3) / 4 < 32
      · rw [if_pos small]
        refine ⟨?_, ?_, ?_⟩
        · rintro short r ⟨⟩
          have few := short unknown here good
          refine ⟨prefixLen_le _ _, ?_⟩
          change (s.totalLen + 3) / 4 < 16
          omega
        · rintro ⟨r, ⟨⟩, all⟩ - - -
          rw [List.forall_mem_cons, List.forall_mem_singleton] at all
          have few : (s.totalLen + 3) / 4 < 16 := all.2
          omega
        · intro short
          have few := short unknown here good
          refine ⟨_, rfl, ?_⟩
          rw [List.forall_mem_cons, List.forall_mem_singleton]
          refine ⟨low, ?_⟩
          change (s.totalLen + 3) / 4 < 16
          omega
      · rw [if_neg small]
        refine ⟨?_, ?_, ?_⟩
        · rintro - r ⟨⟩
        · rintro ⟨r, ⟨⟩, -⟩
        · intro short
          have few := short unknown here good
          omega
    · rw [if_neg good]
      refine ⟨?_, fun _ _ _ yes => absurd yes good, fun _ => ⟨_, rfl, index⟩⟩
      rintro - r ⟨⟩
      exact ⟨prefixLen_le _ _, inv.needSeq⟩
  · rw [if_neg here]
    refine ⟨?_, fun _ _ yes => absurd yes here, fun _ => ⟨_, rfl, index⟩⟩
    rintro - r ⟨⟩
    exact ⟨inv.pswdLen, inv.needSeq⟩

theorem scAddSeqData_right {s : ScContext} (inv : ScInv s) (bytes : List UInt8) (seq : Nat) :
    ScInv (scAddSeqData s bytes seq).1 ∧ ∀ a ∈ (scAddSeqData s bytes seq).2, a.Ok := by
  have needed := inv.needSeq
  unfold scAddSeqData
  split
  · rename_i fits
    have shift : (Access.shift seq).Ok := Nat.lt_trans fits.1 needed
    split
    · refine ⟨⟨inv.pswdLen, inv.needSeq⟩, ?_⟩
      rw [List.forall_mem_cons, List.forall_mem_singleton]
      exact ⟨shift, fits.2⟩
    · exact ⟨inv, List.forall_mem_singleton.mpr shift⟩
  · exact ⟨inv, fun _ inside => (nomatch inside)⟩

theorem scComplete_right {s : ScContext} (inv : ScInv s) :
    ScInv (scComplete s).1 ∧ ∀ a ∈ (scComplete s).2, a.Ok := by
  have small : s.pswdLen ≤ 64 := inv.pswdLen
  unfold scComplete
  split
  · refine ⟨⟨inv.pswdLen, inv.needSeq⟩, ?_⟩
    rw [List.forall_mem_cons, List.forall_mem_singleton]
    constructor
    · change 0 + s.pswdLen ≤ 65
      omega
    · change s.pswdLen + 1 + 1 ≤ 97
      omega
  · exact ⟨inv, fun _ inside => (nomatch inside)⟩

theorem scProcessSequence_right {s : ScContext} (inv : ScInv s) {type : Nat} (length : Nat)
    (low : type < maxPtype) :
    ScInv (scProcessSequence s type length).1 ∧
      ∀ a ∈ (scProcessSequence s type length).2, a.Ok := by
  have index : ∀ a ∈ [Access.index type], a.Ok := List.forall_mem_singleton.mpr low
  unfold scProcessSequence
  dsimp only
  split
  · exact ⟨inv, index⟩
  · generalize pushRecord s.data (rowOf maxSeqCodeRecord type) maxSeqCodeRecord
      (codeOf s length type) = data
    have moved : ScInv { s with data := data } := ⟨inv.pswdLen, inv.needSeq⟩
    split
    · split
      · have added := scAddSeqData_right moved
          ((tempBuffer data (rowOf maxSeqCodeRecord type)).drop 1)
          (cell data (rowOf maxSeqCodeRecord type + 1) &&& 0x7F)
        have done := scComplete_right
          (⟨added.1.pswdLen, added.1.needSeq⟩ : ScInv (ScContext.resestScData _))
        refine ⟨done.1, ?_⟩
        rw [List.forall_mem_cons, List.forall_mem_append]
        exact ⟨low, added.2, done.2⟩
      · have done := scComplete_right moved
        refine ⟨done.1, ?_⟩
        rw [List.forall_mem_cons, List.nil_append]
        exact ⟨low, done.2⟩
    · exact ⟨moved, index⟩

/-! ## A frame -/

theorem scRecvDiscover_right (aps : List ApInfo) (stack : Int) {s : ScContext} (inv : ScInv s)
    (frame : List UInt8) (length : Nat) {type : Nat} (low : type < maxPtype) :
    ScInv (scRecvDiscover aps stack s frame length type).1 ∧
      ((∀ a ∈ (scRecvDiscover aps stack s frame length type).2, a.Ok) ↔ Full s length type) := by
  rcases getBaseLen_right aps s frame length low with ⟨kept, exactly⟩
  have next := kept.inv inv
  unfold scRecvDiscover
  dsimp only
  split
  · exact ⟨⟨next.pswdLen, next.needSeq⟩, exactly⟩
  · exact ⟨next, exactly⟩

/-- The state the `switch` is in decides what is asked of the frame. -/
theorem switchMet_iff {aps : List ApInfo} {s : ScContext} {frame : List UInt8} {type : Nat}
    (other : s.scState ≠ .magicCodeComplete) :
    SwitchMet aps s frame type ↔ (Guided s frame → Full s (frame.length % 2 ^ 16) type) :=
  ⟨SwitchMet.full, fun full => ⟨full, fun here => absurd here other⟩⟩

/-- Accesses of two parts of a step. -/
theorem ok_append {front behind : List Access} (right : ∀ a ∈ behind, a.Ok) :
    (∀ a ∈ front ++ behind, a.Ok) ↔ ∀ a ∈ front, a.Ok := by
  rw [List.forall_mem_append]
  exact ⟨And.left, fun all => ⟨all, right⟩⟩

theorem scSwitch_inv {aps : List ApInfo} {stack : Int} {s : ScContext} (inv : ScInv s)
    {frame : List UInt8} {type : Nat} (low : type < maxPtype)
    (short : s.scState = .magicCodeComplete →
      Short (getBaseLen aps s frame (frame.length % 2 ^ 16) type).context (frame.length % 2 ^ 16)
        type)
    {r : Received} (run : scSwitch aps stack s frame type = some r) : ScInv r.context := by
  rcases getBaseLen_right aps s frame (frame.length % 2 ^ 16) low with ⟨kept, -⟩
  rw [scSwitch] at run
  cases state : s.scState with
  | idle =>
    rw [state] at run
    dsimp only at run
    split at run
    · cases run
      exact inv
    · cases run
      exact (scRecvDiscover_right aps stack inv frame _ low).1
  | srcLocked =>
    rw [state] at run
    cases run
    exact (scProcessMagicCode_right (kept.inv inv) _ low).1
  | magicCodeComplete =>
    rw [state] at run
    rcases Option.map_eq_some_iff.mp run with ⟨result, done, rfl⟩
    exact (scProcessPrefixCode_right (kept.inv inv) _ low).1 (short state) result done
  | prefixCodeComplete =>
    rw [state] at run
    cases run
    exact (scProcessSequence_right (kept.inv inv) _ low).1
  | stoped =>
    rw [state] at run
    cases run
    exact ⟨inv.pswdLen, inv.needSeq⟩
  | complete =>
    rw [state] at run
    cases run
    exact ⟨inv.pswdLen, inv.needSeq⟩

theorem scSwitch_safe {aps : List ApInfo} {stack : Int} {s : ScContext} (inv : ScInv s)
    {frame : List UInt8} {type : Nat} (low : type < maxPtype) :
    (∃ r, scSwitch aps stack s frame type = some r ∧ ∀ a ∈ r.accesses, a.Ok) ↔
      SwitchMet aps s frame type := by
  rcases getBaseLen_right aps s frame (frame.length % 2 ^ 16) low with ⟨kept, exactly⟩
  have next := kept.inv inv
  rw [scSwitch]
  cases state : s.scState with
  | idle =>
    have guided : Guided s frame ↔ 50 ≤ frame.length := by
      rw [Guided, state]
    rw [switchMet_iff (by rw [state]; decide), guided]
    dsimp only
    split
    · rename_i tiny
      refine ⟨fun _ long => absurd tiny (Nat.not_lt_of_le long), fun _ => ⟨_, rfl, ?_⟩⟩
      exact fun _ inside => (nomatch inside)
    · rename_i long
      have found := (scRecvDiscover_right aps stack inv frame (frame.length % 2 ^ 16) low).2
      constructor
      · rintro ⟨r, ⟨⟩, all⟩ -
        exact found.mp all
      · intro full
        exact ⟨_, rfl, found.mpr (full (Nat.le_of_not_lt long))⟩
  | srcLocked =>
    have guided : Guided s frame ↔ True := by
      rw [Guided, state]
    rw [switchMet_iff (by rw [state]; decide), guided, true_imp_iff, ← exactly]
    have more := (scProcessMagicCode_right next (frame.length % 2 ^ 16) low).2
    constructor
    · rintro ⟨r, ⟨⟩, all⟩
      exact (ok_append more).mp all
    · exact fun all => ⟨_, rfl, (ok_append more).mpr all⟩
  | magicCodeComplete =>
    have more := (scProcessPrefixCode_right next (frame.length % 2 ^ 16) low).2
    constructor
    · rintro ⟨r, run, all⟩
      rcases Option.map_eq_some_iff.mp run with ⟨result, done, rfl⟩
      rw [List.forall_mem_append] at all
      exact ⟨fun _ => exactly.mp all.1, fun _ => more.mp ⟨result, done, all.2⟩⟩
    · intro met
      have guided : Guided s frame := by
        rw [Guided, state]
        trivial
      rcases more.mpr (met.short state) with ⟨result, done, right⟩
      dsimp only
      rw [done]
      exact ⟨_, rfl, List.forall_mem_append.mpr ⟨exactly.mpr (met.full guided), right⟩⟩
  | prefixCodeComplete =>
    have guided : Guided s frame ↔ True := by
      rw [Guided, state]
    rw [switchMet_iff (by rw [state]; decide), guided, true_imp_iff, ← exactly]
    have more := (scProcessSequence_right next (frame.length % 2 ^ 16) low).2
    constructor
    · rintro ⟨r, ⟨⟩, all⟩
      exact (ok_append more).mp all
    · exact fun all => ⟨_, rfl, (ok_append more).mpr all⟩
  | stoped =>
    have guided : ¬ Guided s frame := by
      rw [Guided, state]
      exact id
    rw [switchMet_iff (by rw [state]; decide)]
    exact ⟨fun _ here => absurd here guided, fun _ => ⟨_, rfl, fun _ inside => (nomatch inside)⟩⟩
  | complete =>
    have guided : ¬ Guided s frame := by
      rw [Guided, state]
      exact id
    rw [switchMet_iff (by rw [state]; decide)]
    exact ⟨fun _ here => absurd here guided, fun _ => ⟨_, rfl, fun _ inside => (nomatch inside)⟩⟩

/-- A frame that the filter has decided on. -/
theorem scRecv_of_filter {aps : List ApInfo} {stack : Int} {s : ScContext} {frame : List UInt8}
    {f : Filtered} (run : scFilter aps s frame = some f) :
    scRecv aps stack s frame = match f.type with
      | none => some ⟨.continue_, f.context, f.accesses⟩
      | some type => (scSwitch aps stack f.context frame type).map fun r =>
          { r with accesses := f.accesses ++ r.accesses } := by
  rw [scRecv, run]
  rcases f with ⟨_ | type, context, accesses⟩
  · rfl
  · rfl

theorem scRecv_inv {aps : List ApInfo} {stack : Int} {s : ScContext} {frame : List UInt8}
    {r : Received} (inv : ScInv s) (walks : Walks aps s frame)
    (run : scRecv aps stack s frame = some r) : ScInv r.context := by
  rcases scFilter_right aps s frame with ⟨right, defined⟩
  rcases Option.isSome_iff_exists.mp (defined.mpr walks.directed) with ⟨f, filtered⟩
  have next := (right f filtered).kept.inv inv
  rw [scRecv_of_filter filtered] at run
  split at run
  · cases run
    exact next
  · rename_i type accepted
    rcases Option.map_eq_some_iff.mp run with ⟨result, done, rfl⟩
    have kept : ScInv result.context := scSwitch_inv next ((right f filtered).type type accepted)
      (walks.short f type filtered accepted) done
    exact kept

theorem scRecv_safe {aps : List ApInfo} {stack : Int} {s : ScContext} {frame : List UInt8}
    (inv : ScInv s) : StepSafe aps stack s frame ↔ Met aps s frame := by
  rcases scFilter_right aps s frame with ⟨right, defined⟩
  rw [StepSafe]
  cases filtered : scFilter aps s frame with
  | none =>
    have undirected : ¬ Directed frame := by
      rw [← defined, filtered]
      decide
    refine ⟨?_, fun met => absurd met.directed undirected⟩
    rintro ⟨r, run, -⟩
    rw [scRecv, filtered] at run
    cases run
  | some f =>
    have directed : Directed frame := defined.mp (Option.isSome_of_eq_some filtered)
    have met : Met aps s frame ↔ ∀ type, f.type = some type →
        SwitchMet aps f.context frame type := by
      constructor
      · exact fun met type => met.switch f type filtered
      · intro all
        refine ⟨directed, fun f' type run => ?_⟩
        cases filtered.symm.trans run
        exact all type
    have next := (right f filtered).kept.inv inv
    have accesses := (right f filtered).accesses
    rw [scRecv_of_filter filtered, met]
    cases accepted : f.type with
    | none => exact ⟨fun _ _ none_ => (nomatch none_), fun _ => ⟨_, rfl, accesses⟩⟩
    | some type =>
      have switch : (∃ r, scSwitch aps stack f.context frame type = some r ∧
          ∀ a ∈ r.accesses, a.Ok) ↔ SwitchMet aps f.context frame type :=
        scSwitch_safe next ((right f filtered).type type accepted)
      constructor
      · rintro ⟨r, run, all⟩ _ ⟨⟩
        rcases Option.map_eq_some_iff.mp run with ⟨result, done, rfl⟩
        exact switch.mp ⟨result, done, (List.forall_mem_append.mp all).2⟩
      · intro each
        rcases switch.mpr (each type rfl) with ⟨result, done, all⟩
        refine ⟨{ result with accesses := f.accesses ++ result.accesses }, ?_,
          List.forall_mem_append.mpr ⟨accesses, all⟩⟩
        dsimp only
        rw [done]
        rfl

/-! ## Every run -/

theorem ScReach.inv {s : ScContext} (reach : ScReach s) : ScInv s := by
  induction reach with
  | start => exact ⟨Nat.zero_le _, by decide⟩
  | step _ walks run ih => exact scRecv_inv ih walks run

/-- In every context that frames lead to, a frame is received safely if and only if it meets the
conditions. -/
theorem scRecv_safe_iff {s : ScContext} (reach : ScReach s) (aps : List ApInfo) (stack : Int)
    (frame : List UInt8) : StepSafe aps stack s frame ↔ Met aps s frame :=
  scRecv_safe reach.inv

/-- The header of an encrypted frame to the broadcast address, with bits for its direction. -/
def broadcastFrame (ds : UInt8) : List UInt8 :=
  [0x08, 0x40 ||| ds, 0, 0] ++ broadAddr ++ .replicate 6 2 ++ .replicate 6 4 ++ [0x10, 0]

/-- A frame that comes before the magic code is complete. -/
theorem ScReach.next {s : ScContext} (reach : ScReach s) (aps : List ApInfo) (frame : List UInt8)
    (early : (scFilter aps s frame).any (·.context.scState ≠ .magicCodeComplete))
    (taken : (scRecv aps 0 s frame).isSome) :
    ScReach ((scRecv aps 0 s frame).get taken).context := by
  refine reach.step ⟨(scFilter_right aps s frame).2.mp ?_, fun f type run _ magic => ?_⟩
    (Option.some_get taken).symm
  · exact Option.isSome_of_any early
  · simp [run, magic] at early

/-- The access point of the guide frames. -/
def guideAp : ApInfo := ⟨.replicate 6 2, [0x61, 0x62], by decide, by decide⟩

/-- A guide frame of some length. -/
def guideFrame (sn : UInt8) (length : Nat) : List UInt8 :=
  [0x08, 0x42, 0, 0] ++ broadAddr ++ .replicate 6 2 ++ .replicate 6 4 ++ [sn, 0] ++
    .replicate (length - 24) 0

/-- After three guide frames the fourth completes the guide, which locks the source. -/
theorem scRecv_safe_guide : ∃ s, ScReach s ∧ StepSafe [guideAp] 0 s (guideFrame 0x40 1098) ∧
    (scRecv [guideAp] 0 s (guideFrame 0x40 1098)).map (·.context.scState) = some .srcLocked := by
  have one := ScReach.start.next [guideAp] (guideFrame 0x10 1095) (by decide +kernel)
    (by decide +kernel)
  have two := one.next [guideAp] (guideFrame 0x20 1096) (by decide +kernel) (by decide +kernel)
  have three := two.next [guideAp] (guideFrame 0x30 1097) (by decide +kernel) (by decide +kernel)
  obtain ⟨s, three, seen, locks⟩ : ∃ s, ScReach s ∧
      (scFilter [guideAp] s (guideFrame 0x40 1098)).map (fun f => (f.context.scState, f.type,
        (appendPrefix f.context.data (rowOf maxGuideRecord brodaTypeFrds) 1098).2)) =
        some (.idle, some brodaTypeFrds, true) ∧
      (scRecv [guideAp] 0 s (guideFrame 0x40 1098)).map (·.context.scState) = some .srcLocked :=
    ⟨_, three, by decide +kernel, by decide +kernel⟩
  refine ⟨s, three, (scRecv_safe_iff three _ 0 _).mpr ⟨fun _ _ _ => .inl (by decide), ?_⟩, locks⟩
  intro f type run accepted
  have length : (guideFrame 0x40 1098).length % 2 ^ 16 = 1098 := by decide +kernel
  simp only [run, accepted, Option.map_some, Option.some.injEq, Prod.mk.injEq] at seen
  rcases seen with ⟨idle, rfl, full⟩
  refine ⟨fun _ _ => ?_, fun magic => nomatch idle.symm.trans magic⟩
  rw [length]
  exact full

/-- A frame without a direction has no packet type. -/
theorem scRecv_undirected : ¬ ∀ (s : ScContext), ScReach s → ∀ (aps : List ApInfo) (stack : Int)
    (frame : List UInt8), StepSafe aps stack s frame := by
  intro all
  rcases all .start .start [] 0 (broadcastFrame 0) with ⟨r, run, -⟩
  cases run

end ScRecv

end Tr6260
