import Tr6260.ScRecv.Rounds

/-!
# Locks that fail

`get_base_len` stores the base length of a type before it looks for the access point of the sender,
and nothing sets it back to zero. A type whose base length is set is not looked at for a guide
again.
-/

namespace Tr6260

namespace ScRecv

/-! ## The property -/

/-- The place where a frame of a type has the address of its access point. -/
def senderOf (frame : List UInt8) (type : Nat) : List UInt8 :=
  if type = multiTypeFrds ∨ type = brodaTypeFrds then addrAt frame 10 else addrAt frame 4

/-- With the length of this frame, four consecutive guide lengths of its type have arrived. -/
structure Completes (s : ScContext) (frame : List UInt8) (type low : Nat) : Prop where
  guide : isGuide s (frame.length % 2 ^ 16) type
  full : (appendPrefix s.data (rowOf maxGuideRecord type) (frame.length % 2 ^ 16)).2 = true
  lengths : ∀ i < 4, cell (appendPrefix s.data (rowOf maxGuideRecord type)
    (frame.length % 2 ^ 16)).1 (rowOf maxGuideRecord type + i) = low + i
  above : 1094 < low
  below : low + 3 < 1112

/-- Four guide lengths have arrived from a sender whose access point is not in the list. -/
structure FailedLock (aps : List ApInfo) (s : ScContext) (frame : List UInt8) (type low : Nat) :
    Prop where
  idle : s.scState = .idle
  typed : OfType type frame
  new : snOf frame ≠ s.lastSn type ∨ snOf frame = 0
  completes : Completes s frame type low
  missing : zconfigGetApinfo aps (senderOf frame type) = none

/-- What can happen behind a frame: others, with any list of access points, and changes of the
channel, which clear the records. -/
inductive Later : ScContext → ScContext → Prop
  | now (s : ScContext) : Later s s
  | frame {s u : ScContext} {aps : List ApInfo} {stack : Int} {frame : List UInt8} {r : Received}
      (before : Later s u) (received : scRecv aps stack u frame = some r) : Later s r.context
  | channel {s u : ScContext} (before : Later s u) : Later s u.resestScData

/-- Base lengths that are set are not set again. -/
def BaseKept (s s' : ScContext) : Prop :=
  ∀ type, s.baseLen type ≠ 0 → s'.baseLen type = s.baseLen type

namespace BaseKept

theorem of_eq {s s' : ScContext} (same : s'.baseLen = s.baseLen) : BaseKept s s' :=
  fun _ _ => by rw [same]

theorem trans {s u v : ScContext} (first : BaseKept s u) (second : BaseKept u v) :
    BaseKept s v := by
  intro type set
  have same := first type set
  rw [← same]
  exact second type (by rwa [same])

theorem filterEnd (s : ScContext) (sn type : Nat) : BaseKept s (scFilterEnd s sn type).context := by
  unfold scFilterEnd snCheck
  dsimp only
  split
  · exact of_eq rfl
  · exact of_eq rfl

theorem filterMulti (aps : List ApInfo) (s : ScContext) (frame mac : List UInt8) (type : Nat) :
    BaseKept s (scFilterMulti aps s frame mac type).context := by
  unfold scFilterMulti
  split
  · have kept : BaseKept s s.lock := of_eq rfl
    exact kept.trans (filterEnd s.lock 0 type)
  · exact filterEnd s _ type

theorem filter {aps : List ApInfo} {s : ScContext} {frame : List UInt8} {f : Filtered}
    (run : scFilter aps s frame = some f) : BaseKept s f.context := by
  unfold scFilter at run
  dsimp only at run
  split at run
  · cases run
    exact of_eq rfl
  split at run
  · cases run
    exact of_eq rfl
  split at run
  · cases run
    exact of_eq rfl
  split at run
  · split at run
    · cases run
      exact filterMulti aps s frame _ _
    split at run
    · cases run
      exact filterEnd s _ _
    · cases run
      exact of_eq rfl
  split at run
  · split at run
    · cases run
      exact filterMulti aps s frame _ _
    split at run
    · cases run
      exact filterEnd s _ _
    · cases run
      exact of_eq rfl
  · cases run

/-- The type whose base length is stored had none. -/
theorem found (aps : List ApInfo) {s : ScContext} (frame : List UInt8) {type : Nat}
    (unset : s.baseLen type = 0) : BaseKept s (baseLenFound aps s frame type).context := by
  have stored (base : Nat) : BaseKept s
      { s with baseLen := Function.update s.baseLen type base } := by
    intro other set
    have apart : other ≠ type := by
      rintro rfl
      exact set unset
    exact Function.update_of_ne apart _ _
  unfold baseLenFound
  dsimp only
  split
  · exact stored _
  · split
    · exact stored _
    · exact stored _

theorem getBaseLen (aps : List ApInfo) (s : ScContext) (frame : List UInt8) (length type : Nat) :
    BaseKept s (getBaseLen aps s frame length type).context := by
  unfold ScRecv.getBaseLen
  dsimp only
  split
  · rename_i guide
    split
    · split
      · have unset : s.baseLen type = 0 := by
          rw [isGuide] at guide
          exact guide.2.2
        refine BaseKept.trans ?_ (found aps frame unset)
        exact of_eq rfl
      · exact of_eq rfl
    · exact of_eq rfl
  · split
    · exact of_eq rfl
    · exact of_eq rfl

theorem magicCode (s : ScContext) (type length : Nat) :
    BaseKept s (scProcessMagicCode s type length).1 := by
  unfold scProcessMagicCode
  split
  · exact of_eq rfl
  · dsimp only
    split
    · exact of_eq rfl
    · exact of_eq rfl

theorem prefixCode {s : ScContext} {type length : Nat} {r : ScContext × List Access}
    (run : scProcessPrefixCode s type length = some r) : BaseKept s r.1 := by
  unfold scProcessPrefixCode at run
  split at run
  · cases run
    exact of_eq rfl
  dsimp only at run
  split at run
  · split at run
    · split at run
      · cases run
        exact of_eq rfl
      · cases run
    · cases run
      exact of_eq rfl
  · cases run
    exact of_eq rfl

theorem sequence (s : ScContext) (type length : Nat) :
    BaseKept s (scProcessSequence s type length).1 := by
  have completed (u : ScContext) : BaseKept u (scComplete u).1 := by
    unfold scComplete
    split
    · exact of_eq rfl
    · exact of_eq rfl
  have added (u : ScContext) (bytes : List UInt8) (seq : Nat) :
      BaseKept u (scAddSeqData u bytes seq).1.resestScData := by
    unfold scAddSeqData
    split
    · split
      · exact of_eq rfl
      · exact of_eq rfl
    · exact of_eq rfl
  unfold scProcessSequence
  split
  · exact of_eq rfl
  dsimp only
  split
  · split
    · refine BaseKept.trans ?_ (completed _)
      refine BaseKept.trans ?_ (added _ _ _)
      exact of_eq rfl
    · refine BaseKept.trans ?_ (completed _)
      exact of_eq rfl
  · exact of_eq rfl

theorem switch {aps : List ApInfo} {stack : Int} {s : ScContext} {frame : List UInt8} {type : Nat}
    {r : Received} (run : scSwitch aps stack s frame type = some r) : BaseKept s r.context := by
  have base := getBaseLen aps s frame (frame.length % 2 ^ 16) type
  unfold scSwitch at run
  split at run
  · split at run
    · cases run
      exact of_eq rfl
    · cases run
      dsimp only [scRecvDiscover]
      split
      · exact base.trans (of_eq rfl)
      · exact base
  · cases run
    exact base.trans (magicCode _ _ _)
  · rcases Option.map_eq_some_iff.mp run with ⟨result, done, rfl⟩
    exact base.trans (prefixCode done)
  · cases run
    exact base.trans (sequence _ _ _)
  · cases run
    exact of_eq rfl
  · cases run
    exact of_eq rfl

theorem recv {aps : List ApInfo} {stack : Int} {s : ScContext} {frame : List UInt8} {r : Received}
    (run : scRecv aps stack s frame = some r) : BaseKept s r.context := by
  unfold scRecv at run
  split at run
  · cases run
  next filtered =>
    cases run
    exact filter filtered
  next filtered =>
    rcases Option.map_eq_some_iff.mp run with ⟨result, done, rfl⟩
    have kept := switch done
    exact (filter filtered).trans kept

theorem later {s u : ScContext} (later : Later s u) : BaseKept s u := by
  induction later with
  | now => exact of_eq rfl
  | frame before received ih => exact ih.trans (recv received)
  | channel before ih => exact ih.trans (of_eq rfl)

end BaseKept

/-! ## The attempt -/

section Attempt

variable {aps : List ApInfo} {stack : Int} {s : ScContext} {frame : List UInt8} {type low : Nat}

/-- A frame whose sender is not in the list passes the filter without a lock. -/
theorem scFilter_missing (typed : OfType type frame)
    (new : snOf frame ≠ s.lastSn type ∨ snOf frame = 0)
    (missing : zconfigGetApinfo aps (senderOf frame type) = none) :
    scFilter aps s frame = some ⟨some type, s.saw type frame, [.index type]⟩ := by
  have ended : scFilterEnd s (snOf frame) type = ⟨some type, s.saw type frame, [.index type]⟩ := by
    rw [scFilterEnd, snCheck, if_pos new]
    rfl
  have multi : scFilterMulti aps s frame (senderOf frame type) type =
      scFilterEnd s (snOf frame) type := by
    rw [scFilterMulti, missing, if_neg]
    exact fun both => Bool.false_ne_true both.2
  have different : broadAddr ≠ mutilAddr := by decide
  rw [scFilter, if_neg (Nat.not_lt_of_le typed.long), if_neg (not_not.mpr typed.first),
    if_neg typed.encrypted]
  rcases typed.address with ⟨fromDs, ⟨rfl, addr⟩ | ⟨rfl, addr⟩⟩ |
    ⟨notFrom, toDs, ⟨rfl, addr⟩ | ⟨rfl, addr⟩⟩
  · rw [if_pos fromDs, if_pos addr, ← ended, ← multi]
    rfl
  · rw [if_pos fromDs, if_neg (addr ▸ different), if_pos addr, ended]
  · rw [if_neg notFrom, if_pos toDs, if_pos addr, ← ended, ← multi]
    rfl
  · rw [if_neg notFrom, if_pos toDs, if_neg (addr ▸ different), if_pos addr, ended]

/-- The base length is there before the access point is looked for. -/
theorem baseLenFound_missing (missing : zconfigGetApinfo aps (senderOf frame type) = none)
    (first : cell s.data (rowOf maxGuideRecord type) = low) (above : 1094 < low)
    (below : low + 3 < 1112) :
    (baseLenFound aps s frame type).result = some 0 ∧
      (baseLenFound aps s frame type).context.scState = s.scState ∧
      (baseLenFound aps s frame type).context.baseLen type = low - 1024 := by
  have base : (cell s.data (rowOf maxGuideRecord type) + 2 ^ 16 - 1024) % 2 ^ 8 = low - 1024 := by
    rw [first]
    omega
  unfold baseLenFound
  dsimp only
  rw [base]
  unfold senderOf at missing
  rw [missing]
  exact ⟨rfl, rfl, Function.update_self _ _ _⟩

theorem getBaseLen_missing (completes : Completes s frame type low)
    (missing : zconfigGetApinfo aps (senderOf frame type) = none) :
    (getBaseLen aps s frame (frame.length % 2 ^ 16) type).result = some 0 ∧
      (getBaseLen aps s frame (frame.length % 2 ^ 16) type).context.scState = s.scState ∧
      (getBaseLen aps s frame (frame.length % 2 ^ 16) type).context.baseLen type = low - 1024 := by
  have zero := completes.lengths 0 (by decide)
  have one := completes.lengths 1 (by decide)
  have two := completes.lengths 2 (by decide)
  have three := completes.lengths 3 (by decide)
  rw [Nat.add_zero] at zero
  unfold getBaseLen
  rw [if_pos completes.guide, if_pos completes.full, if_pos]
  · exact baseLenFound_missing missing zero completes.above completes.below
  · dsimp only
    rw [zero, one, two, three]
    exact ⟨rfl, rfl, rfl⟩

/-- What a failed lock leaves. -/
theorem FailedLock.recv (failed : FailedLock aps s frame type low) {r : Received}
    (received : scRecv aps stack s frame = some r) :
    r.context.scState = .idle ∧ r.context.baseLen type = low - 1024 := by
  have completes : Completes (s.saw type frame) frame type low :=
    ⟨failed.completes.guide, failed.completes.full, failed.completes.lengths,
      failed.completes.above, failed.completes.below⟩
  have long : ¬ frame.length < 50 := by
    have guide := failed.completes.guide.1
    have small := Nat.mod_le frame.length (2 ^ 16)
    omega
  rcases getBaseLen_missing completes failed.missing with ⟨result, state, base⟩
  have idle : (s.saw type frame).scState = .idle := failed.idle
  rw [scRecv, scFilter_missing failed.typed failed.new failed.missing] at received
  dsimp only at received
  rw [scSwitch, idle] at received
  dsimp only at received
  rw [if_neg long] at received
  have quiet : ¬ (some (0 : Int)).getD stack ≠ 0 := not_not.mpr rfl
  rw [scRecvDiscover, result, if_neg quiet] at received
  cases received
  exact ⟨state.trans failed.idle, base⟩

end Attempt

/-! ## A sender that is known too late -/

end ScRecv

end Tr6260
