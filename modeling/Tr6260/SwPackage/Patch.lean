import Tr6260.SwPackage.Diffing

/-!
# What `SwBsdiff` writes is a difference

The blocks are those of a list of steps that gives the new firmware up to `lastscan` and stops at
`lastpos` in the old one. Each match that is closed adds a step; the last one reaches the end.
-/

namespace Tr6260

namespace Bsdiff

open SuffixOrder

variable {I : Offs} {old new : List UInt8} {d : Diffing} {steps : List (DeltaStep UInt8)}
variable {lenf lenb : Int} {n : Nat}

/-- The three numbers of a step in the control block. -/
def ctrl (step : DeltaStep UInt8) : List UInt8 :=
  offtout step.diff.length ++ offtout step.extra.length ++ offtout step.seek

/-- The blocks of a difference. -/
def blocksOf (steps : List (DeltaStep UInt8)) : Blocks where
  db := steps.flatMap DeltaStep.diff
  eb := steps.flatMap DeltaStep.extra
  cb := steps.flatMap ctrl

/-- What holds of the loop whenever it writes, and before and after. -/
structure Going (old new : List UInt8) (steps : List (DeltaStep UInt8)) (d : Diffing) : Prop where
  blocks : d.blocks = blocksOf steps
  restores : Delta.Restores old new steps d.lastscan.toNat d.lastpos
  seeks : ∀ step ∈ steps, -(old.length : Int) ≤ step.seek ∧ step.seek ≤ old.length
  lastscan : 0 ≤ d.lastscan ∧ d.lastscan ≤ d.scan
  scan : d.scan ≤ new.length
  lastpos : IsOffset old d.lastpos
  pos : IsOffset old d.pos
  shifted : 0 ≤ d.scan + d.lastoffset
  ahead : d.scan < new.length → 0 ≤ d.len ∧ d.scan + d.len ≤ new.length

/-- What a match that is closed leaves. -/
structure Closed (old new : List UInt8) (d d' : Diffing) : Prop where
  going : ∃ steps, Going old new steps d'
  scan : d'.scan = d.scan
  len : d'.len = d.len
  last : d.scan = new.length → d'.lastscan = new.length

theorem emit_closed (going : Going old new steps d)
    (forward : Forward old d.lastscan d.lastpos d.scan lenf)
    (backward : Backward d.lastscan d.scan d.pos lenb)
    (between : d.lastscan + lenf ≤ d.scan - lenb) (all : d.scan = new.length → lenb = 0) :
    ∃ d', emit old new d lenf lenb = some d' ∧ Closed old new d d' := by
  rcases forward with ⟨lowF, highF, highF'⟩
  rcases backward with ⟨lowB, highB, highB'⟩
  rcases going.lastscan with ⟨lowL, highL⟩
  rcases going.lastpos with ⟨lowP, highP⟩
  rcases going.pos with ⟨lowQ, highQ⟩
  have scan := going.scan
  have diff : diffLoop old new d.lastscan d.lastpos lenf.toNat 0 = some (Delta.subtracted old
      d.lastpos ((new.drop d.lastscan.toNat).take lenf.toNat)) := by
    rw [diffLoop_eq (by omega) (by omega) (by omega) (by omega), add_zero, add_zero]
  have skip : (d.lastscan + lenf).toNat = d.lastscan.toNat + lenf.toNat := by omega
  have extra : extraLoop new (d.lastscan + lenf) (d.scan - lenb - (d.lastscan + lenf)).toNat 0 =
      some ((new.drop (d.lastscan.toNat + lenf.toNat)).take
        (d.scan - lenb - (d.lastscan + lenf)).toNat) := by
    rw [extraLoop_eq (by omega) (by omega), add_zero, skip]
  let step : DeltaStep UInt8 := {
    diff := Delta.subtracted old d.lastpos ((new.drop d.lastscan.toNat).take lenf.toNat)
    extra := (new.drop (d.lastscan.toNat + lenf.toNat)).take
      (d.scan - lenb - (d.lastscan + lenf)).toNat
    seek := d.pos - lenb - (d.lastpos + lenf) }
  have lengthDiff : (step.diff.length : Int) = lenf := by
    rw [Delta.length_subtracted, List.length_take, List.length_drop]
    omega
  have lengthExtra : (step.extra.length : Int) = d.scan - lenb - (d.lastscan + lenf) := by
    rw [List.length_take, List.length_drop]
    omega
  have written : emit old new d lenf lenb = some { d with
      blocks := ⟨d.blocks.db ++ step.diff, d.blocks.eb ++ step.extra, d.blocks.cb ++ ctrl step⟩
      lastscan := d.scan - lenb, lastpos := d.pos - lenb, lastoffset := d.pos - d.scan } := by
    rw [emit, if_neg (by omega), diff, extra, ctrl, lengthDiff, lengthExtra]
    rfl
  refine ⟨_, written, ⟨⟨steps ++ [step], ?_⟩, rfl, rfl, ?_⟩⟩
  · refine ⟨?_, ?_, ?_, ?_, scan, ?_, ⟨lowQ, highQ⟩, ?_, going.ahead⟩
    · rw [going.blocks]
      unfold blocksOf
      rw [List.flatMap_append, List.flatMap_append, List.flatMap_append, List.flatMap_singleton,
        List.flatMap_singleton, List.flatMap_singleton]
    · have next : Delta.Restores old new (steps ++ [step])
          (d.lastscan.toNat + lenf.toNat + (d.scan - lenb - (d.lastscan + lenf)).toNat)
          (d.lastpos + lenf.toNat + step.seek) :=
        going.restores.snoc rfl rfl (by omega)
      have scan' : d.lastscan.toNat + lenf.toNat +
          (d.scan - lenb - (d.lastscan + lenf)).toNat = (d.scan - lenb).toNat := by omega
      have pos' : d.lastpos + lenf.toNat + step.seek = d.pos - lenb := by
        show d.lastpos + (lenf.toNat : Int) + (d.pos - lenb - (d.lastpos + lenf)) = d.pos - lenb
        omega
      rw [scan', pos'] at next
      exact next
    · intro other member
      rcases List.mem_append.mp member with before | last
      · exact going.seeks other before
      · rw [List.mem_singleton.mp last]
        show -(old.length : Int) ≤ d.pos - lenb - (d.lastpos + lenf) ∧
          d.pos - lenb - (d.lastpos + lenf) ≤ old.length
        omega
    · dsimp only
      omega
    · exact ⟨by dsimp only; omega, by dsimp only; omega⟩
    · dsimp only
      omega
  · intro last
    have none_ := all last
    dsimp only
    omega

theorem closeMatch_closed (going : Going old new steps d) :
    ∃ d', closeMatch old new d = some d' ∧ Closed old new d d' := by
  rcases going.lastscan with ⟨lowL, highL⟩
  rcases going.lastpos with ⟨lowP, highP⟩
  rcases going.pos with ⟨lowQ, highQ⟩
  have scan := going.scan
  have first : ∃ f, lenfLoop old new d.lastscan d.lastpos d.scan (d.scan - d.lastscan).toNat 0
      ⟨0, 0, 0⟩ = some f ∧ Forward old d.lastscan d.lastpos d.scan f.len :=
    lenfLoop_forward lowL scan lowP (le_refl 0) ⟨le_refl 0, by dsimp only; omega, by
      dsimp only
      omega⟩
  rcases first with ⟨f, forward, inF⟩
  have second : ∃ b, lenbOf old new d = some b ∧ Backward d.lastscan d.scan d.pos b.len ∧
      (d.scan = new.length → b.len = 0) := by
    have none_ : Backward d.lastscan d.scan d.pos 0 := ⟨le_refl 0, by omega, lowQ⟩
    unfold lenbOf
    split
    · next more =>
      rcases lenbLoop_backward (n := (d.scan - d.lastscan).toNat) lowL scan ⟨lowQ, highQ⟩
        (le_refl 1) (b := ⟨0, 0, 0⟩) none_ with ⟨b, backward, inB⟩
      refine ⟨b, backward, inB, ?_⟩
      intro last
      omega
    · exact ⟨_, rfl, none_, fun _ => rfl⟩
  rcases second with ⟨b, backward, inB, all⟩
  rw [closeMatch]
  simp only [forward, backward, Option.bind_eq_bind, Option.bind_some]
  rcases inF with ⟨lowF, highF, highF'⟩
  rcases inB with ⟨lowB, highB, highB'⟩
  by_cases overlap : d.lastscan + f.len - (d.scan - b.len) > 0
  · -- the ends overlap: they are moved to where they meet
    rw [if_pos overlap]
    generalize size : d.lastscan + f.len - (d.scan - b.len) = m at overlap ⊢
    have third : ∃ o, overlapLoop old new
        (d.lastscan + f.len - m, d.lastpos + f.len - m)
        (d.scan - b.len, d.pos - b.len) m.toNat 0 ⟨0, 0, 0⟩ = some o ∧ 0 ≤ o.len ∧
        o.len ≤ 0 + m.toNat := by
      apply overlapLoop_returns (le_refl 0)
      · exact ⟨by omega, by omega⟩
      · exact ⟨by omega, by omega⟩
      · exact ⟨by omega, by omega⟩
      · exact ⟨by omega, by omega⟩
      · exact ⟨le_refl 0, le_refl 0⟩
    rcases third with ⟨o, returns, lowO, highO⟩
    rw [returns, Option.bind_some]
    apply emit_closed going
    · exact ⟨by omega, by omega, by omega⟩
    · exact ⟨by omega, by omega, by omega⟩
    · omega
    · intro last
      have none_ := all last
      omega
  · rw [if_neg overlap]
    exact emit_closed going ⟨lowF, highF, highF'⟩ ⟨lowB, highB, highB'⟩ (by omega) all

/-- The loop returns with a difference that gives the whole new firmware. -/
theorem diffingLoop_restores (listed : Listed old I) (going : Going old new steps d)
    (closed : d.scan = new.length → d.lastscan = new.length)
    (enough : if d.scan < new.length then new.length - (d.scan + d.len) + 2 ≤ (n : Int)
      else 1 ≤ (n : Int)) :
    ∃ d' steps', diffingLoop I old new n d = some d' ∧ Going old new steps' d' ∧
      d'.lastscan = new.length := by
  induction n generalizing d steps with
  | zero =>
    split at enough
    · have ahead := going.ahead (by assumption)
      omega
    · omega
  | succ n ih =>
    have scan := going.scan
    have lastscan := going.lastscan
    rw [diffingLoop]
    by_cases more : d.scan < new.length
    · rw [if_pos more] at enough ⊢
      have ahead := going.ahead more
      have shifted := going.shifted
      have scanned : ∃ s, scanLoop I old new d.lastoffset
          (new.length - (d.scan + d.len)).toNat ⟨d.scan + d.len, d.len, d.pos, d.scan + d.len, 0⟩ =
          some s ∧ Scanned old new (d.scan + d.len) s :=
        scanLoop_scanned listed (by omega) (by omega) (le_refl _) (by dsimp only; omega)
          (le_refl _) (by dsimp only; omega) going.pos (fun _ => le_refl 0) (by dsimp only; omega)
      rcases scanned with ⟨s, returns, found⟩
      simp only [returns, Option.bind_eq_bind, Option.bind_some]
      have low := found.low
      have high := found.high
      have next : Going old new steps { d with scan := s.scan, len := s.len, pos := s.pos } := by
        refine ⟨going.blocks, going.restores, going.seeks, ?_, high, going.lastpos, found.offset,
          ?_, found.ahead⟩
        · dsimp only
          omega
        · dsimp only
          omega
      have progress := found.progress
      split
      · rcases closeMatch_closed next with ⟨d', closed', ⟨steps', going'⟩, same, len, last⟩
        rw [closed', Option.bind_some]
        dsimp only at same len last
        apply ih going'
        · intro end_
          exact last (same.symm.trans end_)
        · rw [same, len]
          split <;> omega
      · next open_ =>
        apply ih next
        · intro end_
          exact absurd (.inr end_) open_
        · dsimp only
          split <;> omega
    · rw [if_neg more]
      exact ⟨d, steps, rfl, going, closed (by omega)⟩

/-- The blocks of a run of the loop. -/
theorem diffingLoop_blocks (listed : Listed old I) :
    ∃ d steps, diffingLoop I old new (new.length + 2) {} = some d ∧ d.blocks = blocksOf steps ∧
      Delta.restore old 0 steps = new ∧
      ∀ step ∈ steps, -(old.length : Int) ≤ step.seek ∧ step.seek ≤ old.length := by
  have initial : Going old new [] {} := by
    refine ⟨rfl, .nil, ?_, ⟨le_refl 0, le_refl 0⟩, ?_, ⟨le_refl 0, ?_⟩, ⟨le_refl 0, ?_⟩,
      le_refl 0, ?_⟩
    · intro step member
      cases member
    · exact Int.natCast_nonneg _
    · exact Int.natCast_nonneg _
    · exact Int.natCast_nonneg _
    · intro more
      exact ⟨le_refl 0, more.le⟩
  have all : ∃ d steps, diffingLoop I old new (new.length + 2) {} = some d ∧
      Going old new steps d ∧ d.lastscan = new.length :=
    diffingLoop_restores listed initial (fun last => last) (by
      dsimp only
      split <;> omega)
  rcases all with ⟨d, steps, returns, going, last⟩
  refine ⟨d, steps, returns, going.blocks, ?_, going.seeks⟩
  rw [going.restores.text, last, Int.toNat_natCast, List.take_length]

end Bsdiff

end Tr6260
