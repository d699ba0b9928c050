import Mathlib.Data.List.Perm.Basic
import Tr6260.Console.Lines

/-!
# The lines that are passed on

`console_delivers`: over any run whose steps meet `Fine`, no access goes wrong, and each line that
was ended and queued is passed on once or waits to be. The conditions leave out the line that fills
its block, which the terminator goes behind; a character received behind the switch to the AT
commands while a line waits, which goes into the block of that line; a call that cannot be queued
then, whose block is released and stays in use; and what the switch leaves behind: a line begun
before, and calls queued before.
-/

namespace Tr6260

namespace Console

variable {amt : Bool} {s : Cli} {e : Editor} {id : Nat} {c : UInt8} {env : CharEnv}

theorem maxInputLength_large (amt : Bool) : 2 < maxInputLength amt := by
  unfold maxInputLength
  split <;> decide

/-! ## Keys -/

/-- A character of a line. -/
theorem Holds.type (holds : Holds amt s e) (buffer : s.buffer = some id) (keys : e.keys = [])
    {room : Nat} (sized : bufferSize amt s = room)
    (handled : isAscii c ∧ s.index < room → id ∉ s.queue) :
    ∃ s', (if isAscii c ∧ s.index < room then storeChar s c else some s) = some s' ∧
      Holds amt s' (e.type room c) := by
  unfold Editor.type
  by_cases own : id ∈ s.queue
  · -- the line waits, and is shorter than the block
    have buffered := holds.buffered id buffer
    have after : s.reMalloc = true := by
      by_contra before
      exact buffered.own (eq_false_of_ne_true before) own
    have large : room = maxInputLengthAtcmd := sized.symm.trans (if_pos after)
    have short : s.index < room := large ▸ (buffered.shared own).2.2.2
    have other : ¬ isAscii c := fun ascii => handled ⟨ascii, short⟩ own
    rw [if_neg fun acts => other acts.1, if_neg fun acts => other acts.1]
    exact ⟨s, rfl, holds⟩
  · have length := holds.length buffer own keys
    rw [length]
    by_cases acts : isAscii c ∧ s.index < room
    · rw [if_pos acts, if_pos acts]
      have nonzero : 0 ∉ e.line ++ [c] := by
        intro inside
        rcases List.mem_append.mp inside with old | new
        · exact holds.line old
        · exact acts.1.nonzero (List.mem_singleton.mp new).symm
      rcases holds.store buffer own (by rw [sized]; exact acts.2)
        (List.append_assoc e.keys e.line [c]).symm (fun some_ => absurd keys some_)
        holds.noKeys nonzero with
        ⟨heap, stored, kept⟩
      exact ⟨_, stored s.escape, kept s.escape holds.escape⟩
    · rw [if_neg acts, if_neg acts]
      exact ⟨s, rfl, holds⟩

/-- The backspace key. -/
theorem Holds.backspace (holds : Holds amt s e) (buffer : s.buffer = some id) (own : id ∉ s.queue)
    (keys : e.keys = []) :
    Holds amt { s with index := s.index - 1 } { e with line := e.line.dropLast } := by
  have length := holds.length buffer own keys
  rcases holds.buffered id buffer with ⟨⟨block, live, size, begins⟩, index, first, shared⟩
  refine { holds with
    keysLine := fun some_ => absurd keys some_
    line := fun inside => holds.line (List.dropLast_subset _ inside)
    noBuffer := fun none_ => ?_
    buffered := fun other there => ?_ }
  · rw [show s.buffer = none from none_] at buffer
    cases buffer
  · cases (Option.mem_def.mp there).symm.trans buffer
    have content : block.take (s.index - 1) = e.keys ++ e.line.dropLast := by
      have whole := begins own
      rw [keys, List.nil_append] at whole ⊢
      rw [List.dropLast_eq_take, ← whole, List.take_take, whole, length]
      congr 1
      omega
    exact {
      live := ⟨block, live, size, fun _ => content⟩
      index := Nat.le_trans (Nat.sub_le _ _) index
      own := first
      shared := fun inside => absurd inside own }

/-- A key behind an escape key. -/
theorem Holds.showHistory (holds : Holds amt s e) (buffer : s.buffer = some id)
    (own : id ∉ s.queue) (before : s.reMalloc = false) (keys : e.keys ≠ [])
    (few : e.keys.length ≤ 2) :
    ∃ s', showHistory s c = some s' ∧ Holds amt s' (e.escaped c) := by
  have line := holds.keysLine keys
  have length := (holds.buffered id buffer).length own
  rw [line, List.append_nil] at length
  have small : bufferSize amt s = maxInputLength amt := by
    unfold bufferSize
    rw [before]
    rfl
  have room : s.index < bufferSize amt s := by
    rw [small, ← length]
    exact Nat.lt_of_le_of_lt few (maxInputLength_large amt)
  have content : (e.keys ++ [c]) ++ [] = e.keys ++ e.line ++ [c] := by
    rw [line, List.append_nil, List.append_nil]
  rcases holds.store buffer own room content (fun _ => rfl)
    (fun after => absurd (before.symm.trans after) Bool.false_ne_true) List.not_mem_nil with
    ⟨heap, stored, kept⟩
  have after := kept s.escape (by rw [holds.escape]; exact ⟨fun _ => by simp, fun _ => keys⟩)
  unfold Console.showHistory Editor.escaped
  rw [stored s.escape]
  dsimp only [Option.bind_eq_bind, Option.bind_some]
  rw [length]
  by_cases last : s.index + 1 = 3
  · rw [if_pos last, if_pos (by omega), buffer]
    dsimp only
    rcases (after.buffered id buffer).live with ⟨block, live, size, begins⟩
    have read : heap.read id 0 3 = some (e.keys ++ [c]) := by
      have begun := begins own
      dsimp only at begun live
      rw [last] at begun
      have long : 0 + 3 ≤ block.length := by
        have := (after.buffered id buffer).index
        dsimp only at this
        omega
      rw [BlockHeap.read_of_le live long, List.drop_zero, begun, List.append_nil]
    rw [read]
    dsimp only [Option.bind_eq_bind, Option.bind_some]
    by_cases arrow : e.keys ++ [c] = [27, 91, 65]
    · rw [if_pos arrow, if_pos arrow]
      rcases after.recall buffer own before with ⟨heap', shown, written, recalled⟩
      have rd : olderRow (Console.rowUsed s.history) maxHistory s.historyRdIndex = e.older := by
        rw [holds.rowUsed, holds.rdIndex.1]
        rfl
      dsimp only at recalled
      rw [buffer] at recalled
      rw [rd]
      refine ⟨_, ?_, recalled⟩
      rw [show text (s.history.getD e.older []) = some (e.history.getD e.older []) from shown]
      dsimp only [Option.bind_some]
      rw [show heap.write id 0 (e.history.getD e.older []) = some heap' from written]
      rfl
    · rw [if_neg arrow, if_neg arrow]
      have dropped := after.reset fun other there => by
        cases (Option.mem_def.mp there).symm.trans buffer
        exact own
      have same : { e with keys := [] } = { e with line := [], keys := [] } := by
        rw [line]
      dsimp only at dropped
      rw [buffer] at dropped
      rw [same]
      exact ⟨_, rfl, dropped⟩
  · rw [if_neg last, if_neg (by omega)]
    have same : { e with keys := e.keys ++ [c] } = { e with keys := e.keys ++ [c], line := [] } := by
      rw [line]
    rw [same]
    exact ⟨_, rfl, after⟩

/-! ## The buffer -/

/-- The buffer of a line before the switch. -/
theorem Holds.prepare_before (holds : Holds amt s e) (mode : s.atcmd = false)
    (fine : FineBefore amt s c env) : ∃ s' id, prepareBuffer amt env s = some s' ∧ Holds amt s' e ∧
      s'.buffer = some id ∧ s'.atcmd = false ∧
      (c = returnKey → s'.escape = false → s'.index < maxInputLength amt) := by
  unfold prepareBuffer
  rw [mode, if_neg Bool.false_ne_true]
  cases buffer : s.buffer with
  | none =>
    rcases holds.noBuffer buffer with ⟨before, line, keys⟩
    dsimp only
    rw [allocBuffer_eq (fine.allocates buffer)]
    have fresh := (holds.alloc line keys s.reMalloc holds.before env.fill (maxInputLength amt)
      (by rw [before]; rfl)).1
    exact ⟨_, _, rfl, fresh, rfl, mode, fun _ _ =>
      Nat.zero_lt_of_lt (maxInputLength_large amt)⟩
  | some id =>
    exact ⟨s, id, rfl, holds, buffer, mode, fun return_ flag =>
      fine.room return_ flag (by rw [buffer]; exact Option.some_ne_none id)⟩

/-- The one buffer behind it. -/
theorem Holds.prepare_after (holds : Holds amt s e) (mode : s.atcmd = true)
    (fine : if s.reMalloc then FineAfter s c env else FineFirst s env) :
    ∃ s' id, prepareBuffer amt env s = some s' ∧ Holds amt s' e ∧ s'.buffer = some id ∧
      s'.atcmd = true ∧ s'.reMalloc = true ∧ FineAfter s' c env := by
  unfold prepareBuffer
  rw [if_pos mode]
  by_cases after : s.reMalloc = true
  · rw [if_pos after] at fine ⊢
    cases buffer : s.buffer with
    | none => exact absurd ((holds.noBuffer buffer).1.symm.trans after) Bool.false_ne_true
    | some id => exact ⟨s, id, rfl, holds, buffer, mode, after, fine⟩
  · have before := eq_false_of_ne_true after
    rw [if_neg after] at fine ⊢
    -- an empty buffer has neither a line nor keys
    have empty : e.line = [] ∧ e.keys = [] := by
      cases buffer : s.buffer with
      | none => exact (holds.noBuffer buffer).2
      | some id =>
        have buffered := holds.buffered id buffer
        have length := buffered.length (buffered.own before)
        have zero := fine.fresh.resolve_left (by rw [buffer]; exact Option.some_ne_none id)
        rw [zero] at length
        have none_ := List.append_eq_nil_iff.mp (List.length_eq_zero_iff.mp length)
        exact ⟨none_.2, none_.1⟩
    have begun (id : Nat) (s' : Cli) (fresh : id ∉ s'.queue) (buffer : s'.buffer = some id)
        (zero : s'.index = 0) : FineAfter s' c env := {
      handled := fun _ other there => by
        cases (Option.mem_def.mp there).symm.trans buffer
        exact fresh
      room := fun _ => by rw [zero]; decide
      schedules := fun _ some_ => by rw [zero] at some_; exact absurd some_ (Nat.lt_irrefl 0) }
    cases buffer : s.buffer with
    | none =>
      dsimp only
      rw [allocBuffer_eq fine.allocates]
      have fresh := holds.alloc empty.1 empty.2 true
        (fun no => absurd (no.symm.trans mode) Bool.false_ne_true) env.fill maxInputLengthAtcmd rfl
      exact ⟨_, _, rfl, fresh.1, rfl, mode, rfl, begun _ _ fresh.2 rfl rfl⟩
    | some id =>
      have buffered := holds.buffered id buffer
      rcases buffered.live with ⟨block, live, -, -⟩
      rcases BlockHeap.exists_free live with ⟨heap, freed, apart⟩
      have given := holds.noLine empty.1 empty.2 before fun other inside =>
        apart other fun same => buffered.own before (same ▸ inside)
      have fresh := given.alloc empty.1 empty.2 true
        (fun no => absurd (no.symm.trans mode) Bool.false_ne_true) env.fill maxInputLengthAtcmd rfl
      dsimp only
      rw [freed]
      dsimp only [Option.bind_eq_bind, Option.bind_some]
      rw [allocBuffer_eq fine.allocates]
      exact ⟨_, _, rfl, fresh.1, rfl, mode, rfl, begun _ _ fresh.2 rfl rfl⟩

/-! ## Steps -/

/-- A character before the switch. -/
theorem Holds.callback_before (holds : Holds amt s e) (few : e.keys.length ≤ 2)
    (mode : s.atcmd = false) (fine : FineBefore amt s c env) :
    ∃ s', utilCliCallback amt env c s = some s' ∧ Holds amt s' (e.receive amt env.schedules c) := by
  rcases holds.prepare_before mode fine with ⟨s, id, prepared, holds, buffer, mode, room⟩
  have before := holds.before mode
  have own := (holds.buffered id buffer).own before
  have small : bufferSize amt s = maxInputLength amt := by
    unfold bufferSize
    rw [before]
    rfl
  have small' : limit amt s = maxInputLength amt := by
    unfold limit
    rw [mode]
    rfl
  have no : ¬ s.atcmd = true := fun is => absurd (mode.symm.trans is) Bool.false_ne_true
  have no' : ¬ e.atcmd = true := fun is => no (holds.mode.symm.trans is)
  unfold utilCliCallback Editor.receive
  rw [prepared]
  dsimp only [Option.bind_eq_bind, Option.bind_some]
  rw [if_neg no, if_neg no']
  by_cases escape : c = escapeKey
  · rw [if_pos escape, if_pos escape]
    have dropped := holds.reset fun other there => by
      cases (Option.mem_def.mp there).symm.trans buffer
      exact own
    have first : (0 : Nat) < bufferSize amt s := by
      rw [small]
      exact Nat.zero_lt_of_lt (maxInputLength_large amt)
    have content : [c] ++ [] = ([] : List UInt8) ++ [] ++ [c] := rfl
    rcases dropped.store buffer own first content (fun _ => rfl)
      (fun after => absurd (before.symm.trans after) Bool.false_ne_true) List.not_mem_nil with
      ⟨heap, stored, kept⟩
    have after := kept true ⟨fun _ => List.cons_ne_nil _ _, fun _ => rfl⟩
    have stored' := stored s.escape
    dsimp only at stored'
    rw [stored']
    exact ⟨_, rfl, after⟩
  rw [if_neg escape, if_neg escape]
  by_cases keys : e.keys = []
  · have flag : ¬ s.escape = true := fun is => (holds.escape.mp is) keys
    have length := holds.length buffer own keys
    rw [if_neg flag, if_neg (not_not.mpr keys)]
    by_cases return_ : c = returnKey
    · have roomy := room return_ (eq_false_of_ne_true flag)
      have other : ¬ c = backspKey := by rw [return_]; decide
      have called (s' : Cli) (e' : Editor) (holds : Holds amt s' e') (keys : e'.keys = [])
          (buffer : s'.buffer = some id) (own : id ∉ s'.queue) (mode : s'.atcmd = false)
          (room : s'.index < bufferSize amt s') : ∃ s'', switchKey amt env c s' = some s'' ∧
            Holds amt s'' (e'.finish env.schedules) := by
        unfold switchKey
        rw [if_neg other, if_pos return_]
        exact holds.endLine buffer own room keys fun after =>
          absurd (mode.symm.trans after) Bool.false_ne_true
      rw [if_neg other, if_pos return_]
      by_cases some_ : 0 < s.index
      · rw [if_pos ⟨return_, some_⟩]
        rcases holds.keepHistory buffer own roomy some_ keys with ⟨history, next, kept, after⟩
        rw [kept]
        have keys' : e.keep.keys = [] := by
          unfold Editor.keep
          split
          · exact keys
          · exact keys
        exact called _ _ after keys' buffer own mode (small ▸ roomy)
      · rw [if_neg fun both => some_ both.2]
        have empty : e.line = [] := List.length_eq_zero_iff.mp (by omega)
        have same : e.keep = e := if_pos empty
        rw [same]
        exact called _ _ holds keys buffer own mode (by rw [small]; exact roomy)
    · rw [if_neg fun both => return_ both.1]
      unfold switchKey
      by_cases back : c = backspKey
      · rw [if_pos back, if_pos back, if_neg no]
        exact ⟨_, rfl, holds.backspace buffer own keys⟩
      · rw [if_neg back, if_neg back, if_neg return_, if_neg return_, small']
        exact holds.type buffer keys small fun _ => own
  · have flag : s.escape = true := holds.escape.mpr keys
    rw [if_pos flag, if_pos keys]
    exact holds.showHistory buffer own before keys few

/-- A character behind it. -/
theorem Holds.callback_after (holds : Holds amt s e) (mode : s.atcmd = true)
    (fine : if s.reMalloc then FineAfter s c env else FineFirst s env) :
    ∃ s', utilCliCallback amt env c s = some s' ∧ Holds amt s' (e.receive amt env.schedules c) := by
  rcases holds.prepare_after mode fine with ⟨s, id, prepared, holds, buffer, mode, after, fine⟩
  have keys := holds.noKeys after
  have large : bufferSize amt s = maxInputLengthAtcmd := if_pos after
  have large' : limit amt s = maxInputLengthAtcmd := if_pos mode
  unfold utilCliCallback Editor.receive switchKey
  rw [prepared]
  dsimp only [Option.bind_eq_bind, Option.bind_some]
  rw [if_pos mode, if_pos (holds.mode.trans mode)]
  by_cases back : c = backspKey
  · rw [if_pos back, if_pos back, if_pos mode]
    exact ⟨s, rfl, holds⟩
  rw [if_neg back, if_neg back]
  by_cases return_ : c = returnKey
  · rw [if_pos return_, if_pos return_]
    by_cases some_ : 0 < s.index
    · have own := fine.handled (.inr ⟨return_, some_⟩) id buffer
      exact holds.endLine buffer own (by rw [large]; exact fine.room return_) keys fun _ =>
        ⟨after, fine.schedules return_⟩
    · have zero : s.index = 0 := Nat.eq_zero_of_not_pos some_
      have own : id ∉ s.queue := fun inside =>
        some_ ((holds.buffered id buffer).shared inside).2.2.1
      exact holds.endLine buffer own (by rw [large, zero]; decide) keys fun _ =>
        ⟨after, fun pos => absurd pos some_⟩
  · rw [if_neg return_, if_neg return_, large']
    exact holds.type buffer keys large fun acts => fine.handled (.inl acts) id buffer

/-- A queued call. -/
theorem Holds.handle (holds : Holds amt s e) (switches : Bool) {i arg : Nat}
    (queued : s.queue[i]? = some arg) (fine : s.atcmd = true → some arg = s.buffer) :
    ∃ s', cliHandler switches arg { s with queue := s.queue.eraseIdx i } = some s' ∧
      Holds amt s' { e with pending := e.pending - 1, atcmd := e.atcmd || switches } := by
  rcases List.getElem?_eq_some_iff.mp queued with ⟨inside, found⟩
  have member : arg ∈ s.queue := found ▸ List.getElem_mem inside
  rcases holds.delivered.queued arg member with ⟨line, ended⟩
  have perm : (arg :: s.queue.eraseIdx i).Perm s.queue := by
    rw [← found]
    exact List.getElem_cons_eraseIdx_perm inside
  have distinct := (perm.nodup_iff.mpr holds.distinct)
  rw [List.nodup_cons] at distinct
  have sub : ∀ other ∈ s.queue.eraseIdx i, other ∈ s.queue := fun other there =>
    perm.subset (List.mem_cons_of_mem _ there)
  have pending : e.pending - 1 = (s.queue.eraseIdx i).length := by
    rw [List.length_eraseIdx_of_lt inside, holds.pending]
  have lines : (s.passed ++ [line] ++ (s.queue.eraseIdx i).map (textAt s.heap)).Perm e.ended := by
    refine List.Perm.trans ?_ holds.delivered.lines
    have mapped := perm.map (textAt s.heap)
    rw [List.map_cons, textAt_eq ended] at mapped
    rw [List.append_assoc]
    exact mapped.append_left s.passed
  have rest : Delivered s.heap (s.queue.eraseIdx i) (s.passed ++ [line]) e.ended :=
    ⟨fun other there => holds.delivered.queued other (sub other there), lines⟩
  unfold cliHandler
  dsimp only
  by_cases mode : s.atcmd = true
  · have buffer := fine mode
    rw [if_pos mode, ← buffer]
    dsimp only
    rw [ended]
    have waits := (holds.buffered arg buffer.symm).shared member
    rcases (holds.buffered arg buffer.symm).live with ⟨block, live, size, -⟩
    refine ⟨_, rfl, { holds with
      mode := by rw [holds.mode, mode, Bool.true_or]
      before := fun no => absurd (no.symm.trans mode) Bool.false_ne_true
      pending
      distinct := distinct.2
      delivered := rest
      noBuffer := fun none_ => (nomatch none_)
      buffered := fun other there => ?_ }⟩
    cases Option.mem_some.mp there
    exact {
      live := ⟨block, live, size, fun _ => by rw [waits.1, waits.2.1]; rfl⟩
      index := Nat.zero_le _
      own := fun _ => distinct.1
      shared := fun again => absurd again distinct.1 }
  · have live := holds.live member
    rcases live with ⟨block, live⟩
    rcases BlockHeap.exists_free live with ⟨heap, freed, apart⟩
    have before := holds.before (eq_false_of_ne_true mode)
    rw [if_neg mode, ended, freed]
    refine ⟨_, rfl, { holds with
      mode := by rw [holds.mode, eq_false_of_ne_true mode, Bool.false_or]
      before := fun _ => before
      pending
      distinct := distinct.2
      delivered := rest.frame fun other there => apart other fun same => distinct.1 (same ▸ there)
      buffered := fun other there => ?_ }⟩
    rcases holds.buffered other there with ⟨⟨block, live, size, begins⟩, index, own, -⟩
    have out := own before
    have live' : heap.block? other = some block := by
      rw [apart other fun same => out (same ▸ member)]
      exact live
    exact {
      live := ⟨block, live', size, fun _ => begins out⟩
      index
      own := fun _ again => out (sub other again)
      shared := fun again => absurd (sub other again) out }

/-! ## Runs -/

theorem init_holds (amt : Bool) : Holds amt (Cli.init amt) Editor.init where
  mode := rfl
  before := fun _ => rfl
  pending := rfl
  distinct := List.nodup_nil
  delivered := ⟨fun other there => (nomatch there), List.Perm.refl _⟩
  escape := ⟨fun no => (nomatch no), fun no => absurd rfl no⟩
  keysLine := fun _ => rfl
  noKeys := fun _ => rfl
  line := List.not_mem_nil
  noBuffer := fun _ => ⟨rfl, rfl, rfl⟩
  buffered := fun other there => (nomatch there)
  history := by
    unfold Cli.init Editor.init
    dsimp only
    rw [List.map_replicate]
    rfl
  rows := List.length_replicate
  short := fun line inside => by
    rw [List.eq_of_mem_replicate inside]
    exact ⟨Nat.zero_lt_of_lt (maxInputLength_large amt), List.not_mem_nil⟩
  historyIndex := ⟨rfl, by decide⟩
  rdIndex := ⟨rfl, by decide⟩

@[simp] theorem Editor.finish_keys (schedules : Bool) (e : Editor) :
    (e.finish schedules).keys = e.keys := by
  unfold finish
  split
  · rfl
  · split <;> rfl

@[simp] theorem Editor.keep_keys (e : Editor) : e.keep.keys = e.keys := by
  unfold keep
  split <;> rfl

@[simp] theorem Editor.type_keys (room : Nat) (c : UInt8) (e : Editor) :
    (e.type room c).keys = e.keys := by
  unfold type
  split <;> rfl

theorem Editor.escaped_keys (few : e.keys.length ≤ 2) (c : UInt8) :
    (e.escaped c).keys.length ≤ 2 := by
  unfold escaped
  split
  · split <;> exact Nat.zero_le _
  · rw [List.length_append, List.length_singleton]
    omega

/-- An escape sequence has three keys. -/
theorem Editor.step_keys (few : e.keys.length ≤ 2) (event : Event) :
    (e.step amt event).keys.length ≤ 2 := by
  cases event with
  | handle i switches =>
    unfold Editor.step
    dsimp only
    split <;> exact few
  | receive c env =>
    unfold Editor.step Editor.receive
    dsimp only
    by_cases mode : e.atcmd = true
    · rw [if_pos mode]
      split
      · exact few
      · split <;> simpa
    rw [if_neg mode]
    by_cases escape : c = escapeKey
    · rw [if_pos escape]
      exact Nat.le_succ 1
    rw [if_neg escape]
    by_cases keys : e.keys ≠ []
    · rw [if_pos keys]
      exact Editor.escaped_keys few c
    rw [if_neg keys]
    split
    · exact few
    · split <;> simpa

/-- A step that meets its condition. -/
theorem Holds.step (holds : Holds amt s e) (few : e.keys.length ≤ 2) {event : Event}
    (fine : Fine amt s event) :
    ∃ s', step amt s event = some s' ∧ Holds amt s' (e.step amt event) := by
  cases event with
  | receive c env =>
    unfold Fine at fine
    dsimp only at fine
    by_cases mode : s.atcmd = true
    · rw [if_pos mode] at fine
      exact holds.callback_after mode fine
    · rw [if_neg mode] at fine
      exact holds.callback_before few (eq_false_of_ne_true mode) fine
  | handle i switches =>
    unfold Console.step Editor.step
    dsimp only
    rw [holds.pending]
    by_cases inside : i < s.queue.length
    · rw [if_pos inside, List.getElem?_eq_getElem inside]
      have queued := List.getElem?_eq_getElem inside
      have handled := holds.handle switches queued fun mode =>
        queued.symm.trans (fine mode inside)
      rw [holds.pending] at handled
      exact handled
    · rw [if_neg inside, List.getElem?_eq_none (Nat.not_lt.mp inside)]
      exact ⟨s, rfl, holds⟩

/-- The editor over a run. -/
def Editor.run (amt : Bool) (e : Editor) (events : List Event) : Editor :=
  events.foldl (Editor.step amt) e

theorem Holds.run (holds : Holds amt s e) (few : e.keys.length ≤ 2) {events : List Event}
    (fine : AllFine amt s events) :
    ∃ s', run amt s events = some s' ∧ Holds amt s' (e.run amt events) := by
  induction events generalizing s e with
  | nil => exact ⟨s, rfl, holds⟩
  | cons event events ih =>
    rcases holds.step few fine.1 with ⟨s', stepped, holds'⟩
    rcases ih holds' (Editor.step_keys few event) (fine.2 s' stepped) with ⟨s'', ran, holds''⟩
    refine ⟨s'', ?_, holds''⟩
    unfold Console.run
    rw [stepped]
    exact ran

/-- The console delivers its lines: no access goes wrong, and the lines that were ended and queued
are those that were passed on, with those of the calls that still wait. -/
theorem console_delivers (amt : Bool) {events : List Event}
    (fine : AllFine amt (Cli.init amt) events) : ∃ s, run amt (Cli.init amt) events = some s ∧
      Delivered s.heap s.queue s.passed (Editor.init.run amt events).ended := by
  rcases (init_holds amt).run (Nat.zero_le _) fine with ⟨s, ran, holds⟩
  exact ⟨s, ran, holds.delivered⟩

/-- A character received while nothing fails. -/
def typed (c : UInt8) : Event := .receive c ⟨true, 0xA5, true⟩

/-- A line before the switch, whose command switches, and one behind it. -/
def twoLines : List Event :=
  [typed 97, typed returnKey, .handle 0 true, typed 98, typed returnKey, .handle 0 false]

theorem console_delivers_two : ∃ s, run false (Cli.init false) twoLines = some s ∧
    Delivered s.heap s.queue s.passed (Editor.init.run false twoLines).ended :=
  console_delivers false (by decide +kernel)

/-- The terminator of a line of 128 characters is written behind its block. -/
theorem console_full_line : run false (Cli.init false)
    (List.replicate 128 (typed 97) ++ [typed returnKey]) = none := by
  decide +kernel

end Console

end Tr6260
