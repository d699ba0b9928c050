import Mathlib.Data.List.GetD
import Tr6260.Console.Model

/-!
# The lines of the console

`Editor` says what the console is for, without blocks: keys change a line, an arrow key brings back
an older one, and the return key ends it. `Holds` relates it to the buffer, the history and the queued
calls. As long as each step meets `Fine`, the console follows the editor: no step goes wrong, and the
lines that were ended are those that were passed on and those of the queued calls.
-/

namespace Tr6260

namespace Console

/-! ## The editor -/

/-- The line so far, or the keys of an escape sequence, the lines before, the number of calls that
are queued, and the lines they are for or were for. -/
structure Editor where
  atcmd : Bool
  line : List UInt8
  keys : List UInt8
  history : List (List UInt8)
  historyIndex : Nat
  rdIndex : Nat
  pending : Nat
  ended : List (List UInt8)

def Editor.init : Editor where
  atcmd := false
  line := []
  keys := []
  history := List.replicate maxHistory []
  historyIndex := 0
  rdIndex := 0
  pending := 0
  ended := []

/-- The return key: a line that is not empty ends. -/
def Editor.finish (schedules : Bool) (e : Editor) : Editor :=
  if e.line = [] then e
  else if schedules then
    { e with line := [], pending := e.pending + 1, ended := e.ended ++ [e.line] }
  else { e with line := [] }

/-- A line goes to the history. -/
def Editor.keep (e : Editor) : Editor :=
  if e.line = [] then e
  else
    let next := if e.historyIndex + 1 = maxHistory then 0 else e.historyIndex + 1
    { e with
      history := e.history.set e.historyIndex e.line
      historyIndex := next
      rdIndex := next }

/-- The last line before the one shown. -/
def Editor.older (e : Editor) : Nat :=
  olderRow (fun i => e.history.getD i [] ≠ []) maxHistory e.rdIndex

/-- A key behind an escape key. -/
def Editor.escaped (c : UInt8) (e : Editor) : Editor :=
  if e.keys.length = 2 then
    if e.keys ++ [c] = [27, 91, 65] then
      { e with keys := [], rdIndex := e.older, line := e.history.getD e.older [] }
    else { e with keys := [] }
  else { e with keys := e.keys ++ [c] }

/-- A character that fits goes to the line. -/
def Editor.type (room : Nat) (c : UInt8) (e : Editor) : Editor :=
  if isAscii c ∧ e.line.length < room then { e with line := e.line ++ [c] } else e

/-- A key. -/
def Editor.receive (amt : Bool) (schedules : Bool) (c : UInt8) (e : Editor) : Editor :=
  if e.atcmd then
    if c = backspKey then e
    else if c = returnKey then e.finish schedules
    else e.type maxInputLengthAtcmd c
  else if c = escapeKey then { e with line := [], keys := [c] }
  else if e.keys ≠ [] then e.escaped c
  else if c = backspKey then { e with line := e.line.dropLast }
  else if c = returnKey then e.keep.finish schedules
  else e.type (maxInputLength amt) c

def Editor.step (amt : Bool) (e : Editor) : Event → Editor
  | .receive c env => e.receive amt env.schedules c
  | .handle i switches =>
    if i < e.pending then { e with pending := e.pending - 1, atcmd := e.atcmd || switches } else e

/-! ## The conditions -/

/-- The character is stored, or ends a line. -/
def Acts (room : Nat) (s : Cli) (c : UInt8) : Prop :=
  isAscii c ∧ s.index < room ∨ c = returnKey ∧ 0 < s.index

/-- What a received character must meet before the switch to the AT commands: a block is found, and
a line that ends does not fill its block. -/
structure FineBefore (amt : Bool) (s : Cli) (c : UInt8) (env : CharEnv) : Prop where
  allocates : s.buffer = none → env.allocates = true
  room : c = returnKey → s.escape = false → s.buffer ≠ none → s.index < maxInputLength amt

/-- The first character behind the switch: a block is found, and no line has been begun. -/
structure FineFirst (s : Cli) (env : CharEnv) : Prop where
  allocates : env.allocates = true
  fresh : s.buffer = none ∨ s.index = 0

/-- The characters behind: the line before has been handled, and one that ends does not fill the
block and is queued. -/
structure FineAfter (s : Cli) (c : UInt8) (env : CharEnv) : Prop where
  handled : Acts maxInputLengthAtcmd s c → ∀ id ∈ s.buffer, id ∉ s.queue
  room : c = returnKey → s.index < maxInputLengthAtcmd
  schedules : c = returnKey → 0 < s.index → env.schedules = true

instance (amt : Bool) (s : Cli) (c : UInt8) (env : CharEnv) : Decidable (FineBefore amt s c env) :=
  decidable_of_iff ((s.buffer = none → env.allocates = true) ∧
      (c = returnKey → s.escape = false → s.buffer ≠ none → s.index < maxInputLength amt))
    ⟨fun both => ⟨both.1, both.2⟩, fun fine => ⟨fine.allocates, fine.room⟩⟩

instance (s : Cli) (env : CharEnv) : Decidable (FineFirst s env) :=
  decidable_of_iff (env.allocates = true ∧ (s.buffer = none ∨ s.index = 0))
    ⟨fun both => ⟨both.1, both.2⟩, fun fine => ⟨fine.allocates, fine.fresh⟩⟩

instance (s : Cli) (c : UInt8) (env : CharEnv) : Decidable (FineAfter s c env) :=
  decidable_of_iff (((isAscii c ∧ s.index < maxInputLengthAtcmd ∨ c = returnKey ∧ 0 < s.index) →
      ∀ id ∈ s.buffer, id ∉ s.queue) ∧ (c = returnKey → s.index < maxInputLengthAtcmd) ∧
      (c = returnKey → 0 < s.index → env.schedules = true))
    ⟨fun all => ⟨all.1, all.2.1, all.2.2⟩, fun fine => ⟨fine.handled, fine.room, fine.schedules⟩⟩

/-- The condition on a step. A call that is run behind the switch was queued behind it. -/
def Fine (amt : Bool) (s : Cli) : Event → Prop
  | .receive c env =>
    if s.atcmd then
      if s.reMalloc then FineAfter s c env else FineFirst s env
    else FineBefore amt s c env
  | .handle i _ => s.atcmd = true → i < s.queue.length → s.queue[i]? = s.buffer

instance (amt : Bool) (s : Cli) : (event : Event) → Decidable (Fine amt s event)
  | .receive c env => inferInstanceAs (Decidable (if s.atcmd then
      if s.reMalloc then FineAfter s c env else FineFirst s env
    else FineBefore amt s c env))
  | .handle i _ => inferInstanceAs
      (Decidable (s.atcmd = true → i < s.queue.length → s.queue[i]? = s.buffer))

/-- Each step of the run meets its condition. -/
def AllFine (amt : Bool) (s : Cli) : List Event → Prop
  | [] => True
  | event :: events => Fine amt s event ∧ ∀ s' ∈ step amt s event, AllFine amt s' events

instance allFineDecidable (amt : Bool) (s : Cli) :
    (events : List Event) → Decidable (AllFine amt s events)
  | [] => inferInstanceAs (Decidable True)
  | event :: events =>
    have := fun s' => allFineDecidable amt s' events
    inferInstanceAs (Decidable (Fine amt s event ∧ ∀ s' ∈ step amt s event, AllFine amt s' events))

/-! ## The invariant -/

/-- The text a queued call is for. -/
def textAt (heap : BlockHeap UInt8) (id : Nat) : List UInt8 :=
  ((heap.block? id).bind text).getD []

/-- A row of the history. -/
def row (amt : Bool) (line : List UInt8) : List UInt8 :=
  line ++ List.replicate (maxInputLength amt - line.length) 0

/-- The size of `cli.buffer`. -/
def bufferSize (amt : Bool) (s : Cli) : Nat :=
  if s.reMalloc then maxInputLengthAtcmd else maxInputLength amt

/-- Each line that was ended has been passed on, or is the text of a queued call. -/
structure Delivered (heap : BlockHeap UInt8) (queue : List Nat) (passed ended : List (List UInt8)) :
    Prop where
  queued : ∀ id ∈ queue, ∃ line, (heap.block? id).bind text = some line
  lines : (passed ++ queue.map (textAt heap)).Perm ended

/-- The buffer holds the line, unless it is the block of a queued call. -/
structure Buffered (amt : Bool) (s : Cli) (e : Editor) (id : Nat) : Prop where
  live : ∃ block, s.heap.block? id = some block ∧ block.length = bufferSize amt s ∧
    (id ∉ s.queue → block.take s.index = e.keys ++ e.line)
  index : s.index ≤ bufferSize amt s
  own : s.reMalloc = false → id ∉ s.queue
  shared : id ∈ s.queue → e.line = [] ∧ e.keys = [] ∧ 0 < s.index ∧
    s.index < maxInputLengthAtcmd

structure Holds (amt : Bool) (s : Cli) (e : Editor) : Prop where
  mode : e.atcmd = s.atcmd
  before : s.atcmd = false → s.reMalloc = false
  pending : e.pending = s.queue.length
  distinct : s.queue.Nodup
  delivered : Delivered s.heap s.queue s.passed e.ended
  escape : s.escape = true ↔ e.keys ≠ []
  keysLine : e.keys ≠ [] → e.line = []
  noKeys : s.reMalloc = true → e.keys = []
  line : 0 ∉ e.line
  noBuffer : s.buffer = none → s.reMalloc = false ∧ e.line = [] ∧ e.keys = []
  buffered : ∀ id ∈ s.buffer, Buffered amt s e id
  history : s.history = e.history.map (row amt)
  rows : e.history.length = maxHistory
  short : ∀ line ∈ e.history, line.length < maxInputLength amt ∧ 0 ∉ line
  historyIndex : s.historyIndex = e.historyIndex ∧ e.historyIndex < maxHistory
  rdIndex : s.historyRdIndex = e.rdIndex ∧ e.rdIndex < maxHistory

/-! ## Blocks -/

/-- The text in front of a terminator. -/
theorem text_of_take {block line : List UInt8} (nonzero : 0 ∉ line)
    (begins : block.take (line.length + 1) = line ++ [0]) : text block = some line := by
  have whole : block = line ++ 0 :: block.drop (line.length + 1) := by
    have := List.take_append_drop (line.length + 1) block
    rw [begins, List.append_assoc] at this
    exact this.symm
  have kept : ∀ b ∈ line, decide (b ≠ 0) = true := fun b inside =>
    decide_eq_true fun zero => nonzero (zero ▸ inside)
  unfold text
  rw [whole, if_pos (List.mem_append_right _ List.mem_cons_self), List.takeWhile_append_of_pos kept,
    List.takeWhile_cons_of_neg (by decide), List.append_nil]

/-- A line that does not fill its row is ended in it. -/
theorem text_row {amt : Bool} {line : List UInt8} (short : line.length < maxInputLength amt)
    (nonzero : 0 ∉ line) : text (row amt line) = some line := by
  refine text_of_take nonzero ?_
  rw [row, List.take_length_add_append, List.take_replicate, Nat.min_eq_left (by omega)]
  rfl

theorem write_row {amt : Bool} {line : List UInt8} (short : line.length < maxInputLength amt) :
    Block.write (List.replicate (maxInputLength amt) 0) 0 line = some (row amt line) := by
  rw [Block.write_of_le (by rw [List.length_replicate]; omega), List.take_zero, List.nil_append,
    Nat.zero_add, List.drop_replicate]
  rfl

theorem olderRow_lt (used : Nat → Bool) (left : Nat) {rd : Nat} (inside : rd < maxHistory) :
    olderRow used left rd < maxHistory := by
  induction left generalizing rd with
  | zero => exact inside
  | succ left ih =>
    have before : (if rd = 0 then maxHistory - 1 else rd - 1) < maxHistory := by
      split
      · decide
      · omega
    unfold olderRow
    generalize (if rd = 0 then maxHistory - 1 else rd - 1) = next at before ⊢
    dsimp only
    split
    · exact before
    · exact ih before

theorem textAt_eq {heap : BlockHeap UInt8} {id : Nat} {line : List UInt8}
    (found : (heap.block? id).bind text = some line) : textAt heap id = line := by
  rw [textAt, found]
  rfl

section Blocks

variable {amt : Bool} {s : Cli} {e : Editor} {id : Nat}

/-- Only the blocks of the queued calls matter. -/
theorem Delivered.frame {heap heap' : BlockHeap UInt8} {queue : List Nat}
    {passed ended : List (List UInt8)} (delivered : Delivered heap queue passed ended)
    (same : ∀ other ∈ queue, heap'.block? other = heap.block? other) :
    Delivered heap' queue passed ended := by
  constructor
  · intro other inside
    rw [same other inside]
    exact delivered.queued other inside
  · have texts : queue.map (textAt heap') = queue.map (textAt heap) := by
      refine List.map_congr_left fun other inside => ?_
      unfold textAt
      rw [same other inside]
    rw [texts]
    exact delivered.lines

/-- Bytes written behind the ones in the buffer. -/
theorem Buffered.write (buffered : Buffered amt s e id) (own : id ∉ s.queue) {bytes : List UInt8}
    (fits : s.index + bytes.length ≤ bufferSize amt s) : ∃ heap block,
      s.heap.write id s.index bytes = some heap ∧ heap.block? id = some block ∧
      block.length = bufferSize amt s ∧
      block.take (s.index + bytes.length) = e.keys ++ e.line ++ bytes ∧
      ∀ other ≠ id, heap.block? other = s.heap.block? other := by
  rcases buffered.live with ⟨block, live, length, holds⟩
  have room : s.index + bytes.length ≤ block.length := by rw [length]; exact fits
  rcases BlockHeap.exists_write live room with
    ⟨heap, block', written, inner, live', apart⟩
  refine ⟨heap, block', written, live', (Block.length_write inner).trans length, ?_, apart⟩
  rw [Block.take_write_end inner, holds own]

theorem Buffered.length (buffered : Buffered amt s e id) (own : id ∉ s.queue) :
    (e.keys ++ e.line).length = s.index := by
  rcases buffered.live with ⟨block, -, length, holds⟩
  rw [← holds own, List.length_take, length]
  exact Nat.min_eq_left buffered.index

end Blocks

/-! ## Steps -/

section Steps

variable {amt : Bool} {s : Cli} {e : Editor} {id : Nat} {c : UInt8} {env : CharEnv}

theorem isAscii.nonzero (ascii : isAscii c) : c ≠ 0 := by
  rintro rfl
  exact absurd ascii.1 (by decide)

/-- A block found for the buffer. -/
theorem allocBuffer_eq (allocates : env.allocates = true) (size : Nat) (s : Cli) :
    allocBuffer env size s =
      { s with
        heap := s.heap.alloc (List.replicate size env.fill)
        buffer := some s.heap.length
        index := 0 } := if_pos allocates

theorem Holds.live (holds : Holds amt s e) {other : Nat} (inside : other ∈ s.queue) :
    ∃ block, s.heap.block? other = some block := by
  rcases holds.delivered.queued other inside with ⟨line, found⟩
  cases live : s.heap.block? other with
  | none =>
    rw [live] at found
    cases found
  | some block => exact ⟨block, rfl⟩

/-- A new buffer, when no line has been begun. -/
theorem Holds.alloc (holds : Holds amt s e) (line : e.line = []) (keys : e.keys = [])
    (reMalloc : Bool) (before : s.atcmd = false → reMalloc = false) (fill : UInt8) (size : Nat)
    (sized : size = if reMalloc then maxInputLengthAtcmd else maxInputLength amt) :
    Holds amt { s with
        reMalloc
        heap := s.heap.alloc (List.replicate size fill)
        buffer := some s.heap.length
        index := 0 } e ∧ s.heap.length ∉ s.queue := by
  have fresh : s.heap.length ∉ s.queue := by
    intro inside
    rcases holds.live inside with ⟨block, live⟩
    exact absurd (BlockHeap.lt_of_block? live) (Nat.lt_irrefl _)
  have same : ∀ other ∈ s.queue,
      (s.heap.alloc (List.replicate size fill)).block? other = s.heap.block? other := by
    intro other inside
    rcases holds.live inside with ⟨block, live⟩
    rw [live, BlockHeap.block?_alloc live]
  refine ⟨{ holds with
    before
    delivered := holds.delivered.frame same
    noKeys := fun _ => keys
    noBuffer := fun none_ => nomatch none_
    buffered := ?_ }, fresh⟩
  intro id own
  cases Option.mem_some.mp own
  exact {
    live := ⟨_, BlockHeap.block?_alloc_self _ _, by rw [List.length_replicate, sized]; rfl,
      fun _ => by rw [line, keys]; rfl⟩
    index := Nat.zero_le _
    own := fun _ => fresh
    shared := fun inside => absurd inside fresh }

/-- The buffer is given up, when no line has been begun. -/
theorem Holds.noLine (holds : Holds amt s e) (line : e.line = []) (keys : e.keys = [])
    (before : s.reMalloc = false) {heap : BlockHeap UInt8}
    (same : ∀ other ∈ s.queue, heap.block? other = s.heap.block? other) :
    Holds amt { s with heap, buffer := none } e :=
  { holds with
    delivered := holds.delivered.frame same
    noBuffer := fun _ => ⟨before, line, keys⟩
    buffered := fun _ there => (nomatch there) }

/-- The line is dropped. -/
theorem Holds.reset (holds : Holds amt s e) (own : ∀ id ∈ s.buffer, id ∉ s.queue) :
    Holds amt { s with index := 0, escape := false } { e with line := [], keys := [] } := by
  refine { holds with
    escape := ⟨fun no => (nomatch no), fun no => absurd rfl no⟩
    keysLine := fun _ => rfl
    noKeys := fun _ => rfl
    line := List.not_mem_nil
    noBuffer := fun none_ => ⟨(holds.noBuffer none_).1, rfl, rfl⟩
    buffered := fun id buffer => ?_ }
  have buffered := holds.buffered id buffer
  rcases buffered.live with ⟨block, live, length, -⟩
  exact {
    live := ⟨block, live, length, fun _ => rfl⟩
    index := Nat.zero_le _
    own := buffered.own
    shared := fun inside => absurd inside (own id buffer) }

/-- A received character goes to the buffer, behind the keys and the line. -/
theorem Holds.store (holds : Holds amt s e) (buffer : s.buffer = some id) (own : id ∉ s.queue)
    (room : s.index < bufferSize amt s) {keys line : List UInt8}
    (content : keys ++ line = e.keys ++ e.line ++ [c]) (keysLine : keys ≠ [] → line = [])
    (noKeys : s.reMalloc = true → keys = []) (nonzero : 0 ∉ line) :
    ∃ heap, (∀ escape, storeChar { s with escape } c =
        some { s with heap, index := s.index + 1, escape }) ∧
      ∀ escape, (escape = true ↔ keys ≠ []) →
        Holds amt { s with heap, index := s.index + 1, escape } { e with keys, line } := by
  have buffered := holds.buffered id buffer
  have fits : s.index + [c].length ≤ bufferSize amt s := room
  rcases buffered.write own fits with ⟨heap, block, written, live, length, begins, apart⟩
  refine ⟨heap, fun escape => ?_, fun escape flag => ?_⟩
  · unfold storeChar
    dsimp only
    rw [buffer]
    dsimp only
    rw [written]
    rfl
  have same : ∀ other ∈ s.queue, heap.block? other = s.heap.block? other := fun other inside =>
    apart other fun same => own (same ▸ inside)
  refine { holds with
    delivered := holds.delivered.frame same
    escape := flag
    keysLine
    noKeys
    line := nonzero
    noBuffer := fun none_ => ?_
    buffered := fun other there => ?_ }
  · rw [show s.buffer = none from none_] at buffer
    cases buffer
  · have here : other = id := Option.some.inj ((Option.mem_def.mp there).symm.trans buffer)
    subst here
    exact {
      live := ⟨block, live, length, fun _ => begins.trans content.symm⟩
      index := room
      own := buffered.own
      shared := fun inside => absurd inside own }

/-- The return key. -/
theorem Holds.endLine (holds : Holds amt s e) (buffer : s.buffer = some id) (own : id ∉ s.queue)
    (room : s.index < bufferSize amt s) (keys : e.keys = [])
    (queued : s.atcmd = true → s.reMalloc = true ∧ (0 < s.index → env.schedules = true)) :
    ∃ s', endLine env s = some s' ∧ Holds amt s' (e.finish env.schedules) := by
  have buffered := holds.buffered id buffer
  have length := buffered.length own
  rw [keys, List.nil_append] at length
  unfold Console.endLine Editor.finish
  by_cases empty : s.index = 0
  · rw [if_pos empty, if_pos (List.length_eq_zero_iff.mp (length.trans empty))]
    exact ⟨s, rfl, holds⟩
  have some_ : e.line ≠ [] := fun none_ => empty (by rw [← length, none_]; rfl)
  have fits : s.index + [(0 : UInt8)].length ≤ bufferSize amt s := room
  rcases buffered.write own fits with ⟨heap, block, written, live, size, begins, apart⟩
  have ended : (heap.block? id).bind text = some e.line := by
    rw [live]
    refine text_of_take holds.line ?_
    rw [length]
    rw [keys] at begins
    exact begins
  have same : ∀ other ∈ s.queue, heap.block? other = s.heap.block? other := fun other inside =>
    apart other fun same => own (same ▸ inside)
  have delivered := holds.delivered.frame same
  rw [if_neg empty, if_neg some_, buffer]
  dsimp only
  rw [written]
  dsimp only [Option.bind_eq_bind, Option.bind_some]
  by_cases schedules : env.schedules = true
  · rw [if_pos schedules, if_pos schedules]
    refine ⟨_, rfl, { holds with
      pending := by rw [List.length_append, ← holds.pending]; rfl
      distinct := ?_
      delivered := ⟨?_, ?_⟩
      keysLine := fun _ => rfl
      line := List.not_mem_nil
      noBuffer := ?_
      buffered := ?_ }⟩
    · refine List.nodup_append.mpr ⟨holds.distinct, List.pairwise_singleton _ _, ?_⟩
      rintro other inside last here rfl
      cases List.mem_singleton.mp here
      exact own inside
    · intro other inside
      rcases List.mem_append.mp inside with old | new
      · exact delivered.queued other old
      · cases List.mem_singleton.mp new
        exact ⟨e.line, ended⟩
    · rw [List.map_append, ← List.append_assoc]
      refine delivered.lines.append ?_
      rw [List.map_singleton, textAt_eq ended]
    · intro none_
      by_cases mode : s.atcmd = true
      · rw [if_pos mode] at none_
        cases none_
      · exact ⟨holds.before (eq_false_of_ne_true mode), rfl, keys⟩
    · intro other there
      by_cases mode : s.atcmd = true
      · rw [if_pos mode] at there
        cases Option.mem_some.mp there
        have after := (queued mode).1
        have large : bufferSize amt s = maxInputLengthAtcmd := if_pos after
        exact {
          live := ⟨block, live, size, fun out =>
            absurd (List.mem_append_right _ (List.mem_singleton_self _)) out⟩
          index := buffered.index
          own := fun early => absurd (early.symm.trans after) Bool.false_ne_true
          shared := fun _ => ⟨rfl, keys, Nat.pos_of_ne_zero empty, large ▸ room⟩ }
      · rw [if_neg mode] at there
        cases there
  · have before : ¬ s.atcmd = true := fun mode =>
      schedules ((queued mode).2 (Nat.pos_of_ne_zero empty))
    rcases BlockHeap.exists_free live with ⟨heap', freed, apart'⟩
    rw [if_neg schedules, if_neg schedules, freed, if_neg before]
    refine ⟨_, rfl, { holds with
      delivered := delivered.frame ?_
      keysLine := fun _ => rfl
      line := List.not_mem_nil
      noBuffer := fun _ => ⟨holds.before (eq_false_of_ne_true before), rfl, keys⟩
      buffered := fun other there => (nomatch there) }⟩
    exact fun other inside => apart' other fun same => own (same ▸ inside)

theorem Holds.length (holds : Holds amt s e) (buffer : s.buffer = some id) (own : id ∉ s.queue)
    (keys : e.keys = []) : e.line.length = s.index := by
  have length := (holds.buffered id buffer).length own
  rw [keys, List.nil_append] at length
  exact length

/-- The line goes to the history. -/
theorem Holds.keepHistory (holds : Holds amt s e) (buffer : s.buffer = some id) (own : id ∉ s.queue)
    (room : s.index < maxInputLength amt) (some_ : 0 < s.index) (keys : e.keys = []) :
    ∃ history next, keepHistory amt s =
        some { s with history, historyIndex := next, historyRdIndex := next } ∧
      Holds amt { s with history, historyIndex := next, historyRdIndex := next } e.keep := by
  have length := holds.length buffer own keys
  have line : e.line ≠ [] := fun none_ => by
    rw [none_, List.length_nil] at length
    omega
  rcases holds.buffered id buffer with ⟨⟨block, live, size, begins⟩, index, first, shared⟩
  have read : s.heap.read id 0 s.index = some e.line := by
    rw [BlockHeap.read_of_le live (by omega), List.drop_zero, begins own, keys]
    rfl
  have next : (if e.historyIndex + 1 = maxHistory then 0 else e.historyIndex + 1) < maxHistory := by
    have := holds.historyIndex.2
    split
    · decide
    · omega
  refine ⟨s.history.set s.historyIndex (row amt e.line),
    if e.historyIndex + 1 = maxHistory then 0 else e.historyIndex + 1, ?_, ?_⟩
  · unfold Console.keepHistory
    rw [buffer]
    dsimp only
    rw [read]
    dsimp only [Option.bind_eq_bind, Option.bind_some]
    rw [write_row (by rw [length]; exact room), holds.historyIndex.1]
    rfl
  · unfold Editor.keep
    rw [if_neg line]
    exact { holds with
      buffered := fun other there => by
        cases (Option.mem_def.mp there).symm.trans buffer
        exact ⟨⟨block, live, size, begins⟩, index, first, shared⟩
      history := by
        dsimp only
        rw [holds.history, holds.historyIndex.1, List.map_set]
      rows := by
        dsimp only
        rw [List.length_set]
        exact holds.rows
      short := fun kept inside => by
        rcases List.mem_or_eq_of_mem_set inside with old | rfl
        · exact holds.short kept old
        · exact ⟨by rw [length]; exact room, holds.line⟩
      historyIndex := ⟨rfl, next⟩
      rdIndex := ⟨rfl, next⟩ }

/-- The rows in use are those with a line. -/
theorem Holds.rowUsed (holds : Holds amt s e) :
    rowUsed s.history = fun i => decide (e.history.getD i [] ≠ []) := by
  funext i
  unfold Console.rowUsed
  by_cases inside : i < e.history.length
  · have shown : s.history.getD i [] = row amt (e.history.getD i []) := by
      rw [holds.history, List.getD_eq_getElem?_getD, List.getElem?_map, List.getD_eq_getElem?_getD,
        List.getElem?_eq_getElem inside]
      rfl
    have kept : e.history.getD i [] ∈ e.history := by
      rw [List.getD_eq_getElem _ _ inside]
      exact List.getElem_mem inside
    have nonzero := (holds.short _ kept).2
    rw [shown]
    cases first : e.history.getD i [] with
    | nil =>
      unfold row maxInputLength
      cases amt <;> rfl
    | cons b rest =>
      rw [first] at nonzero
      have : b ≠ 0 := fun zero => nonzero (zero ▸ List.mem_cons_self)
      simp [row, this]
  · have out : s.history.length ≤ i := by
      rw [holds.history, List.length_map]
      exact Nat.not_lt.mp inside
    rw [List.getD_eq_default _ _ out, List.getD_eq_default _ _ (Nat.not_lt.mp inside)]
    rfl

/-- An older line comes back. -/
theorem Holds.recall (holds : Holds amt s e) (buffer : s.buffer = some id) (own : id ∉ s.queue)
    (before : s.reMalloc = false) : ∃ heap,
      text (s.history.getD e.older []) = some (e.history.getD e.older []) ∧
      s.heap.write id 0 (e.history.getD e.older []) = some heap ∧
      Holds amt { s with
          historyRdIndex := e.older
          index := (e.history.getD e.older []).length
          heap
          escape := false }
        { e with keys := [], rdIndex := e.older, line := e.history.getD e.older [] } := by
  have older : e.older < maxHistory := olderRow_lt _ _ holds.rdIndex.2
  have inside : e.older < e.history.length := by rw [holds.rows]; exact older
  have kept : e.history.getD e.older [] ∈ e.history := by
    rw [List.getD_eq_getElem _ _ inside]
    exact List.getElem_mem inside
  have shown : s.history.getD e.older [] = row amt (e.history.getD e.older []) := by
    rw [holds.history, List.getD_eq_getElem?_getD, List.getElem?_map, List.getD_eq_getElem?_getD,
      List.getElem?_eq_getElem inside]
    rfl
  rcases holds.short _ kept with ⟨short, nonzero⟩
  generalize e.history.getD e.older [] = line at short nonzero shown
  rcases holds.buffered id buffer with ⟨⟨block, live, size, begins⟩, index, first, shared⟩
  have small : bufferSize amt s = maxInputLength amt := by
    unfold bufferSize
    rw [before]
    rfl
  have fits : 0 + line.length ≤ block.length := by omega
  rcases BlockHeap.exists_write live fits with ⟨heap, block', written, inner, live', apart⟩
  refine ⟨heap, ?_, written, { holds with
    delivered := holds.delivered.frame fun other inside =>
      apart other fun same => own (same ▸ inside)
    escape := ⟨fun no => (nomatch no), fun no => absurd rfl no⟩
    keysLine := fun no => absurd rfl no
    noKeys := fun _ => rfl
    line := nonzero
    noBuffer := fun none_ => ?_
    buffered := fun other there => ?_
    rdIndex := ⟨rfl, older⟩ }⟩
  · rw [shown]
    exact text_row short nonzero
  · rw [show s.buffer = none from none_] at buffer
    cases buffer
  · cases (Option.mem_def.mp there).symm.trans buffer
    have large : line.length ≤ bufferSize amt s := by omega
    exact {
      live := ⟨block', live', (Block.length_write inner).trans size, fun _ =>
        Block.take_write_zero inner⟩
      index := large
      own := first
      shared := fun inside => absurd inside own }

end Steps

end Console

end Tr6260
