import Tr6260.BlockHeap

/-!
# The console

`util_cli_freertos.c` collects received characters in a block and hands a line over to
`cli_handler`, which another task runs later. Before a command has switched to the AT commands each
line has a block of its own, which the handler releases; behind the switch one larger block takes all
lines, and the handler only resets the index. With the former, an arrow key brings back one of the
last ten lines.

A step has no result when it writes outside of a block, uses a released one, releases one twice, or
reads a text behind the end of its row or block.
-/

namespace Tr6260

namespace Console

def escapeKey : UInt8 := 0x1b

def backspKey : UInt8 := 0x08

def returnKey : UInt8 := 0x0D

/-- `IS_ASCII`. -/
def isAscii (c : UInt8) : Prop := 0x1F < c ∧ c < 0x7F

instance (c : UInt8) : Decidable (isAscii c) := inferInstanceAs (Decidable (_ ∧ _))

/-- `MAX_INPUT_LENGTH`, without and with `AMT`. -/
def maxInputLength (amt : Bool) : Nat := if amt then 1152 else 128

/-- `MAX_INPUT_LENGTH_ATCMD`. -/
def maxInputLengthAtcmd : Nat := 8 * 1024

/-- `MAX_HISTORY`. -/
def maxHistory : Nat := 10

/-- `cli`, `ya_atcmd_start_flag`, `reMalloc_flag` and the history, with the blocks, the arguments of
the calls of `cli_handler` that are queued, and the texts `g_cli_run_command` was called with. -/
structure Cli where
  atcmd : Bool
  reMalloc : Bool
  heap : BlockHeap UInt8
  buffer : Option Nat
  index : Nat
  history : List (List UInt8)
  historyIndex : Nat
  historyRdIndex : Nat
  escape : Bool
  queue : List Nat
  passed : List (List UInt8)
  deriving DecidableEq

/-- The console after a start. -/
def Cli.init (amt : Bool) : Cli where
  atcmd := false
  reMalloc := false
  heap := []
  buffer := none
  index := 0
  history := List.replicate maxHistory (List.replicate (maxInputLength amt) 0)
  historyIndex := 0
  historyRdIndex := 0
  escape := false
  queue := []
  passed := []

/-- What the callback meets: whether `pvPortMalloc` finds a block, the bytes that are in it, and
whether the call of `cli_handler` can be queued. -/
structure CharEnv where
  allocates : Bool
  fill : UInt8
  schedules : Bool

/-- A text that is ended within its block. -/
def text (block : List UInt8) : Option (List UInt8) :=
  if 0 ∈ block then some (block.takeWhile (· ≠ 0)) else none

/-! ## Received characters -/

/-- A new `cli.buffer`. The `ASSERT` behind it prints a line. -/
def allocBuffer (env : CharEnv) (size : Nat) (s : Cli) : Cli :=
  if env.allocates then
    { s with
      heap := s.heap.alloc (List.replicate size env.fill)
      buffer := some s.heap.length
      index := 0 }
  else
    { s with buffer := none, index := 0 }

/-- The buffer at the beginning of `util_cli_callback`. -/
def prepareBuffer (amt : Bool) (env : CharEnv) (s : Cli) : Option Cli :=
  if s.atcmd then
    if s.reMalloc then
      some s
    else
      match s.buffer with
      | none => some (allocBuffer env maxInputLengthAtcmd { s with reMalloc := true })
      | some id => do
        let heap ← s.heap.free id
        return allocBuffer env maxInputLengthAtcmd { s with reMalloc := true, heap }
  else
    match s.buffer with
    | none => some (allocBuffer env (maxInputLength amt) s)
    | some _ => some s

/-- `cli.buffer[cli.index++] = c`. -/
def storeChar (s : Cli) (c : UInt8) : Option Cli :=
  match s.buffer with
  | none => none
  | some id => do
    let heap ← s.heap.write id s.index [c]
    return { s with heap, index := s.index + 1 }

/-- The walk of `g_cli_history_rd_index` to the last row before it that is in use. -/
def olderRow (used : Nat → Bool) : (left rd : Nat) → Nat
  | 0, rd => rd
  | left + 1, rd =>
    let rd := if rd = 0 then maxHistory - 1 else rd - 1
    if used rd then rd else olderRow used left rd

/-- A row whose first character is not the terminator. -/
def rowUsed (history : List (List UInt8)) (i : Nat) : Bool := (history.getD i []).headD 0 ≠ 0

/-- A character behind an escape key. -/
def showHistory (s : Cli) (c : UInt8) : Option Cli := do
  let s ← storeChar s c
  if s.index = 3 then
    match s.buffer with
    | none => none
    | some id =>
      let keys ← s.heap.read id 0 3
      let s := { s with escape := false }
      if keys = [27, 91, 65] then
        let rd := olderRow (rowUsed s.history) maxHistory s.historyRdIndex
        let history ← text (s.history.getD rd [])
        let heap ← s.heap.write id 0 history
        return { s with historyRdIndex := rd, index := history.length, heap }
      else
        return { s with index := 0 }
  else
    return s

/-- The copy of a line to the history. -/
def keepHistory (amt : Bool) (s : Cli) : Option Cli :=
  match s.buffer with
  | none => none
  | some id => do
    let line ← s.heap.read id 0 s.index
    let row ← Block.write (List.replicate (maxInputLength amt) 0) 0 line
    let next := if s.historyIndex + 1 = maxHistory then 0 else s.historyIndex + 1
    return { s with
      history := s.history.set s.historyIndex row
      historyIndex := next
      historyRdIndex := next }

/-- The return key. -/
def endLine (env : CharEnv) (s : Cli) : Option Cli :=
  if s.index = 0 then
    some s
  else
    match s.buffer with
    | none => none
    | some id => do
      let heap ← s.heap.write id s.index [0]
      let buffer := if s.atcmd then some id else none
      if env.schedules then
        return { s with heap, queue := s.queue ++ [id], buffer }
      else
        let heap ← heap.free id
        return { s with heap, buffer }

/-- The characters a line can have. -/
def limit (amt : Bool) (s : Cli) : Nat :=
  if s.atcmd then maxInputLengthAtcmd else maxInputLength amt

/-- The `switch` of `util_cli_callback`. -/
def switchKey (amt : Bool) (env : CharEnv) (c : UInt8) (s : Cli) : Option Cli :=
  if c = backspKey then
    if s.atcmd then some s else some { s with index := s.index - 1 }
  else if c = returnKey then
    endLine env s
  else if isAscii c ∧ s.index < limit amt s then
    storeChar s c
  else
    some s

/-- `util_cli_callback`. -/
def utilCliCallback (amt : Bool) (env : CharEnv) (c : UInt8) (s : Cli) : Option Cli := do
  let s ← prepareBuffer amt env s
  if s.atcmd then
    switchKey amt env c s
  else if c = escapeKey then
    let s ← storeChar { s with index := 0 } c
    return { s with escape := true }
  else if s.escape then
    showHistory s c
  else if c = returnKey ∧ 0 < s.index then
    let s ← keepHistory amt s
    switchKey amt env c s
  else
    switchKey amt env c s

/-! ## Queued calls -/

/-- `cli_handler`. The command may be one that switches to the AT commands. -/
def cliHandler (switches : Bool) (arg : Nat) (s : Cli) : Option Cli :=
  if s.atcmd then
    match s.buffer with
    | none => some { s with index := 0 }
    | some id => do
      let command ← (s.heap.block? id).bind text
      return { s with passed := s.passed ++ [command], index := 0 }
  else do
    let command ← (s.heap.block? arg).bind text
    let heap ← s.heap.free arg
    return { s with passed := s.passed ++ [command], atcmd := switches, heap }

/-- A character is received, or one of the queued calls is run. -/
inductive Event
  | receive (c : UInt8) (env : CharEnv)
  | handle (i : Nat) (switches : Bool)

def step (amt : Bool) (s : Cli) : Event → Option Cli
  | .receive c env => utilCliCallback amt env c s
  | .handle i switches =>
    match s.queue[i]? with
    | none => some s
    | some arg => cliHandler switches arg { s with queue := s.queue.eraseIdx i }

def run (amt : Bool) (s : Cli) : List Event → Option Cli
  | [] => some s
  | event :: events => (step amt s event).bind fun s => run amt s events

end Console

end Tr6260
