import Mathlib.Data.List.Forall2
import Tr6260.AtCmd.Tokens

/-!
# The words of a command line

`util_cmd_run_command` offers a line to the AT handler and splits what that leaves of it with
`util_cmd_parse_line`. The parser writes its closing `NULL` behind the last word, also when the
words fill `argv`. The AT handler looks for the first word of a line that mentions one of its
commands, and a line that it then declines ends behind that word.
-/

namespace Tr6260

open CString AtCmd

namespace UtilCmd

/-! ## The parser -/

/-- `NRC_MAX_ARGV`. -/
def nrcMaxArgv : Nat := 16

/-- The bytes that `isblank2` accepts. -/
def blank2 : List UInt8 := [0x20, 0x09]

/-- The line, `argc` and `argv` with positions in the line for its pointers. -/
structure Parse where
  mem : List UInt8
  argc : Nat
  argv : List (Option Nat)
  deriving DecidableEq

/-- A write to `argv`; one outside of it has no result. -/
def setArgv (argv : List (Option Nat)) (i : Nat) (s : Option Nat) : Option (List (Option Nat)) :=
  if i < argv.length then some (argv.set i s) else none

/-- The end of `util_cmd_parse_line`. -/
def parseOut (mem : List UInt8) (argc : Nat) (argv : List (Option Nat)) : Option Parse := do
  let argv ← setArgv argv argc none
  some ⟨mem, argc, argv⟩

/-- The loop of `util_cmd_parse_line`, with the rounds that are left. -/
def parseLoop : Nat → List UInt8 → Nat → Nat → List (Option Nat) → Option Parse
  | 0, mem, _, argc, argv => parseOut mem argc argv
  | left + 1, mem, s, argc, argv => do
    let gap ← skipDelim blank2 (mem.drop s)
    let c ← mem[s + gap]?
    if c = 0 then parseOut mem argc argv
    else do
      let argv ← setArgv argv argc (some (s + gap))
      let (n, found) ← wordEnd blank2 (mem.drop (s + gap))
      if found then parseLoop left (mem.set (s + gap + n) 0) (s + gap + n + 1) (argc + 1) argv
      else parseOut mem (argc + 1) argv

/-- `util_cmd_parse_line`. -/
def utilCmdParseLine (mem : List UInt8) (argv : List (Option Nat)) : Option Parse :=
  parseLoop nrcMaxArgv mem 0 0 argv

/-! ## The command -/

/-- `NRC_MAX_CMDLINE_SIZE`. -/
def nrcMaxCmdlineSize : Nat := 128

/-- `MAX_INPUT_LENGTH_ATCMD`. -/
def maxInputLengthAtcmd : Nat := 8 * 1024

/-- The lines that the AT handler answers as they are. -/
def answeredLines : List (List UInt8) :=
  ["getmac", "getversion", "yasoftap", "yasniffer", "yareset", "yafac", "getlicense"].map
    fun name => ascii name.toList

/-- The commands that it reads word by word. -/
def wordCommands : List (List UInt8) :=
  ["ya_ota_test", "wrcert", "setmac"].map fun name => ascii name.toList

/-- The line has the name of such a command somewhere. -/
def Mentions (line : List UInt8) : Prop := ∃ name ∈ wordCommands, (strstr line name).isSome = true

instance (line : List UInt8) : Decidable (Mentions line) := by unfold Mentions; infer_instance

/-- `ya_atcmd_handler`, as far as the parser sees it: the memory of a line that it declines with
-1, or nothing for a line that one of its commands answers. -/
def yaAtcmdHandler (last : Option Nat) (line : CString) (behind : List UInt8) :
    Option (Option (List UInt8)) :=
  let mem := line.1 ++ 0 :: behind
  if line.1 ∈ answeredLines then some none
  else if line.1 = ascii "ya_ota_exit".toList then some (some mem)
  else if (strstr line.1 getrssi).isSome then some none
  else if Mentions line.1 then do
    let (token, st) ← mystrtok [0x20] ⟨mem, last⟩ (some 0)
    match token with
    | none => some (some st.buf)
    | some token => do
      let text ← textAt st.buf token
      if text.1 ∈ wordCommands then some none else some (some st.buf)
  else some (some mem)

/-- What became of a line. `parsed` goes on to `cmd_process` if there is a word. -/
inductive Ran
  | refused
  | answered
  | parsed (p : Parse)

/-- `util_cmd_run_command`, with `ya_atcmd_start_flag` and the `last` of `mystrtok`. -/
def utilCmdRunCommand (started : Bool) (last : Option Nat) (line : CString)
    (behind : List UInt8) : Option Ran :=
  if line.1 = [] then some .refused
  else if started = false ∧ nrcMaxCmdlineSize ≤ line.strlen then some .refused
  else if started = true ∧ maxInputLengthAtcmd < line.strlen then some .refused
  else do
    let left ← yaAtcmdHandler last line behind
    match left with
    | none => some .answered
    | some mem =>
      if started then some .answered
      else do
        let p ← utilCmdParseLine mem (List.replicate nrcMaxArgv none)
        some (.parsed p)

/-! ## What is asked of it -/

/-- The longest pieces without blank and tab. -/
def words (line : List UInt8) : List (List UInt8) := delimWords blank2 line

/-- `argv` holds the first words of the line, and all of them if there is room for the `NULL`
behind them. -/
structure SplitRight (line : List UInt8) (p : Parse) : Prop where
  size : p.argv.length = nrcMaxArgv
  first : p.argc ≤ (words line).length
  args : ∃ ptrs : List Nat, p.argv.take p.argc = ptrs.map some ∧
    List.Forall₂ (TextAt p.mem) ptrs ((words line).take p.argc)
  all : (words line).length < nrcMaxArgv → p.argc = (words line).length
  ends : p.argv[p.argc]? = some none

/-- Nothing is asked of a line that is not split. -/
def Ran.SplitRight (line : List UInt8) : Ran → Prop
  | .parsed p => UtilCmd.SplitRight line p
  | _ => True

/-- The first word of the handler, for which a tab is no blank. -/
def firstWord (line : List UInt8) : List UInt8 :=
  (line.dropWhile (· = 0x20)).takeWhile (· ≠ 0x20)

/-- The line up to the end of this word. -/
def cutLine (line : List UInt8) : List UInt8 := line.takeWhile (· = 0x20) ++ firstWord line

/-- The handler answers the line. -/
def Answered (line : List UInt8) : Prop :=
  line ∈ answeredLines ∨ (strstr line getrssi).isSome = true ∨
    Mentions line ∧ firstWord line ∈ wordCommands

instance (line : List UInt8) : Decidable (Answered line) := by unfold Answered; infer_instance

/-- The line gets to the parser. -/
structure Reaches (started : Bool) (line : CString) : Prop where
  off : started = false
  nonempty : line.1 ≠ []
  short : line.strlen < nrcMaxCmdlineSize
  declined : ¬ Answered line.1

/-- What the handler leaves of a line that it declines. -/
def leftOf (line : List UInt8) : List UInt8 :=
  if Mentions line then cutLine line else line

/-! ## Rounds of the parser -/

/-- `argv` after some words, with the entries that are left. -/
def argvOf (args : List Nat) (left : Nat) : List (Option Nat) :=
  args.map some ++ List.replicate left none

theorem length_argvOf (args : List Nat) (left : Nat) :
    (argvOf args left).length = args.length + left := by
  rw [argvOf, List.length_append, List.length_map, List.length_replicate]

/-- The next word takes the first entry that is left. -/
theorem setArgv_word (args : List Nat) (left p : Nat) :
    setArgv (argvOf args (left + 1)) args.length (some p) = some (argvOf (args ++ [p]) left) := by
  have inside : args.length < (argvOf args (left + 1)).length := by
    rw [length_argvOf]
    omega
  rw [setArgv, if_pos inside, argvOf, List.replicate_succ,
    List.set_append_right _ _ (by rw [List.length_map]), List.length_map, Nat.sub_self,
    List.set_cons_zero, argvOf, List.map_append, List.append_assoc]
  rfl

/-- The closing `NULL` needs an entry that is left. -/
theorem parseOut_room (mem : List UInt8) (args : List Nat) (left : Nat) :
    parseOut mem args.length (argvOf args (left + 1)) =
      some ⟨mem, args.length, argvOf args (left + 1)⟩ := by
  have inside : args.length < (argvOf args (left + 1)).length := by
    rw [length_argvOf]
    omega
  have same : (argvOf args (left + 1)).set args.length none = argvOf args (left + 1) := by
    rw [argvOf, List.replicate_succ, List.set_append_right _ _ (by rw [List.length_map]),
      List.length_map, Nat.sub_self, List.set_cons_zero]
  rw [parseOut, setArgv, if_pos inside, same]
  rfl

theorem parseOut_full (mem : List UInt8) (args : List Nat) :
    parseOut mem args.length (argvOf args 0) = none := by
  have outside : ¬ args.length < (argvOf args 0).length := by
    rw [length_argvOf]
    omega
  rw [parseOut, setArgv, if_neg outside]
  rfl

section Round

variable {front gap word rest more text : List UInt8} {b c : UInt8} {args : List Nat} {left : Nat}

theorem zero_notMem_blank2 : 0 ∉ blank2 := by decide

/-- No word is left. -/
theorem parseLoop_blanks (blanks : ∀ c ∈ text, c ∈ blank2) (args : List Nat) (left : Nat) :
    parseLoop (left + 1) (front ++ (text ++ 0 :: more)) front.length args.length
        (argvOf args (left + 1)) =
      some ⟨front ++ (text ++ 0 :: more), args.length, argvOf args (left + 1)⟩ := by
  have skip : skipDelim blank2 ((front ++ (text ++ 0 :: more)).drop front.length) =
      some text.length := by
    rw [List.drop_left]
    exact skipDelim_iff.mpr ⟨text, 0, more, rfl, rfl, blanks, zero_notMem_blank2⟩
  have stop : (front ++ (text ++ 0 :: more))[front.length + text.length]? = some 0 := by
    simp
  rw [parseLoop, skip]
  simp only [Option.bind_eq_bind, Option.bind_some, stop, if_true]
  exact parseOut_room _ args left

/-- A word behind blanks, up to the byte that ends it. -/
theorem parseLoop_word (plain : ∀ c ∈ b :: word, c ∉ blank2) (text : 0 ∉ b :: word)
    (blanks : ∀ c ∈ gap, c ∈ blank2) (stop : c = 0 ∨ c ∈ blank2) (args : List Nat) (left : Nat) :
    parseLoop (left + 1) (front ++ (gap ++ (b :: word ++ c :: rest))) front.length args.length
        (argvOf args (left + 1)) =
      if c = 0 then
        parseOut (front ++ (gap ++ (b :: word ++ c :: rest))) (args.length + 1)
          (argvOf (args ++ [front.length + gap.length]) left)
      else
        parseLoop left (front ++ (gap ++ (b :: word ++ 0 :: rest)))
          (front ++ (gap ++ (b :: word ++ [0]))).length (args.length + 1)
          (argvOf (args ++ [front.length + gap.length]) left) := by
  have skip : skipDelim blank2 ((front ++ (gap ++ (b :: word ++ c :: rest))).drop front.length) =
      some gap.length := by
    rw [List.drop_left]
    exact skipDelim_iff.mpr ⟨gap, b, word ++ c :: rest, rfl, rfl, blanks,
      plain b List.mem_cons_self⟩
  have first : (front ++ (gap ++ (b :: word ++ c :: rest)))[front.length + gap.length]? =
      some b := by
    simp
  have nonzero : b ≠ 0 := fun zero => text (zero ▸ List.mem_cons_self)
  have there : (front ++ (gap ++ (b :: word ++ c :: rest))).drop (front.length + gap.length) =
      b :: word ++ c :: rest := by
    rw [← List.drop_drop, List.drop_left, List.drop_left]
  have ends : wordEnd blank2 (b :: word ++ c :: rest) =
      some ((b :: word).length, decide (c ≠ 0)) := wordEnd_append plain text stop rest
  have cut : (front ++ (gap ++ (b :: word ++ c :: rest))).set
      (front.length + gap.length + (b :: word).length) 0 =
      front ++ (gap ++ (b :: word ++ 0 :: rest)) := by
    rw [List.set_append_right _ _ (by omega), List.set_append_right _ _ (by omega),
      List.set_append_right _ _ (by omega)]
    have zero : front.length + gap.length + (b :: word).length - front.length - gap.length -
        (b :: word).length = 0 := by omega
    rw [zero, List.set_cons_zero]
  have next : front.length + gap.length + (b :: word).length + 1 =
      (front ++ (gap ++ (b :: word ++ [0]))).length := by
    simp only [List.length_append, List.length_cons, List.length_nil]
    omega
  rw [parseLoop, skip]
  simp only [Option.bind_eq_bind, Option.bind_some, first, if_neg nonzero, setArgv_word, there,
    ends, cut, next]
  by_cases zero : c = 0
  · simp [zero]
  · simp [zero]

/-- The last word of a text, with the closing `NULL` behind it. -/
theorem parseLoop_last (plain : ∀ c ∈ b :: word, c ∉ blank2) (text : 0 ∉ b :: word)
    (blanks : ∀ c ∈ gap, c ∈ blank2) (more front : List UInt8) (args : List Nat) (left : Nat) :
    parseLoop (left + 1) (front ++ ((gap ++ b :: word) ++ 0 :: more)) front.length args.length
        (argvOf args (left + 1)) =
      parseOut (front ++ (gap ++ (b :: word ++ 0 :: more)))
        (args ++ [front.length + gap.length]).length
        (argvOf (args ++ [front.length + gap.length]) left) := by
  rw [List.append_assoc gap, parseLoop_word plain text blanks (.inl rfl), if_pos rfl,
    List.length_append, List.length_singleton]

/-- A word with more of the text behind a blank, which becomes a zero. -/
theorem parseLoop_next (plain : ∀ c ∈ b :: word, c ∉ blank2) (text : 0 ∉ b :: word)
    (blanks : ∀ c ∈ gap, c ∈ blank2) (blank : c ∈ blank2) (later more front : List UInt8)
    (args : List Nat) (left : Nat) :
    parseLoop (left + 1) (front ++ ((gap ++ (b :: word ++ c :: later)) ++ 0 :: more)) front.length
        args.length (argvOf args (left + 1)) =
      parseLoop left ((front ++ (gap ++ (b :: word ++ [0]))) ++ (later ++ 0 :: more))
        (front ++ (gap ++ (b :: word ++ [0]))).length (args ++ [front.length + gap.length]).length
        (argvOf (args ++ [front.length + gap.length]) left) := by
  have nonzero : c ≠ 0 := fun zero => zero_notMem_blank2 (zero ▸ blank)
  have whole : (gap ++ (b :: word ++ c :: later)) ++ 0 :: more =
      gap ++ (b :: word ++ c :: (later ++ 0 :: more)) := by simp
  have cut : front ++ (gap ++ (b :: word ++ 0 :: (later ++ 0 :: more))) =
      (front ++ (gap ++ (b :: word ++ [0]))) ++ (later ++ 0 :: more) := by simp
  have size : args.length + 1 = (args ++ [front.length + gap.length]).length := by
    rw [List.length_append, List.length_singleton]
  rw [whole, parseLoop_word plain text blanks (.inr blank), if_neg nonzero, cut, size]

end Round

/-! ## The whole line -/

theorem words_blanks {text : List UInt8} (blanks : ∀ c ∈ text, c ∈ blank2) : words text = [] :=
  delimWords_delims blanks

theorem words_last {gap word : List UInt8} {b : UInt8} (blanks : ∀ c ∈ gap, c ∈ blank2)
    (plain : ∀ c ∈ b :: word, c ∉ blank2) : words (gap ++ b :: word) = [b :: word] := by
  rw [words, delimWords_gap blanks, delimWords_last plain]

theorem words_word {gap word more : List UInt8} {b c : UInt8} (blanks : ∀ c ∈ gap, c ∈ blank2)
    (plain : ∀ c ∈ b :: word, c ∉ blank2) (blank : c ∈ blank2) :
    words (gap ++ (b :: word ++ c :: more)) = (b :: word) :: words more := by
  rw [words, delimWords_gap blanks, delimWords_word plain blank, words]

/-- Where a word stands that is followed by a zero. -/
theorem textAt_word {word : List UInt8} (text : 0 ∉ word) (front gap rest : List UInt8) :
    TextAt (front ++ (gap ++ (word ++ 0 :: rest))) (front.length + gap.length) word := by
  refine ⟨text, rest, ?_⟩
  rw [← List.drop_drop, List.drop_left, List.drop_left]

/-- With fewer words than entries, each word gets its entry and a zero behind it, and what stands
in front of the text stays. -/
theorem parseLoop_fits {text : List UInt8} (plain : 0 ∉ text) (more front : List UInt8)
    (args : List Nat) {left : Nat} (fits : (words text).length < left) :
    ∃ after ptrs,
      parseLoop left (front ++ (text ++ 0 :: more)) front.length args.length (argvOf args left) =
        some ⟨front ++ after, (args ++ ptrs).length,
          argvOf (args ++ ptrs) (left - (words text).length)⟩ ∧
      List.Forall₂ (TextAt (front ++ after)) ptrs (words text) := by
  induction left generalizing text front args with
  | zero => cases fits
  | succ left ih =>
    rcases text_shape blank2 text with blanks | ⟨gap, b, word, rest, shape, blanks, inWord, ends⟩
    · refine ⟨text ++ 0 :: more, [], ?_, ?_⟩
      · rw [parseLoop_blanks blanks, words_blanks blanks, List.append_nil]
        rfl
      · rw [words_blanks blanks]
        exact List.Forall₂.nil
    · have noZero : 0 ∉ b :: word := fun zero => plain (by rw [shape]; simp_all)
      let p := front.length + gap.length
      rcases ends with none_ | ⟨c, later, rest_eq, blank⟩
      · rw [none_, List.append_nil] at shape
        rw [shape, words_last blanks inWord] at fits ⊢
        obtain ⟨room, rfl⟩ : ∃ room, left = room + 1 := ⟨left - 1, by
          simp only [List.length_singleton] at fits
          omega⟩
        refine ⟨gap ++ (b :: word ++ 0 :: more), [p], ?_,
          List.Forall₂.cons (textAt_word noZero front gap more) List.Forall₂.nil⟩
        rw [parseLoop_last inWord noZero blanks, parseOut_room]
        rfl
      · rw [rest_eq] at shape
        rw [shape, words_word blanks inWord blank] at fits ⊢
        have laterPlain : 0 ∉ later := fun zero => plain (by rw [shape]; simp [zero])
        obtain ⟨after, ptrs, run, placed⟩ := ih laterPlain (front ++ (gap ++ (b :: word ++ [0])))
          (args ++ [p]) (by simpa using fits)
        have mem : front ++ (gap ++ (b :: word ++ 0 :: after)) =
            (front ++ (gap ++ (b :: word ++ [0]))) ++ after := by simp
        have argv : args ++ p :: ptrs = (args ++ [p]) ++ ptrs := by simp
        refine ⟨gap ++ (b :: word ++ 0 :: after), p :: ptrs, ?_,
          List.Forall₂.cons (textAt_word noZero front gap after) ?_⟩
        · rw [parseLoop_next inWord noZero blanks blank, run, mem, argv, List.length_cons,
            Nat.add_sub_add_right]
        · rw [mem]
          exact placed

/-- With as many words as entries, the closing `NULL` is written behind `argv`. -/
theorem parseLoop_overflows {text : List UInt8} (plain : 0 ∉ text) (more front : List UInt8)
    (args : List Nat) {left : Nat} (many : left ≤ (words text).length) :
    parseLoop left (front ++ (text ++ 0 :: more)) front.length args.length (argvOf args left) =
      none := by
  induction left generalizing text front args with
  | zero => exact parseOut_full _ args
  | succ left ih =>
    rcases text_shape blank2 text with blanks | ⟨gap, b, word, rest, shape, blanks, inWord, ends⟩
    · rw [words_blanks blanks] at many
      cases many
    · have noZero : 0 ∉ b :: word := fun zero => plain (by rw [shape]; simp_all)
      rcases ends with none_ | ⟨c, later, rest_eq, blank⟩
      · rw [none_, List.append_nil] at shape
        rw [shape, words_last blanks inWord] at many
        obtain rfl : left = 0 := by
          simp only [List.length_singleton] at many
          omega
        rw [shape, parseLoop_last inWord noZero blanks]
        exact parseOut_full _ _
      · rw [rest_eq] at shape
        rw [shape, words_word blanks inWord blank] at many
        have laterPlain : 0 ∉ later := fun zero => plain (by rw [shape]; simp [zero])
        rw [shape, parseLoop_next inWord noZero blanks blank]
        exact ih laterPlain _ _ (by simpa using many)

/-! ## What the handler leaves -/

section Handler

variable {gap word rest : List UInt8} {b : UInt8}

theorem firstWord_shape (blanks : ∀ c ∈ gap, c ∈ [(0x20 : UInt8)])
    (plain : ∀ c ∈ b :: word, c ∉ [(0x20 : UInt8)])
    (ends : rest = [] ∨ ∃ c more, rest = c :: more ∧ c ∈ [(0x20 : UInt8)]) :
    firstWord (gap ++ (b :: word ++ rest)) = b :: word ∧
      cutLine (gap ++ (b :: word ++ rest)) = gap ++ b :: word := by
  have all : ∀ c ∈ gap, decide (c = 0x20) = true := fun c mem => by simpa using blanks c mem
  have start : decide (b = 0x20) = false := by simpa using plain b List.mem_cons_self
  have inside : ∀ c ∈ b :: word, decide (c ≠ 0x20) = true := fun c mem => by
    simpa using plain c mem
  have behind : rest.takeWhile (fun c => decide (c ≠ 0x20)) = [] := by
    rcases ends with none_ | ⟨c, more, shape, blank⟩
    · rw [none_]
      rfl
    · rw [shape, List.takeWhile_cons_of_neg (by simpa using blank)]
  have first : firstWord (gap ++ (b :: word ++ rest)) = b :: word := by
    rw [firstWord, List.dropWhile_append_of_pos all, List.cons_append,
      List.dropWhile_cons_of_neg (by rw [start]; decide), ← List.cons_append,
      List.takeWhile_append_of_pos inside, behind, List.append_nil]
  refine ⟨first, ?_⟩
  rw [cutLine, first, List.takeWhile_append_of_pos all, List.cons_append,
    List.takeWhile_cons_of_neg (by rw [start]; decide), List.append_nil]

theorem firstWord_blanks {line : List UInt8} (blanks : ∀ c ∈ line, c ∈ [(0x20 : UInt8)]) :
    firstWord line = [] ∧ cutLine line = line := by
  have all : ∀ c ∈ line, decide (c = 0x20) = true := fun c mem => by simpa using blanks c mem
  have first : firstWord line = [] := by
    rw [firstWord, List.dropWhile_eq_nil_iff.mpr all]
    rfl
  refine ⟨first, ?_⟩
  rw [cutLine, first, List.append_nil, List.takeWhile_eq_self_iff.mpr all]

/-- The first call of `mystrtok` for a line. -/
theorem mystrtok_first {c : UInt8} (text : 0 ∉ b :: word)
    (blanks : ∀ c ∈ gap, c ∈ [(0x20 : UInt8)]) (plain : ∀ c ∈ b :: word, c ∉ [(0x20 : UInt8)])
    (stop : c = 0 ∨ c ∈ [(0x20 : UInt8)]) (more : List UInt8) (last : Option Nat) :
    ∃ last', mystrtok [0x20] ⟨gap ++ (b :: word ++ c :: more), last⟩ (some 0) =
      some (some gap.length, ⟨gap ++ (b :: word ++ 0 :: more), last'⟩) := by
  have skip : skipDelim [0x20] (gap ++ (b :: word ++ c :: more)) = some gap.length :=
    skipDelim_iff.mpr ⟨gap, b, word ++ c :: more, rfl, rfl, blanks, plain b List.mem_cons_self⟩
  have nonzero : b ≠ 0 := fun zero => text (zero ▸ List.mem_cons_self)
  have first : (gap ++ (b :: word ++ c :: more)).getD gap.length 0 = b := by simp
  have tail : (gap ++ (b :: word ++ c :: more)).drop (gap.length + 1) = word ++ c :: more := by
    rw [← List.drop_drop, List.drop_left]
    rfl
  have ends : wordEnd [0x20] (word ++ c :: more) = some (word.length, decide (c ≠ 0)) :=
    wordEnd_append (fun d mem => plain d (List.mem_cons_of_mem b mem))
      (fun mem => text (List.mem_cons_of_mem b mem)) stop more
  have cut : (gap ++ (b :: word ++ c :: more)).set (gap.length + 1 + word.length) 0 =
      gap ++ (b :: word ++ 0 :: more) := by
    have size : (b :: word).length = 1 + word.length := Nat.add_comm _ _
    rw [List.set_append_right _ _ (by omega), List.set_append_right _ _ (by omega)]
    have zero : gap.length + 1 + word.length - gap.length - (b :: word).length = 0 := by omega
    rw [zero, List.set_cons_zero]
  rw [mystrtok]
  simp only [Option.some_or, List.drop_zero, skip, Option.bind_eq_bind, Option.bind_some,
    Nat.zero_add, first, if_neg nonzero, tail, ends, cut]
  by_cases zero : c = 0
  · subst zero
    by_cases single : 0 < word.length
    · exact ⟨none, by simp [single]⟩
    · exact ⟨last, by simp [single]⟩
  · exact ⟨some (gap.length + 1 + word.length + 1), by simp [zero]⟩

theorem mystrtok_blanks {line : List UInt8} (blanks : ∀ c ∈ line, c ∈ [(0x20 : UInt8)])
    (behind : List UInt8) (last : Option Nat) :
    mystrtok [0x20] ⟨line ++ 0 :: behind, last⟩ (some 0) =
      some (none, ⟨line ++ 0 :: behind, none⟩) := by
  have skip : skipDelim [0x20] (line ++ 0 :: behind) = some line.length :=
    skipDelim_iff.mpr ⟨line, 0, behind, rfl, rfl, blanks, by decide⟩
  have stop : (line ++ 0 :: behind).getD line.length 0 = 0 := by simp
  rw [mystrtok]
  simp only [Option.some_or, List.drop_zero, skip, Option.bind_eq_bind, Option.bind_some,
    Nat.zero_add, stop, if_true]

/-- What `mystrtok` makes of a line: it ends behind its first word, if there is one. -/
theorem mystrtok_cuts (line : CString) (behind : List UInt8) (last : Option Nat) :
    ∃ token st more, mystrtok [0x20] ⟨line.1 ++ 0 :: behind, last⟩ (some 0) = some (token, st) ∧
      st.buf = cutLine line.1 ++ 0 :: more ∧
      (token = none ∧ firstWord line.1 = [] ∨
        ∃ t text, token = some t ∧ textAt st.buf t = some text ∧ text.1 = firstWord line.1) := by
  obtain ⟨line, plain⟩ := line
  dsimp only
  rcases text_shape [0x20] line with blanks | ⟨gap, b, word, rest, shape, blanks, inWord, ends⟩
  · obtain ⟨first, cut⟩ := firstWord_blanks blanks
    refine ⟨none, _, behind, mystrtok_blanks blanks behind last, ?_, .inl ⟨rfl, first⟩⟩
    rw [cut]
  · obtain ⟨first, cut⟩ := firstWord_shape blanks inWord ends
    have noZero : 0 ∉ b :: word := fun zero => plain (by rw [shape]; simp_all)
    rw [← shape] at first cut
    obtain ⟨c, more, stop, mem⟩ : ∃ c more, (c = 0 ∨ c ∈ [(0x20 : UInt8)]) ∧
        line ++ 0 :: behind = gap ++ (b :: word ++ c :: more) := by
      rcases ends with none_ | ⟨c, later, rest_eq, blank⟩
      · exact ⟨0, behind, .inl rfl, by rw [shape, none_]; simp⟩
      · exact ⟨c, later ++ 0 :: behind, .inr blank, by rw [shape, rest_eq]; simp⟩
    obtain ⟨last', call⟩ := mystrtok_first noZero blanks inWord stop more last
    refine ⟨_, _, more, by rw [mem, call], ?_, .inr ⟨gap.length, ⟨b :: word, noZero⟩, rfl, ?_,
      first.symm⟩⟩
    · rw [cut, List.append_assoc]
    · exact textAt_iff.mpr ⟨noZero, more, List.drop_left⟩

end Handler

theorem not_answered_exit : ¬ Answered (ascii "ya_ota_exit".toList) := by decide +kernel

theorem not_mentions_exit : ¬ Mentions (ascii "ya_ota_exit".toList) := by decide +kernel

theorem nil_notMem_wordCommands : [] ∉ wordCommands := by decide

theorem yaAtcmdHandler_answered {line : CString} (answered : Answered line.1)
    (behind : List UInt8) (last : Option Nat) :
    yaAtcmdHandler last line behind = some none := by
  rw [yaAtcmdHandler]
  by_cases whole : line.1 ∈ answeredLines
  · rw [if_pos whole]
  · have other : line.1 ≠ ascii "ya_ota_exit".toList := fun exit =>
      not_answered_exit (exit ▸ answered)
    rw [if_neg whole, if_neg other]
    by_cases rssi : (strstr line.1 getrssi).isSome = true
    · rw [if_pos rssi]
    · obtain ⟨mentions, first⟩ := (answered.resolve_left whole).resolve_left rssi
      obtain ⟨token, st, more, call, -, none_ | ⟨t, text, token_eq, found, word⟩⟩ :=
        mystrtok_cuts line behind last
      · rw [none_.2] at first
        exact absurd first nil_notMem_wordCommands
      · rw [if_neg rssi, if_pos mentions, call, token_eq]
        simp only [Option.bind_eq_bind, Option.bind_some, found, word, if_pos first]

theorem yaAtcmdHandler_declined {line : CString} (declined : ¬ Answered line.1)
    (behind : List UInt8) (last : Option Nat) :
    ∃ more, yaAtcmdHandler last line behind = some (some (leftOf line.1 ++ 0 :: more)) := by
  have whole : line.1 ∉ answeredLines := fun whole => declined (.inl whole)
  have rssi : ¬ (strstr line.1 getrssi).isSome = true := fun rssi => declined (.inr (.inl rssi))
  rw [yaAtcmdHandler, if_neg whole]
  by_cases exit : line.1 = ascii "ya_ota_exit".toList
  · refine ⟨behind, ?_⟩
    rw [if_pos exit, leftOf, if_neg (exit ▸ not_mentions_exit)]
  · rw [if_neg exit, if_neg rssi]
    by_cases mentions : Mentions line.1
    · obtain ⟨token, st, more, call, buf, none_ | ⟨t, text, token_eq, found, word⟩⟩ :=
        mystrtok_cuts line behind last
      · refine ⟨more, ?_⟩
        rw [if_pos mentions, call, none_.1, leftOf, if_pos mentions, ← buf]
        rfl
      · have other : text.1 ∉ wordCommands := by
          rw [word]
          exact fun first => declined (.inr (.inr ⟨mentions, first⟩))
        refine ⟨more, ?_⟩
        rw [if_pos mentions, call, token_eq, leftOf, if_pos mentions, ← buf]
        simp only [Option.bind_eq_bind, Option.bind_some, found, if_neg other]
    · refine ⟨behind, ?_⟩
      rw [if_neg mentions, leftOf, if_neg mentions]

/-- What is cut off is behind a blank. -/
theorem words_leftOf (line : List UInt8) :
    ∃ lost, words line = words (leftOf line) ++ lost := by
  by_cases mentions : Mentions line
  · rw [leftOf, if_pos mentions]
    rcases text_shape [0x20] line with blanks | ⟨gap, b, word, rest, shape, blanks, inWord, ends⟩
    · refine ⟨[], ?_⟩
      rw [(firstWord_blanks blanks).2, List.append_nil]
    · have cut := (firstWord_shape blanks inWord ends).2
      rw [← shape] at cut
      rcases ends with none_ | ⟨c, later, rest_eq, blank⟩
      · refine ⟨[], ?_⟩
        rw [cut, shape, none_, List.append_nil, List.append_nil]
      · have blank' : c ∈ blank2 := by
          rw [List.mem_singleton.mp blank]
          decide
        refine ⟨words later, ?_⟩
        rw [cut, shape, rest_eq, ← List.append_assoc]
        exact delimWords_append blank' _ _
  · refine ⟨[], ?_⟩
    rw [leftOf, if_neg mentions, List.append_nil]

theorem zero_notMem_leftOf (line : CString) : 0 ∉ leftOf line.1 := by
  intro zero
  apply line.2
  rw [leftOf] at zero
  split at zero
  · rw [cutLine, firstWord, List.mem_append] at zero
    cases zero with
    | inl front => exact List.takeWhile_subset _ front
    | inr back => exact List.dropWhile_subset _ (List.takeWhile_subset _ back)
  · exact zero

/-! ## Every line -/

/-- What is left of the line has room in `argv` with its `NULL`, and no word is missing from it
that has room there. -/
def Splittable (line : List UInt8) : Prop :=
  (words (leftOf line)).length < nrcMaxArgv ∧
    ((words line).length < nrcMaxArgv → (words (leftOf line)).length = (words line).length)

/-- The parser on what is left of a line. -/
theorem utilCmdParseLine_right_iff (line : CString) (more : List UInt8) :
    (∃ p, utilCmdParseLine (leftOf line.1 ++ 0 :: more) (List.replicate nrcMaxArgv none) = some p ∧
        SplitRight line.1 p) ↔ Splittable line.1 := by
  have plain := zero_notMem_leftOf line
  obtain ⟨lost, whole⟩ := words_leftOf line.1
  have count : (words line.1).length = (words (leftOf line.1)).length + lost.length := by
    rw [whole, List.length_append]
  by_cases fits : (words (leftOf line.1)).length < nrcMaxArgv
  · obtain ⟨after, ptrs, run, placed⟩ := parseLoop_fits plain more [] [] fits
    have argc : ptrs.length = (words (leftOf line.1)).length := placed.length_eq
    have start : utilCmdParseLine (leftOf line.1 ++ 0 :: more) (List.replicate nrcMaxArgv none) =
        some ⟨after, ptrs.length, argvOf ptrs (nrcMaxArgv - ptrs.length)⟩ := by
      rw [argc]
      exact argc ▸ run
    constructor
    · intro ⟨p, parsed, right⟩
      rw [start] at parsed
      cases parsed
      exact ⟨fits, fun room => argc.symm.trans (right.all room)⟩
    · intro ⟨_, all⟩
      refine ⟨_, start, ?_, ?_, ⟨ptrs, ?_, ?_⟩, fun room => argc.trans (all room), ?_⟩
      · change (argvOf ptrs (nrcMaxArgv - ptrs.length)).length = nrcMaxArgv
        rw [length_argvOf, argc]
        omega
      · change ptrs.length ≤ (words line.1).length
        omega
      · change (argvOf ptrs (nrcMaxArgv - ptrs.length)).take ptrs.length = ptrs.map some
        rw [argvOf, List.take_left' (by rw [List.length_map])]
      · change List.Forall₂ (TextAt after) ptrs ((words line.1).take ptrs.length)
        rw [whole, argc, List.take_left]
        exact placed
      · change (argvOf ptrs (nrcMaxArgv - ptrs.length))[ptrs.length]? = some none
        rw [argvOf, List.getElem?_append_right (by rw [List.length_map]), List.length_map,
          Nat.sub_self, List.getElem?_replicate_of_lt (by omega)]
  · have none_ := parseLoop_overflows plain more [] [] (Nat.not_lt.mp fits)
    refine iff_of_false ?_ fun splittable => fits splittable.1
    intro ⟨p, parsed, _⟩
    cases parsed.symm.trans none_

/-- Of a line that gets to the parser, `argv` holds the words with a `NULL` behind them exactly
when what the handler leaves of it has at most 15 words, and all of the line's if that has at most
15. -/
theorem utilCmdRunCommand_splitRight_iff (started : Bool) (last : Option Nat) (line : CString)
    (behind : List UInt8) :
    (∃ ran, utilCmdRunCommand started last line behind = some ran ∧ ran.SplitRight line.1) ↔
      (Reaches started line → Splittable line.1) := by
  rw [utilCmdRunCommand]
  by_cases empty : line.1 = []
  · rw [if_pos empty]
    exact iff_of_true ⟨_, rfl, trivial⟩ fun reaches => absurd empty reaches.nonempty
  rw [if_neg empty]
  by_cases long : started = false ∧ nrcMaxCmdlineSize ≤ line.strlen
  · rw [if_pos long]
    exact iff_of_true ⟨_, rfl, trivial⟩ fun reaches =>
      absurd long.2 (Nat.not_le.mpr reaches.short)
  rw [if_neg long]
  by_cases longer : started = true ∧ maxInputLengthAtcmd < line.strlen
  · rw [if_pos longer]
    exact iff_of_true ⟨_, rfl, trivial⟩ fun reaches =>
      absurd (longer.1.symm.trans reaches.off) nofun
  rw [if_neg longer]
  by_cases answered : Answered line.1
  · rw [yaAtcmdHandler_answered answered]
    exact iff_of_true ⟨_, rfl, trivial⟩ fun reaches => absurd answered reaches.declined
  obtain ⟨more, left⟩ := yaAtcmdHandler_declined answered behind last
  rw [left]
  cases started with
  | true => exact iff_of_true ⟨_, rfl, trivial⟩ fun reaches => absurd reaches.off nofun
  | false =>
    have reaches : Reaches false line :=
      ⟨rfl, empty, Nat.not_le.mp fun atLeast => long ⟨rfl, atLeast⟩, answered⟩
    rw [imp_iff_right reaches, ← utilCmdParseLine_right_iff line more]
    simp only [Option.bind_eq_bind, Option.bind_some, Bool.false_eq_true, if_false]
    constructor
    · intro ⟨ran, done, right⟩
      obtain ⟨p, parsed, same⟩ := Option.bind_eq_some_iff.mp done
      cases same
      exact ⟨p, parsed, right⟩
    · intro ⟨p, parsed, right⟩
      exact ⟨.parsed p, Option.bind_eq_some_iff.mpr ⟨p, parsed, rfl⟩, right⟩

/-- 16 words of one letter. -/
def sixteen : CString := .lit "a a a a a a a a a a a a a a a a".toList

theorem utilCmdRunCommand_sixteen :
    ¬ ∀ (started : Bool) (last : Option Nat) (line : CString) (behind : List UInt8),
      ∃ ran, utilCmdRunCommand started last line behind = some ran ∧ ran.SplitRight line.1 := by
  intro all
  obtain ⟨ran, done, _⟩ := all false none sixteen []
  have outside : (utilCmdRunCommand false none sixteen []).isNone = true := by decide +kernel
  rw [done] at outside
  cases outside

/-- A line that mentions a command loses the words behind its first. -/
example : (utilCmdRunCommand false none (.lit "echo the wrcert".toList) []).map
    (fun | .parsed p => p.argc | _ => 0) = some 1 := by decide +kernel

end UtilCmd

end Tr6260
