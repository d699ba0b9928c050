import Mathlib.Data.List.DropRight
import Tr6260.CrlfText
import Tr6260.Ota.Http

/-!
# Responses with a length

`OkResponse` is a response with status 200 and one `Content-Length` header,
apart from the code that parses it. The results are what a parser of its text
relies on: what the number on the `Content-Length` line is to
`ya_parse_http_header_response`, that every carriage return of the header ends
a line, and that only the end of the header has two line ends in a row, as long
as the response is `Plain`.
-/

namespace Tr6260

open ByteMem CrlfText

/-! ## Responses -/

/-- A line of a header is not empty and has no line end in it. -/
def IsLine (line : List UInt8) : Prop := line ≠ [] ∧ 0x0D ∉ line ∧ 0x0A ∉ line

instance (line : List UInt8) : Decidable (IsLine line) := inferInstanceAs (Decidable (_ ∧ _))

/-- The name in front of the colon is `Content-Length`, in whatever case. -/
def namesLength (line : List UInt8) : Bool :=
  CString.eqIgnoreCase (line.takeWhile (· ≠ 0x3A)) contentLengthMixed

/-- A response with status 200, one `Content-Length` header and a body. -/
structure OkResponse where
  major : UInt8
  minor : UInt8
  reason : List UInt8
  before : List (List UInt8)
  name : List UInt8
  opening : List UInt8
  digits : List UInt8
  closing : List UInt8
  after : List (List UInt8)
  body : List UInt8
  version : CString.isDigit major = true ∧ CString.isDigit minor = true
  phrase : 0x0D ∉ reason ∧ 0x0A ∉ reason
  isLine : ∀ line ∈ before ++ after, IsLine line
  named : CString.eqIgnoreCase name contentLengthMixed = true
  single : ∀ line ∈ before ++ after, namesLength line = false
  blank : ∀ b ∈ opening ++ closing, b = 0x20 ∨ b = 0x09
  number : digits ≠ [] ∧ ∀ b ∈ digits, CString.isDigit b = true

namespace OkResponse

variable (r : OkResponse)

def statusLine : List UInt8 :=
  CString.ascii ['H', 'T', 'T', 'P', '/'] ++ [r.major, 0x2E, r.minor] ++
    CString.ascii [' ', '2', '0', '0', ' '] ++ r.reason

/-- What stands behind the name. -/
def field : List UInt8 := 0x3A :: (r.opening ++ r.digits ++ r.closing)

def front : List (List UInt8) := r.statusLine :: r.before

def lines : List (List UInt8) := r.front ++ (r.name ++ r.field) :: r.after

def header : List UInt8 := text r.lines ++ [0x0D, 0x0A]

def bytes : List UInt8 := r.header ++ r.body

/-- The announced length, as an `int` holds it. -/
def announced : Nat := toU32 (CString.clampLong (CString.decimal r.digits))

/-- Where the `Content-Length` line starts, and where it ends. -/
def lengthStart : Nat := (text r.front).length

def lengthEnd : Nat := r.lengthStart + (r.name ++ r.field).length

end OkResponse

/-! ## The number on a line -/

/-- What the parser skips in front of the number. -/
def isSeparator (b : UInt8) : Bool := b = 0x3A ∨ b = 0x20

/-- The text that goes to `len_buf`. -/
def lengthText (field : List UInt8) : List UInt8 :=
  (field.dropWhile isSeparator).rdropWhile (· = 0x20)

section Value

variable {mem : ByteMem}

theorem skipColons_eq {field : List UInt8} {q j : Nat} (held : mem.Holds (otaBuf + j) field)
    (ends : q = j + field.length) :
    skipColons mem q field.length j = j + (field.takeWhile isSeparator).length := by
  induction field generalizing j with
  | nil => rfl
  | cons b field ih =>
    obtain ⟨byte, rest⟩ := holds_cons.mp held
    rw [List.length_cons] at ends ⊢
    rw [skipColons, resp, byte]
    by_cases sep : b = 0x3A ∨ b = 0x20
    · rw [if_pos ⟨by omega, sep⟩, ih rest (by omega),
        List.takeWhile_cons_of_pos (by simpa [isSeparator] using sep),
        List.length_cons]
      omega
    · rw [if_neg (fun both => sep both.2),
        List.takeWhile_cons_of_neg (by simpa [isSeparator] using sep)]
      rfl

/-- Trailing blanks go, down to the first character. -/
theorem trimBlanks_eq {first : UInt8} {rest : List UInt8} {j1 : Nat} (solid : first ≠ 0x20)
    (held : mem.Holds (otaBuf + j1) (first :: rest)) :
    trimBlanks mem j1 (j1 + rest.length) + 1 =
      j1 + ((first :: rest).rdropWhile (· = 0x20)).length := by
  induction rest using List.reverseRecOn with
  | nil =>
    rw [List.rdropWhile_singleton, if_neg (by simpa using solid)]
    cases j1 with
    | zero => rfl
    | succ j1 =>
      rw [List.length_nil, Nat.add_zero, trimBlanks, if_neg (by omega)]
      rfl
  | append_singleton rest b ih =>
    have window : mem.Holds (otaBuf + j1) ((first :: rest) ++ [b]) := held
    obtain ⟨front, last⟩ := holds_append.mp window
    have byte : resp mem (j1 + rest.length + 1) = b := by
      have := (holds_cons.mp last).1
      rw [List.length_cons] at this
      rw [resp, ← this]
      congr 1
      omega
    rw [List.length_append, List.length_singleton, ← Nat.add_assoc, trimBlanks, byte,
      ← List.cons_append]
    by_cases gap : b = 0x20
    · rw [if_pos ⟨by omega, gap⟩, List.rdropWhile_concat_pos _ _ _ (by simpa using gap)]
      exact ih front
    · rw [if_neg (fun both => gap both.2), List.rdropWhile_concat_neg _ _ _ (by simpa using gap),
        List.length_append, List.length_cons, List.length_singleton]
      omega

theorem dropWhile_head {field : List UInt8} {first : UInt8} {rest : List UInt8}
    (text : field.dropWhile isSeparator = first :: rest) : first ≠ 0x20 := by
  have kept : isSeparator first = false := by
    have head := List.head?_dropWhile_not isSeparator field
    rw [text] at head
    simpa using head
  rintro rfl
  cases kept

/-- The number on the line from `p` to `q` is that of its text. -/
theorem contentLengthValue_eq {field : List UInt8} {p q : Nat}
    (held : mem.Holds (otaBuf + (p + 14)) field) (ends : q = p + 14 + field.length)
    (fits : (lengthText field).length < 12) :
    contentLengthValue mem p q = some (toU32 (CString.ofBytes (lengthText field)).atoi) := by
  have skipped : skipColons mem q (q - (p + 14)) (p + 14) =
      p + 14 + (field.takeWhile isSeparator).length := by
    rw [show q - (p + 14) = field.length by omega]
    exact skipColons_eq held ends
  have parts : field.takeWhile isSeparator ++ field.dropWhile isSeparator = field :=
    List.takeWhile_append_dropWhile
  have count := congrArg List.length parts
  rw [List.length_append] at count
  have behind : mem.Holds (otaBuf + (p + 14 + (field.takeWhile isSeparator).length))
      (field.dropWhile isSeparator) := by
    rw [← parts] at held
    have := (holds_append.mp held).2
    rwa [Nat.add_assoc] at this
  generalize (field.takeWhile isSeparator).length = skip at *
  have trimmed : trimBlanks mem (p + 14 + skip) (q - 1) + 1 =
      p + 14 + skip + (lengthText field).length := by
    unfold lengthText
    cases text : field.dropWhile isSeparator with
    | nil =>
      rw [text, List.length_nil] at count
      obtain ⟨k, last⟩ : ∃ k, q - 1 = k + 1 := ⟨p + 12 + skip, by omega⟩
      rw [last, trimBlanks, if_neg (by omega), List.rdropWhile_nil, List.length_nil]
      omega
    | cons first rest =>
      rw [text] at behind count
      rw [List.length_cons] at count
      rw [show q - 1 = p + 14 + skip + rest.length by omega]
      exact trimBlanks_eq (dropWhile_head text) behind
  have shown : mem.load (otaBuf + (p + 14 + skip)) (lengthText field).length = lengthText field := by
    obtain ⟨tail, cut⟩ := List.rdropWhile_prefix (· = 0x20) (field.dropWhile isSeparator)
    rw [← cut] at behind
    exact (holds_append.mp behind).1
  unfold contentLengthValue
  dsimp only
  rw [skipped, trimmed, Nat.add_sub_cancel_left, if_neg (by omega), shown]

end Value

/-! ## The announced number -/

/-- Dropping stops at something to keep. -/
theorem dropWhile_append_keep {p : UInt8 → Bool} (xs : List UInt8) {y : UInt8} (keep : p y = false)
    (ys : List UInt8) : (xs ++ y :: ys).dropWhile p = xs.dropWhile p ++ y :: ys := by
  rw [List.dropWhile_append, List.dropWhile_cons_of_neg (by rw [keep]; exact Bool.false_ne_true)]
  split
  next empty => rw [List.isEmpty_iff.mp empty, List.nil_append]
  · rfl

theorem isSeparator_digit {b : UInt8} (digit : CString.isDigit b = true) :
    isSeparator b = false := by
  refine decide_eq_false ?_
  rintro (rfl | rfl) <;> cases digit

/-- `atoi` on digits between blanks. -/
theorem atoi_digits {opening digits closing : List UInt8} (nonempty : digits ≠ [])
    (number : ∀ b ∈ digits, CString.isDigit b = true)
    (blank : ∀ b ∈ opening ++ closing, b = 0x20 ∨ b = 0x09) :
    (CString.ofBytes (opening ++ (digits ++ closing))).atoi =
      CString.clampLong (CString.decimal digits) := by
  have space : ∀ b ∈ opening, CString.isSpace b = true := by
    intro b mem
    rcases blank b (List.mem_append_left _ mem) with rfl | rfl <;> rfl
  have other : ∀ b ∈ closing, CString.isDigit b = false := by
    intro b mem
    rcases blank b (List.mem_append_right _ mem) with rfl | rfl <;> rfl
  have whole : (CString.ofBytes (opening ++ (digits ++ closing))).1 =
      opening ++ (digits ++ closing) := by
    refine List.takeWhile_eq_self_iff.mpr fun b mem => decide_eq_true ?_
    rintro rfl
    rcases List.mem_append.mp mem with left | right
    · cases space 0 left
    rcases List.mem_append.mp right with digit | tail
    · cases number 0 digit
    · rcases blank 0 (List.mem_append_right _ tail) with zero | zero <;> cases zero
  obtain ⟨first, rest, rfl⟩ := List.exists_cons_of_ne_nil nonempty
  have digit := number first List.mem_cons_self
  have skipped : (opening ++ (first :: rest ++ closing)).dropWhile CString.isSpace =
      first :: rest ++ closing := by
    rw [List.dropWhile_append_of_pos space]
    refine List.dropWhile_cons_of_neg ?_
    intro gap
    unfold CString.isSpace at gap
    unfold CString.isDigit at digit
    simp only [Bool.decide_or, Bool.decide_and, Bool.or_eq_true, Bool.and_eq_true,
      decide_eq_true_eq] at gap digit
    rcases gap with rfl | ⟨-, high⟩
    · exact absurd digit (by decide)
    · exact absurd (UInt8.le_trans digit.1 high) (by decide)
  have taken : (first :: rest ++ closing).takeWhile CString.isDigit = first :: rest := by
    rw [List.takeWhile_append_of_pos number]
    cases closing with
    | nil => rw [List.takeWhile_nil, List.append_nil]
    | cons b closing =>
      rw [List.takeWhile_cons_of_neg (by simp [other b List.mem_cons_self]), List.append_nil]
  unfold CString.atoi CString.strtol
  rw [whole, skipped]
  dsimp only
  split
  next sign =>
    cases (List.cons.inj sign).1
    cases digit
  next sign =>
    cases (List.cons.inj sign).1
    cases digit
  next =>
    rw [taken]
    rfl

theorem lengthText_field (r : OkResponse) : ∃ opening closing,
    lengthText r.field = opening ++ (r.digits ++ closing) ∧
      ∀ b ∈ opening ++ closing, b = 0x20 ∨ b = 0x09 := by
  obtain ⟨nonempty, number⟩ := r.number
  obtain ⟨first, rest, digits⟩ := List.exists_cons_of_ne_nil nonempty
  obtain ⟨last, init, reversed⟩ := List.exists_cons_of_ne_nil (List.reverse_ne_nil_iff.mpr nonempty)
  have front : r.field.dropWhile isSeparator =
      r.opening.dropWhile isSeparator ++ (r.digits ++ r.closing) := by
    rw [OkResponse.field, List.dropWhile_cons_of_pos (by rfl), List.append_assoc, digits]
    exact dropWhile_append_keep _
      (isSeparator_digit (number first (by rw [digits]; exact List.mem_cons_self))) _
  refine ⟨r.opening.dropWhile isSeparator, r.closing.rdropWhile (· = 0x20), ?_, ?_⟩
  · have solid : decide (last = 0x20) = false := by
      have digit := number last (List.mem_reverse.mp (by rw [reversed]; exact List.mem_cons_self))
      refine decide_eq_false ?_
      rintro rfl
      cases digit
    unfold lengthText List.rdropWhile
    rw [front, List.reverse_append, List.reverse_append, List.append_assoc, reversed,
      List.cons_append, dropWhile_append_keep _ solid, ← List.cons_append, ← reversed,
      List.reverse_append, List.reverse_append, List.reverse_reverse, List.reverse_reverse,
      List.append_assoc]
  · intro b mem
    rcases List.mem_append.mp mem with left | right
    · exact r.blank b (List.mem_append_left _ ((List.dropWhile_sublist _).subset left))
    · exact r.blank b (List.mem_append_right _ (List.IsPrefix.subset ( List.rdropWhile_prefix _ _) right))

/-- The parser's value is the announced length. -/
theorem lengthText_announced (r : OkResponse) :
    toU32 (CString.ofBytes (lengthText r.field)).atoi = r.announced := by
  obtain ⟨opening, closing, same, blank⟩ := lengthText_field r
  rw [same, atoi_digits r.number.1 r.number.2 blank]
  rfl

/-! ## The text of a response -/

/-- The text begins with `Content-Length` in one of the parser's two spellings. -/
def Spelled (bytes : List UInt8) : Prop :=
  bytes.take 14 = contentLengthUpper ∨ bytes.take 14 = contentLengthMixed

instance (bytes : List UInt8) : Decidable (Spelled bytes) := inferInstanceAs (Decidable (_ ∨ _))

/-- The parser knows the name. -/
structure OkResponse.Plain (r : OkResponse) : Prop where
  name : r.name = contentLengthUpper ∨ r.name = contentLengthMixed

namespace OkResponse

variable {r : OkResponse}

theorem bytes_eq (r : OkResponse) : r.bytes = text r.lines ++ 0x0D :: 0x0A :: r.body := by
  rw [bytes, header, List.append_assoc]
  rfl

theorem length_header (r : OkResponse) : r.header.length = (text r.lines).length + 2 := by
  rw [header, List.length_append]
  rfl

theorem statusLine_plain (r : OkResponse) : 0x0D ∉ r.statusLine := by
  obtain ⟨major, minor⟩ := r.version
  intro cr
  rw [statusLine, List.mem_append, List.mem_append, List.mem_append] at cr
  rcases cr with ((text | number) | text) | reason
  · exact absurd text (by decide)
  · simp only [List.mem_cons, List.not_mem_nil, or_false] at number
    rcases number with digit | dot | digit
    · rw [← digit] at major
      cases major
    · cases dot
    · rw [← digit] at minor
      cases minor
  · exact absurd text (by decide)
  · exact r.phrase.1 reason

theorem field_plain (r : OkResponse) : 0x0D ∉ r.field := by
  intro cr
  rw [field, List.mem_cons, List.mem_append, List.mem_append] at cr
  rcases cr with colon | (blank | digit) | blank
  · cases colon
  · rcases r.blank _ (List.mem_append_left _ blank) with same | same <;> cases same
  · cases r.number.2 _ digit
  · rcases r.blank _ (List.mem_append_right _ blank) with same | same <;> cases same

/-- Lines are not empty and have no carriage return. -/
theorem Plain.line (plain : r.Plain) : ∀ line ∈ r.lines, line ≠ [] ∧ 0x0D ∉ line := by
  intro line mem
  rw [lines, front, List.cons_append, List.mem_cons, List.mem_append, List.mem_cons] at mem
  rcases mem with rfl | before | rfl | after
  · exact ⟨List.cons_ne_nil _ _, r.statusLine_plain⟩
  · obtain ⟨nonempty, cr, -⟩ := r.isLine line (List.mem_append_left _ before)
    exact ⟨nonempty, cr⟩
  · refine ⟨List.append_ne_nil_of_right_ne_nil _ (List.cons_ne_nil _ _), fun cr => ?_⟩
    rcases List.mem_append.mp cr with name | field
    · rcases plain.name with same | same <;> rw [same] at name <;> exact absurd name (by decide)
    · exact r.field_plain field
  · obtain ⟨nonempty, cr, -⟩ := r.isLine line (List.mem_append_right _ after)
    exact ⟨nonempty, cr⟩

theorem Plain.cr_next (plain : r.Plain) {q : Nat} (inside : q < r.header.length)
    (cr : r.bytes.getD q 0 = 0x0D) : r.bytes.getD (q + 1) 0 = 0x0A := by
  rw [length_header] at inside
  rw [bytes_eq] at cr ⊢
  by_cases low : q < (text r.lines).length
  · obtain ⟨-, -, -, -, -, -, lf⟩ := cr_ends (fun l mem => (plain.line l mem).2) _ low cr
    exact lf
  · rw [List.getD_append_right _ _ _ _ (by omega)] at cr ⊢
    obtain here | here : q - (text r.lines).length = 0 ∨ q - (text r.lines).length = 1 := by omega
    · rw [show q + 1 - (text r.lines).length = 1 by omega]
      rfl
    · rw [here] at cr
      cases cr

/-- The end of the header is the one place with two line ends in a row. -/
theorem Plain.end_iff (plain : r.Plain) {q : Nat} (inside : q + 4 ≤ r.header.length) :
    (r.bytes.getD q 0 = 0x0D ∧ r.bytes.getD (q + 1) 0 = 0x0A) ∧
      (r.bytes.getD (q + 2) 0 = 0x0D ∧ r.bytes.getD (q + 3) 0 = 0x0A) ↔
      q + 4 = r.header.length := by
  rw [length_header] at *
  constructor
  · rintro ⟨⟨cr, lf⟩, cr', -⟩
    by_contra early
    rw [bytes_eq] at *
    obtain ⟨front, line, back, same, place, start, -⟩ :=
      cr_ends (fun l mem => (plain.line l mem).2) _ (by omega) cr'
    rw [lineStart_succ, lf, if_neg (by decide), lineStart_succ, cr, if_pos rfl] at start
    have empty : line = [] := List.eq_nil_of_length_eq_zero (by omega)
    have mem : line ∈ r.lines := by
      rw [same]
      exact List.mem_append_right _ List.mem_cons_self
    exact (plain.line line mem).1 empty
  · intro last
    have nonempty : r.lines ≠ [] := List.append_ne_nil_of_right_ne_nil _ (List.cons_ne_nil _ _)
    obtain ⟨front, ends⟩ := text_ends nonempty
    have start : q = front.length := by
      rw [ends, List.length_append] at last
      exact Nat.add_right_cancel last
    subst start
    have byte (k : Nat) : r.bytes.getD (front.length + k) 0 =
        (0x0D :: 0x0A :: 0x0D :: 0x0A :: r.body).getD k 0 := by
      rw [bytes_eq, ends, List.append_assoc, List.getD_append_right _ _ _ _ (by omega),
        Nat.add_sub_cancel_left]
      rfl
    exact ⟨⟨byte 0, byte 1⟩, byte 2, byte 3⟩

theorem Plain.name_length (plain : r.Plain) : r.name.length = 14 := by
  rcases plain.name with same | same <;> rw [same] <;> rfl

theorem Plain.spelled_length (plain : r.Plain) (rest : List UInt8) :
    Spelled (r.name ++ rest) := by
  unfold Spelled
  rw [← plain.name_length, List.take_left]
  exact plain.name

/-- What stands from the `Content-Length` line on. -/
theorem drop_lengthStart (r : OkResponse) : r.bytes.drop r.lengthStart =
    (r.name ++ r.field) ++ 0x0D :: 0x0A :: (text r.after ++ 0x0D :: 0x0A :: r.body) := by
  rw [bytes_eq]
  exact drop_text _ _ _ _

theorem bytes_lengthStart (r : OkResponse) : r.bytes = text r.front ++
    ((r.name ++ r.field) ++ 0x0D :: 0x0A :: (text r.after ++ 0x0D :: 0x0A :: r.body)) := by
  rw [← drop_lengthStart, bytes_eq, lines, text_append, List.append_assoc, lengthStart,
    List.drop_left]

theorem lengthEnd_le (r : OkResponse) : r.lengthEnd + 4 ≤ r.header.length := by
  rw [length_header, lines, text_append, text_cons, lengthEnd, lengthStart]
  simp only [List.length_append, List.length_cons]
  omega

theorem getD_lengthEnd (r : OkResponse) : r.bytes.getD r.lengthEnd 0 = 0x0D := by
  rw [bytes_lengthStart, lengthEnd, lengthStart, List.getD_append_right _ _ _ _ (by omega),
    Nat.add_sub_cancel_left, List.getD_append_right _ _ _ _ (Nat.le_refl _), Nat.sub_self]
  rfl

theorem Plain.lineStart_lengthEnd (plain : r.Plain) :
    lineStart r.bytes r.lengthEnd = r.lengthStart := by
  have line : 0x0D ∉ r.name ++ r.field :=
    (plain.line _ (List.mem_append_right _ List.mem_cons_self)).2
  rw [bytes_lengthStart, lengthEnd, lengthStart, lineStart_append,
    lineStart_line line _ (Nat.le_refl _)]
  rfl

theorem Plain.lengthEnd_eq (plain : r.Plain) :
    r.lengthEnd = r.lengthStart + 14 + r.field.length := by
  rw [lengthEnd, List.length_append, plain.name_length]
  omega

theorem Plain.lineStart_le_cr (plain : r.Plain) {q : Nat} (inside : q < r.header.length)
    (cr : r.bytes.getD q 0 = 0x0D) : lineStart r.bytes q ≤ q := by
  cases q with
  | zero => exact Nat.le_refl _
  | succ q =>
    rw [lineStart_succ]
    split
    next before =>
      rw [plain.cr_next (by omega) before] at cr
      cases cr
    · exact lineStart_le _ _

end OkResponse

end Tr6260
