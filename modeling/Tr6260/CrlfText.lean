import Mathlib.Data.List.GetD
import Mathlib.Data.List.TakeWhile
import Mathlib.Tactic.Common

/-!
# Texts of lines

A text of lines that each end in `"\r\n"`. `lineStart` is where a scan from left
to right believes the current line to start: behind the last line end whose
carriage return it has passed. In a text whose lines contain no carriage return,
every carriage return ends a line, and the belief is right there. A scan that
starts within the text takes its own start for that of a line: `scanStart`.
-/

namespace CrlfText

/-- Lines with their ends. -/
def text (lines : List (List UInt8)) : List UInt8 := lines.flatMap (· ++ [0x0D, 0x0A])

/-- The start of the current line in a scan that has reached position `i`. -/
def lineStart (bytes : List UInt8) : Nat → Nat
  | 0 => 0
  | i + 1 => if bytes.getD i 0 = 0x0D then i + 2 else lineStart bytes i

theorem lineStart_succ (bytes : List UInt8) (i : Nat) :
    lineStart bytes (i + 1) = if bytes.getD i 0 = 0x0D then i + 2 else lineStart bytes i := rfl

theorem lineStart_le (bytes : List UInt8) (i : Nat) : lineStart bytes i ≤ i + 1 := by
  induction i with
  | zero => exact Nat.zero_le _
  | succ i ih =>
    rw [lineStart_succ]
    split <;> omega

/-- The start of the current line in a scan from `s` on that has reached position `i`. -/
def scanStart (bytes : List UInt8) (s i : Nat) : Nat :=
  if lineStart bytes i = lineStart bytes s then s else lineStart bytes i

theorem scanStart_self (bytes : List UInt8) (s : Nat) : scanStart bytes s s = s := if_pos rfl

theorem scanStart_succ (bytes : List UInt8) {s i : Nat} (order : s ≤ i) :
    scanStart bytes s (i + 1) = if bytes.getD i 0 = 0x0D then i + 2 else scanStart bytes s i := by
  unfold scanStart
  rw [lineStart_succ]
  split
  next cr =>
    have := lineStart_le bytes s
    rw [if_neg (by omega)]
  · rfl

@[simp] theorem text_nil : text [] = [] := rfl

theorem text_cons (line : List UInt8) (lines : List (List UInt8)) :
    text (line :: lines) = line ++ 0x0D :: 0x0A :: text lines := by
  simp [text]

theorem text_append (front back : List (List UInt8)) :
    text (front ++ back) = text front ++ text back := List.flatMap_append

/-! ## One line -/

/-- Behind its first line a text is scanned like the rest of it. -/
theorem lineStart_cons (line rest : List UInt8) (j : Nat) :
    lineStart (line ++ 0x0D :: 0x0A :: rest) (line.length + 2 + j) =
      line.length + 2 + lineStart rest j := by
  have byte (k : Nat) : (line ++ 0x0D :: 0x0A :: rest).getD (line.length + k) 0 =
      (0x0D :: 0x0A :: rest).getD k 0 := by
    rw [List.getD_append_right _ _ _ _ (by omega), Nat.add_sub_cancel_left]
  induction j with
  | zero =>
    have cr := byte 0
    have lf := byte 1
    rw [List.getD_cons_zero] at cr
    rw [List.getD_cons_succ, List.getD_cons_zero] at lf
    rw [Nat.add_zero] at cr
    rw [Nat.add_zero, lineStart_succ, lf, if_neg (by decide), lineStart_succ, cr, if_pos rfl]
    rfl
  | succ j ih =>
    have next := byte (j + 2)
    rw [List.getD_cons_succ, List.getD_cons_succ] at next
    rw [← Nat.add_assoc, lineStart_succ, lineStart_succ, ih,
      show line.length + 2 + j = line.length + (j + 2) by omega, next]
    split <;> omega

section Line

variable {line : List UInt8} (plain : 0x0D ∉ line) (rest : List UInt8)

include plain

theorem getD_line_ne {i : Nat} (inside : i < line.length) : (line ++ rest).getD i 0 ≠ 0x0D := by
  rw [List.getD_append _ _ _ _ inside, List.getD_eq_getElem _ _ inside]
  exact fun same => plain (same ▸ List.getElem_mem inside)

/-- Within its first line a text has one line start. -/
theorem lineStart_line {i : Nat} (inside : i ≤ line.length) : lineStart (line ++ rest) i = 0 := by
  induction i with
  | zero => rfl
  | succ i ih =>
    rw [lineStart_succ, if_neg (getD_line_ne plain rest inside)]
    exact ih (Nat.le_of_succ_le inside)

end Line

/-! ## All lines -/

/-- Behind some lines a text is scanned like the rest of it. -/
theorem lineStart_append (lines : List (List UInt8)) (rest : List UInt8) (j : Nat) :
    lineStart (text lines ++ rest) ((text lines).length + j) =
      (text lines).length + lineStart rest j := by
  induction lines with
  | nil => rw [text_nil, List.length_nil, Nat.zero_add, Nat.zero_add, List.nil_append]
  | cons line lines ih =>
    have shift := lineStart_cons line (text lines ++ rest) ((text lines).length + j)
    rw [ih] at shift
    rw [text_cons, List.append_assoc, List.cons_append, List.cons_append, List.length_append,
      List.length_cons, List.length_cons,
      show line.length + ((text lines).length + 1 + 1) + j =
        line.length + 2 + ((text lines).length + j) by omega, shift]
    omega

theorem text_ends {lines : List (List UInt8)} (nonempty : lines ≠ []) :
    ∃ front, text lines = front ++ [0x0D, 0x0A] := by
  obtain ⟨init, last, rfl⟩ := (List.eq_nil_or_concat lines).resolve_left nonempty
  refine ⟨text init ++ last, ?_⟩
  rw [List.concat_eq_append, text_append, text_cons, text_nil, List.append_assoc]

section Lines

variable {lines : List (List UInt8)} (plain : ∀ line ∈ lines, 0x0D ∉ line) (tail : List UInt8)

include plain

/-- A carriage return among the lines ends one of them. -/
theorem cr_ends {q : Nat} (inside : q < (text lines).length)
    (cr : (text lines ++ tail).getD q 0 = 0x0D) :
    ∃ front line back, lines = front ++ line :: back ∧ q = (text front).length + line.length ∧
      lineStart (text lines ++ tail) q = (text front).length ∧
      (text lines ++ tail).getD (q + 1) 0 = 0x0A := by
  induction lines generalizing q with
  | nil => exact absurd inside (Nat.not_lt_zero _)
  | cons line lines ih =>
    have first := plain line List.mem_cons_self
    rw [text_cons, List.append_assoc, List.cons_append, List.cons_append] at cr ⊢
    rw [text_cons, List.length_append, List.length_cons, List.length_cons] at inside
    have byte (k : Nat) : (line ++ 0x0D :: 0x0A :: (text lines ++ tail)).getD (line.length + k) 0 =
        (0x0D :: 0x0A :: (text lines ++ tail)).getD k 0 := by
      rw [List.getD_append_right _ _ _ _ (by omega), Nat.add_sub_cancel_left]
    obtain low | ⟨k, rfl⟩ : q < line.length ∨ ∃ k, q = line.length + k := by
      by_cases low : q < line.length
      · exact .inl low
      · exact .inr ⟨q - line.length, by omega⟩
    · exact absurd cr (getD_line_ne first _ low)
    match k with
    | 0 => exact ⟨[], line, lines, rfl, by simp, lineStart_line first _ (by omega), byte 1⟩
    | 1 =>
      rw [byte] at cr
      exact absurd cr (by simp)
    | k + 2 =>
      have rest : (text lines ++ tail).getD k 0 = 0x0D := by
        rw [byte] at cr
        exact cr
      obtain ⟨front, line', back, rfl, place, start, lf⟩ :=
        ih (fun l mem => plain l (List.mem_cons_of_mem _ mem)) (by omega) rest
      refine ⟨line :: front, line', back, rfl, ?_, ?_, ?_⟩
      · rw [text_cons, List.length_append, List.length_cons, List.length_cons]
        omega
      · rw [show line.length + (k + 2) = line.length + 2 + k by omega, lineStart_cons, start,
          text_cons, List.length_append, List.length_cons, List.length_cons]
        omega
      · rw [show line.length + (k + 2) + 1 = line.length + (k + 3) by omega, byte]
        exact lf

end Lines

/-- What stands from a line on. -/
theorem drop_text (front back : List (List UInt8)) (line tail : List UInt8) :
    (text (front ++ line :: back) ++ tail).drop (text front).length =
      line ++ 0x0D :: 0x0A :: (text back ++ tail) := by
  rw [text_append, text_cons, List.append_assoc, List.drop_left, List.append_assoc]
  rfl

end CrlfText
