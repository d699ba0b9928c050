import Tr6260.AtCmd.Command

/-!
# The words of a line

`mystrtok` hands out the words of a text one call after the other, `NULL` after the last. It keeps
its place in `last`, which it leaves alone when the last word has a single byte and ends with the
text. The next call then starts again at a place that was kept before.
-/

namespace Tr6260

open CString

namespace AtCmd

/-! ## Calls one after the other -/

/-- A call of `mystrtok`, with the text at the position it returns. -/
def strtokText (delim : List UInt8) (st : Strtok) (s : Option Nat) :
    Option (Option (List UInt8) × Strtok) := do
  let (token, st) ← mystrtok delim st s
  match token with
  | none => some (none, st)
  | some token => do
    let text ← textAt st.buf token
    some (some text.1, st)

/-- The texts of `n` calls, the first one for `s` and the others for `NULL`. -/
def strtokCalls (delim : List UInt8) :
    Nat → Strtok → Option Nat → Option (List (Option (List UInt8)))
  | 0, _, _ => some []
  | n + 1, st, s => do
    let (text, st) ← strtokText delim st s
    let more ← strtokCalls delim n st none
    some (text :: more)

/-- The longest pieces of a text without a delimiter. -/
def delimWords (delim text : List UInt8) : List (List UInt8) :=
  (text.splitOnP fun c => decide (c ∈ delim)).filter fun word => decide (word ≠ [])

/-- However many calls there are, they return these words and `NULL` after them. -/
def Yields (delim : List UInt8) (st : Strtok) (s : Option Nat) (words : List (List UInt8)) : Prop :=
  ∀ n, strtokCalls delim n st s = some ((List.range n).map fun i => words[i]?)

/-- The text ends with a word of one byte. -/
def EndsSingle (delim text : List UInt8) : Prop :=
  ∃ front c, text = front ++ [c] ∧ c ∉ delim ∧ ∀ d ∈ front.getLast?, d ∈ delim

/-- Nothing but delimiters is left at the place that was kept, if there is one. -/
def Spent (delim : List UInt8) (st : Strtok) : Prop :=
  ∀ q, st.last = some q → ∃ text, textAt st.buf q = some text ∧ ∀ c ∈ text.1, c ∈ delim

/-! ## Words -/

section Words

variable {delim text gap word more : List UInt8} {b c : UInt8}

theorem delimWords_delim (mem : c ∈ delim) (text : List UInt8) :
    delimWords delim (c :: text) = delimWords delim text := by
  have first := @List.splitOnP_append_cons_of_forall_mem _ (fun c => decide (c ∈ delim)) []
    (by simp) c (by simpa using mem) text
  rw [delimWords, ← List.nil_append (c :: text), first, List.filter_cons_of_neg (by simp)]
  rfl

/-- Delimiters in front change nothing. -/
theorem delimWords_gap (delims : ∀ c ∈ gap, c ∈ delim) (text : List UInt8) :
    delimWords delim (gap ++ text) = delimWords delim text := by
  induction gap with
  | nil => rfl
  | cons c gap ih =>
    rw [List.cons_append, delimWords_delim (delims c List.mem_cons_self)]
    exact ih fun d mem => delims d (List.mem_cons_of_mem _ mem)

theorem delimWords_delims (delims : ∀ c ∈ text, c ∈ delim) : delimWords delim text = [] := by
  have all := delimWords_gap delims []
  rw [List.append_nil] at all
  rw [all]
  rfl

/-- A word with a delimiter behind it. -/
theorem delimWords_word (plain : ∀ c ∈ b :: word, c ∉ delim) (mem : c ∈ delim)
    (more : List UInt8) :
    delimWords delim (b :: word ++ c :: more) = (b :: word) :: delimWords delim more := by
  rw [delimWords, List.splitOnP_append_cons_of_forall_mem (by simpa using plain) c
    (by simpa using mem), List.filter_cons_of_pos (by simp)]
  rfl

/-- A delimiter separates the words in front of it from those behind it. -/
theorem delimWords_append (mem : c ∈ delim) (front more : List UInt8) :
    delimWords delim (front ++ c :: more) = delimWords delim front ++ delimWords delim more := by
  rw [delimWords, List.splitOnP_append_cons front more (by simpa using mem), List.filter_append]
  rfl

/-- A word at the end. -/
theorem delimWords_last (plain : ∀ c ∈ b :: word, c ∉ delim) :
    delimWords delim (b :: word) = [b :: word] := by
  rw [delimWords, List.splitOnP_eq_singleton (by simpa using plain),
    List.filter_cons_of_pos (by simp)]
  rfl

/-- A text is empty of words, or begins with one behind delimiters. -/
theorem text_shape (delim text : List UInt8) :
    (∀ c ∈ text, c ∈ delim) ∨ ∃ gap b word rest, text = gap ++ (b :: word ++ rest) ∧
      (∀ c ∈ gap, c ∈ delim) ∧ (∀ c ∈ b :: word, c ∉ delim) ∧
      (rest = [] ∨ ∃ c more, rest = c :: more ∧ c ∈ delim) := by
  induction text with
  | nil =>
    left
    intro c mem
    cases mem
  | cons a text ih =>
    by_cases mem : a ∈ delim
    · rcases ih with delims | ⟨gap, b, word, rest, shape, delims, plain, ends⟩
      · left
        intro c mem'
        rcases List.mem_cons.mp mem' with rfl | later
        · exact mem
        · exact delims c later
      · right
        refine ⟨a :: gap, b, word, rest, by rw [shape]; rfl, ?_, plain, ends⟩
        intro c mem'
        rcases List.mem_cons.mp mem' with rfl | later
        · exact mem
        · exact delims c later
    · right
      let inside : UInt8 → Bool := fun c => decide (c ∉ delim)
      refine ⟨[], a, text.takeWhile inside, text.dropWhile inside, ?_, ?_, ?_, ?_⟩
      · rw [List.nil_append, List.cons_append, List.takeWhile_append_dropWhile]
      · intro c mem'
        cases mem'
      · intro c mem'
        rcases List.mem_cons.mp mem' with rfl | later
        · exact mem
        · simpa [inside] using List.mem_takeWhile_imp later
      · cases shape : text.dropWhile inside with
        | nil => exact .inl rfl
        | cons c more =>
          right
          have stops := List.head_dropWhile_not inside (l := text) (by rw [shape]; simp)
          simp only [shape, List.head_cons, inside] at stops
          exact ⟨c, more, rfl, by simpa using stops⟩

theorem not_endsSingle_delims (delims : ∀ c ∈ text, c ∈ delim) : ¬ EndsSingle delim text := by
  rintro ⟨front, c, rfl, plain, -⟩
  exact plain (delims c (by simp))

/-- How the text ends is decided behind a delimiter. -/
theorem endsSingle_behind (mem : c ∈ delim) (front more : List UInt8) :
    EndsSingle delim (front ++ c :: more) ↔ EndsSingle delim more := by
  rcases List.eq_nil_or_concat more with none_ | ⟨more, last, rfl⟩
  · subst none_
    refine iff_of_false ?_ (not_endsSingle_delims nofun)
    rintro ⟨front', last, same, plain, -⟩
    have ends := (List.append_inj' same rfl).2
    rw [List.singleton_inj] at ends
    exact plain (ends ▸ mem)
  · rw [List.concat_eq_append]
    have ends : (∀ d ∈ (front ++ c :: more).getLast?, d ∈ delim) ↔
        ∀ d ∈ more.getLast?, d ∈ delim := by
      rcases List.eq_nil_or_concat more with none_ | ⟨more, d, rfl⟩
      · subst none_
        simpa using mem
      · have whole : front ++ c :: (more ++ [d]) = (front ++ c :: more) ++ [d] := by simp
        rw [List.concat_eq_append, whole, List.getLast?_concat, List.getLast?_concat]
    constructor
    · rintro ⟨front', last', same, plain, before⟩
      rw [← List.cons_append, ← List.append_assoc] at same
      obtain ⟨rfl, same'⟩ := List.append_inj' same rfl
      cases same'
      exact ⟨more, last, rfl, plain, ends.mp before⟩
    · rintro ⟨more', last', same, plain, before⟩
      obtain ⟨rfl, same'⟩ := List.append_inj' same rfl
      cases same'
      exact ⟨front ++ c :: more, last, by simp, plain, ends.mpr before⟩

/-- A word at the end. -/
theorem endsSingle_last (delims : ∀ c ∈ gap, c ∈ delim) (plain : ∀ c ∈ b :: word, c ∉ delim) :
    EndsSingle delim (gap ++ b :: word) ↔ word = [] := by
  rcases List.eq_nil_or_concat word with none_ | ⟨word, last, rfl⟩
  · subst none_
    refine iff_of_true ⟨gap, b, rfl, plain b List.mem_cons_self, ?_⟩ rfl
    intro d mem
    exact delims d (List.mem_of_getLast? mem)
  · rw [List.concat_eq_append] at plain ⊢
    refine iff_of_false ?_ (by simp)
    rintro ⟨front, last', same, -, before⟩
    rw [← List.cons_append, ← List.append_assoc] at same
    obtain ⟨rfl, -⟩ := List.append_inj' same rfl
    obtain ⟨front, d, shape⟩ : ∃ front d, b :: word = front ++ [d] :=
      (List.eq_nil_or_concat' (b :: word)).resolve_left (List.cons_ne_nil b word)
    have inside : d ∈ b :: word := by
      rw [shape]
      exact List.mem_append_right front (List.mem_singleton_self d)
    have ends : d ∈ (gap ++ b :: word).getLast? := by
      rw [shape, ← List.append_assoc, List.getLast?_concat]
      rfl
    exact plain d (List.mem_append_left [last] inside) (before d ends)

end Words

/-! ## One call -/

/-- The text at a position of the memory. -/
def TextAt (buf : List UInt8) (q : Nat) (text : List UInt8) : Prop :=
  0 ∉ text ∧ ∃ more, buf.drop q = text ++ 0 :: more

theorem textAt_iff {buf : List UInt8} {q : Nat} {text : CString} :
    textAt buf q = some text ↔ TextAt buf q text.1 := by
  constructor
  · intro found
    rw [textAt] at found
    split at found
    next ends =>
      cases found
      exact ⟨(ofBytes (buf.drop q)).2, ofBytes_shape ends⟩
    next => cases found
  · intro ⟨_, more, shape⟩
    have ends : 0 ∈ buf.drop q := by
      rw [shape]
      simp
    rw [textAt, if_pos ends, shape, ofBytes_append]

section Call

variable {delim gap word more rest text : List UInt8} {b c : UInt8} {st : Strtok} {s : Option Nat}
  {q : Nat}

/-- The delimiters in front are those up to the first byte that is none. -/
theorem skipDelim_iff {bytes : List UInt8} {k : Nat} :
    skipDelim delim bytes = some k ↔ ∃ gap c rest, bytes = gap ++ c :: rest ∧ gap.length = k ∧
      (∀ g ∈ gap, g ∈ delim) ∧ c ∉ delim := by
  induction bytes generalizing k with
  | nil =>
    refine iff_of_false nofun ?_
    rintro ⟨gap, c, rest, same, -⟩
    cases gap <;> cases same
  | cons a bytes ih =>
    rw [skipDelim]
    by_cases mem : a ∈ delim
    · rw [if_pos mem, Option.map_eq_some_iff]
      constructor
      · rintro ⟨k, skip, rfl⟩
        obtain ⟨gap, c, rest, rfl, rfl, delims, plain⟩ := ih.mp skip
        refine ⟨a :: gap, c, rest, rfl, rfl, ?_, plain⟩
        intro g mem'
        rcases List.mem_cons.mp mem' with rfl | later
        · exact mem
        · exact delims g later
      · rintro ⟨gap, c, rest, same, rfl, delims, plain⟩
        cases gap with
        | nil =>
          cases same
          exact absurd mem plain
        | cons g gap =>
          cases same
          exact ⟨gap.length, ih.mpr ⟨gap, c, rest, rfl, rfl,
            fun g mem => delims g (List.mem_cons_of_mem _ mem), plain⟩, rfl⟩
    · rw [if_neg mem]
      constructor
      · intro zero
        cases zero
        exact ⟨[], a, bytes, rfl, rfl, nofun, mem⟩
      · rintro ⟨gap, c, rest, same, rfl, delims, -⟩
        cases gap with
        | nil => rfl
        | cons g gap =>
          cases same
          exact absurd (delims a List.mem_cons_self) mem

/-- Only delimiters are left. -/
theorem strtokText_delims (zero : 0 ∉ delim) (from_ : s.or st.last = some q)
    (here : TextAt st.buf q text) (delims : ∀ c ∈ text, c ∈ delim) :
    strtokText delim st s = some (none, { st with last := none }) := by
  obtain ⟨-, more, shape⟩ := here
  have skip : skipDelim delim (st.buf.drop q) = some text.length :=
    skipDelim_iff.mpr ⟨text, 0, more, shape, rfl, delims, zero⟩
  have stop : st.buf.getD (q + text.length) 0 = 0 := by
    have byte := congrArg (fun bytes => bytes.getD text.length 0) shape
    simpa using byte
  rw [strtokText, mystrtok, from_]
  simp only [skip, Option.bind_eq_bind, Option.bind_some, stop, if_true]

/-- Where a word stands behind delimiters. -/
theorem word_place (plain : ∀ c ∈ b :: word, c ∉ delim)
    (here : TextAt st.buf q (gap ++ (b :: word ++ rest))) (delims : ∀ c ∈ gap, c ∈ delim) :
    ∃ more, st.buf.drop (q + gap.length) = b :: word ++ (rest ++ 0 :: more) ∧
      skipDelim delim (st.buf.drop q) = some gap.length ∧
      st.buf.getD (q + gap.length) 0 ≠ 0 ∧ 0 ∉ word := by
  obtain ⟨text, more, shape⟩ := here
  have front : st.buf.drop (q + gap.length) = b :: word ++ (rest ++ 0 :: more) := by
    rw [← List.drop_drop, shape, List.append_assoc, List.drop_left, List.append_assoc]
  have nonzero : b ≠ 0 := by
    rintro rfl
    exact text (by simp)
  refine ⟨more, front, ?_, ?_, ?_⟩
  · apply skipDelim_iff.mpr
    refine ⟨gap, b, word ++ (rest ++ 0 :: more), ?_, rfl, delims, plain b List.mem_cons_self⟩
    rw [shape]
    simp
  · have byte := congrArg (fun bytes => bytes.getD 0 0) front
    rw [show st.buf.getD (q + gap.length) 0 = b by simpa using byte]
    exact nonzero
  · intro mem
    exact text (by simp [mem])

/-- A word with a delimiter behind it, which becomes a zero. -/
theorem strtokText_word (from_ : s.or st.last = some q) (zero : 0 ∉ delim)
    (here : TextAt st.buf q (gap ++ (b :: word ++ c :: more))) (delims : ∀ c ∈ gap, c ∈ delim)
    (plain : ∀ c ∈ b :: word, c ∉ delim) (mem : c ∈ delim) :
    ∃ st' q', strtokText delim st s = some (some (b :: word), st') ∧ st'.last = some q' ∧
      TextAt st'.buf q' more := by
  obtain ⟨behind, front, skip, some_, text⟩ := word_place plain here delims
  have nonzero : c ≠ 0 := by
    rintro rfl
    exact zero mem
  have tail : st.buf.drop (q + gap.length + 1) = word ++ c :: (more ++ 0 :: behind) := by
    rw [← List.drop_drop, front]
    rfl
  have ends : wordEnd delim (st.buf.drop (q + gap.length + 1)) = some (word.length, true) := by
    rw [tail, wordEnd_append (fun c mem => plain c (List.mem_cons_of_mem _ mem)) text (.inr mem)]
    simp [nonzero]
  let e := q + gap.length + 1 + word.length
  have word_ : TextAt (st.buf.set e 0) (q + gap.length) (b :: word) := by
    refine ⟨fun mem => here.1 (by simp at mem ⊢; tauto), more ++ 0 :: behind, ?_⟩
    have offset : e - (q + gap.length) = (b :: word).length := by
      simp only [e, List.length_cons]
      omega
    rw [List.drop_set, if_neg (by omega), front, offset]
    simp
  have rest_ : TextAt (st.buf.set e 0) (e + 1) more := by
    refine ⟨fun mem => here.1 (by simp [mem]), behind, ?_⟩
    rw [List.drop_set, if_pos (by omega),
      show e + 1 = q + gap.length + 1 + (word.length + 1) from rfl, ← List.drop_drop, tail]
    simp
  refine ⟨⟨st.buf.set e 0, some (e + 1)⟩, e + 1, ?_, rfl, rest_⟩
  have shown : textAt (st.buf.set e 0) (q + gap.length) = some ⟨b :: word, word_.1⟩ :=
    textAt_iff.mpr word_
  rw [strtokText, mystrtok, from_]
  simp only [skip, Option.bind_eq_bind, Option.bind_some, if_neg some_, ends, if_true]
  change (do let text ← textAt (st.buf.set e 0) (q + gap.length); _) = _
  rw [shown]
  rfl

/-- The last word; its place is given up when the word has more than one byte. -/
theorem strtokText_last (from_ : s.or st.last = some q)
    (here : TextAt st.buf q (gap ++ b :: word)) (delims : ∀ c ∈ gap, c ∈ delim)
    (plain : ∀ c ∈ b :: word, c ∉ delim) :
    strtokText delim st s =
      some (some (b :: word), if word = [] then st else { st with last := none }) := by
  rw [← List.append_nil (b :: word)] at here
  obtain ⟨behind, front, skip, some_, text⟩ := word_place plain here delims
  have tail : st.buf.drop (q + gap.length + 1) = word ++ 0 :: behind := by
    rw [← List.drop_drop, front]
    rfl
  have ends : wordEnd delim (st.buf.drop (q + gap.length + 1)) = some (word.length, false) := by
    rw [tail, wordEnd_append (fun c mem => plain c (List.mem_cons_of_mem _ mem)) text (.inl rfl)]
    rfl
  have word_ : TextAt st.buf (q + gap.length) (b :: word) :=
    ⟨fun mem => here.1 (by simp at mem ⊢; tauto), behind, front⟩
  have shown : textAt st.buf (q + gap.length) = some ⟨b :: word, word_.1⟩ := textAt_iff.mpr word_
  rw [strtokText, mystrtok, from_]
  simp only [skip, Option.bind_eq_bind, Option.bind_some, if_neg some_, ends, Bool.false_eq_true,
    if_false]
  by_cases single : word = []
  · subst single
    simp only [List.length_nil, Nat.lt_irrefl, if_false, Option.bind_some, if_true]
    rw [shown]
    rfl
  · rw [if_pos (List.length_pos_iff.mpr single), if_neg single]
    simp only [Option.bind_some]
    rw [shown]
    rfl

end Call

/-! ## All calls -/

section Calls

variable {delim text : List UInt8} {words : List (List UInt8)} {st st' : Strtok} {s : Option Nat}
  {r : Option (List UInt8)} {q : Nat}

theorem strtokCalls_succ (call : strtokText delim st s = some (r, st')) (n : Nat) :
    strtokCalls delim (n + 1) st s = (strtokCalls delim n st' none).map (r :: ·) := by
  simp only [strtokCalls, call, Option.bind_eq_bind, Option.bind_some]
  cases strtokCalls delim n st' none <;> rfl

theorem map_range_succ (words : List (List UInt8)) (n : Nat) :
    (List.range (n + 1)).map (fun i => words[i]?) =
      words.head? :: (List.range n).map fun i => words.tail[i]? := by
  rw [List.range_succ_eq_map, List.map_cons, List.map_map, List.head?_eq_getElem?]
  congr 1
  apply List.map_congr_left
  intro i _
  rw [Function.comp_apply, List.getElem?_tail]

/-- What the first call has to return, and the others. -/
theorem yields_step (call : strtokText delim st s = some (r, st')) :
    Yields delim st s words ↔ r = words.head? ∧ Yields delim st' none words.tail := by
  constructor
  · intro yields
    have first := yields 1
    rw [strtokCalls_succ call, map_range_succ] at first
    cases first
    refine ⟨rfl, fun n => ?_⟩
    have all := yields (n + 1)
    rw [strtokCalls_succ call, map_range_succ, Option.map_eq_some_iff] at all
    obtain ⟨more, found, same⟩ := all
    rw [found, (List.cons.inj same).2]
  · rintro ⟨first, later⟩ n
    cases n with
    | zero => rfl
    | succ n => rw [strtokCalls_succ call, map_range_succ, later n, ← first, Option.map_some]

/-- Without a place there is nothing but `NULL`. -/
theorem yields_nothing (none_ : st.last = none) : Yields delim st none [] := by
  have call : strtokText delim st none = some (none, st) := by
    rw [strtokText, mystrtok, none_]
    rfl
  intro n
  induction n with
  | zero => rfl
  | succ n ih =>
    rw [strtokCalls_succ call, map_range_succ, ih]
    rfl

/-- Only a text of delimiters is answered with `NULL`. -/
theorem strtokText_null (zero : 0 ∉ delim) (from_ : s.or st.last = some q)
    (call : strtokText delim st s = some (none, st')) :
    ∃ text, textAt st.buf q = some text ∧ ∀ c ∈ text.1, c ∈ delim := by
  rw [strtokText, mystrtok, from_] at call
  simp only [Option.bind_eq_bind] at call
  cases skip : skipDelim delim (st.buf.drop q) with
  | none =>
    rw [skip] at call
    cases call
  | some k =>
    obtain ⟨gap, c, rest, shape, rfl, delims, plain⟩ := skipDelim_iff.mp skip
    rw [skip] at call
    simp only [Option.bind_some] at call
    split at call
    next stop =>
      have byte := congrArg (fun bytes => bytes.getD gap.length 0) shape
      have ends : c = 0 := by
        rw [show c = st.buf.getD (q + gap.length) 0 by simpa using byte.symm]
        exact stop
      have text : 0 ∉ gap := fun mem => zero (delims 0 mem)
      exact ⟨⟨gap, text⟩, textAt_iff.mpr ⟨text, rest, ends ▸ shape⟩, delims⟩
    next =>
      -- any other call returns a word, if it returns
      exfalso
      cases ends : wordEnd delim (st.buf.drop (q + gap.length + 1)) with
      | none =>
        rw [ends] at call
        cases call
      | some word =>
        rw [ends] at call
        simp only [Option.bind_some] at call
        split at call
        · simp only [Option.bind_some] at call
          cases found : textAt (st.buf.set (q + gap.length + 1 + word.1) 0) (q + gap.length) <;>
            rw [found] at call <;> cases call
        · split at call
          all_goals
            simp only [Option.bind_some] at call
            cases found : textAt st.buf (q + gap.length) <;> rw [found] at call <;> cases call

/-- From a place on, the words behind it are handed out exactly when the last of them does not stay
there. -/
theorem yields_next_iff (zero : 0 ∉ delim) {q : Nat} (place : st.last = some q)
    (here : TextAt st.buf q text) :
    Yields delim st none (delimWords delim text) ↔ ¬ EndsSingle delim text := by
  generalize size : text.length = n
  induction n using Nat.strongRecOn generalizing st q text with
  | _ n ih =>
    have from_ : (none : Option Nat).or st.last = some q := place
    rcases text_shape delim text with delims | ⟨gap, b, word, rest, rfl, delims, plain, ends⟩
    · rw [yields_step (strtokText_delims zero from_ here delims), delimWords_delims delims]
      exact iff_of_true ⟨rfl, yields_nothing rfl⟩ (not_endsSingle_delims delims)
    · rcases ends with none_ | ⟨c, more, rfl, mem⟩
      · subst none_
        rw [List.append_nil] at here size ⊢
        rw [yields_step (strtokText_last from_ here delims plain), delimWords_gap delims,
          delimWords_last plain, endsSingle_last delims plain]
        by_cases single : word = []
        · refine iff_of_false ?_ (not_not.mpr single)
          -- the word is found again
          rintro ⟨-, again⟩
          rw [if_pos single, yields_step (strtokText_last from_ here delims plain)] at again
          cases again.1
        · rw [if_neg single]
          exact iff_of_true ⟨rfl, yields_nothing rfl⟩ single
      · obtain ⟨st', q', call, place', here'⟩ := strtokText_word from_ zero here delims plain mem
        have shorter : more.length < n := by
          rw [← size]
          simp only [List.length_append, List.length_cons]
          omega
        rw [yields_step call, delimWords_gap delims, delimWords_word plain mem, ← List.append_assoc,
          endsSingle_behind mem, ← ih _ shorter place' here' rfl]
        exact and_iff_right rfl

/-- A kept place does no harm exactly when only delimiters are left there. -/
theorem yields_spent_iff (zero : 0 ∉ delim) : Yields delim st none [] ↔ Spent delim st := by
  constructor
  · intro yields q place
    have first := yields 1
    rw [strtokCalls] at first
    cases call : strtokText delim st none with
    | none =>
      rw [call] at first
      cases first
    | some pair =>
      obtain ⟨r, st'⟩ := pair
      have null : r = none := ((yields_step call).mp yields).1
      rw [null] at call
      exact strtokText_null (s := none) zero place call
  · intro spent
    cases place : st.last with
    | none => exact yields_nothing place
    | some q =>
      obtain ⟨text, here, delims⟩ := spent q place
      have call := strtokText_delims (s := none) zero place (textAt_iff.mp here) delims
      exact (yields_step call).mpr ⟨rfl, yields_nothing rfl⟩

theorem endsSingle_words (ends : EndsSingle delim text) : 1 ≤ (delimWords delim text).length := by
  rcases text_shape delim text with delims | ⟨gap, b, word, rest, rfl, delims, plain, behind⟩
  · exact absurd ends (not_endsSingle_delims delims)
  · rw [delimWords_gap delims]
    rcases behind with none_ | ⟨c, more, rfl, mem⟩
    · rw [none_, List.append_nil, delimWords_last plain]
      exact Nat.le_refl _
    · rw [delimWords_word plain mem, List.length_cons]
      exact Nat.le_add_left ..

/-- The calls for a text itself, which find what was kept before when the text ends with its only
word and this has one byte. -/
theorem yields_first_iff (zero : 0 ∉ delim) (here : TextAt st.buf q text) :
    Yields delim st (some q) (delimWords delim text) ↔
      ¬ EndsSingle delim text ∨ (delimWords delim text).length = 1 ∧ Spent delim st := by
  have from_ : (some q).or st.last = some q := rfl
  rcases text_shape delim text with delims | ⟨gap, b, word, rest, rfl, delims, plain, ends⟩
  · rw [yields_step (strtokText_delims zero from_ here delims), delimWords_delims delims]
    exact iff_of_true ⟨rfl, yields_nothing rfl⟩ (.inl (not_endsSingle_delims delims))
  · rcases ends with none_ | ⟨c, more, rfl, mem⟩
    · subst none_
      rw [List.append_nil] at here ⊢
      rw [yields_step (strtokText_last from_ here delims plain), delimWords_gap delims,
        delimWords_last plain, endsSingle_last delims plain]
      by_cases single : word = []
      · rw [if_pos single]
        constructor
        · rintro ⟨-, again⟩
          exact .inr ⟨rfl, (yields_spent_iff zero).mp again⟩
        · intro fits
          exact ⟨rfl, (yields_spent_iff zero).mpr (fits.resolve_left (not_not.mpr single)).2⟩
      · rw [if_neg single]
        exact iff_of_true ⟨rfl, yields_nothing rfl⟩ (.inl single)
    · obtain ⟨st', q', call, place', later⟩ := strtokText_word from_ zero here delims plain mem
      have next := yields_next_iff zero place' later
      rw [yields_step call, delimWords_gap delims, delimWords_word plain mem, ← List.append_assoc,
        endsSingle_behind mem]
      constructor
      · rintro ⟨-, yields⟩
        exact .inl (next.mp yields)
      · intro fits
        refine ⟨rfl, next.mpr fun single => ?_⟩
        have some_ := endsSingle_words single
        have one := (fits.resolve_left (not_not.mpr single)).1
        rw [List.length_cons] at one
        omega

end Calls

/-- Whatever was tokenized before, the calls for a text return its words and then `NULL`, exactly
when the text does not end with a word of one byte, or when this is its only word and nothing is
left of an earlier text. -/
theorem mystrtok_words_iff {delim : List UInt8} (zero : 0 ∉ delim) {st : Strtok} {p : Nat}
    {text : CString} (here : textAt st.buf p = some text) :
    Yields delim st (some p) (delimWords delim text.1) ↔
      ¬ EndsSingle delim text.1 ∨ (delimWords delim text.1).length = 1 ∧ Spent delim st :=
  yields_first_iff zero (textAt_iff.mp here)

/-- Two words of two bytes. -/
theorem mystrtok_words_two :
    Yields [0x20] ⟨[0x61, 0x62, 0x20, 0x63, 0x64, 0], none⟩ (some 0)
      [[0x61, 0x62], [0x63, 0x64]] := by
  have words : delimWords [0x20] [0x61, 0x62, 0x20, 0x63, 0x64] = [[0x61, 0x62], [0x63, 0x64]] := by
    decide
  rw [← words]
  apply (@mystrtok_words_iff _ (by decide) _ 0 ⟨[0x61, 0x62, 0x20, 0x63, 0x64], by decide⟩
    (by decide)).mpr (.inl ?_)
  rintro ⟨front, c, same, -, before⟩
  have front_ : [0x61, 0x62, 0x20, 0x63] = front := by
    simpa using congrArg List.dropLast same
  rw [← front_] at before
  exact absurd (before 0x63 rfl) (by decide)

/-- The last word is returned again when it has one byte. -/
theorem mystrtok_words_again :
    ¬ Yields [0x20] ⟨[0x61, 0x20, 0x62, 0], none⟩ (some 0)
      (delimWords [0x20] [0x61, 0x20, 0x62]) := by
  intro yields
  exact absurd (yields 3) (by decide)

end AtCmd

end Tr6260
