import Mathlib.Tactic.Ring
import Tr6260.AtCmd.Licence

/-!
# The answer to a licence command

A line whose length and CRC fields are those of its JSON text is framed at that text, if the
checksum is not zero, the length has no more than eight digits and `getrssi` does not stand in
it. What the line leads to is then up to its licence.
-/

namespace Tr6260

open CString FlashProg

namespace AtCmd

/-! ## Lines -/

/-- A field with a hexadecimal number in it. -/
structure IsHexNumber (field : List UInt8) (n : Nat) : Prop where
  nonempty : field ≠ []
  digits : ∀ c ∈ field, isHexDigit c = true
  value : hexNumber field = n

/-- The length and CRC fields of a line are those of its JSON text. -/
structure Matching (line len crc json : List UInt8) : Prop where
  line : line = wrcert ++ 0x20 :: (len ++ 0x20 :: (crc ++ 0x20 :: json))
  nonempty : json ≠ []
  len : IsHexNumber len json.length
  crc : IsHexNumber crc (crcCheck json).toNat

/-- A line is framed, and what is behind the fields is taken for its text. -/
def FramingPassed (last : Option Nat) (b : CmdBuffer) : Prop :=
  strstr b.line.1 getrssi = none ∧ ∃ token st buf len json,
    mystrtok [0x20] ⟨b.bytes, last⟩ (some 0) = some (some token, st) ∧
      wrcertFraming st = some (.text buf len json)

/-- A line is answered truthfully. -/
structure Truthful (env : Env) (heap : Heap) (m : ByteMem) (last : Option Nat) (b : CmdBuffer) :
    Prop where
  ok : ((yaDataAtcmdHandler env heap last b).run m).1 = some .ok ↔
    ∃ len crc json, Matching b.line.1 len crc json.1 ∧ Written env heap m json
  err : ((yaDataAtcmdHandler env heap last b).run m).1 ≠ some .ok →
    ((yaDataAtcmdHandler env heap last b).run m).1 = some .err
  framed : ∀ len crc (json : CString), Matching b.line.1 len crc json.1 → FramingPassed last b

/-! ## When it is -/

/-- The next word of the buffer. -/
def Word (st : Strtok) (text : CString) (st' : Strtok) : Prop :=
  ∃ token, mystrtok [0x20] st none = some (some token, st') ∧ textAt st'.buf token = some text

/-- A length field of up to eight bytes. -/
def LengthField (st : Strtok) (arg2 : CString) (len : UInt16) (st' : Strtok) : Prop :=
  Word st arg2 st' ∧ arg2.strlen ≤ 8 ∧ jsonLenLoop arg2.1 0 = len

/-- A length field other than zero and a word behind it, with the place the text is looked for. -/
def Fields (st : Strtok) (len : UInt16) (crc pos : Nat) (buf : List UInt8) : Prop :=
  ∃ arg2 arg3 st' st'', LengthField st arg2 len st' ∧ len ≠ 0 ∧ Word st' arg3 st'' ∧
    (sscanfHex arg3).getD 0 = crc ∧ pos = wrcert.length + arg2.strlen + arg3.strlen + 3 ∧
    st''.buf = buf

/-- What a line is framed as, behind its name. -/
inductive Framed (st : Strtok) : Framing → Prop
  | noLength {st'} (none : mystrtok [0x20] st none = some (none, st')) : Framed st .refused
  | zeroLength {arg2 st'} (zero : LengthField st arg2 0 st') : Framed st .refused
  | zeroSum {len pos buf} (zero : Fields st len 0 pos buf) : Framed st .refused
  | otherSum {len crc pos buf msg} (fields : Fields st len crc pos buf) (nonzero : crc ≠ 0)
      (there : Block.read buf pos len.toNat = some msg) (other : (crcCheck msg).toNat ≠ crc) :
      Framed st .refused
  | text {len crc pos buf msg json} (fields : Fields st len crc pos buf) (nonzero : crc ≠ 0)
      (there : Block.read buf pos len.toNat = some msg) (same : (crcCheck msg).toNat = crc)
      (text : textAt buf pos = some json) : Framed st (.text buf len.toNat json)

/-- The state behind the name of a line in which `getrssi` does not stand. -/
def AfterName (last : Option Nat) (b : CmdBuffer) (st : Strtok) : Prop :=
  strstr b.line.1 getrssi = none ∧
    ∃ token, mystrtok [0x20] ⟨b.bytes, last⟩ (some 0) = some (some token, st)

/-- A line is refused: as a `getrssi` one, for its fields or for its licence. -/
inductive Refused (env : Env) (heap : Heap) (m : ByteMem) (last : Option Nat) (b : CmdBuffer) :
    Prop
  | rssi (there : (strstr b.line.1 getrssi).isSome)
      (bad : env.rssiMode ∨ (b.line.strlen - getrssi.length) % 256 = 0 ∨
        (b.line.strlen - getrssi.length) % 256 > 32)
  | fields {st} (name : AfterName last b st) (refused : Framed st .refused)
  | licence {st buf len json} (name : AfterName last b st) (framed : Framed st (.text buf len json))
      (legible : Legible env heap m json) (incomplete : ¬ Completed env heap m json)

/-- A line whose fields are those of its text has no `getrssi` in it, no more than eight length
digits and a checksum other than zero, its licence can be read and, for Aliyun, stored; any other
line is refused. -/
structure Honest (env : Env) (heap : Heap) (m : ByteMem) (last : Option Nat) (b : CmdBuffer) :
    Prop where
  matching : ∀ len crc (json : CString), Matching b.line.1 len crc json.1 →
    strstr b.line.1 getrssi = none ∧ len.length ≤ 8 ∧ crcCheck json.1 ≠ 0 ∧
      Legible env heap m json ∧ Storable env heap json
  other : (¬ ∃ len crc, ∃ json : CString, Matching b.line.1 len crc json.1) →
    Refused env heap m last b

/-! ## Hexadecimal numbers -/

theorem toU16_natCast (n : Nat) : toU16 n = UInt16.ofNat n := by
  rw [toU16, ← UInt16.toNat_inj, UInt16.toNat_ofNat', UInt16.toNat_ofNat']
  omega

theorem hexNumber_foldl (digits : List UInt8) (n : Nat) :
    digits.foldl (fun n c => 16 * n + (atCmdHex2num c).toNat) n =
      n * 16 ^ digits.length + hexNumber digits := by
  induction digits generalizing n with
  | nil => simp [hexNumber]
  | cons c digits ih =>
    rw [hexNumber, List.foldl_cons, List.foldl_cons, ih, ih (16 * 0 + _), List.length_cons,
      pow_succ]
    ring

theorem hexNumber_cons (c : UInt8) (digits : List UInt8) :
    hexNumber (c :: digits) = (atCmdHex2num c).toNat * 16 ^ digits.length + hexNumber digits := by
  rw [hexNumber, List.foldl_cons, hexNumber_foldl, Nat.mul_zero, Nat.zero_add]

/-- The loop adds up the number. -/
theorem jsonLenLoop_eq (digits : List UInt8) (hex : ∀ c ∈ digits, isHexDigit c = true)
    (len : UInt16) : jsonLenLoop digits len = len + UInt16.ofNat (hexNumber digits) := by
  induction digits generalizing len with
  | nil => rw [jsonLenLoop, hexNumber, List.foldl_nil]; exact (UInt16.add_zero len).symm
  | cons c digits ih =>
    have digit : ((atCmdHex2num c).toNat : Int) = atCmdHex2num c :=
      Int.toNat_of_nonneg (of_decide_eq_true (hex c List.mem_cons_self))
    have power : atCmdHex2num c * 2 ^ (4 * digits.length) =
        ((atCmdHex2num c).toNat * 16 ^ digits.length : Nat) := by
      rw [pow_mul, Nat.cast_mul, digit]
      norm_num
    rw [jsonLenLoop, ih fun d later => hex d (List.mem_cons_of_mem _ later), power, toU16_natCast,
      hexNumber_cons, UInt16.ofNat_add, UInt16.add_assoc]

theorem le_of_isHexDigit {c : UInt8} (hex : isHexDigit c = true) : 0x30 ≤ c := by
  by_contra low
  have no1 : ¬ (0x30 ≤ c ∧ c ≤ 0x39) := fun both => low both.1
  have no2 : ¬ (0x61 ≤ c ∧ c ≤ 0x66) := fun both => low (UInt8.le_trans (by decide) both.1)
  have no3 : ¬ (0x41 ≤ c ∧ c ≤ 0x46) := fun both => low (UInt8.le_trans (by decide) both.1)
  rw [isHexDigit, atCmdHex2num, if_neg no1, if_neg no2, if_neg no3] at hex
  cases hex

/-- A byte below the digits is not one. -/
theorem ne_of_isHexDigit {c d : UInt8} (hex : isHexDigit c = true) (other : isHexDigit d = false) :
    c ≠ d := by
  rintro rfl
  rw [hex] at other
  cases other

theorem isSpace_of_isHexDigit {c : UInt8} (hex : isHexDigit c = true) : isSpace c = false := by
  have low : 0x30 ≤ c.toNat := UInt8.le_iff_toNat_le.mp (le_of_isHexDigit hex)
  apply decide_eq_false
  rintro (rfl | ⟨-, high⟩)
  · exact absurd low (by decide)
  · have bound : c.toNat ≤ 13 := UInt8.le_iff_toNat_le.mp high
    omega

/-- `sscanf` reads a field of hexadecimal digits to its end. -/
theorem sscanfHex_digits {field : CString} {n : Nat} (number : IsHexNumber field.1 n)
    (small : n < 2 ^ 32) : sscanfHex field = some n := by
  rcases field with ⟨field, zero⟩
  rcases number with ⟨nonempty, digits, value⟩
  cases field with
  | nil => exact absurd rfl nonempty
  | cons c field =>
    have first := digits c List.mem_cons_self
    have blank := isSpace_of_isHexDigit first
    have noPrefix : dropHexPrefix (c :: field) = c :: field := by
      unfold dropHexPrefix
      split
      · next same =>
        cases same
        exact absurd rfl (ne_of_isHexDigit (digits 0x78 (by simp)) (by decide))
      · next same =>
        cases same
        exact absurd rfl (ne_of_isHexDigit (digits 0x58 (by simp)) (by decide))
      · rfl
    have whole : (c :: field).takeWhile isHexDigit = c :: field :=
      List.takeWhile_eq_self_iff.mpr digits
    have front : (c :: field).dropWhile isSpace = c :: field := by
      rw [List.dropWhile_cons, blank]
      rfl
    unfold sscanfHex
    dsimp only
    rw [front]
    split
    · next same =>
      cases same
      exact absurd rfl (ne_of_isHexDigit first (by decide))
    · next same =>
      cases same
      exact absurd rfl (ne_of_isHexDigit first (by decide))
    · rw [noPrefix, whole]
      dsimp only at value ⊢
      rw [value, Nat.min_eq_left (by omega)]

/-! ## Words -/

section Words

variable {word rest : List UInt8}

theorem wordEnd_blank (plain : ∀ c ∈ word, c ≠ 0 ∧ c ≠ 0x20) :
    wordEnd [0x20] (word ++ 0x20 :: rest) = some (word.length, true) := by
  apply wordEnd_append _ _ (.inr List.mem_cons_self)
  · intro c mem blank
    exact (plain c mem).2 (List.mem_singleton.mp blank)
  · intro zero
    exact (plain 0 zero).1 rfl

/-- A word is cut off at the blank behind it. -/
theorem mystrtok_word (front rest : List UInt8) (last s : Option Nat) (nonempty : word ≠ [])
    (plain : ∀ c ∈ word, c ≠ 0 ∧ c ≠ 0x20) (here : s.or last = some front.length) :
    mystrtok [0x20] ⟨front ++ (word ++ 0x20 :: rest), last⟩ s =
      some (some front.length,
        ⟨front ++ (word ++ 0 :: rest), some (front.length + word.length + 1)⟩) := by
  cases word with
  | nil => exact absurd rfl nonempty
  | cons c word =>
    rcases plain c List.mem_cons_self with ⟨nonzero, noBlank⟩
    have skip : skipDelim [0x20] ((front ++ (c :: word ++ 0x20 :: rest)).drop front.length) =
        some 0 := by
      rw [List.drop_left, List.cons_append, skipDelim, if_neg (by simpa using noBlank)]
    have first : (front ++ (c :: word ++ 0x20 :: rest)).getD front.length 0 = c := by
      rw [List.getD_append_right _ _ _ _ (Nat.le_refl _), Nat.sub_self]
      rfl
    have behind : (front ++ (c :: word ++ 0x20 :: rest)).drop (front.length + 1) =
        word ++ 0x20 :: rest := by
      rw [← List.drop_drop, List.drop_left]
      rfl
    have cut : (front ++ (c :: word ++ 0x20 :: rest)).set (front.length + 1 + word.length) 0 =
        front ++ (c :: word ++ 0 :: rest) := by
      rw [List.set_append_right _ _ (by omega), List.set_append_right _ _ (by
        rw [List.length_cons]
        omega)]
      have here : front.length + 1 + word.length - front.length - (c :: word).length = 0 := by
        rw [List.length_cons]
        omega
      rw [here]
      rfl
    unfold mystrtok
    rw [here]
    dsimp only
    rw [skip, Option.bind_eq_bind, Option.bind_some, Nat.add_zero, if_neg (by rwa [first]), behind,
      wordEnd_blank fun d later => plain d (List.mem_cons_of_mem _ later), Option.bind_eq_bind,
      Option.bind_some]
    dsimp only
    rw [if_pos rfl, cut, List.length_cons]
    congr 4
    omega

theorem wrcert_nonempty : wrcert ≠ [] := List.cons_ne_nil _ _

theorem wrcert_plain : ∀ c ∈ wrcert, c ≠ 0 ∧ c ≠ 0x20 := by decide +kernel

theorem textAt_append (front : List UInt8) (text : CString) (rest : List UInt8) :
    textAt (front ++ (text.1 ++ 0 :: rest)) front.length = some text := by
  rw [textAt, List.drop_left, if_pos (by simp), ofBytes_append]

end Words

/-! ## The framing of a line -/

section Framing

variable {b : CmdBuffer} {len crc : List UInt8} {json : CString}

theorem IsHexNumber.plain {field : List UInt8} {n : Nat} (number : IsHexNumber field n) :
    ∀ c ∈ field, c ≠ 0 ∧ c ≠ 0x20 := fun c member =>
  ⟨ne_of_isHexDigit (number.digits c member) (by decide),
    ne_of_isHexDigit (number.digits c member) (by decide)⟩

/-- A field as a text. -/
def IsHexNumber.text {field : List UInt8} {n : Nat} (number : IsHexNumber field n) : CString :=
  ⟨field, fun zero => (number.plain 0 zero).1 rfl⟩

theorem CmdBuffer.length_bytes (b : CmdBuffer) : b.bytes.length = cmdBufferSize := by
  have size := b.size
  rw [CmdBuffer.bytes, List.length_append, List.length_cons]
  rw [CString.strlen] at size
  omega

theorem Matching.short (matching : Matching b.line.1 len crc json.1) :
    len.length + crc.length + json.strlen + 10 ≤ cmdBufferSize := by
  have size := b.size
  rw [CString.strlen, matching.line] at size
  simp only [List.length_append, List.length_cons] at size
  have name : wrcert.length = 6 := rfl
  rw [CString.strlen]
  omega

/-- A line whose fields are those of its text, cut into words. -/
theorem wrcertFraming_matching (last : Option Nat) (matching : Matching b.line.1 len crc json.1) :
    ∃ st buf, mystrtok [0x20] ⟨b.bytes, last⟩ (some 0) = some (some 0, st) ∧
      buf.length = cmdBufferSize ∧
      wrcertFraming st =
        if len.length > 8 then none
        else if crcCheck json.1 = 0 then some .refused
        else some (.text buf json.strlen json) := by
  have short := matching.short
  have buffer : cmdBufferSize = 8192 := rfl
  have name : wrcert.length = 6 := rfl
  have bytes : b.bytes =
      [] ++ (wrcert ++ 0x20 :: (len ++ 0x20 :: (crc ++ 0x20 :: (json.1 ++ 0 :: b.behind)))) := by
    rw [CmdBuffer.bytes, matching.line]
    simp only [List.append_assoc, List.cons_append, List.nil_append]
  have number : IsHexNumber len json.strlen := matching.len
  have positive : json.strlen ≠ 0 := fun none => matching.nonempty (List.length_eq_zero_iff.mp none)
  have room : json.strlen < 2 ^ 16 := by omega
  have crcValue : IsHexNumber crc (crcCheck json.1).toNat := matching.crc
  let front1 := wrcert ++ [(0 : UInt8)]
  let front2 := front1 ++ (len ++ [(0 : UInt8)])
  let front3 := front2 ++ (crc ++ [(0 : UInt8)])
  let tail := json.1 ++ 0 :: b.behind
  have len1 : front1.length = 7 := rfl
  have len2 : front2.length = 7 + len.length + 1 := by
    rw [List.length_append, len1, List.length_append]
    rfl
  have len3 : front3.length = wrcert.length + len.length + crc.length + 3 := by
    rw [List.length_append, len2, List.length_append, name, List.length_singleton]
    omega
  -- the three words, each cut off from the rest
  have word1 : mystrtok [0x20] ⟨b.bytes, last⟩ (some 0) =
      some (some 0, ⟨front1 ++ (len ++ 0x20 :: (crc ++ 0x20 :: tail)), some 7⟩) := by
    have word := mystrtok_word [] (len ++ 0x20 :: (crc ++ 0x20 :: tail)) last (some 0)
      wrcert_nonempty wrcert_plain rfl
    rw [← bytes] at word
    exact word
  have word2 : mystrtok [0x20] ⟨front1 ++ (len ++ 0x20 :: (crc ++ 0x20 :: tail)), some 7⟩ none =
      some (some 7, ⟨front2 ++ (crc ++ 0x20 :: tail), some (7 + len.length + 1)⟩) := by
    have word := mystrtok_word front1 (crc ++ 0x20 :: tail) (some 7) none
      number.nonempty number.plain rfl
    rw [len1] at word
    rw [word]
    simp only [front2, List.append_assoc, List.cons_append, List.nil_append]
  have word3 : mystrtok [0x20] ⟨front2 ++ (crc ++ 0x20 :: tail), some (7 + len.length + 1)⟩ none =
      some (some (7 + len.length + 1),
        ⟨front3 ++ tail, some (7 + len.length + 1 + crc.length + 1)⟩) := by
    have word := mystrtok_word front2 tail (some (7 + len.length + 1)) none
      crcValue.nonempty crcValue.plain (by rw [len2]; rfl)
    rw [len2] at word
    rw [word]
    simp only [front3, List.append_assoc, List.cons_append, List.nil_append]
  have text2 : textAt (front2 ++ (crc ++ 0x20 :: tail)) 7 = some number.text := by
    have text := textAt_append front1 number.text (crc ++ 0x20 :: tail)
    rw [← text, len1]
    simp only [front2, List.append_assoc, List.cons_append, List.nil_append, IsHexNumber.text]
  have text3 : textAt (front3 ++ tail) (7 + len.length + 1) = some crcValue.text := by
    have text := textAt_append front2 crcValue.text tail
    rw [← text, len2]
    simp only [front3, List.append_assoc, List.cons_append, List.nil_append, IsHexNumber.text]
  have total : (front3 ++ tail).length = cmdBufferSize := by
    have same : (front3 ++ tail).length = b.bytes.length := by
      rw [bytes]
      simp only [front3, front2, front1, tail, List.length_append, List.length_cons,
        List.length_nil]
      omega
    rw [same, b.length_bytes]
  refine ⟨_, front3 ++ tail, word1, total, ?_⟩
  have length : jsonLen number.text =
      if len.length > 8 then none else some (UInt16.ofNat json.strlen) := by
    have loop := jsonLenLoop_eq len number.digits 0
    rw [number.value, UInt16.zero_add] at loop
    rw [jsonLen]
    exact congrArg _ (congrArg some loop)
  have lengthNat : (UInt16.ofNat json.strlen).toNat = json.strlen := UInt16.toNat_ofNat_of_lt' room
  have nonzero : UInt16.ofNat json.strlen ≠ 0 := by
    intro zero
    rw [zero] at lengthNat
    exact positive lengthNat.symm
  have sum : sscanfHex crcValue.text = some (crcCheck json.1).toNat :=
    sscanfHex_digits crcValue (Nat.lt_trans (UInt16.toNat_lt _) (by decide))
  have message : Block.read (front3 ++ tail) front3.length json.strlen = some json.1 := by
    have inside : front3.length + json.strlen ≤ (front3 ++ tail).length := by
      have split : tail.length = json.strlen + (0 :: b.behind).length := List.length_append
      have joined : (front3 ++ tail).length = front3.length + tail.length := List.length_append
      rw [joined, split]
      exact Nat.add_le_add_left (Nat.le_add_right _ _) _
    rw [Block.read_of_le inside, List.drop_left, CString.strlen, List.take_left]
  have text : textAt (front3 ++ tail) front3.length = some json :=
    textAt_append front3 json b.behind
  have here : wrcert.length + number.text.strlen + crcValue.text.strlen + 3 = front3.length := by
    rw [len3]
    rfl
  unfold wrcertFraming
  rw [word2, Option.bind_eq_bind, Option.bind_some]
  dsimp only
  rw [text2, Option.bind_eq_bind, Option.bind_some, length]
  split
  · rfl
  · rw [Option.bind_eq_bind, Option.bind_some, if_neg nonzero, word3, Option.bind_eq_bind,
      Option.bind_some]
    dsimp only
    rw [Option.bind_some, text3, Option.bind_some, sum, Option.getD_some, here, lengthNat, message,
      Option.bind_eq_bind, Option.bind_some, text, Option.bind_some]
    have zero : (crcCheck json.1).toNat = 0 ↔ crcCheck json.1 = 0 :=
      ⟨fun none => UInt16.toNat_inj.mp none, fun none => by rw [none]; rfl⟩
    simp only [zero]
    split
    · rfl
    · rw [if_neg (not_not.mpr rfl)]

/-- What is framed behind a length field. -/
theorem wrcertFraming_length {st st' : Strtok} {arg2 : CString} {len : UInt16}
    (field : LengthField st arg2 len st') :
    wrcertFraming st =
      if len = 0 then some .refused
      else (do
        let (token, st) ← mystrtok [0x20] st' none
        let token ← token
        let arg3 ← textAt st.buf token
        let crc16Arg := (sscanfHex arg3).getD 0
        if crc16Arg = 0 then
          some .refused
        else do
          let pos := wrcert.length + arg2.strlen + arg3.strlen + 3
          let msg ← Block.read st.buf pos len.toNat
          if (crcCheck msg).toNat ≠ crc16Arg then
            some .refused
          else do
            let json ← textAt st.buf pos
            some (.text st.buf len.toNat json)) := by
  rcases field with ⟨⟨token, word, text⟩, short, loop⟩
  have length : jsonLen arg2 = some len := by
    rw [jsonLen, if_neg (Nat.not_lt.mpr short), loop]
  rw [wrcertFraming, word, Option.bind_eq_bind, Option.bind_some]
  dsimp only
  rw [text, Option.bind_eq_bind, Option.bind_some, length]
  rfl

/-- What is framed behind both fields. -/
theorem wrcertFraming_fields {st : Strtok} {len : UInt16} {crc pos : Nat} {buf : List UInt8}
    (fields : Fields st len crc pos buf) :
    wrcertFraming st =
      if crc = 0 then some .refused
      else (do
        let msg ← Block.read buf pos len.toNat
        if (crcCheck msg).toNat ≠ crc then
          some .refused
        else do
          let json ← textAt buf pos
          some (.text buf len.toNat json)) := by
  rcases fields with ⟨arg2, arg3, st', st'', field, nonzero, ⟨token, word, text⟩, rfl, rfl, rfl⟩
  rw [wrcertFraming_length field, if_neg nonzero, word, Option.bind_eq_bind, Option.bind_some]
  dsimp only
  rw [Option.bind_eq_bind, Option.bind_some, text]
  rfl

/-- The framing is the one the fields are read as. -/
theorem wrcertFraming_iff {st : Strtok} {framing : Framing} :
    wrcertFraming st = some framing ↔ Framed st framing := by
  constructor
  · intro framed
    rcases first : mystrtok [0x20] st none with _ | ⟨_ | token, st1⟩
    · rw [wrcertFraming, first] at framed
      cases framed
    · rw [wrcertFraming, first] at framed
      cases framed
      exact .noLength first
    rcases text2 : textAt st1.buf token with _ | arg2
    · rw [wrcertFraming, first, Option.bind_eq_bind, Option.bind_some] at framed
      dsimp only at framed
      rw [text2] at framed
      cases framed
    by_cases short : arg2.strlen ≤ 8
    · have field : LengthField st arg2 (jsonLenLoop arg2.1 0) st1 :=
        ⟨⟨token, first, text2⟩, short, rfl⟩
      by_cases zero : jsonLenLoop arg2.1 0 = 0
      · rw [wrcertFraming_length field, if_pos zero] at framed
        cases framed
        rw [zero] at field
        exact .zeroLength field
      rcases second : mystrtok [0x20] st1 none with _ | ⟨_ | token', st2⟩
      · rw [wrcertFraming_length field, if_neg zero, second] at framed
        cases framed
      · rw [wrcertFraming_length field, if_neg zero, second] at framed
        cases framed
      rcases text3 : textAt st2.buf token' with _ | arg3
      · rw [wrcertFraming_length field, if_neg zero, second, Option.bind_eq_bind,
          Option.bind_some] at framed
        dsimp only at framed
        rw [Option.bind_eq_bind, Option.bind_some, text3] at framed
        cases framed
      have fields : Fields st (jsonLenLoop arg2.1 0) ((sscanfHex arg3).getD 0)
          (wrcert.length + arg2.strlen + arg3.strlen + 3) st2.buf :=
        ⟨arg2, arg3, st1, st2, field, zero, ⟨token', second, text3⟩, rfl, rfl, rfl⟩
      rw [wrcertFraming_fields fields] at framed
      split at framed
      · next none =>
        cases framed
        rw [none] at fields
        exact .zeroSum fields
      · next nonzero =>
        rw [Option.bind_eq_bind] at framed
        rcases Option.bind_eq_some_iff.mp framed with ⟨msg, there, rest⟩
        split at rest
        · next other =>
          cases rest
          exact .otherSum fields nonzero there other
        · next same =>
          rw [Option.bind_eq_bind] at rest
          rcases Option.bind_eq_some_iff.mp rest with ⟨json, text, done⟩
          cases done
          exact .text fields nonzero there (not_not.mp same) text
    · rw [wrcertFraming, first, Option.bind_eq_bind, Option.bind_some] at framed
      dsimp only at framed
      rw [text2, Option.bind_eq_bind, Option.bind_some, jsonLen, if_pos (Nat.not_le.mp short)]
        at framed
      cases framed
  · intro framed
    cases framed with
    | noLength first => rw [wrcertFraming, first]; rfl
    | zeroLength field => rw [wrcertFraming_length field, if_pos rfl]
    | zeroSum fields => rw [wrcertFraming_fields fields, if_pos rfl]
    | otherSum fields nonzero there other =>
      rw [wrcertFraming_fields fields, if_neg nonzero, there, Option.bind_eq_bind,
        Option.bind_some, if_pos other]
    | text fields nonzero there same text =>
      rw [wrcertFraming_fields fields, if_neg nonzero, there, Option.bind_eq_bind,
        Option.bind_some, if_neg (not_not.mpr same), text]
      rfl

end Framing

/-! ## The answer -/

section Answer

variable {env : Env} {heap : Heap} {m : ByteMem} {last : Option Nat} {b : CmdBuffer} {st : Strtok}

theorem length_mystrtok {delim : List UInt8} {st' : Strtok} {s token : Option Nat}
    (word : mystrtok delim st s = some (token, st')) : st'.buf.length = st.buf.length := by
  unfold mystrtok at word
  split at word
  · cases word
    rfl
  · rw [Option.bind_eq_bind] at word
    rcases Option.bind_eq_some_iff.mp word with ⟨skipped, -, rest⟩
    dsimp only at rest
    split at rest
    · cases rest
      rfl
    · rw [Option.bind_eq_bind] at rest
      rcases Option.bind_eq_some_iff.mp rest with ⟨⟨n, found⟩, -, done⟩
      dsimp only at done
      split at done
      · cases done
        exact List.length_set
      · split at done <;> cases done <;> rfl

theorem AfterName.length (name : AfterName last b st) : st.buf.length = cmdBufferSize := by
  rcases name with ⟨-, token, word⟩
  rw [length_mystrtok word]
  exact b.length_bytes

theorem Framed.sizes {buf : List UInt8} {len : Nat} {json : CString}
    (whole : st.buf.length = cmdBufferSize) (framed : Framed st (.text buf len json)) :
    buf.length = cmdBufferSize ∧ len + 1 ≤ cmdBufferSize ∧ json.strlen < 2 ^ 16 := by
  cases framed with
  | text fields nonzero there same text =>
    rcases fields with ⟨arg2, arg3, st', st'', ⟨⟨token2, word2, -⟩, -⟩, -, ⟨token3, word3, -⟩, -,
      rfl, rfl⟩
    have size : st''.buf.length = cmdBufferSize := by
      rw [length_mystrtok word3, length_mystrtok word2, whole]
    have buffer : cmdBufferSize = 8192 := rfl
    refine ⟨size, ?_, ?_⟩
    · unfold Block.read at there
      split at there
      · omega
      · cases there
    · unfold textAt at text
      split at text
      · cases text
        have short := (List.takeWhile_prefix (p := (· ≠ (0 : UInt8)))
          (l := st''.buf.drop (wrcert.length + arg2.strlen + arg3.strlen + 3))).length_le
        rw [List.length_drop] at short
        rw [CString.strlen, ofBytes]
        dsimp only
        omega
      · cases text

theorem yaDataAtcmdHandler_name (name : AfterName last b st) :
    yaDataAtcmdHandler env heap last b =
      match wrcertFraming st with
      | none => return none
      | some .refused => return some .err
      | some (.text buf len json) => wrcertLicense env heap buf len json := by
  rcases name with ⟨plain, token, word⟩
  rw [yaDataAtcmdHandler, plain, word]
  rfl

/-- The lines that `RESP_ERR` answers. -/
theorem yaDataAtcmdHandler_err_iff (env : Env) (heap : Heap) (m : ByteMem)
    (named : IsWrcert last b) :
    ((yaDataAtcmdHandler env heap last b).run m).1 = some .err ↔ Refused env heap m last b := by
  rcases there : strstr b.line.1 getrssi with _ | at_
  · rcases named with ⟨token, st, word, -⟩
    have name : AfterName last b st := ⟨there, token, word⟩
    constructor
    · intro answer
      rw [yaDataAtcmdHandler_name name] at answer
      split at answer
      · cases answer
      · next framing => exact .fields name (wrcertFraming_iff.mp framing)
      · next framing =>
        have framed := wrcertFraming_iff.mp framing
        rcases framed.sizes name.length with ⟨size, room, short⟩
        rcases wrcertLicense_run env heap m _ size room short with
          ⟨none, -⟩ | ⟨-, legible, incomplete⟩ | ⟨ok, -⟩
        · rw [none] at answer
          cases answer
        · exact .licence name framed legible incomplete
        · rw [ok] at answer
          cases answer
    · intro refused
      cases refused with
      | rssi found bad =>
        rw [there] at found
        cases found
      | fields name refused =>
        rw [yaDataAtcmdHandler_name name, wrcertFraming_iff.mpr refused]
        rfl
      | licence name framed legible incomplete =>
        rw [yaDataAtcmdHandler_name name, wrcertFraming_iff.mpr framed]
        rcases framed.sizes name.length with ⟨size, room, short⟩
        rcases wrcertLicense_run env heap m _ size room short with
          ⟨-, illegible⟩ | ⟨err, -⟩ | ⟨-, -, completed⟩
        · exact absurd legible illegible
        · exact err
        · exact absurd completed incomplete
  · have found : (strstr b.line.1 getrssi).isSome = true := by rw [there]; rfl
    have answer : ((yaDataAtcmdHandler env heap last b).run m).1 =
        getrssiAnswer env.rssiMode b.line := by
      rw [yaDataAtcmdHandler, if_pos found]
      rfl
    rw [answer]
    unfold getrssiAnswer
    dsimp only
    constructor
    · intro err
      split at err
      · next bad => exact .rssi found bad
      · cases err
    · intro refused
      cases refused with
      | rssi _ bad => rw [if_pos bad]
      | fields name _ =>
        cases there.symm.trans name.1
      | licence name _ _ _ =>
        cases there.symm.trans name.1

/-! ## Matching lines -/

variable {len crc len' crc' : List UInt8} {json json' : CString}

/-- A line passes the check with the text its fields are about. -/
theorem Matching.framingPassed_iff (matching : Matching b.line.1 len crc json.1) :
    FramingPassed last b ↔
      strstr b.line.1 getrssi = none ∧ len.length ≤ 8 ∧ crcCheck json.1 ≠ 0 := by
  rcases wrcertFraming_matching last matching with ⟨st, buf, word, -, framing⟩
  constructor
  · rintro ⟨plain, token, st', buf', len', json', word', framing'⟩
    rw [word] at word'
    cases word'
    rw [framing] at framing'
    split at framing'
    · cases framing'
    · next digits =>
      split at framing'
      · cases framing'
      · next sum => exact ⟨plain, Nat.not_lt.mp digits, sum⟩
  · rintro ⟨plain, digits, sum⟩
    rw [if_neg (Nat.not_lt.mpr digits), if_neg sum] at framing
    exact ⟨plain, 0, st, buf, json.strlen, json, word, framing⟩

/-- What a line that passes the check leads to. -/
theorem Matching.run (env : Env) (heap : Heap) (m : ByteMem)
    (matching : Matching b.line.1 len crc json.1) (passed : FramingPassed last b) :
    ((yaDataAtcmdHandler env heap last b).run m).1 = none ∧ ¬ Legible env heap m json ∨
    ((yaDataAtcmdHandler env heap last b).run m).1 = some .err ∧
      Legible env heap m json ∧ ¬ Completed env heap m json ∨
    ((yaDataAtcmdHandler env heap last b).run m).1 = some .ok ∧
      Legible env heap m json ∧ Completed env heap m json := by
  rcases matching.framingPassed_iff.mp passed with ⟨plain, digits, sum⟩
  rcases wrcertFraming_matching last matching with ⟨st, buf, word, size, framing⟩
  rw [if_neg (Nat.not_lt.mpr digits), if_neg sum] at framing
  have name : AfterName last b st := ⟨plain, 0, word⟩
  rcases (wrcertFraming_iff.mp framing).sizes name.length with ⟨-, room, short⟩
  rw [yaDataAtcmdHandler_name name, framing]
  exact wrcertLicense_run env heap m json size room short

theorem Matching.unique (one : Matching b.line.1 len crc json.1)
    (other : Matching b.line.1 len' crc' json'.1) (passed : FramingPassed last b) :
    json = json' := by
  rcases one.framingPassed_iff.mp passed with ⟨-, digits, sum⟩
  rcases other.framingPassed_iff.mp passed with ⟨-, digits', sum'⟩
  rcases wrcertFraming_matching last one with ⟨st, buf, word, -, framing⟩
  rcases wrcertFraming_matching last other with ⟨st', buf', word', -, framing'⟩
  rw [if_neg (Nat.not_lt.mpr digits), if_neg sum] at framing
  rw [if_neg (Nat.not_lt.mpr digits'), if_neg sum'] at framing'
  cases word.symm.trans word'
  have same := framing.symm.trans framing'
  rw [Option.some.injEq, Framing.text.injEq] at same
  exact same.2.2

theorem Matching.isWrcert (matching : Matching b.line.1 len crc json.1) : IsWrcert last b := by
  have bytes : b.bytes = [] ++ (wrcert ++ 0x20 :: (len ++ 0x20 :: (crc ++ 0x20 :: json.1) ++
      0 :: b.behind)) := by
    rw [CmdBuffer.bytes, matching.line]
    simp only [List.append_assoc, List.cons_append, List.nil_append]
  have word := mystrtok_word [] (len ++ 0x20 :: (crc ++ 0x20 :: json.1) ++ 0 :: b.behind) last
    (some 0) wrcert_nonempty wrcert_plain rfl
  rw [← bytes] at word
  refine ⟨_, _, word, ?_⟩
  have text := ofBytes_append ⟨wrcert, fun zero => (wrcert_plain 0 zero).1 rfl⟩
    (len ++ 0x20 :: (crc ++ 0x20 :: json.1) ++ 0 :: b.behind)
  exact congrArg Subtype.val text

/-- One way to read the fields decides for all. -/
theorem Matching.honest (matching : Matching b.line.1 len crc json.1)
    (passed : FramingPassed last b) (legible : Legible env heap m json)
    (storable : Storable env heap json) : Honest env heap m last b := by
  constructor
  · intro len' crc' json' matching'
    rcases matching'.framingPassed_iff.mp passed with ⟨plain, digits, sum⟩
    cases matching.unique matching' passed
    exact ⟨plain, digits, sum, legible, storable⟩
  · intro noMatch
    exact absurd ⟨len, crc, json, matching⟩ noMatch

/-- A licence command is answered truthfully exactly when it is honest: its licence can be stored if
its fields are those of its text, and it is refused if they are not. -/
theorem wrcert_truthful_iff (named : IsWrcert last b) :
    Truthful env heap m last b ↔ Honest env heap m last b := by
  constructor
  · intro truthful
    constructor
    · intro len crc json matching
      have passed := truthful.framed len crc json matching
      rcases matching.framingPassed_iff.mp passed with ⟨plain, digits, sum⟩
      have run := matching.run env heap m passed
      have legible : Legible env heap m json := by
        rcases run with ⟨none, -⟩ | ⟨-, legible, -⟩ | ⟨-, legible, -⟩
        · have err := truthful.err (by rw [none]; decide)
          rw [none] at err
          cases err
        · exact legible
        · exact legible
      have ok : ((yaDataAtcmdHandler env heap last b).run m).1 = some .ok ↔
          Completed env heap m json := by
        rcases run with ⟨-, illegible⟩ | ⟨err, -, incomplete⟩ | ⟨ok, -, completed⟩
        · exact absurd legible illegible
        · rw [err]
          exact ⟨nofun, fun completed => absurd completed incomplete⟩
        · exact ⟨fun _ => completed, fun _ => ok⟩
      refine ⟨plain, digits, sum, legible, (completed_iff_written (m := m)).mp ?_⟩
      rw [← ok, truthful.ok]
      constructor
      · rintro ⟨len', crc', json', matching', written⟩
        cases matching.unique matching' passed
        exact written
      · intro written
        exact ⟨len, crc, json, matching, written⟩
    · intro noMatch
      refine (yaDataAtcmdHandler_err_iff env heap m named).mp (truthful.err fun ok => ?_)
      rcases truthful.ok.mp ok with ⟨len, crc, json, matching, -⟩
      exact noMatch ⟨len, crc, json, matching⟩
  · intro honest
    have passes : ∀ len crc (json : CString), Matching b.line.1 len crc json.1 →
        FramingPassed last b := by
      intro len crc json matching
      rcases honest.matching len crc json matching with ⟨plain, digits, sum, -, -⟩
      exact matching.framingPassed_iff.mpr ⟨plain, digits, sum⟩
    by_cases matches_ : ∃ len crc, ∃ json : CString, Matching b.line.1 len crc json.1
    · rcases matches_ with ⟨len, crc, json, matching⟩
      have passed := passes len crc json matching
      rcases honest.matching len crc json matching with ⟨-, -, -, legible, storable⟩
      have ok : ((yaDataAtcmdHandler env heap last b).run m).1 = some .ok ↔
          Written env heap m json := by
        rw [← completed_iff_written.mpr storable]
        rcases matching.run env heap m passed with
          ⟨-, illegible⟩ | ⟨err, -, incomplete⟩ | ⟨ok, -, completed⟩
        · exact absurd legible illegible
        · rw [err]
          exact ⟨nofun, fun completed => absurd completed incomplete⟩
        · exact ⟨fun _ => completed, fun _ => ok⟩
      refine ⟨?_, ?_, passes⟩
      · rw [ok]
        constructor
        · intro written
          exact ⟨len, crc, json, matching, written⟩
        · rintro ⟨len', crc', json', matching', written⟩
          cases matching.unique matching' passed
          exact written
      · intro notOk
        rcases matching.run env heap m passed with
          ⟨-, illegible⟩ | ⟨err, -⟩ | ⟨ok, -⟩
        · exact absurd legible illegible
        · exact err
        · exact absurd ok notOk
    · have err := (yaDataAtcmdHandler_err_iff env heap m named).mpr
        (honest.other matches_)
      refine ⟨?_, fun _ => err, passes⟩
      rw [err]
      constructor
      · nofun
      · rintro ⟨len, crc, json, matching, -⟩
        exact absurd ⟨len, crc, json, matching⟩ matches_

end Answer

/-! ## A licence of three short parts -/

def keyFront : List UInt8 :=
  ascii ['{', '"', 's', 'e', 'r', 'v', 'e', 'r', '"', ':', '"', 'C', 'N', '"', ',', '"', 'l', 'i',
    'c', 'e', 'n', 's', 'e', '"', ':', '{', '"', 'p', 'r', 'o', 'd', 'u', 'c', 't', '_', 'k',
    'e', 'y', '"', ':', '"']

def keyBack : List UInt8 :=
  ascii ['"', ',', '"', 'd', 'e', 'v', 'i', 'c', 'e', '_', 'i', 'd', '"', ':', '"', 'B', '"', ',',
    '"', 'd', 'e', 'v', 'i', 'c', 'e', '_', 's', 'e', 'c', 'r', 'e', 't', '"', ':', '"', 'C',
    '"', '}', '}']

/-- The JSON text of a licence with a product key. -/
def keyJson (key : List UInt8) : List UInt8 := keyFront ++ (key ++ keyBack)

/-- The licence in it. -/
def keyLicence (key : CString) : CJson :=
  .object [(lit ['p', 'r', 'o', 'd', 'u', 'c', 't', '_', 'k', 'e', 'y'], .string key),
    (lit ['d', 'e', 'v', 'i', 'c', 'e', '_', 'i', 'd'], .string (lit ['B'])),
    (lit ['d', 'e', 'v', 'i', 'c', 'e', '_', 's', 'e', 'c', 'r', 'e', 't'], .string (lit ['C']))]

def keyTree (key : CString) : CJson :=
  .object [(lit ['s', 'e', 'r', 'v', 'e', 'r'], .string (lit ['C', 'N'])),
    (lit ['l', 'i', 'c', 'e', 'n', 's', 'e'], keyLicence key)]

theorem mem_of_getObjectItem {fields : List (CString × CJson)} {name : List UInt8} {item : CJson}
    (found : (CJson.object fields).getObjectItem name = some item) :
    item ∈ fields.map Prod.snd := by
  rcases Option.map_eq_some_iff.mp found with ⟨field, there, rfl⟩
  exact List.mem_map_of_mem (List.mem_of_find?_eq_some there)

/-- A parser that knows this text. -/
def keyEnv (key : CString) : Env where
  parse text := if text.1 = keyJson key.1 then some (keyTree key) else none
  parse_short := by
    intro text root object item name name' value parsed found there string
    split at parsed
    · next same =>
      cases parsed
      have len : text.strlen = (keyJson key.1).length := congrArg List.length same
      have front : keyFront.length = 41 := rfl
      rw [keyJson, List.length_append, List.length_append, front] at len
      have object_ := mem_of_getObjectItem found
      simp only [List.map_cons, List.map_nil, List.mem_cons, List.not_mem_nil, or_false] at object_
      rcases object_ with rfl | rfl
      · cases there
      · have item_ := mem_of_getObjectItem there
        simp only [List.map_cons, List.map_nil, List.mem_cons, List.not_mem_nil, or_false] at item_
        rcases item_ with rfl | rfl | rfl <;> cases string
        · rw [CString.strlen]
          omega
        · have one : (lit ['B']).strlen = 1 := rfl
          omega
        · have one : (lit ['C']).strlen = 1 := rfl
          omega
    · cases parsed
  cert := ⟨fun _ _ => true, false⟩
  rssiMode := false

/-- A line in a buffer of zeros. -/
def CmdBuffer.ofLine (line : CString) (short : line.strlen + 1 ≤ cmdBufferSize) : CmdBuffer where
  line := line
  behind := List.replicate (cmdBufferSize - (line.strlen + 1)) 0
  size := by
    rw [List.length_replicate]
    omega

def keyLine (len crc key : List UInt8) : List UInt8 :=
  wrcert ++ 0x20 :: (len ++ 0x20 :: (crc ++ 0x20 :: keyJson key))

section Key

variable {key : CString} {json : CString} {heap : Heap} {m : ByteMem}

theorem keyTree_asks (there : json.1 = keyJson key.1) :
    Asks (keyEnv key) json cn (keyLicence key) :=
  ⟨keyTree key, .string (lit ['C', 'N']), lit ['C', 'N'], if_pos there, rfl, rfl, rfl, rfl⟩

theorem keyTree_values :
    Values (keyLicence key) aliyunNames [key.1, (lit ['B']).1, (lit ['C']).1] :=
  .cons ⟨_, key, rfl, rfl, rfl⟩ (.cons ⟨_, lit ['B'], rfl, rfl, rfl⟩
    (.cons ⟨_, lit ['C'], rfl, rfl, rfl⟩ .nil))

theorem keyTree_legible (there : json.1 = keyJson key.1) (short : key.strlen < 100) :
    Legible (keyEnv key) heap m json := by
  have asks := keyTree_asks there
  constructor
  · intro root item parsed found
    have tree : (keyEnv key).parse json = some (keyTree key) := if_pos there
    cases parsed.symm.trans tree
    cases found
    rfl
  · intro license asks'
    cases (asks.unique asks').2
    apply keyTree_values.legible
    have buffer : cmdBufferSize = 8192 := rfl
    simp only [encodeFields_cons, List.length_append, prefixed, List.length_cons]
    have b : (lit ['B']).1.length = 1 := rfl
    have c : (lit ['C']).1.length = 1 := rfl
    have none : (encodeFields []).length = 0 := rfl
    rw [CString.strlen] at short
    omega
  · intro license asks'
    exact absurd (asks.unique asks').1 cn_ne_us

/-- The checksum piece by piece. -/
theorem crcCheck_keyJson {key : List UInt8} {sum total : UInt16}
    (middle : key.foldl crcByte 0xEF93 = sum) (back : keyBack.foldl crcByte sum = total) :
    crcCheck (keyJson key) = total := by
  have front : keyFront.foldl crcByte 0xFFFF = 0xEF93 := by decide +kernel
  rw [crcCheck, keyJson, List.foldl_append, List.foldl_append, front, middle, back]

end Key

/-- A licence with a product key of one byte. -/
theorem wrcert_truthful_short :
    Truthful (keyEnv (lit ['A'])) (fun _ => .zeroed) (fun _ => 0xFF) none
      (.ofLine ⟨keyLine (ascii ['5', '1']) (ascii ['a', '1', '1', '0']) [0x41], by decide +kernel⟩
        (by decide +kernel)) := by
  have sum : crcCheck (keyJson [0x41]) = 0xA110 :=
    crcCheck_keyJson (by decide +kernel : _ = (0xC724 : UInt16)) (by decide +kernel)
  have matching : Matching (keyLine (ascii ['5', '1']) (ascii ['a', '1', '1', '0']) [0x41])
      (ascii ['5', '1']) (ascii ['a', '1', '1', '0'])
      (⟨keyJson [0x41], by decide +kernel⟩ : CString).1 :=
    ⟨rfl, by decide +kernel, ⟨by decide, by decide +kernel, by decide +kernel⟩,
      ⟨by decide, by decide +kernel, by rw [sum]; decide +kernel⟩⟩
  apply (wrcert_truthful_iff (Matching.isWrcert matching)).mpr
  apply Matching.honest matching
  · exact (Matching.framingPassed_iff matching).mpr
      ⟨by decide +kernel, by decide +kernel, by rw [sum]; decide +kernel⟩
  · exact keyTree_legible rfl (by decide +kernel)
  · intro license values asks there
    cases ((keyTree_asks rfl).unique asks).2
    cases keyTree_values.unique there
    exact ⟨by decide +kernel, rfl, rfl⟩

/-- A product key of 21 bytes is not stored, and `RESP_OK` answers all the same. -/
theorem wrcert_untruthful_key : ¬ ∀ (env : Env) (heap : Heap) (m : ByteMem) (last : Option Nat)
    (b : CmdBuffer), IsWrcert last b → Truthful env heap m last b := by
  intro all
  have sum : crcCheck (keyJson (List.replicate 21 0x41)) = 0x3C87 :=
    crcCheck_keyJson (by decide +kernel : _ = (0x93E5 : UInt16)) (by decide +kernel)
  have matching : Matching
      (keyLine (ascii ['6', '5']) (ascii ['3', 'c', '8', '7']) (List.replicate 21 0x41))
      (ascii ['6', '5']) (ascii ['3', 'c', '8', '7'])
      (⟨keyJson (List.replicate 21 0x41), by decide +kernel⟩ : CString).1 :=
    ⟨rfl, by decide +kernel, ⟨by decide, by decide +kernel, by decide +kernel⟩,
      ⟨by decide, by decide +kernel, by rw [sum]; decide +kernel⟩⟩
  let b : CmdBuffer := .ofLine ⟨keyLine (ascii ['6', '5']) (ascii ['3', 'c', '8', '7'])
    (List.replicate 21 0x41), by decide +kernel⟩ (by decide +kernel)
  have matching : Matching b.line.1 _ _ _ := matching
  let key : CString := ⟨List.replicate 21 0x41, by decide +kernel⟩
  have truthful := all (keyEnv key) (fun _ => .zeroed) (fun _ => 0xFF) none b matching.isWrcert
  have passed : FramingPassed none b :=
    matching.framingPassed_iff.mpr
      ⟨by decide +kernel, by decide +kernel, by rw [sum]; decide +kernel⟩
  have ok : ((yaDataAtcmdHandler (keyEnv key) (fun _ => .zeroed) none b).run
      fun _ => 0xFF).1 = some .ok := by
    rcases matching.run (keyEnv key) (fun _ => .zeroed) (fun _ => 0xFF) passed with
      ⟨-, illegible⟩ | ⟨-, -, incomplete⟩ | ⟨ok, -⟩
    · exact absurd (keyTree_legible rfl (by decide +kernel)) illegible
    · exact absurd (.inl ⟨_, _, keyTree_asks rfl, keyTree_values⟩) incomplete
    · exact ok
  rcases truthful.ok.mp ok with ⟨len, crc, json, matching', written⟩
  cases matching.unique matching' passed
  rcases written with ⟨license, asks, written⟩ | ⟨license, asks, -⟩
  · cases ((keyTree_asks rfl).unique asks).2
    have storable := (aliyunWritten_iff keyTree_values).mp written
    cases storable.1 with
    | cons within _ => exact absurd within (by decide +kernel)
  · exact absurd ((keyTree_asks rfl).unique asks).1 cn_ne_us

end AtCmd

end Tr6260
