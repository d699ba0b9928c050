import Mathlib.Algebra.GroupWithZero.Nat
import Mathlib.Data.List.TakeWhile
import Mathlib.Data.UInt
import Mathlib.Tactic.Common

/-!
# C integers and strings

Conversions between the integer types, and the pieces of the C library that the
application's text handling uses. A
`CString` is the text in front of the terminator, so it contains no zero byte;
`CString.ofBytes` reads one out of memory. `strcpy` is the copy into a block of
known size, without a result when the text does not fit. `strtol` follows the
library: leading blanks, a sign, decimal digits, and a result clamped to the
32-bit `long` of the target.
-/

/-! ## Integers -/

/-- An `int` stored into a `uint8_t`. -/
def toU8 (n : Int) : UInt8 := UInt8.ofNat (n % 256).toNat

/-- An `int` stored into a `uint16_t`. -/
def toU16 (n : Int) : UInt16 := UInt16.ofNat (n % 65536).toNat

/-- An `int` stored into a `uint32_t`. -/
def toU32 (n : Int) : Nat := (n % 2 ^ 32).toNat

/-- A `uint32_t` stored into an `int32_t`. -/
def toI32 (n : Nat) : Int := if n < 2 ^ 31 then n else n - 2 ^ 32

theorem toNat_toU8 {n : Nat} (small : n < 256) : (toU8 n).toNat = n := by
  rw [toU8, UInt8.toNat_ofNat', Int.toNat_emod (Int.natCast_nonneg n) (by decide)]
  simp only [Int.toNat_natCast, Int.reduceToNat]
  omega

theorem toU8_toNat (b : UInt8) : toU8 b.toNat = b :=
  UInt8.toNat_inj.mp (toNat_toU8 b.toNat_lt)

/-! ## Text -/

/-- Text without a zero byte. -/
abbrev CString := { s : List UInt8 // 0 ∉ s }

namespace CString

/-- The text that starts where `bytes` starts. -/
def ofBytes (bytes : List UInt8) : CString :=
  ⟨bytes.takeWhile (· ≠ 0), fun mem => by simpa using List.mem_takeWhile_imp mem⟩

/-- `strlen`. -/
def strlen (s : CString) : Nat := s.1.length

/-- The bytes of a literal. -/
def ascii (cs : List Char) : List UInt8 := cs.map fun c => UInt8.ofNat c.toNat

/-- A literal. -/
def lit (cs : List Char) : CString := ofBytes (ascii cs)

/-- `strcpy` into a block: the block afterwards, or nothing when it is too small. -/
def strcpy (block : List UInt8) (src : CString) : Option (List UInt8) :=
  if src.strlen + 1 ≤ block.length then
    some (src.1 ++ 0 :: block.drop (src.strlen + 1))
  else
    none

/-- `strstr`: the position of the first occurrence. -/
def strstr (s pattern : List UInt8) : Option Nat :=
  match s with
  | [] => if pattern.isEmpty then some 0 else none
  | b :: rest => if pattern.isPrefixOf (b :: rest) then some 0 else (strstr rest pattern).map (· + 1)

/-- `tolower`. -/
def toLower (b : UInt8) : UInt8 := if 0x41 ≤ b ∧ b ≤ 0x5A then b + 32 else b

/-- Equality up to the case of letters. -/
def eqIgnoreCase (s t : List UInt8) : Bool := s.map toLower == t.map toLower

/-! ## Numbers -/

def isSpace (b : UInt8) : Bool := b = 0x20 ∨ (9 ≤ b ∧ b ≤ 13)

def isDigit (b : UInt8) : Bool := 0x30 ≤ b ∧ b ≤ 0x39

/-- The number written by a string of digits. -/
def decimal (digits : List UInt8) : Nat := digits.foldl (fun n b => 10 * n + (b.toNat - 0x30)) 0

/-- Clamp to a 32-bit `long`. -/
def clampLong (n : Int) : Int := max (-2 ^ 31) (min (2 ^ 31 - 1) n)

/-- `strtol` in base ten: the value and the rest of the text, if there is a number. -/
def strtol (s : List UInt8) : Option (Int × List UInt8) :=
  let unsigned (s : List UInt8) : Option (Nat × List UInt8) :=
    match s.takeWhile isDigit with
    | [] => none
    | digits => some (decimal digits, s.dropWhile isDigit)
  match s.dropWhile isSpace with
  | 0x2D :: rest => (unsigned rest).map fun (n, rest) => (clampLong (-n), rest)
  | 0x2B :: rest => (unsigned rest).map fun (n, rest) => (clampLong n, rest)
  | rest => (unsigned rest).map fun (n, rest) => (clampLong n, rest)

/-- `atoi`. -/
def atoi (s : CString) : Int := ((strtol s.1).map Prod.fst).getD 0

/-- `sscanf (s, "%d-%d-%d", ..)` when it returns 3. -/
def sscanfDate (s : CString) : Option (Int × Int × Int) := do
  let (p1, rest) ← strtol s.1
  let rest ← dash rest
  let (p2, rest) ← strtol rest
  let rest ← dash rest
  let (p3, _) ← strtol rest
  return (p1, p2, p3)
where
  dash : List UInt8 → Option (List UInt8)
    | 0x2D :: rest => some rest
    | _ => none

theorem isDigit_iff {b : UInt8} : isDigit b = true ↔ 0x30 ≤ b ∧ b ≤ 0x39 := decide_eq_true_iff

/-- A number that is read fits a 32-bit `long`. -/
theorem strtol_bounds {s rest : List UInt8} {n : Int} (read : strtol s = some (n, rest)) :
    -2 ^ 31 ≤ n ∧ n < 2 ^ 31 := by
  have clamped : ∃ m, n = clampLong m := by
    unfold strtol at read
    dsimp only at read
    split at read <;>
      (rcases Option.map_eq_some_iff.mp read with ⟨number, -, same⟩
       cases same
       exact ⟨_, rfl⟩)
  rcases clamped with ⟨m, rfl⟩
  unfold clampLong
  omega

theorem atoi_bounds (s : CString) : -2 ^ 31 ≤ s.atoi ∧ s.atoi < 2 ^ 31 := by
  unfold atoi
  cases read : strtol s.1 with
  | none => decide
  | some number => exact strtol_bounds read

/-- A text that starts with digits is read up to their end. -/
theorem strtol_digits {digits rest : List UInt8} (some_ : digits ≠ [])
    (all : ∀ b ∈ digits, isDigit b = true) (stop : ∀ b ∈ rest.head?, isDigit b = false) :
    strtol (digits ++ rest) = some (clampLong (decimal digits), rest) := by
  have taken : (digits ++ rest).takeWhile isDigit = digits := by
    rw [List.takeWhile_append_of_pos all]
    cases rest with
    | nil => exact List.append_nil digits
    | cons b rest => rw [List.takeWhile_cons_of_neg (by simp [stop b rfl]), List.append_nil]
  have left : (digits ++ rest).dropWhile isDigit = rest := by
    rw [List.dropWhile_append_of_pos all]
    cases rest with
    | nil => rfl
    | cons b rest => rw [List.dropWhile_cons_of_neg (by simp [stop b rfl])]
  cases digits with
  | nil => exact absurd rfl some_
  | cons d ds =>
    have digit := isDigit_iff.mp (all d List.mem_cons_self)
    have notSpace : isSpace d = false := by
      refine decide_eq_false fun space => ?_
      rcases space with blank | ⟨-, high⟩
      · rw [blank] at digit
        exact absurd digit.1 (by decide)
      · exact absurd (UInt8.le_trans digit.1 high) (by decide)
    have start : ((d :: ds) ++ rest).dropWhile isSpace = (d :: ds) ++ rest := by
      rw [List.cons_append, List.dropWhile_cons_of_neg (by simp [notSpace])]
    rw [strtol, start]
    split
    case h_1 minus =>
      cases minus
      exact absurd digit.1 (by decide)
    case h_2 plus =>
      cases plus
      exact absurd digit.1 (by decide)
    case h_3 =>
      dsimp only
      rw [taken, left]
      rfl

/-- `atoi` of a text in memory that starts with digits. -/
theorem atoi_decimal {digits rest : List UInt8} (some_ : digits ≠ [])
    (all : ∀ b ∈ digits, isDigit b = true) (stop : ∀ b ∈ rest.head?, isDigit b = false) :
    (ofBytes (digits ++ rest)).atoi = clampLong (decimal digits) := by
  have nonzero : ∀ b ∈ digits, decide (b ≠ 0) = true := by
    intro b inside
    refine decide_eq_true fun zero => ?_
    exact absurd (isDigit_iff.mp (all b inside)).1 (by rw [zero]; decide)
  have stop' : ∀ b ∈ (rest.takeWhile (· ≠ 0)).head?, isDigit b = false := by
    cases rest with
    | nil => exact stop
    | cons b rest =>
      rw [List.takeWhile_cons]
      split
      · exact stop
      · exact fun _ none_ => nomatch none_
  have text : (ofBytes (digits ++ rest)).1 = digits ++ rest.takeWhile (· ≠ 0) :=
    List.takeWhile_append_of_pos nonzero
  rw [atoi, text, strtol_digits some_ all stop']
  rfl

/-! ## Copies -/

/-- Memory with a zero in it is a text and what follows its end. -/
theorem ofBytes_shape {bytes : List UInt8} (ends : 0 ∈ bytes) :
    ∃ rest, bytes = (ofBytes bytes).1 ++ 0 :: rest := by
  have split := List.takeWhile_append_dropWhile (p := (· ≠ 0)) (l := bytes)
  change ∃ rest, bytes = bytes.takeWhile (· ≠ 0) ++ 0 :: rest
  cases after : bytes.dropWhile (· ≠ 0) with
  | nil =>
    rw [after, List.append_nil] at split
    have inside : 0 ∈ bytes.takeWhile (· ≠ 0) := split.symm ▸ ends
    simpa using List.mem_takeWhile_imp inside
  | cons c rest =>
    have zero : c = 0 := by
      have stop := List.head?_dropWhile_not (· ≠ 0) bytes
      rw [after] at stop
      simpa using stop
    rw [after, zero] at split
    exact ⟨rest, split.symm⟩

/-- The text in front of its end. -/
theorem ofBytes_append (text : CString) (rest : List UInt8) :
    ofBytes (text.1 ++ 0 :: rest) = text := by
  apply Subtype.ext
  change (text.1 ++ 0 :: rest).takeWhile (· ≠ 0) = text.1
  rw [List.takeWhile_append_of_pos]
  · rw [List.takeWhile_cons_of_neg (by decide), List.append_nil]
  · intro c member
    apply decide_eq_true
    rintro rfl
    exact text.2 member

theorem length_strcpy {block copied : List UInt8} {src : CString}
    (done : strcpy block src = some copied) : copied.length = block.length := by
  unfold strcpy at done
  split at done
  next fits =>
    cases done
    unfold strlen at fits ⊢
    simp only [List.length_append, List.length_cons, List.length_drop]
    omega
  next => cases done

theorem zero_mem_strcpy {block copied : List UInt8} {src : CString}
    (done : strcpy block src = some copied) : 0 ∈ copied := by
  unfold strcpy at done
  split at done
  · cases done
    simp
  · cases done

/-! ## Searches -/

theorem strstr_isSome {s pattern : List UInt8} :
    (strstr s pattern).isSome ↔ pattern <:+: s := by
  induction s with
  | nil =>
    rw [strstr, List.infix_nil]
    cases pattern <;> simp
  | cons b rest ih =>
    rw [strstr, List.infix_cons_iff, ← ih, ← List.isPrefixOf_iff_prefix]
    split
    case isTrue found => simp [found]
    case isFalse other => simp [other]

theorem strstr_isPrefix {s pattern : List UInt8} (starts : pattern <+: s) :
    strstr s pattern = some 0 := by
  cases s with
  | nil => rw [List.prefix_nil.mp starts, strstr, if_pos List.isEmpty_nil]
  | cons b rest => rw [strstr, if_pos (List.isPrefixOf_iff_prefix.mpr starts)]

/-- The first place of a byte. -/
theorem strstr_byte {front : List UInt8} {c : UInt8} (before : c ∉ front) (behind : List UInt8) :
    strstr (front ++ c :: behind) [c] = some front.length := by
  induction front with
  | nil => exact strstr_isPrefix ⟨behind, rfl⟩
  | cons b front ih =>
    have other : ¬ [c].isPrefixOf (b :: (front ++ c :: behind)) = true := by
      rw [List.isPrefixOf_iff_prefix, List.cons_prefix_cons]
      exact fun both => before (both.1 ▸ List.mem_cons_self)
    rw [List.cons_append, strstr, if_neg other, ih (List.not_mem_of_not_mem_cons before)]
    rfl

theorem strstr_byte_none {s : List UInt8} {c : UInt8} (without : c ∉ s) : strstr s [c] = none := by
  rw [← Option.not_isSome_iff_eq_none, strstr_isSome]
  exact fun found => without (found.subset (List.mem_singleton_self c))

end CString
