import Mathlib.Data.List.Basic
import Tr6260.CString

/-!
# Printed JSON

`cJSON_PrintUnformatted` of an object whose members are strings. A printed string is at most six
times as long as the string, and two bytes for the quotes.
-/

namespace CJson

/-- A hexadecimal digit, as `%x` prints it. -/
def hexDigitLower (n : UInt8) : UInt8 := if n < 10 then 0x30 + n else 0x57 + n

/-- One byte in `print_string_ptr`. -/
def escapeByte (b : UInt8) : List UInt8 :=
  if b > 31 ∧ b ≠ 0x22 ∧ b ≠ 0x5C then [b]
  else if b = 0x5C then [0x5C, 0x5C]
  else if b = 0x22 then [0x5C, 0x22]
  else if b = 8 then [0x5C, 0x62]
  else if b = 12 then [0x5C, 0x66]
  else if b = 10 then [0x5C, 0x6E]
  else if b = 13 then [0x5C, 0x72]
  else if b = 9 then [0x5C, 0x74]
  else [0x5C, 0x75, 0x30, 0x30, hexDigitLower (b >>> 4), hexDigitLower (b &&& 0x0F)]

/-- `print_string_ptr`. A string without special bytes is copied, which is the same. -/
def printStringPtr (s : CString) : List UInt8 := 0x22 :: s.1.flatMap escapeByte ++ [0x22]

/-- A member of an object. -/
def printMember (member : CString × CString) : List UInt8 :=
  printStringPtr member.1 ++ 0x3A :: printStringPtr member.2

/-- `print_object` without format. -/
def printObject (members : List (CString × CString)) : List UInt8 :=
  0x7B :: [0x2C].intercalate (members.map printMember) ++ [0x7D]

theorem length_escapeByte_le (b : UInt8) : (escapeByte b).length ≤ 6 := by
  unfold escapeByte
  repeat' split
  all_goals simp only [List.length_cons, List.length_nil]
  all_goals decide

theorem length_flatMap_escape_le (s : List UInt8) :
    (s.flatMap escapeByte).length ≤ 6 * s.length := by
  induction s with
  | nil => exact Nat.le_refl 0
  | cons b s ih =>
    have byte := length_escapeByte_le b
    rw [List.flatMap_cons, List.length_append, List.length_cons]
    omega

theorem length_printStringPtr_le (s : CString) : (printStringPtr s).length ≤ 6 * s.strlen + 2 := by
  have body := length_flatMap_escape_le s.1
  have strlen : s.strlen = s.1.length := rfl
  rw [printStringPtr, List.length_append, List.length_cons, List.length_singleton, strlen]
  omega

/-- The most bytes a member with this name takes, with a comma. -/
def memberBound (member : CString × CString) : Nat :=
  (printStringPtr member.1).length + 6 * member.2.strlen + 4

theorem length_printMember_lt (member : CString × CString) :
    (printMember member).length < memberBound member := by
  have value := length_printStringPtr_le member.2
  rw [printMember, memberBound, List.length_append, List.length_cons]
  omega

theorem length_intercalate_le (members : List (CString × CString)) :
    ([0x2C].intercalate (members.map printMember)).length ≤ (members.map memberBound).sum := by
  induction members with
  | nil => exact Nat.le_refl 0
  | cons member members ih =>
    have first := length_printMember_lt member
    cases members with
    | nil =>
      simp only [List.map_cons, List.map_nil, List.intercalate_singleton, List.sum_cons,
        List.sum_nil]
      omega
    | cons next members =>
      have rest : [0x2C].intercalate ((member :: next :: members).map printMember) =
          printMember member ++ [0x2C] ++ [0x2C].intercalate ((next :: members).map printMember) :=
        List.intercalate_cons_cons ..
      have sum : ((member :: next :: members).map memberBound).sum =
          memberBound member + ((next :: members).map memberBound).sum := List.sum_cons
      rw [rest, sum, List.length_append, List.length_append, List.length_singleton]
      omega

theorem length_printObject_le (members : List (CString × CString)) :
    (printObject members).length ≤ (members.map memberBound).sum + 2 := by
  have body := length_intercalate_le members
  rw [printObject, List.length_append, List.length_cons, List.length_singleton]
  omega

/-- Members that are left out do not make it longer. -/
theorem memberBound_sublist {members all : List (CString × CString)}
    (sub : members.Sublist all) : (members.map memberBound).sum ≤ (all.map memberBound).sum := by
  induction sub with
  | slnil => exact Nat.le_refl _
  | cons member sub ih =>
    rw [List.map_cons, List.sum_cons]
    exact ih.trans (Nat.le_add_left _ _)
  | cons_cons member sub ih =>
    rw [List.map_cons, List.map_cons, List.sum_cons, List.sum_cons]
    exact Nat.add_le_add_left ih _

end CJson
