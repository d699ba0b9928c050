import Mathlib.Logic.Relation
import Mathlib.Tactic.Common

/-!
# Elements with a length

Bytes as a row of elements, each an identifier, a length and that many bytes. `Skips` goes from one
element to the one behind it and passes over no element with the identifier looked for, so that a
walk comes to the first of these. How far the row goes is `stop`. A row of whole elements is parsed
to the list of them.
-/

namespace Tlv

open Relation

variable {bytes : List UInt8} {eid : UInt8} {stop p q r : Nat}

/-- The element at `p` is not the one looked for, and `q` is behind it. -/
def Skips (bytes : List UInt8) (eid : UInt8) (stop p q : Nat) : Prop :=
  p + 2 ≤ stop ∧ ∃ id n, bytes[p]? = some id ∧ id ≠ eid ∧ bytes[p + 1]? = some n ∧
    q = p + 2 + n.toNat

/-- A walk over elements that are not the one looked for. -/
abbrev Walk (bytes : List UInt8) (eid : UInt8) (stop : Nat) : Nat → Nat → Prop :=
  ReflTransGen (Skips bytes eid stop)

/-- The first element with the identifier is at `p`, and whole. -/
structure FoundAt (bytes : List UInt8) (eid : UInt8) (start stop p : Nat) : Prop where
  walk : Walk bytes eid stop start p
  id : bytes[p]? = some eid
  whole : ∃ n, bytes[p + 1]? = some n ∧ p + 2 + n.toNat ≤ stop

theorem Skips.unique : Relator.RightUnique (Skips bytes eid stop) := by
  rintro p q r ⟨-, id, n, -, -, length, rfl⟩ ⟨-, id', n', -, -, length', rfl⟩
  rw [length] at length'
  cases length'
  rfl

theorem Skips.lt (skips : Skips bytes eid stop p q) : p + 2 ≤ q := by
  rcases skips with ⟨-, -, n, -, -, -, rfl⟩
  exact Nat.le_add_right _ _

/-- The element looked for is not passed over. -/
theorem Skips.not_here (skips : Skips bytes eid stop p q) : bytes[p]? ≠ some eid := by
  rcases skips with ⟨-, id, -, here, other, -⟩
  rw [here]
  exact fun same => other (Option.some.inj same)

theorem Walk.le (walk : Walk bytes eid stop p q) : p ≤ q := by
  induction walk with
  | refl => exact Nat.le_refl p
  | tail _ skips ih => exact Nat.le_trans ih (Nat.le_trans (Nat.le_add_right _ 2) skips.lt)

/-- A walk ends at an element with the identifier. -/
theorem Walk.eq_of_here (walk : Walk bytes eid stop p q) (here : bytes[p]? = some eid) : q = p := by
  rcases walk.cases_head with same | ⟨r, skips, -⟩
  · exact same.symm
  · exact absurd here skips.not_here

/-- Of two places on a walk one comes first. -/
theorem Walk.total (walk : Walk bytes eid stop p q) (walk' : Walk bytes eid stop p r) :
    Walk bytes eid stop q r ∨ Walk bytes eid stop r q :=
  ReflTransGen.total_of_right_unique Skips.unique walk walk'

/-- A place that is not behind another one goes on to it. -/
theorem Walk.of_le (walk : Walk bytes eid stop p q) (walk' : Walk bytes eid stop p r)
    (before : q ≤ r) : Walk bytes eid stop q r := by
  rcases walk.total walk' with forth | back
  · exact forth
  · rw [Nat.le_antisymm before back.le]

/-- From a place that is passed over, the walk goes on behind its element. -/
theorem Walk.behind (skips : Skips bytes eid stop p q) (walk : Walk bytes eid stop p r)
    (other : p ≠ r) : Walk bytes eid stop q r := by
  rcases walk.cases_head with same | ⟨q', skips', rest⟩
  · exact absurd same other
  · rwa [Skips.unique skips skips']

/-- The walk comes to no place behind the first element with the identifier. -/
theorem FoundAt.walk_to (found : FoundAt bytes eid p stop q) (walk : Walk bytes eid stop p r) :
    Walk bytes eid stop r q := by
  rcases found.walk.total walk with forth | back
  · rw [forth.eq_of_here found.id]
  · exact back

/-- There is only one first element. -/
theorem FoundAt.eq (found : FoundAt bytes eid p stop q) (here : bytes[r]? = some eid)
    (walk : Walk bytes eid stop p r) : q = r :=
  (found.walk_to walk).eq_of_here here

/-! ## Rows of elements -/

/-- An element, with as many bytes as its length says. -/
structure Element where
  id : UInt8
  body : List UInt8
  short : body.length < 256
  deriving DecidableEq

/-- The bytes of an element. -/
def Element.encode (e : Element) : List UInt8 := e.id :: .ofNat e.body.length :: e.body

/-- The bytes of a row. -/
def encode (es : List Element) : List UInt8 := es.flatMap Element.encode

/-- The elements of a row of at most so many bytes, if all of them are whole. -/
def parse : (fuel : Nat) → List UInt8 → Option (List Element)
  | _, [] => some []
  | _, [_] => none
  | 0, _ :: _ :: _ => none
  | fuel + 1, id :: n :: rest =>
    if n.toNat ≤ rest.length then
      have short : (rest.take n.toNat).length < 256 :=
        Nat.lt_of_le_of_lt (List.length_take_le _ _) n.toNat_lt
      (parse fuel (rest.drop n.toNat)).map (⟨id, rest.take n.toNat, short⟩ :: ·)
    else
      none

/-- The elements of all bytes. -/
def elements (bytes : List UInt8) : Option (List Element) := parse bytes.length bytes

section Rows

variable {e : Element} {es es' : List Element}

theorem Element.length_encode (e : Element) : e.encode.length = 2 + e.body.length :=
  Nat.add_comm _ 2

@[simp] theorem encode_nil : encode [] = [] := rfl

@[simp] theorem encode_cons : encode (e :: es) = e.encode ++ encode es := rfl

/-- One element. -/
theorem encode_singleton : encode [e] = e.encode := by
  rw [encode_cons, encode_nil, List.append_nil]

@[simp] theorem encode_append : encode (es ++ es') = encode es ++ encode es' :=
  List.flatMap_append

theorem parse_encode {fuel : Nat} (enough : (encode es).length ≤ fuel) :
    parse fuel (encode es) = some es := by
  induction es generalizing fuel with
  | nil =>
    rw [encode_nil]
    cases fuel with
    | zero => rfl
    | succ fuel => rfl
  | cons e es ih =>
    rw [encode_cons, List.length_append, e.length_encode] at enough
    obtain ⟨fuel, rfl⟩ := Nat.exists_eq_add_of_le' (show 1 ≤ fuel by omega)
    have length : (UInt8.ofNat e.body.length).toNat = e.body.length := by
      rw [UInt8.toNat_ofNat']
      exact Nat.mod_eq_of_lt e.short
    change parse (fuel + 1) (e.id :: .ofNat e.body.length :: (e.body ++ encode es)) = _
    rw [parse, if_pos (by rw [length, List.length_append]; exact Nat.le_add_right _ _)]
    have taken : (e.body ++ encode es).take (UInt8.ofNat e.body.length).toNat = e.body := by
      rw [length, List.take_left]
    have behind : (e.body ++ encode es).drop (UInt8.ofNat e.body.length).toNat = encode es := by
      rw [length, List.drop_left]
    rw [behind, ih (by omega), Option.map_some]
    simp only [taken]

/-- A row of elements is parsed to them. -/
theorem elements_encode (es : List Element) : elements (encode es) = some es :=
  parse_encode (Nat.le_refl _)

end Rows

end Tlv
