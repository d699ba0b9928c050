import Tr6260.CString
import Tr6260.Tlv

/-!
# Elements of a management frame

The search of `wifi_80211.c` for an element in the bytes of a frame. A read outside the bytes has no
result, and neither has a search that does not end.
-/

namespace Tr6260

namespace Wifi80211

open Tlv

/-! ## The search -/

/-- The loop of `wifi_80211_find_ie`. -/
def findIeLoop (eid : UInt8) (bytes : List UInt8) : (fuel : Nat) → (ies : Nat) → (len : Int) →
    Option (Nat × Int)
  | 0, _, _ => none
  | fuel + 1, ies, len =>
    if len > 2 then do
      let id ← bytes[ies]?
      if id = eid then
        some (ies, len)
      else
        let n ← bytes[ies + 1]?
        findIeLoop eid bytes fuel (ies + 2 + n.toNat) (len - (n.toNat + 2))
    else
      some (ies, len)

/-- `wifi_80211_find_ie`: the place of the element in the bytes, or `NULL`. -/
def wifi80211FindIe (eid : UInt8) (bytes : List UInt8) (ies : Nat) (len : Int) :
    Option (Option Nat) := do
  let (ies, len) ← findIeLoop eid bytes (len.toNat + 1) ies len
  if len < 2 then
    some none
  else
    let n ← bytes[ies + 1]?
    if len < 2 + n.toNat then some none else some (some ies)

/-! ## What the search finds -/

section Found

variable {eid : UInt8} {bytes : List UInt8} {start ies stop : Nat} {len : Int}

/-- How far the loop is, from `start` on. Where the last two bytes are an element of their own,
they are not behind it. -/
structure LoopAt (eid : UInt8) (bytes : List UInt8) (start stop ies : Nat) (len : Int) : Prop where
  rest : ies + len = stop
  walk : Walk bytes eid stop start ies
  before : ∀ p, Walk bytes eid stop start p → p + 2 = stop → ies ≤ p

theorem LoopAt.skip (at_ : LoopAt eid bytes start stop ies len) {id n : UInt8} (more : 2 < len)
    (here : bytes[ies]? = some id) (other : id ≠ eid) (length : bytes[ies + 1]? = some n) :
    LoopAt eid bytes start stop (ies + 2 + n.toNat) (len - (n.toNat + 2)) := by
  have rest := at_.rest
  have skips : Skips bytes eid stop ies (ies + 2 + n.toNat) :=
    ⟨by omega, id, n, here, other, length, rfl⟩
  refine ⟨by omega, at_.walk.tail skips, fun p walk last => ?_⟩
  have forth := at_.walk.of_le walk (at_.before p walk last)
  exact (Walk.behind skips forth (by omega)).le

theorem read_inside {i : Nat} (inside : i < bytes.length) : ∃ b, bytes[i]? = some b :=
  ⟨bytes.get ⟨i, inside⟩, List.getElem?_eq_getElem inside⟩

/-- The loop ends, and reads nothing outside. -/
theorem findIeLoop_spec (inside : stop ≤ bytes.length) {fuel : Nat} (enough : len.toNat < fuel)
    (at_ : LoopAt eid bytes start stop ies len) :
    ∃ ies' len', findIeLoop eid bytes fuel ies len = some (ies', len') ∧
      LoopAt eid bytes start stop ies' len' ∧ (2 < len' → bytes[ies']? = some eid) := by
  induction fuel generalizing ies len with
  | zero => exact absurd enough (Nat.not_lt_zero _)
  | succ fuel ih =>
    rw [findIeLoop]
    split
    case isFalse short => exact ⟨ies, len, rfl, at_, fun more => absurd more short⟩
    case isTrue more =>
      have rest := at_.rest
      rcases read_inside (by omega : ies < bytes.length) with ⟨id, here⟩
      rcases read_inside (by omega : ies + 1 < bytes.length) with ⟨n, length⟩
      rw [here, Option.bind_eq_bind, Option.bind_some]
      split
      case isTrue found => exact ⟨ies, len, rfl, at_, fun _ => by rw [here, found]⟩
      case isFalse other =>
        rw [length, Option.bind_some]
        exact ih (by omega) (at_.skip more here other length)

/-- Where the search ends: with fewer than two bytes left, at the element looked for, or at two
bytes that are not. -/
theorem wifi80211FindIe_cases (eid : UInt8) (start : Nat) (inside : stop ≤ bytes.length) :
    ∃ ies len, LoopAt eid bytes start stop ies len ∧
      (len < 2 ∧ wifi80211FindIe eid bytes start (stop - start) = some none ∨
        2 ≤ len ∧ ∃ id n, bytes[ies]? = some id ∧ bytes[ies + 1]? = some n ∧ (id = eid ∨ len = 2) ∧
          wifi80211FindIe eid bytes start (stop - start) =
            some (if ies + 2 + n.toNat ≤ stop then some ies else none)) := by
  have begin_ : LoopAt eid bytes start stop start (stop - start) :=
    ⟨by omega, .refl, fun p walk _ => walk.le⟩
  rcases findIeLoop_spec inside (Nat.lt_succ_self _) begin_ with ⟨ies, len, done, at_, here⟩
  have rest := at_.rest
  refine ⟨ies, len, at_, ?_⟩
  unfold wifi80211FindIe
  rw [done, Option.bind_eq_bind, Option.bind_some]
  dsimp only
  by_cases short : len < 2
  · rw [if_pos short]
    exact .inl ⟨short, rfl⟩
  · rcases read_inside (by omega : ies < bytes.length) with ⟨id, first⟩
    rcases read_inside (by omega : ies + 1 < bytes.length) with ⟨n, second⟩
    refine .inr ⟨Int.not_lt.mp short, id, n, first, second, ?_, ?_⟩
    · by_cases more : 2 < len
      · have same := here more
        rw [first] at same
        exact .inl (Option.some.inj same)
      · exact .inr (by omega)
    · rw [if_neg short, second, Option.bind_eq_bind, Option.bind_some]
      by_cases whole : ies + 2 + n.toNat ≤ stop
      · rw [if_pos whole, if_neg (by omega)]
      · rw [if_neg whole, if_pos (by omega)]

/-- The search ends without a read outside, and what it finds is whole. -/
theorem wifi80211FindIe_whole (eid : UInt8) (start : Nat) (inside : stop ≤ bytes.length) :
    ∃ r, wifi80211FindIe eid bytes start (stop - start) = some r ∧
      ∀ p, r = some p → start ≤ p ∧ ∃ n, bytes[p + 1]? = some n ∧ p + 2 + n.toNat ≤ stop := by
  rcases wifi80211FindIe_cases eid start inside with
    ⟨ies, len, at_, ⟨-, none_⟩ | ⟨-, id, n, -, second, -, result⟩⟩
  · exact ⟨none, none_, nofun⟩
  · refine ⟨_, result, fun p there => ?_⟩
    split at there
    case isTrue whole =>
      cases there
      exact ⟨at_.walk.le, n, second, whole⟩
    case isFalse => cases there

/-- The element that is found, or none. -/
structure FindsIe (eid : UInt8) (bytes : List UInt8) (start stop : Nat) (r : Option Nat) :
    Prop where
  found : ∀ p, r = some p ↔ FoundAt bytes eid start stop p
  null : r = none ↔ ∀ p, ¬ FoundAt bytes eid start stop p

theorem FindsIe.of_found {r : Option Nat}
    (found : ∀ p, r = some p ↔ FoundAt bytes eid start stop p) :
    FindsIe eid bytes start stop r where
  found := found
  null := by
    constructor
    · rintro rfl p there
      cases (found p).mpr there
    · intro nowhere
      cases r with
      | none => rfl
      | some p => exact absurd ((found p).mp rfl) (nowhere p)

/-- The walk ends at two last bytes that are an element without a body and with another
identifier. -/
def EndsEmpty (eid : UInt8) (bytes : List UInt8) (start stop : Nat) : Prop :=
  ∃ p id, Walk bytes eid stop start p ∧ p + 2 = stop ∧ bytes[p]? = some id ∧ id ≠ eid ∧
    bytes[p + 1]? = some 0

/-- Where the loop comes to its end at two bytes that are not the element looked for, there is
none. -/
theorem LoopAt.not_found (at_ : LoopAt eid bytes start stop ies len) (two : len ≤ 2)
    (other : 2 ≤ len → bytes[ies]? ≠ some eid) (p : Nat) : ¬ FoundAt bytes eid start stop p := by
  intro found
  have rest := at_.rest
  rcases found.whole with ⟨n, -, whole⟩
  have forth := found.walk_to at_.walk
  have le := forth.le
  have same : ies = p := by omega
  exact other (by omega) (same ▸ found.id)

/-- The search is right unless the bytes end with an empty element of another kind. -/
theorem wifi80211FindIe_right_iff (eid : UInt8) (start : Nat) (inside : stop ≤ bytes.length) :
    (∃ r, wifi80211FindIe eid bytes start (stop - start) = some r ∧
        FindsIe eid bytes start stop r) ↔ ¬ EndsEmpty eid bytes start stop := by
  rcases wifi80211FindIe_cases eid start inside with
    ⟨ies, len, at_, ⟨short, none_⟩ | ⟨two, id, n, first, second, ends, result⟩⟩
  · -- fewer than two bytes are left
    have rest := at_.rest
    have nowhere := at_.not_found (by omega) fun two => absurd short (Int.not_lt.mpr two)
    rw [none_]
    refine iff_of_true ⟨none, rfl, .of_found fun p => iff_of_false nofun (nowhere p)⟩ ?_
    rintro ⟨p, id, walk, last, -⟩
    have := at_.before p walk last
    omega
  · have rest := at_.rest
    rw [result]
    by_cases same : id = eid
    · -- the element itself
      rw [same] at first
      refine iff_of_true ⟨_, rfl, .of_found fun p => ?_⟩ ?_
      · constructor
        · intro there
          split at there
          case isTrue whole =>
            cases there
            exact ⟨at_.walk, first, n, second, whole⟩
          case isFalse => cases there
        · intro found
          rcases found.whole with ⟨n', length, whole⟩
          rw [found.eq first at_.walk] at length whole ⊢
          rw [second] at length
          cases length
          rw [if_pos whole]
      · rintro ⟨p, id', walk, last, here, other, -⟩
        have forth := at_.walk.of_le walk (at_.before p walk last)
        rw [forth.eq_of_here first, first] at here
        exact other (Option.some.inj here).symm
    · -- two bytes of another kind
      have two' : len = 2 := ends.resolve_left same
      have nowhere := at_.not_found (by omega) fun _ => by
        rw [first]
        exact fun some_ => same (Option.some.inj some_)
      constructor
      · rintro ⟨r, taken, finds⟩ ⟨p, id', walk, last, -, -, empty⟩
        have le := at_.before p walk last
        have same' : ies = p := by omega
        rw [← same', second] at empty
        cases empty
        rw [if_pos (by change ies + 2 + 0 ≤ stop; omega)] at taken
        cases taken
        exact nowhere ies ((finds.found ies).mp rfl)
      · intro notEmpty
        have long : ¬ ies + 2 + n.toNat ≤ stop := by
          intro whole
          have zero : n = 0 := UInt8.toNat_inj.mp (by change n.toNat = 0; omega)
          rw [zero] at second
          exact notEmpty ⟨ies, id, at_.walk, by omega, first, same, second⟩
        rw [if_neg long]
        exact ⟨none, rfl, .of_found fun p => iff_of_false nofun (nowhere p)⟩

/-- A name and the channel, looked for the channel. -/
theorem wifi80211FindIe_channel :
    ∃ r, wifi80211FindIe 3 [0, 2, 0x61, 0x62, 3, 1, 6] 0 ((7 : Nat) - (0 : Nat)) = some r ∧
      FindsIe 3 [0, 2, 0x61, 0x62, 3, 1, 6] 0 7 r := by
  have inside : 7 ≤ [0, 2, 0x61, 0x62, 3, 1, (6 : UInt8)].length := by decide
  refine (wifi80211FindIe_right_iff 3 0 inside).mpr ?_
  rintro ⟨p, id, -, last, -, -, empty⟩
  have five : p = 5 := by omega
  rw [five] at empty
  exact absurd empty (by decide)

/-- An empty name, taken for the channel. -/
theorem wifi80211FindIe_empty :
    ¬ ∃ r, wifi80211FindIe 3 [0, 0] 0 ((2 : Nat) - (0 : Nat)) = some r ∧
      FindsIe 3 [0, 0] 0 2 r := by
  rintro ⟨r, result, finds⟩
  have first : wifi80211FindIe 3 [0, 0] 0 ((2 : Nat) - (0 : Nat)) = some (some 0) := by decide
  rw [first] at result
  cases result
  exact absurd ((finds.found 0).mp rfl).id (by decide)

end Found

end Wifi80211

end Tr6260
