import Tr6260.ScRecv.Safety

/-!
# The window of codes

In a row of records the last codes stand in the order they came, behind zeros as long as there are
few. A stage that waits for more codes does nothing but move its window, since its first cell is
zero.
-/

namespace Tr6260

namespace ScRecv

/-! ## Rows -/

theorem cell_set_self {data : List Nat} {i : Nat} (low : i < data.length) (value : Nat) :
    cell (data.set i value) i = value := by
  rw [cell, List.getD_eq_getElem?_getD, List.getElem?_set_self low]
  rfl

theorem cell_set_of_ne {data : List Nat} {i j : Nat} (apart : i ≠ j) (value : Nat) :
    cell (data.set i value) j = cell data j := by
  rw [cell, cell, List.getD_eq_getElem?_getD, List.getD_eq_getElem?_getD,
    List.getElem?_set_ne apart]

/-- What one round of `sc_record_move_ones` leaves, whether or not it has stored. -/
theorem moveOne_cell {data : List Nat} {i : Nat} (low : i < data.length) (j : Nat) :
    cell (if cell data (i + 1) ≠ cell data i then data.set i (cell data (i + 1)) else data) j =
      if j = i then cell data (i + 1) else cell data j := by
  by_cases same : j = i
  · subst same
    rw [if_pos rfl]
    split
    · exact cell_set_self low _
    · rename_i equal
      exact (not_not.mp equal).symm
  · rw [if_neg same]
    split
    · exact cell_set_of_ne (Ne.symm same) _
    · rfl

theorem scRecordMoveOnes_cell (data : List Nat) (base : Nat) {n : Nat}
    (room : base + n < data.length) :
    (scRecordMoveOnes data base n).length = data.length ∧
      ∀ j, cell (scRecordMoveOnes data base n) j =
        if base ≤ j ∧ j < base + n then cell data (j + 1) else cell data j := by
  unfold scRecordMoveOnes
  induction n with
  | zero =>
    refine ⟨rfl, fun j => ?_⟩
    rw [if_neg (by omega)]
    rfl
  | succ n ih =>
    rcases ih (by omega) with ⟨length, cells⟩
    rw [List.range_succ, List.foldl_append, List.foldl_cons, List.foldl_nil]
    generalize (List.range n).foldl _ data = moved at length cells ⊢
    constructor
    · split
      · rw [List.length_set, length]
      · exact length
    · intro j
      rw [moveOne_cell (by omega), cells, cells]
      by_cases here : j = base + n
      · rw [if_pos here, if_neg (by omega), if_pos (by omega), here]
      · rw [if_neg here]
        by_cases inside : base ≤ j ∧ j < base + n
        · rw [if_pos inside, if_pos (by omega)]
        · rw [if_neg inside, if_neg (by omega)]

/-- The first cells of a row. -/
def cells (data : List Nat) (row n : Nat) : List Nat := (List.range n).map fun i => cell data (row + i)

theorem cell_of_cells {data : List Nat} {row n i : Nat} (low : i < n) :
    cell data (row + i) = (cells data row n).getD i 0 := by
  rw [cells, List.getD_eq_getElem?_getD, List.getElem?_map, List.getElem?_range low]
  rfl

/-- A row moves on by one. -/
theorem pushRecord_cells (data : List Nat) (row value : Nat) {n : Nat} (some_ : 0 < n)
    (room : row + n < data.length) :
    (pushRecord data row n value).length = data.length ∧
      cells (pushRecord data row n value) row n = (cells data row n).drop 1 ++ [value] := by
  have room' : row + n < (data.set (row + n) value).length := by
    rw [List.length_set]
    exact room
  rcases scRecordMoveOnes_cell (data.set (row + n) value) row room' with ⟨length, moved⟩
  refine ⟨length.trans List.length_set, ?_⟩
  apply List.ext_getElem
  · simp only [cells, List.length_append, List.length_drop, List.length_map, List.length_range,
      List.length_singleton]
    omega
  · intro i low high
    have inside : i < n := by
      rw [cells, List.length_map, List.length_range] at low
      exact low
    have here : (cells (pushRecord data row n value) row n)[i] =
        cell (pushRecord data row n value) (row + i) := by
      simp only [cells, List.getElem_map, List.getElem_range]
    have at_ : cell (pushRecord data row n value) (row + i) =
        cell (data.set (row + n) value) (row + i + 1) := by
      change cell (scRecordMoveOnes _ row n) (row + i) = _
      rw [moved, if_pos (by omega)]
    rw [here, at_]
    by_cases last : i + 1 = n
    · have new : row + i + 1 = row + n := by omega
      rw [new, cell_set_self room, List.getElem_append_right]
      · simp only [List.getElem_singleton]
      · simp only [cells, List.length_drop, List.length_map, List.length_range]
        omega
    · rw [cell_set_of_ne (by omega), List.getElem_append_left]
      · simp only [cells, List.getElem_drop, List.getElem_map, List.getElem_range]
        congr 1
        omega
      · simp only [cells, List.length_drop, List.length_map, List.length_range]
        omega

/-- A row that has been fed some codes since it was cleared. -/
structure Fed (data : List Nat) (row n : Nat) (codes : List Nat) : Prop where
  room : row + n < data.length
  few : codes.length ≤ n
  cells : cells data row n = .replicate (n - codes.length) 0 ++ codes

theorem Fed.push {data : List Nat} {row n : Nat} {codes : List Nat} (fed : Fed data row n codes)
    (more : codes.length < n) (value : Nat) :
    Fed (pushRecord data row n value) row n (codes ++ [value]) := by
  rcases pushRecord_cells data row value (Nat.lt_of_le_of_lt (Nat.zero_le _) more) fed.room with
    ⟨length, moved⟩
  have one : n - codes.length = n - (codes ++ [value]).length + 1 := by
    rw [List.length_append]
    change _ = n - (codes.length + 1) + 1
    omega
  refine ⟨by rw [length]; exact fed.room, ?_, ?_⟩
  · rw [List.length_append]
    exact more
  · rw [moved, fed.cells, one, List.replicate_succ, List.cons_append, List.drop_one, List.tail_cons,
      List.append_assoc]

/-- The first cell is zero as long as the row is not full. -/
theorem Fed.zero {data : List Nat} {row n : Nat} {codes : List Nat} (fed : Fed data row n codes)
    (more : codes.length < n) : cell data row = 0 := by
  have first : cell data (row + 0) = _ := cell_of_cells (Nat.lt_of_le_of_lt (Nat.zero_le _) more)
  rw [Nat.add_zero] at first
  rw [first, fed.cells, List.getD_append _ _ _ _ (by rw [List.length_replicate]; omega),
    List.getD_eq_getElem?_getD, List.getElem?_getD_replicate_default_eq]

/-- The codes of a row that is full. -/
theorem Fed.full {data : List Nat} {row n : Nat} {codes : List Nat} (fed : Fed data row n codes)
    (all : codes.length = n) {i : Nat} (low : i < n) : cell data (row + i) = codes.getD i 0 := by
  rw [cell_of_cells low, fed.cells, all, Nat.sub_self]
  rfl

theorem fed_zero {type n : Nat} (low : type < maxPtype) (short : n ≤ maxSeqCodeRecord) :
    Fed scDataZero (rowOf n type) n [] := by
  change type < 4 at low
  change n ≤ 6 at short
  have room : rowOf n type + n < 28 := by
    rw [rowOf]
    have row : type * (n + 1) ≤ 3 * (6 + 1) := Nat.mul_le_mul (by omega) (by omega)
    omega
  refine ⟨room, Nat.zero_le _, ?_⟩
  rw [List.append_nil]
  apply List.eq_replicate_iff.mpr
  refine ⟨by rw [ScRecv.cells, List.length_map, List.length_range]; rfl, ?_⟩
  intro value inside
  rcases List.mem_map.mp inside with ⟨i, -, rfl⟩
  rw [cell, List.getD_eq_getElem?_getD]
  exact List.getElem?_getD_replicate_default_eq ..

end ScRecv

end Tr6260
