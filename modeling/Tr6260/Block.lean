import Mathlib.Data.List.Basic

/-!
# Blocks of memory

A block is the list of its bytes. An access that leaves the block has no result.
-/

namespace Block

variable {α : Type}

/-- `memcpy` of `bytes` to `offset`. -/
def write (block : List α) (offset : Nat) (bytes : List α) : Option (List α) :=
  if offset + bytes.length ≤ block.length then
    some (block.take offset ++ bytes ++ block.drop (offset + bytes.length))
  else
    none

/-- `memcpy` of `len` elements from `offset`. -/
def read (block : List α) (offset len : Nat) : Option (List α) :=
  if offset + len ≤ block.length then some ((block.drop offset).take len) else none

variable {block block' bytes : List α} {offset len : Nat}

theorem write_of_le (fits : offset + bytes.length ≤ block.length) :
    write block offset bytes =
      some (block.take offset ++ bytes ++ block.drop (offset + bytes.length)) :=
  if_pos fits

theorem read_of_le (fits : offset + len ≤ block.length) :
    read block offset len = some ((block.drop offset).take len) :=
  if_pos fits

theorem length_write (written : write block offset bytes = some block') :
    block'.length = block.length := by
  unfold write at written
  split at written
  next fits =>
    cases written
    simp only [List.length_append, List.length_take, List.length_drop]
    omega
  next => cases written

/-- A write that fits. -/
theorem exists_write (fits : offset + bytes.length ≤ block.length) :
    ∃ block', write block offset bytes = some block' ∧ block'.length = block.length :=
  ⟨_, write_of_le fits, length_write (write_of_le fits)⟩

theorem length_read (found : read block offset len = some bytes) : bytes.length = len := by
  unfold read at found
  split at found
  next fits =>
    cases found
    rw [List.length_take, List.length_drop]
    omega
  next => cases found

/-- An element after a write. -/
theorem getElem?_write (written : write block offset bytes = some block') (i : Nat) :
    block'[i]? = if offset ≤ i ∧ i < offset + bytes.length then bytes[i - offset]? else block[i]? := by
  unfold write at written
  split at written
  next fits =>
    cases written
    have front : (block.take offset).length = offset := by
      rw [List.length_take]
      omega
    split
    next inside =>
      rw [List.append_assoc, List.getElem?_append_right (by omega), front,
        List.getElem?_append_left (by omega)]
    next outside =>
      by_cases before : i < offset
      · rw [List.append_assoc, List.getElem?_append_left (by omega), List.getElem?_take_of_lt before]
      · rw [List.getElem?_append_right (by rw [List.length_append]; omega), List.getElem?_drop,
          List.length_append, front]
        congr 1
        omega
  next => cases written

/-- What is in a block after a write. -/
theorem mem_write (written : write block offset bytes = some block') (x : α) :
    x ∈ block' ↔ x ∈ block.take offset ∨ x ∈ bytes ∨ x ∈ block.drop (offset + bytes.length) := by
  unfold write at written
  split at written
  next =>
    cases written
    rw [List.append_assoc, List.mem_append, List.mem_append]
  next => cases written

/-- What was written. -/
theorem slice_write (written : write block offset bytes = some block') :
    (block'.drop offset).take bytes.length = bytes := by
  apply List.ext_getElem?
  intro i
  rw [List.getElem?_take]
  split
  next small =>
    rw [List.getElem?_drop, getElem?_write written, if_pos (by omega), Nat.add_sub_cancel_left]
  next large => rw [List.getElem?_eq_none (by omega)]

/-- What stands apart from a write. -/
theorem slice_write_apart (written : write block offset bytes = some block') {start : Nat}
    (apart : start + len ≤ offset ∨ offset + bytes.length ≤ start) :
    (block'.drop start).take len = (block.drop start).take len := by
  apply List.ext_getElem?
  intro i
  rw [List.getElem?_take, List.getElem?_take]
  split
  next small =>
    rw [List.getElem?_drop, List.getElem?_drop, getElem?_write written, if_neg (by omega)]
  next => rfl

/-- What was written at the start. -/
theorem take_write_zero (written : write block 0 bytes = some block') :
    block'.take bytes.length = bytes :=
  slice_write written

/-- A block up to the end of what was written. -/
theorem take_write_end (written : write block offset bytes = some block') :
    block'.take (offset + bytes.length) = block.take offset ++ bytes := by
  unfold write at written
  split at written
  next fits =>
    cases written
    refine List.take_left' ?_
    rw [List.length_append, List.length_take]
    omega
  next => cases written

/-- Elements with a terminator, copied to the start of a block that was cleared that far. -/
theorem take_write_terminated {cleared copied : List α} {zero : α}
    (clears : write block 0 (List.replicate (bytes.length + 1) zero) = some cleared)
    (copies : write cleared 0 bytes = some copied) :
    copied.take (bytes.length + 1) = bytes ++ [zero] := by
  have zeros := take_write_zero clears
  rw [List.length_replicate] at zeros
  have behind : (copied.drop bytes.length).take 1 = [zero] := by
    rw [slice_write_apart copies (.inr (Nat.le_of_eq (Nat.zero_add _))),
      ← Nat.add_sub_cancel_left bytes.length 1, ← List.drop_take, zeros, List.drop_replicate,
      Nat.add_sub_cancel_left]
    rfl
  rw [List.take_add, take_write_zero copies, behind]

/-- Equal slices, side by side. -/
theorem flatten_slices (block : List α) (size count : Nat) :
    ((List.range count).map fun i => (block.drop (i * size)).take size).flatten =
      block.take (count * size) := by
  induction count with
  | zero => simp
  | succ count ih =>
    rw [List.range_succ, List.map_append, List.flatten_append, ih, Nat.succ_mul, List.take_add]
    simp

/-- A write behind a front. -/
theorem write_append {front rest : List α} (here : front.length = offset)
    (fits : bytes.length ≤ rest.length) :
    write (front ++ rest) offset bytes = some (front ++ bytes ++ rest.drop bytes.length) := by
  subst here
  rw [write_of_le (by rw [List.length_append]; omega), List.take_left, List.drop_length_add_append]

end Block
