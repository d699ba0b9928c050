import Tr6260.Block

/-!
# Blocks that are allocated and released

A heap is the list of the blocks that were allocated, the released ones as `none`. A pointer is the
place of its block. An access of a released block, one that leaves its block, and a second release
have no result.
-/

/-- The blocks allocated so far. -/
abbrev BlockHeap (α : Type) := List (Option (List α))

namespace BlockHeap

variable {α : Type}

/-- A block that is in use. -/
def block? (heap : BlockHeap α) (id : Nat) : Option (List α) := heap[id]?.join

/-- Allocate a block. Its pointer is the length of the heap. -/
def alloc (heap : BlockHeap α) (block : List α) : BlockHeap α := heap ++ [some block]

def write (heap : BlockHeap α) (id offset : Nat) (bytes : List α) : Option (BlockHeap α) :=
  match heap.block? id with
  | none => none
  | some block => (Block.write block offset bytes).map fun block => heap.set id (some block)

def read (heap : BlockHeap α) (id offset len : Nat) : Option (List α) :=
  match heap.block? id with
  | none => none
  | some block => Block.read block offset len

def free (heap : BlockHeap α) (id : Nat) : Option (BlockHeap α) :=
  match heap.block? id with
  | none => none
  | some _ => some (heap.set id none)

variable {heap heap' : BlockHeap α} {id other offset : Nat} {block bytes : List α}

theorem lt_of_block? (live : heap.block? id = some block) : id < heap.length := by
  by_contra large
  rw [block?, List.getElem?_eq_none (Nat.not_lt.mp large)] at live
  cases live

theorem block?_alloc_self (heap : BlockHeap α) (block : List α) :
    (heap.alloc block).block? heap.length = some block := by
  rw [block?, alloc, List.getElem?_concat_length]
  rfl

/-- Older blocks stay. -/
theorem block?_alloc (live : heap.block? id = some block) (fresh : List α) :
    (heap.alloc fresh).block? id = some block := by
  have old := lt_of_block? live
  rw [block?, alloc, List.getElem?_append_left old]
  exact live

/-- A write into a block that is in use. -/
theorem exists_write (live : heap.block? id = some block)
    (fits : offset + bytes.length ≤ block.length) : ∃ heap' block',
      heap.write id offset bytes = some heap' ∧ Block.write block offset bytes = some block' ∧
      heap'.block? id = some block' ∧ ∀ other ≠ id, heap'.block? other = heap.block? other := by
  rcases Block.exists_write fits with ⟨block', written, -⟩
  have old := lt_of_block? live
  refine ⟨heap.set id (some block'), block', ?_, written, ?_, fun other apart => ?_⟩
  · unfold write
    rw [live]
    dsimp only
    rw [written]
    rfl
  · rw [block?, List.getElem?_set_self old]
    rfl
  · rw [block?, block?, List.getElem?_set_ne (Ne.symm apart)]

/-- The release of a block that is in use. -/
theorem exists_free (live : heap.block? id = some block) : ∃ heap',
    heap.free id = some heap' ∧ ∀ other ≠ id, heap'.block? other = heap.block? other := by
  refine ⟨heap.set id none, ?_, fun other apart => ?_⟩
  · unfold free
    rw [live]
  · rw [block?, block?, List.getElem?_set_ne (Ne.symm apart)]

theorem read_of_le (live : heap.block? id = some block) {len : Nat}
    (fits : offset + len ≤ block.length) :
    heap.read id offset len = some ((block.drop offset).take len) := by
  unfold read
  rw [live]
  exact Block.read_of_le fits

end BlockHeap
