import Mathlib.Data.List.Pairwise
import Tr6260.AmtNv.Model

/-!
# Copies of a slot

Between the bytes of the partition and the map from parameters to values lies
one more description: each slot is held twice, and each copy is blank, used or
deleted. `Copy` is the state of one copy and `copyBytes` its exact bytes.
`PairState` lists the five combinations of two copies that occur; no other
combination can be written down. `AmtRep` says that a flash image shows a given
combination for every slot.
-/

namespace Tr6260

open FlashProg ByteMem

/-! ## Facts about the layout -/

namespace AmtNvSlot

theorem mem_all (s : AmtNvSlot) : s ∈ all := by cases s <;> decide

theorem wordAlign_head (s : AmtNvSlot) : wordAlign (amtNvHeadSize + s.len) = s.offset := by
  cases s <;> rfl

theorem head_len_le (s : AmtNvSlot) : amtNvHeadSize + s.len ≤ s.offset := by
  cases s <;> decide

theorem offset_mod (s : AmtNvSlot) : s.offset % 4 = 0 := by cases s <;> rfl

theorem len_lt (s : AmtNvSlot) : s.len < 256 := by cases s <;> decide

theorem all_sorted : all.Pairwise fun s t => s.start + s.offset ≤ t.start := by decide +kernel

/-- Different slots do not overlap. -/
theorem start_disjoint {s t : AmtNvSlot} (ne : s ≠ t) :
    s.start + s.offset ≤ t.start ∨ t.start + t.offset ≤ s.start := by
  have apart : all.Pairwise fun s t =>
      s.start + s.offset ≤ t.start ∨ t.start + t.offset ≤ s.start := all_sorted.imp Or.inl
  have symmetric : Std.Symm fun s t : AmtNvSlot =>
      s.start + s.offset ≤ t.start ∨ t.start + t.offset ≤ s.start := ⟨fun _ _ => Or.symm⟩
  exact apart.forall (mem_all s) (mem_all t) ne

/-- The slots of a copy end at offset 528. -/
theorem start_add_offset_le (s : AmtNvSlot) : s.start + s.offset ≤ 528 := by
  have bound : ∀ t ∈ all, t.start + t.offset ≤ 528 := by decide +kernel
  exact bound s (mem_all s)

end AmtNvSlot

/-! ## Copies -/

/-- Data of the declared length of a slot. -/
abbrev SlotData (s : AmtNvSlot) := { data : List UInt8 // data.length = s.len }

/-- One copy of a slot. -/
inductive Copy (s : AmtNvSlot)
  | blank
  | used (data : SlotData s)
  | dele (data : SlotData s)

/-- A record padded by blank bytes to the next slot. -/
def paddedRecord (s : AmtNvSlot) (state data : List UInt8) : List UInt8 :=
  amtNvRecord state data ++ List.replicate (s.offset - (amtNvHeadSize + s.len)) 0xFF

/-- The bytes of a copy. -/
def copyBytes {s : AmtNvSlot} : Copy s → List UInt8
  | .blank => List.replicate s.offset 0xFF
  | .used data => paddedRecord s stateUsedBytes data
  | .dele data => paddedRecord s stateDeleBytes data

theorem length_amtNvRecord {state : List UInt8} (two : state.length = 2) (data : List UInt8) :
    (amtNvRecord state data).length = amtNvHeadSize + data.length := by
  simp only [amtNvRecord, List.length_append, List.length_cons, List.length_nil, two, amtNvHeadSize]

theorem length_paddedRecord {s : AmtNvSlot} {state : List UInt8} (two : state.length = 2)
    (data : SlotData s) : (paddedRecord s state data).length = s.offset := by
  have := s.head_len_le
  rw [paddedRecord, List.length_append, length_amtNvRecord two, List.length_replicate, data.2]
  omega

@[simp] theorem length_copyBytes {s : AmtNvSlot} (c : Copy s) : (copyBytes c).length = s.offset := by
  cases c with
  | blank => exact List.length_replicate
  | used data => exact length_paddedRecord rfl data
  | dele data => exact length_paddedRecord rfl data

/-- The head a reader sees in a copy. -/
def copyHead {s : AmtNvSlot} : Copy s → AmtNvHead
  | .blank => ⟨0xFFFF, 0xFFFF, 0xFF, 0xFF⟩
  | .used data => ⟨amtNvMagicValue, amtNvStateUsed, s.len, amtNvCrc8 data⟩
  | .dele data => ⟨amtNvMagicValue, amtNvStateDele, s.len, amtNvCrc8 data⟩

/-- The first six bytes of a record with two state bytes. -/
theorem amtNvRecord_take (x y : UInt8) (data : List UInt8) :
    (amtNvRecord [x, y] data).take amtNvHeadSize =
      [0x56, 0x4E, x, y, UInt8.ofNat data.length,
        amtNvCrc8 (data.take (data.length % 2 ^ 16))] := by
  simp [amtNvRecord, amtNvHeadSize]

theorem amtNvRecord_drop (x y : UInt8) (data : List UInt8) :
    (amtNvRecord [x, y] data).drop amtNvHeadSize = data := by
  simp [amtNvRecord, amtNvHeadSize]

theorem slotData_crc {s : AmtNvSlot} (data : SlotData s) :
    data.1.take (data.1.length % 2 ^ 16) = data.1 := by
  have := s.len_lt
  rw [Nat.mod_eq_of_lt (by rw [data.2]; omega), List.take_length]

theorem ofBytes_record {s : AmtNvSlot} (x y : UInt8) (data : SlotData s) :
    AmtNvHead.ofBytes ((amtNvRecord [x, y] data).take amtNvHeadSize) =
      ⟨amtNvMagicValue, x.toNat + 256 * y.toNat, s.len, amtNvCrc8 data⟩ := by
  have short := s.len_lt
  have len : (UInt8.ofNat data.1.length).toNat = s.len := by
    rw [UInt8.toNat_ofNat', data.2, Nat.mod_eq_of_lt short]
  rw [amtNvRecord_take, slotData_crc]
  simp only [AmtNvHead.ofBytes, le16, List.getD_cons_zero, List.getD_cons_succ, len]
  rfl

/-- The six bytes `amt_nv_search` reads from a copy. -/
theorem Copy.load_head {s : AmtNvSlot} {m : ByteMem} {addr : Nat} {c : Copy s}
    (held : m.Holds addr (copyBytes c)) :
    m.load addr amtNvHeadSize = (copyBytes c).take amtNvHeadSize := by
  have room : 0 + amtNvHeadSize ≤ (copyBytes c).length := by
    have := s.head_len_le
    rw [length_copyBytes]
    omega
  have front := held.slice room
  rwa [Nat.add_zero, List.drop_zero] at front

theorem copyBytes_head {s : AmtNvSlot} (c : Copy s) :
    AmtNvHead.ofBytes ((copyBytes c).take amtNvHeadSize) = copyHead c := by
  cases c with
  | blank =>
    have room := s.head_len_le
    rw [copyBytes, List.take_replicate, Nat.min_eq_left (by omega)]
    rfl
  | used data =>
    rw [copyBytes, paddedRecord, List.take_append_of_le_length
      (by rw [length_amtNvRecord rfl]; omega)]
    exact ofBytes_record ..
  | dele data =>
    rw [copyBytes, paddedRecord, List.take_append_of_le_length
      (by rw [length_amtNvRecord rfl]; omega)]
    exact ofBytes_record ..

theorem Copy.head_eq {s : AmtNvSlot} {m : ByteMem} {addr : Nat} {c : Copy s}
    (held : m.Holds addr (copyBytes c)) :
    AmtNvHead.ofBytes (m.load addr amtNvHeadSize) = copyHead c := by
  rw [Copy.load_head held, copyBytes_head]

/-- The data bytes of a used copy. -/
theorem Copy.load_data {s : AmtNvSlot} {m : ByteMem} {addr : Nat} {data : SlotData s}
    (held : m.Holds addr (copyBytes (.used data))) :
    m.load (addr + amtNvHeadSize) s.len = data := by
  have record := (holds_append.mp held).1
  have room : amtNvHeadSize + s.len ≤ (amtNvRecord stateUsedBytes data.1).length := by
    exact Nat.le_of_eq (by rw [length_amtNvRecord rfl, data.2])
  rw [record.slice room, stateUsedBytes, amtNvRecord_drop]
  exact List.take_of_length_le (Nat.le_of_eq data.2)

/-- Programming a record over a blank copy gives a used copy. -/
theorem Copy.program_record {s : AmtNvSlot} {m : ByteMem} {addr : Nat}
    (held : m.Holds addr (copyBytes (Copy.blank : Copy s))) (data : SlotData s) :
    (m.program addr (amtNvRecord stateUsedBytes data)).Holds addr (copyBytes (.used data)) := by
  have room := s.head_len_le
  have recordLen : (amtNvRecord stateUsedBytes data.1).length = amtNvHeadSize + s.len := by
    rw [length_amtNvRecord rfl, data.2]
  have blank : m.Erased addr s.offset := erased_iff_holds.mpr held
  refine holds_append.mpr ⟨program_holds (blank.sub (Nat.le_refl _) (by omega)), ?_⟩
  refine erased_iff_holds.mp (Erased.congr (program_frame m addr _ (Or.inr ?_)) ?_)
  · exact Nat.le_refl _
  · exact blank.sub (by omega) (by omega)

/-- Programming the deleted mark over a used copy gives a deleted one. -/
theorem Copy.program_mark {s : AmtNvSlot} {m : ByteMem} {addr : Nat} {data : SlotData s}
    (held : m.Holds addr (copyBytes (.used data))) :
    (m.program (addr + 2) stateDeleBytes).Holds addr (copyBytes (.dele data)) := by
  have parts := held
  simp only [copyBytes, paddedRecord, amtNvRecord, List.append_assoc, holds_append,
    List.length_cons, List.length_nil, stateUsedBytes, stateDeleBytes] at parts ⊢
  obtain ⟨magic, -, tail⟩ := parts
  refine ⟨magic.congr (program_frame _ _ _ (Or.inl (by simp))), ?_, ?_, ?_, ?_⟩
  · exact program_zero_holds m (addr + 2) 2
  · exact tail.1.congr (program_frame _ _ _ (Or.inr (by simp)))
  · exact tail.2.1.congr (program_frame _ _ _ (Or.inr (by simp)))
  · exact tail.2.2.congr (program_frame _ _ _ (Or.inr (by simp; omega)))

/-! ## Pairs of copies -/

/-- The combinations of the two copies of a slot that occur. -/
inductive PairState (s : AmtNvSlot)
  | empty
  /-- Written once since the last compaction. -/
  | first (data : SlotData s)
  /-- Written twice: the second copy counts. -/
  | second (old data : SlotData s)
  /-- Power was lost before the old copy was marked: the first copy counts. -/
  | both (data lost : SlotData s)
  /-- As `both`, after a search has marked the second copy. -/
  | kept (data lost : SlotData s)

namespace PairState

variable {s : AmtNvSlot}

def copy0 : PairState s → Copy s
  | empty => .blank
  | first data => .used data
  | second old _ => .dele old
  | both data _ => .used data
  | kept data _ => .used data

def copy1 : PairState s → Copy s
  | empty => .blank
  | first _ => .blank
  | second _ data => .used data
  | both _ lost => .used lost
  | kept _ lost => .dele lost

/-- The value a reader gets. -/
def value : PairState s → Option (SlotData s)
  | empty => none
  | first data => some data
  | second _ data => some data
  | both data _ => some data
  | kept data _ => some data

/-- The pair right after a compaction. -/
def ofValue : Option (SlotData s) → PairState s
  | none => empty
  | some data => first data

@[simp] theorem value_ofValue (v : Option (SlotData s)) : (ofValue v).value = v := by
  cases v <;> rfl

end PairState

/-- The state of all slots. -/
abbrev SlotPairs := (s : AmtNvSlot) → PairState s

/-- The values of all slots: what the store is for. -/
abbrev SlotValues := (s : AmtNvSlot) → Option (SlotData s)

/-- The values readers get. -/
def SlotPairs.values (σ : SlotPairs) : SlotValues := fun s => (σ s).value

/-- The flash image shows `σ` in the partition. -/
structure AmtRep (part : AmtPartition) (σ : SlotPairs) (m : ByteMem) : Prop where
  first : ∀ s, m.Holds (part.base + s.start) (copyBytes (σ s).copy0)
  second : ∀ s, m.Holds (part.base + s.start + amtNvBlockSize) (copyBytes (σ s).copy1)
  /-- The first copy is blank behind its last slot. -/
  tail : m.Erased (part.base + 528) (amtNvSize - 528)

/-- The backup sector is blank. -/
def BackupIdle (m : ByteMem) : Prop := m.Erased amtNvBackupBase amtPartionSize

namespace AmtRep

variable {part : AmtPartition} {σ : SlotPairs} {m m' : ByteMem}

/-- Only the partition matters. -/
theorem congr (rep : AmtRep part σ m) (agree : AgreeOn m m' part.base amtPartionSize) :
    AmtRep part σ m' := by
  have bound : ∀ s : AmtNvSlot, s.start + s.offset ≤ 528 := AmtNvSlot.start_add_offset_le
  refine ⟨fun s => ?_, fun s => ?_, ?_⟩
  · refine (rep.first s).congr (agree.sub (by omega) ?_)
    have := bound s
    simp only [length_copyBytes, amtPartionSize]
    omega
  · refine (rep.second s).congr (agree.sub (by omega) ?_)
    have := bound s
    simp only [length_copyBytes, amtPartionSize, amtNvBlockSize]
    omega
  · refine rep.tail.congr (agree.sub (by omega) ?_)
    simp only [amtPartionSize, amtNvSize]
    omega

/-- An operation confined to the two copies of `s` that shows `p` there leaves
every other slot as it was. -/
theorem update (rep : AmtRep part σ m) (s : AmtNvSlot) (p : PairState s)
    (first : m'.Holds (part.base + s.start) (copyBytes p.copy0))
    (second : m'.Holds (part.base + s.start + amtNvBlockSize) (copyBytes p.copy1))
    (frame : ∀ addr len, (addr + len ≤ part.base + s.start ∨
        part.base + s.start + s.offset ≤ addr) →
      (addr + len ≤ part.base + s.start + amtNvBlockSize ∨
        part.base + s.start + amtNvBlockSize + s.offset ≤ addr) → AgreeOn m m' addr len) :
    AmtRep part (Function.update σ s p) m' := by
  have bound : ∀ t : AmtNvSlot, t.start + t.offset ≤ 528 := AmtNvSlot.start_add_offset_le
  have here := bound s
  refine ⟨fun t => ?_, fun t => ?_, ?_⟩
  · by_cases same : t = s
    · subst same
      rwa [Function.update_self]
    · have apart := AmtNvSlot.start_disjoint same
      have there := bound t
      rw [Function.update_of_ne same]
      refine (rep.first t).congr (frame _ _ ?_ ?_) <;>
        simp only [length_copyBytes, amtNvBlockSize] <;> omega
  · by_cases same : t = s
    · subst same
      rwa [Function.update_self]
    · have apart := AmtNvSlot.start_disjoint same
      have there := bound t
      rw [Function.update_of_ne same]
      refine (rep.second t).congr (frame _ _ ?_ ?_) <;>
        simp only [length_copyBytes, amtNvBlockSize] <;> omega
  · refine rep.tail.congr (frame _ _ ?_ ?_) <;> simp only [amtNvSize, amtNvBlockSize] <;> omega

end AmtRep

/-- Values after writing `data` to slot `s`. -/
def SlotValues.write (v : SlotValues) (s : AmtNvSlot) (data : SlotData s) : SlotValues :=
  Function.update v s (some data)

theorem SlotPairs.values_update (σ : SlotPairs) (s : AmtNvSlot) (p : PairState s) :
    SlotPairs.values (Function.update σ s p) = Function.update σ.values s p.value := by
  funext t
  by_cases same : t = s
  · subst same
    simp [SlotPairs.values]
  · simp [SlotPairs.values, Function.update_of_ne same]

/-- A pair with the same value as before leaves all values unchanged. -/
theorem SlotPairs.values_update_same (σ : SlotPairs) {s : AmtNvSlot} {p : PairState s}
    (same : p.value = (σ s).value) : SlotPairs.values (Function.update σ s p) = σ.values := by
  rw [SlotPairs.values_update, same]
  exact Function.update_eq_self s σ.values

end Tr6260
