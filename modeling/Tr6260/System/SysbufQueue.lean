import Mathlib.Algebra.GroupWithZero.Nat
import Mathlib.Data.Fintype.Card
import Mathlib.Data.List.Nodup
import Mathlib.Data.UInt
import Mathlib.Logic.Function.Basic
import Tr6260.ThreadedList

/-!
# The queue of packets

`util_sysbuf_queue.c`: a queue keeps its first and its last packet and their number, and threads
the packets through `m_next`. The last packet is not forgotten when the queue runs empty. A call
that stops at an `ASSERT`, or writes through a `NULL`, has no result.

Packets are their addresses of 32 bits. What their owners do to `m_next` while they are in no queue
is a step of its own.
-/

namespace Tr6260

/-! ## The calls -/

/-- `struct sysbuf_queue`. -/
structure SysbufQueue where
  count : UInt32
  head : UInt32
  tail : UInt32

/-- The queue, and `SYS_BUF_NEXT` of every packet. -/
structure QueueMem where
  hque : SysbufQueue
  next : UInt32 → UInt32

/-- `SYS_BUF_NEXT(buf) = link`. -/
def QueueMem.setNext (s : QueueMem) (buf link : UInt32) : QueueMem :=
  { s with next := Function.update s.next buf link }

/-- `util_sysbuf_queue_init`. -/
def utilSysbufQueueInit (s : QueueMem) : QueueMem :=
  { s with hque := { count := 0, head := 0, tail := 0 } }

/-- `util_sysbuf_queue_push`. -/
def utilSysbufQueuePush (s : QueueMem) (sysbuf : UInt32) : Option QueueMem :=
  if sysbuf = 0 then
    none
  else if s.hque.head ≠ 0 ∧ s.hque.tail = 0 then
    none
  else
    let s :=
      if s.hque.head ≠ 0 then s.setNext s.hque.tail sysbuf
      else { s with hque := { s.hque with head := sysbuf } }
    let s := { s with hque := { s.hque with tail := sysbuf } }
    let s := s.setNext s.hque.tail 0
    some { s with hque := { s.hque with count := s.hque.count + 1 } }

/-- `util_sysbuf_queue_pop`. -/
def utilSysbufQueuePop (s : QueueMem) : Option (UInt32 × QueueMem) :=
  if s.hque.count = 0 then
    some (0, s)
  else
    let res := s.hque.head
    if res = 0 then
      none
    else
      let s := { s with hque := { s.hque with head := s.next res } }
      let s := s.setNext res 0
      some (res, { s with hque := { s.hque with count := s.hque.count - 1 } })

/-- `util_sysbuf_queue_peek`. -/
def utilSysbufQueuePeek (s : QueueMem) : Option UInt32 :=
  if s.hque.count = 0 then some 0
  else if s.hque.head = 0 then none
  else some s.hque.head

/-- `util_sysbuf_queue_count`. -/
def utilSysbufQueueCount (s : QueueMem) : UInt32 := s.hque.count

/-! ## Operations in a row -/

inductive QueueOp
  | push (sysbuf : UInt32)
  | pop
  | peek
  /-- The owner of a packet writes its `m_next`. -/
  | relink (buf link : UInt32)
  deriving DecidableEq

/-- One operation, and what it returns. -/
def QueueOp.run (s : QueueMem) : QueueOp → Option (Option UInt32 × QueueMem)
  | .push sysbuf => (utilSysbufQueuePush s sysbuf).map fun s => (none, s)
  | .pop => (utilSysbufQueuePop s).map fun (res, s) => (some res, s)
  | .peek => (utilSysbufQueuePeek s).map fun res => (some res, s)
  | .relink buf link => some (none, s.setNext buf link)

/-- What the operations return, and the state behind them. -/
def queueRun (s : QueueMem) : List QueueOp → Option (List (Option UInt32) × QueueMem)
  | [] => some ([], s)
  | op :: ops => do
    let (result, s) ← op.run s
    let (results, s) ← queueRun s ops
    some (result :: results, s)

/-! ## A plain list -/

/-- An operation on a list of packets; an empty list gives `NULL`. -/
def QueueOp.onList (packets : List UInt32) : QueueOp → Option UInt32 × List UInt32
  | .push sysbuf => (none, packets ++ [sysbuf])
  | .pop => (some (packets.headD 0), packets.tail)
  | .peek => (some (packets.headD 0), packets)
  | .relink _ _ => (none, packets)

/-- The operations on a list, in order. -/
def listRun (packets : List UInt32) : List QueueOp → List (Option UInt32) × List UInt32
  | [] => ([], packets)
  | op :: ops =>
    let (result, packets) := op.onList packets
    let (results, packets) := listRun packets ops
    (result :: results, packets)

/-- What is pushed is a packet that is not in the queue, and only links of packets that are not in
the queue are written by others. -/
def QueueOp.Allowed (packets : List UInt32) : QueueOp → Prop
  | .push sysbuf => sysbuf ≠ 0 ∧ sysbuf ∉ packets
  | .relink buf _ => buf ∉ packets
  | _ => True

/-- Every operation is allowed when its turn comes. -/
def RunAllowed (packets : List UInt32) : List QueueOp → Prop
  | [] => True
  | op :: ops => op.Allowed packets ∧ RunAllowed (op.onList packets).2 ops

/-! ## The queue and the list -/

/-- The queue holds the packets. Of an empty queue `tail` says nothing. -/
structure QueueHolds (s : QueueMem) (packets : List UInt32) : Prop where
  nodup : packets.Nodup
  threaded : Threaded s.next 0 s.hque.head packets
  tail : packets ≠ [] → packets.getLast? = some s.hque.tail
  count : s.hque.count.toNat = packets.length

namespace QueueHolds

variable {s : QueueMem} {packets : List UInt32} {sysbuf : UInt32}

theorem init (s : QueueMem) : QueueHolds (utilSysbufQueueInit s) [] where
  nodup := List.nodup_nil
  threaded := rfl
  tail := fun some_ => absurd rfl some_
  count := rfl

theorem count_eq_zero (holds : QueueHolds s packets) : s.hque.count = 0 ↔ packets = [] := by
  rw [← List.length_eq_zero_iff, ← holds.count, ← UInt32.toNat_inj]
  rfl

/-- There are fewer packets than addresses, for `NULL` is none. -/
theorem length_succ_lt (holds : QueueHolds s packets) (packet : sysbuf ≠ 0)
    (fresh : sysbuf ∉ packets) : packets.length + 1 < 2 ^ 32 := by
  have all : (0 :: sysbuf :: packets).Nodup := by
    refine List.nodup_cons.mpr ⟨?_, List.nodup_cons.mpr ⟨fresh, holds.nodup⟩⟩
    intro inside
    rcases List.mem_cons.mp inside with same | later
    · exact packet same.symm
    · exact holds.threaded.ne_nil later rfl
  have numbers : ((0 :: sysbuf :: packets).map UInt32.toNat).Nodup :=
    all.map fun _ _ same => UInt32.toNat_inj.mp same
  have below : (0 :: sysbuf :: packets).map UInt32.toNat ⊆ List.range (2 ^ 32) := by
    intro n inside
    rcases List.mem_map.mp inside with ⟨buf, -, rfl⟩
    exact List.mem_range.mpr buf.toNat_lt
  have few := numbers.length_le_of_subset below
  rw [List.length_map, List.length_range] at few
  exact few

/-- A packet is put behind the others. -/
theorem push (holds : QueueHolds s packets) (packet : sysbuf ≠ 0) (fresh : sysbuf ∉ packets) :
    ∃ s', utilSysbufQueuePush s sysbuf = some s' ∧ QueueHolds s' (packets ++ [sysbuf]) := by
  have few := holds.length_succ_lt packet fresh
  have counted : (s.hque.count + 1).toNat = (packets ++ [sysbuf]).length := by
    rw [UInt32.toNat_add, holds.count, List.length_append]
    exact Nat.mod_eq_of_lt few
  have distinct : (packets ++ [sysbuf]).Nodup :=
    List.nodup_append.mpr ⟨holds.nodup, List.nodup_singleton _, fun x inside y single same =>
      fresh (by rwa [← List.mem_singleton.mp single, ← same])⟩
  unfold utilSysbufQueuePush
  rw [if_neg packet]
  rcases List.eq_nil_or_concat packets with rfl | ⟨front, last, rfl⟩
  · have empty : s.hque.head = 0 := holds.threaded
    rw [if_neg fun both => both.1 empty, if_neg fun some_ => some_ empty]
    refine ⟨_, rfl, distinct, ?_, fun _ => rfl, counted⟩
    exact ⟨rfl, packet, Function.update_self ..⟩
  · have isTail : s.hque.tail = last := by
      have there := holds.tail (by simp)
      rw [List.concat_eq_append, List.getLast?_concat] at there
      exact (Option.some.inj there).symm
    rw [List.concat_eq_append] at holds fresh distinct counted ⊢
    have lastPacket : last ≠ 0 := holds.threaded.ne_nil (by simp)
    have head : s.hque.head ≠ 0 := by
      rw [holds.threaded.eq_headD]
      cases front with
      | nil => exact lastPacket
      | cons first front => exact holds.threaded.ne_nil List.mem_cons_self
    have other : last ≠ sysbuf := fun same => fresh (by simp [same])
    rw [isTail, if_neg fun both => lastPacket both.2, if_pos head]
    refine ⟨_, rfl, distinct, ?_, fun _ => List.getLast?_concat, counted⟩
    refine holds.threaded.snoc (fun buf inside => ?_) ?_ packet (Function.update_self ..)
    · -- the packets in front are neither the last one nor the new one
      have notLast : buf ≠ last := fun same => by
        have apart := (List.nodup_append.mp holds.nodup).2.2 buf inside last (by simp)
        exact apart same
      have notNew : buf ≠ sysbuf := fun same => fresh (by simp [← same, inside])
      exact (Function.update_of_ne notNew ..).trans (Function.update_of_ne notLast ..)
    · exact (Function.update_of_ne other ..).trans (Function.update_self ..)

/-- The first packet is taken. -/
theorem pop (holds : QueueHolds s packets) :
    ∃ s', utilSysbufQueuePop s = some (packets.headD 0, s') ∧ QueueHolds s' packets.tail := by
  unfold utilSysbufQueuePop
  cases packets with
  | nil =>
    rw [if_pos (holds.count_eq_zero.mpr rfl)]
    exact ⟨s, rfl, holds⟩
  | cons first rest =>
    rcases holds.threaded with ⟨isFirst, packet, after⟩
    have some_ : s.hque.count ≠ 0 := fun zero => nomatch holds.count_eq_zero.mp zero
    have distinct := List.nodup_cons.mp holds.nodup
    have counted : (s.hque.count - 1).toNat = rest.length := by
      have one_le : (1 : UInt32) ≤ s.hque.count := by
        rw [UInt32.le_iff_toNat_le, holds.count]
        exact Nat.le_add_left _ _
      rw [UInt32.toNat_sub_of_le _ _ one_le, holds.count]
      rfl
    dsimp only
    rw [isFirst, if_neg some_, if_neg packet]
    refine ⟨_, rfl, distinct.2, ?_, ?_, counted⟩
    · refine after.congr fun buf inside => Function.update_of_ne ?_ ..
      exact fun same => distinct.1 (same ▸ inside)
    · intro (more : rest ≠ [])
      have last := holds.tail (List.cons_ne_nil _ _)
      rwa [List.getLast?_cons_of_ne_nil more] at last

/-- The first packet is shown. -/
theorem peek (holds : QueueHolds s packets) : utilSysbufQueuePeek s = some (packets.headD 0) := by
  unfold utilSysbufQueuePeek
  cases packets with
  | nil => rw [if_pos (holds.count_eq_zero.mpr rfl), List.headD_nil]
  | cons first rest =>
    rcases holds.threaded with ⟨isFirst, packet, -⟩
    have some_ : s.hque.count ≠ 0 := fun zero => nomatch holds.count_eq_zero.mp zero
    rw [isFirst, if_neg some_, if_neg packet]
    rfl

/-- Links of other packets do not matter. -/
theorem relink (holds : QueueHolds s packets) {buf : UInt32} (other : buf ∉ packets)
    (link : UInt32) : QueueHolds (s.setNext buf link) packets where
  nodup := holds.nodup
  threaded := holds.threaded.congr fun x inside =>
    Function.update_of_ne (fun same : x = buf => other (same ▸ inside)) ..
  tail := holds.tail
  count := holds.count

/-- Every operation does to the queue what it does to the list. -/
theorem step (holds : QueueHolds s packets) {op : QueueOp} (allowed : op.Allowed packets) :
    ∃ s', op.run s = some ((op.onList packets).1, s') ∧ QueueHolds s' (op.onList packets).2 := by
  cases op with
  | push sysbuf =>
    rcases holds.push allowed.1 allowed.2 with ⟨s', done, holds'⟩
    exact ⟨s', by rw [QueueOp.run, done]; rfl, holds'⟩
  | pop =>
    rcases holds.pop with ⟨s', done, holds'⟩
    exact ⟨s', by rw [QueueOp.run, done]; rfl, holds'⟩
  | peek => exact ⟨s, by rw [QueueOp.run, holds.peek]; rfl, holds⟩
  | relink buf link => exact ⟨_, rfl, holds.relink allowed link⟩

/-- And so do operations in a row. -/
theorem run {ops : List QueueOp} (holds : QueueHolds s packets)
    (allowed : RunAllowed packets ops) :
    ∃ s', queueRun s ops = some ((listRun packets ops).1, s') ∧
      QueueHolds s' (listRun packets ops).2 := by
  induction ops generalizing s packets with
  | nil => exact ⟨s, rfl, holds⟩
  | cons op ops ih =>
    rcases holds.step allowed.1 with ⟨s₁, first, holds₁⟩
    rcases ih holds₁ allowed.2 with ⟨s₂, rest, holds₂⟩
    refine ⟨s₂, ?_, holds₂⟩
    rw [queueRun, first]
    change (queueRun s₁ ops >>= _) = _
    rw [rest]
    rfl

end QueueHolds

/-- From the empty queue on, allowed operations return what they return on a list, and the count is
the length of the list. -/
theorem sysbufQueue_fifo (s : QueueMem) {ops : List QueueOp} (allowed : RunAllowed [] ops) :
    ∃ s', queueRun (utilSysbufQueueInit s) ops = some ((listRun [] ops).1, s') ∧
      (utilSysbufQueueCount s').toNat = (listRun [] ops).2.length := by
  rcases (QueueHolds.init s).run allowed with ⟨s', done, holds⟩
  exact ⟨s', done, holds.count⟩

/-- A queue that runs empty and is used again, while the packet that was in it is given away. -/
theorem sysbufQueue_fifo_reused :
    ∃ s', queueRun (utilSysbufQueueInit ⟨⟨9, 9, 9⟩, fun _ => 5⟩)
        [.push 16, .pop, .relink 16 32, .pop, .push 48, .push 16, .peek] =
          some ([none, some 16, none, some 0, none, none, some 48], s') ∧
      (utilSysbufQueueCount s').toNat = 2 :=
  sysbufQueue_fifo ⟨⟨9, 9, 9⟩, fun _ => 5⟩
    (by simp [RunAllowed, QueueOp.Allowed, QueueOp.onList])

end Tr6260
