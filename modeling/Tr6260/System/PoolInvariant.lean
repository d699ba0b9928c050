import Tr6260.System.MemoryPool
import Mathlib.Data.List.Nodup

/-!
# The pool invariant

`PoolCore s free held`: the free list is `free`, the buffers in use are `held`, and
together they are the buffers of the pool. Each operation on a header keeps it or
moves one buffer from one side to the other; the loops follow by induction.
-/

namespace Tr6260

open PoolMem

/-! ## Fields -/

section Fields

variable (s : PoolMem) {f f' : HdrField} {buf buf' v : Nat}

theorem HdrField.end_le (f : HdrField) : f.offset + f.width ≤ sizeofSysHdr := by
  cases f <;> decide

theorem HdrField.apart (other : f ≠ f') :
    f'.offset + f'.width ≤ f.offset ∨ f.offset + f.width ≤ f'.offset := by
  cases f <;> cases f' <;> first | exact absurd rfl other | decide

@[simp] theorem putField_handed : (s.putField f buf v).handed = s.handed := rfl

@[simp] theorem putInfo_field (poolId : UInt8) (info : SystemMemoryInfo) :
    (s.putInfo poolId info).field f buf = s.field f buf := rfl

@[simp] theorem putInfo_sysMemInfo (poolId : UInt8) (info : SystemMemoryInfo) :
    (s.putInfo poolId info).sysMemInfo poolId = some info :=
  Function.update_self ..

theorem field_lt : s.field f buf < 256 ^ f.width := ByteMem.loadLe_lt ..

theorem field_putField_same (small : v < 256 ^ f.width) : (s.putField f buf v).field f buf = v :=
  ByteMem.loadLe_storeLe_same _ _ small

theorem field_putField_other (other : f ≠ f') :
    (s.putField f buf v).field f' buf = s.field f' buf := by
  apply ByteMem.loadLe_storeLe_apart
  have sides := HdrField.apart other
  omega

theorem field_putField_apart (apart : buf + sizeofSysHdr ≤ buf' ∨ buf' + sizeofSysHdr ≤ buf) :
    (s.putField f buf v).field f' buf' = s.field f' buf' := by
  apply ByteMem.loadLe_storeLe_apart
  have first := f.end_le
  have second := f'.end_le
  omega

theorem clearHooked_lt {flags : Nat} (byte : flags < 256 ^ HdrField.mFlags.width) :
    clearHooked flags < 256 ^ HdrField.mFlags.width :=
  Nat.lt_of_le_of_lt Nat.and_le_left byte

theorem testBit_clearHooked (flags : Nat) : (clearHooked flags).testBit mHookedBit = false := by
  rw [clearHooked, Nat.testBit_and]
  exact Bool.and_false _

end Fields

/-! ## Buffers -/

/-- A pool whose buffers hold a header each and lie in its array. -/
structure PoolShape where
  map : PoolMap
  poolId : UInt8
  size : UInt16
  num : UInt16
  known : poolId < systemMemoryPoolMax
  holdsHdr : sizeofSysHdr ≤ size.toNat
  some_ : 1 ≤ num.toNat
  counted : num.toNat ≤ 255
  fits : size.toNat * num.toNat ≤ map.room poolId

/-- The buffers of a pool. -/
def poolBuffers (map : PoolMap) (poolId : UInt8) (size num : Nat) : List Nat :=
  (List.range num).map fun i => systemMemoryPoolBaseAddr map poolId + i * size

namespace PoolShape

variable (shape : PoolShape) {b b' : Nat}

def base : Nat := systemMemoryPoolBaseAddr shape.map shape.poolId

def buffers : List Nat := poolBuffers shape.map shape.poolId shape.size.toNat shape.num.toNat

theorem poolId_cases : shape.poolId = systemMemoryPoolRx ∨ shape.poolId = systemMemoryPoolTx := by
  have known := shape.known
  rw [UInt8.lt_iff_toNat_lt] at known
  have two : systemMemoryPoolMax.toNat = 2 := rfl
  rcases Nat.lt_or_ge shape.poolId.toNat 1 with low | high
  · exact .inl (UInt8.toNat_inj.mp (show _ = 0 by omega))
  · exact .inr (UInt8.toNat_inj.mp (show _ = 1 by omega))

theorem mem_buffers : b ∈ shape.buffers ↔
    ∃ i < shape.num.toNat, b = shape.base + i * shape.size.toNat := by
  simp only [buffers, poolBuffers, List.mem_map, List.mem_range, base]
  constructor
  · rintro ⟨i, low, rfl⟩
    exact ⟨i, low, rfl⟩
  · rintro ⟨i, low, rfl⟩
    exact ⟨i, low, rfl⟩

theorem base_pos : 0 < shape.base := by
  have placed := shape.map.placed
  rcases shape.poolId_cases with rx | tx
  · rw [base, rx]
    exact placed
  · rw [base, tx]
    have other : systemMemoryPoolTx ≠ systemMemoryPoolRx := by decide
    simp only [systemMemoryPoolBaseAddr, if_neg other, if_true]
    omega

theorem top_le : shape.base + shape.map.room shape.poolId ≤ 2 ^ 32 := by
  have top := shape.map.addressable
  rw [Nat.add_mul] at top
  rcases shape.poolId_cases with rx | tx
  · rw [base, rx]
    simp only [systemMemoryPoolBaseAddr, PoolMap.room, if_true]
    omega
  · rw [base, tx]
    have other : systemMemoryPoolTx ≠ systemMemoryPoolRx := by decide
    simp only [systemMemoryPoolBaseAddr, PoolMap.room, if_neg other, if_true]
    omega

/-- A buffer's header ends inside the array. -/
theorem header_le (inside : b ∈ shape.buffers) :
    shape.base ≤ b ∧ b + sizeofSysHdr ≤ shape.base + shape.map.room shape.poolId := by
  rcases shape.mem_buffers.mp inside with ⟨i, low, rfl⟩
  have fits := shape.fits
  have holdsHdr := shape.holdsHdr
  have step : (i + 1) * shape.size.toNat ≤ shape.num.toNat * shape.size.toNat :=
    Nat.mul_le_mul_right _ low
  rw [Nat.succ_mul] at step
  rw [Nat.mul_comm] at fits
  omega

theorem ne_zero (inside : b ∈ shape.buffers) : b ≠ 0 := by
  have low := (shape.header_le inside).1
  have pos := shape.base_pos
  omega

theorem lt_word (inside : b ∈ shape.buffers) : b < 256 ^ 4 := by
  have high := (shape.header_le inside).2
  have top := shape.top_le
  have pos : sizeofSysHdr = 20 := rfl
  omega

/-- Whole buffers are apart. -/
theorem whole_apart (inside : b ∈ shape.buffers) (inside' : b' ∈ shape.buffers) (other : b ≠ b') :
    b + shape.size.toNat ≤ b' ∨ b' + shape.size.toNat ≤ b := by
  rcases shape.mem_buffers.mp inside with ⟨i, -, rfl⟩
  rcases shape.mem_buffers.mp inside' with ⟨j, -, rfl⟩
  rcases Nat.lt_trichotomy i j with less | rfl | more
  · have step : (i + 1) * shape.size.toNat ≤ j * shape.size.toNat := Nat.mul_le_mul_right _ less
    rw [Nat.succ_mul] at step
    omega
  · exact absurd rfl other
  · have step : (j + 1) * shape.size.toNat ≤ i * shape.size.toNat := Nat.mul_le_mul_right _ more
    rw [Nat.succ_mul] at step
    omega

theorem apart (inside : b ∈ shape.buffers) (inside' : b' ∈ shape.buffers) (other : b ≠ b') :
    b + sizeofSysHdr ≤ b' ∨ b' + sizeofSysHdr ≤ b := by
  have holdsHdr := shape.holdsHdr
  have := shape.whole_apart inside inside' other
  omega

theorem valid (inside : b ∈ shape.buffers) (f : HdrField) : PoolMem.Valid shape.map f b := by
  have header := shape.header_le inside
  have last := f.end_le
  rw [base] at header
  rcases shape.poolId_cases with rx | tx
  · rw [rx] at header
    exact .inl ⟨by omega, by omega⟩
  · rw [tx] at header
    exact .inr ⟨by omega, by omega⟩

theorem getField_eq (s : PoolMem) (f : HdrField) (inside : b ∈ shape.buffers) :
    getField shape.map s f b = some (s.field f b) := if_pos (shape.valid inside f)

theorem setField_eq (s : PoolMem) (f : HdrField) (v : Nat) (inside : b ∈ shape.buffers) :
    setField shape.map s f b v = some (s.putField f b v) := if_pos (shape.valid inside f)

theorem field_putField (s : PoolMem) {f f' : HdrField} {v : Nat} (inside : b ∈ shape.buffers)
    (inside' : b' ∈ shape.buffers) (other : b ≠ b' ∨ f ≠ f') :
    (s.putField f b v).field f' b' = s.field f' b' := by
  by_cases same : b = b'
  · subst same
    exact field_putField_other s (other.resolve_left (fun differ => differ rfl))
  · exact field_putField_apart s (shape.apart inside inside' same)

theorem nodup_buffers : shape.buffers.Nodup := by
  refine List.Nodup.map ?_ List.nodup_range
  intro i j same
  have holdsHdr := shape.holdsHdr
  have pos : 0 < shape.size.toNat := Nat.lt_of_lt_of_le (by decide) holdsHdr
  exact Nat.eq_of_mul_eq_mul_right pos (Nat.add_left_cancel same)

theorem length_buffers : shape.buffers.length = shape.num.toNat := by
  simp [buffers, poolBuffers]

end PoolShape

/-! ## Free and held buffers -/

/-- `mem_info` of a pool with this free list. -/
def PoolShape.info (shape : PoolShape) (free : List Nat) : SystemMemoryInfo :=
  ⟨shape.poolId, shape.size, shape.num, UInt16.ofNat free.length, free.headD 0⟩

/-- The free list is `free`, and the other buffers of the pool are `held`. -/
structure PoolCore (shape : PoolShape) (s : PoolMem) (free held : List Nat) : Prop where
  info : s.sysMemInfo shape.poolId = some (shape.info free)
  walk : Threaded (s.field .mNext) 0 (free.headD 0) free
  perm : (free ++ held).Perm shape.buffers
  tagged : ∀ b ∈ shape.buffers, s.field .poolId b = shape.poolId.toNat
  quiet : ∀ b ∈ held, s.field .mCb b = 0 ∧ (s.field .mFlags b).testBit mHookedBit = false

namespace PoolCore

variable {shape : PoolShape} {s s' : PoolMem} {free held held' : List Nat} {b v : Nat}

theorem mem_free (core : PoolCore shape s free held) (inside : b ∈ free) : b ∈ shape.buffers :=
  core.perm.subset (List.mem_append_left _ inside)

theorem mem_held (core : PoolCore shape s free held) (inside : b ∈ held) : b ∈ shape.buffers :=
  core.perm.subset (List.mem_append_right _ inside)

theorem nodup (core : PoolCore shape s free held) : (free ++ held).Nodup :=
  core.perm.nodup_iff.mpr shape.nodup_buffers

theorem length_le (core : PoolCore shape s free held) :
    free.length + held.length = shape.num.toNat := by
  rw [← List.length_append, core.perm.length_eq, shape.length_buffers]

theorem perm_held (core : PoolCore shape s free held) (same : held'.Perm held) :
    PoolCore shape s free held' where
  info := core.info
  walk := core.walk
  perm := (same.append_left free).trans core.perm
  tagged := core.tagged
  quiet := fun b inside => core.quiet b (same.subset inside)

/-- A field that neither side of the invariant reads, or `m_next` or `m_link` of a buffer in use,
may be written. -/
theorem putField (core : PoolCore shape s free held) {f : HdrField} (inside : b ∈ held)
    (unread : f = .mLink ∨ f = .mNext ∨ f = .mPayloadLength) :
    PoolCore shape (s.putField f b v) free held := by
  have kept : ∀ (f' : HdrField) (b' : Nat), b' ∈ shape.buffers → (b ≠ b' ∨ f ≠ f') →
      (s.putField f b v).field f' b' = s.field f' b' :=
    fun f' b' inside' other => shape.field_putField s (core.mem_held inside) inside' other
  have apart : ∀ b' ∈ free, b ≠ b' := by
    rintro b' inside' rfl
    exact (List.nodup_append.mp core.nodup).2.2 b inside' b inside rfl
  refine ⟨core.info, core.walk.congr ?_, core.perm, ?_, ?_⟩
  · intro b' inside'
    exact kept _ _ (core.mem_free inside') (.inl (apart b' inside'))
  · intro b' inside'
    rw [kept _ _ inside' (.inr (by rcases unread with rfl | rfl | rfl <;> decide))]
    exact core.tagged b' inside'
  · intro b' inside'
    rw [kept _ _ (core.mem_held inside') (.inr (by rcases unread with rfl | rfl | rfl <;> decide)),
      kept _ _ (core.mem_held inside') (.inr (by rcases unread with rfl | rfl | rfl <;> decide))]
    exact core.quiet b' inside'

/-- A buffer in use goes back to the head of the free list. -/
theorem push (core : PoolCore shape s free (b :: held)) (next : s.field .mNext b = free.headD 0) :
    PoolCore shape (s.putInfo shape.poolId (shape.info (b :: free))) (b :: free) held where
  info := putInfo_sysMemInfo s _ _
  walk := ⟨rfl, shape.ne_zero (core.mem_held List.mem_cons_self), by
    rw [putInfo_field, next]
    exact core.walk⟩
  perm := (List.perm_middle.symm.trans core.perm :)
  tagged := core.tagged
  quiet := fun b' inside => core.quiet b' (List.mem_cons_of_mem _ inside)

/-- The head of the free list is taken: its header is rewritten and the others are not. -/
theorem pop (core : PoolCore shape s (b :: free) held)
    (kept : ∀ f, ∀ b' ∈ shape.buffers, b ≠ b' → s'.field f b' = s.field f b')
    (tag : s'.field .poolId b = s.field .poolId b)
    (quiet : s'.field .mCb b = 0 ∧ (s'.field .mFlags b).testBit mHookedBit = false)
    (info : s'.sysMemInfo shape.poolId = some (shape.info free)) :
    PoolCore shape s' free (b :: held) := by
  have distinct := core.nodup
  rw [List.cons_append, List.nodup_cons, List.mem_append] at distinct
  refine ⟨info, ?_, List.perm_middle.trans core.perm, ?_, ?_⟩
  · have rest := core.walk.2.2
    rw [rest.eq_headD] at rest
    apply rest.congr
    intro b' inside'
    apply kept _ b' (core.mem_free (List.mem_cons_of_mem _ inside'))
    rintro rfl
    exact distinct.1 (.inl inside')
  · intro b' inside'
    by_cases same : b = b'
    · subst same
      rw [tag]
      exact core.tagged b inside'
    · rw [kept _ b' inside' same]
      exact core.tagged b' inside'
  · intro b' inside'
    rcases List.mem_cons.mp inside' with rfl | later
    · exact quiet
    · have other : b ≠ b' := by
        rintro rfl
        exact distinct.1 (.inr later)
      rw [kept _ b' (core.mem_held later) other, kept _ b' (core.mem_held later) other]
      exact core.quiet b' later

end PoolCore

/-! ## Allocation -/

section Alloc

variable {shape : PoolShape} {s : PoolMem} {free held : List Nat} {b : Nat}

theorem systemMemoryPoolAlloc_nil (core : PoolCore shape s [] held) :
    systemMemoryPoolAlloc shape.map shape.poolId s = some (0, s) := by
  unfold systemMemoryPoolAlloc
  rw [core.info]
  rfl

theorem systemMemoryPoolAlloc_cons (core : PoolCore shape s (b :: free) held) :
    ∃ s', systemMemoryPoolAlloc shape.map shape.poolId s = some (b, s') ∧
      PoolCore shape s' free (b :: held) ∧ s'.field .mLink b = 0 ∧
      (∀ f, ∀ b' ∈ shape.buffers, b ≠ b' → s'.field f b' = s.field f b') ∧
      s'.handed = s.handed ++ [b] := by
  have here : b ∈ shape.buffers := core.mem_free List.mem_cons_self
  have cell : b ≠ 0 := shape.ne_zero here
  have head : s.field .mNext b = free.headD 0 := core.walk.2.2.eq_headD
  have one : UInt16.ofNat (b :: free).length - 1 = UInt16.ofNat free.length := by
    rw [List.length_cons, UInt16.ofNat_add]
    exact UInt16.add_sub_cancel ..
  unfold systemMemoryPoolAlloc
  rw [core.info]
  simp only [Option.bind_eq_bind, Option.bind_some, PoolShape.info, List.headD_cons, if_neg cell,
    shape.getField_eq _ _ here, shape.setField_eq _ _ _ here, one, head]
  -- the four writes to the header that is handed out
  let w1 := s.putField .mNext b 0
  let w2 := w1.putField .mLink b 0
  let w3 := w2.putField .mCb b 0
  let w4 := w3.putField .mFlags b (clearHooked (w3.field .mFlags b))
  have kept : ∀ f, ∀ b' ∈ shape.buffers, b ≠ b' → w4.field f b' = s.field f b' := by
    intro f b' inside' other
    simp only [w4, w3, w2, w1, shape.field_putField _ here inside' (.inl other)]
  refine ⟨_, rfl, core.pop kept ?_ ⟨?_, ?_⟩ ?_, ?_, kept, rfl⟩
  · change w4.field .poolId b = _
    simp only [w4, w3, w2, w1, field_putField_other _ (show HdrField.mFlags ≠ .poolId by decide),
      field_putField_other _ (show HdrField.mCb ≠ .poolId by decide),
      field_putField_other _ (show HdrField.mLink ≠ .poolId by decide),
      field_putField_other _ (show HdrField.mNext ≠ .poolId by decide)]
  · change w4.field .mCb b = 0
    rw [field_putField_other _ (by decide), field_putField_same _ (by decide)]
  · change (w4.field .mFlags b).testBit mHookedBit = false
    rw [field_putField_same _ (clearHooked_lt (field_lt ..)), testBit_clearHooked]
  · exact putInfo_sysMemInfo ..
  · change w4.field .mLink b = 0
    rw [field_putField_other _ (by decide), field_putField_other _ (by decide),
      field_putField_same _ (by decide)]

end Alloc

/-! ## Release -/

section Free

variable {shape : PoolShape} {s : PoolMem} {free held rest : List Nat} {buf p fuel : Nat}

/-- The two writes that put a buffer back. -/
theorem PoolCore.release (core : PoolCore shape s free (buf :: held)) :
    PoolCore shape (((s.putField .mNext buf (free.headD 0)).putField .mLink buf 0).putInfo
      shape.poolId (shape.info (buf :: free))) (buf :: free) held := by
  have inside : buf ∈ buf :: held := List.mem_cons_self
  have head : free.headD 0 < 256 ^ 4 := by
    cases free with
    | nil => decide
    | cons b free => exact shape.lt_word (core.mem_free List.mem_cons_self)
  apply ((core.putField inside (.inr (.inl rfl))).putField inside (.inl rfl)).push
  rw [field_putField_other _ (by decide), field_putField_same _ head]

theorem field_release (there : buf ∈ shape.buffers) {b : Nat} (inside : b ∈ shape.buffers)
    (other : buf ≠ b) (f : HdrField) (v : Nat) (info : SystemMemoryInfo) :
    (((s.putField .mNext buf v).putField .mLink buf 0).putInfo shape.poolId info).field f b =
      s.field f b := by
  rw [putInfo_field, shape.field_putField _ there inside (.inl other),
    shape.field_putField _ there inside (.inl other)]

theorem info_cons (free : List Nat) (buf : Nat) :
    { shape.info free with sysBufPool := buf, avail := (shape.info free).avail + 1 } =
      shape.info (buf :: free) := by
  simp only [PoolShape.info, List.length_cons, UInt16.ofNat_add]
  rfl

theorem poolFreeLoop_spec (core : PoolCore shape s free (rest ++ held))
    (walk : Threaded (s.field .mLink) 0 p rest) (enough : rest.length ≤ fuel) :
    ∃ s', poolFreeLoop shape.map shape.poolId fuel p s = some s' ∧
      PoolCore shape s' (rest.reverse ++ free) held ∧
      (∀ b ∈ held, s'.field .mLink b = s.field .mLink b) ∧ s'.handed = s.handed := by
  induction rest generalizing s free fuel p with
  | nil =>
    rw [show p = 0 from walk]
    refine ⟨s, ?_, core, fun b _ => rfl, rfl⟩
    unfold poolFreeLoop
    rw [if_pos rfl]
  | cons x rest ih =>
    rcases walk with ⟨rfl, cell, walk⟩
    cases fuel with
    | zero => cases enough
    | succ fuel =>
      have here : p ∈ shape.buffers := core.mem_held List.mem_cons_self
      have distinct : p ∉ rest ++ held :=
        (List.nodup_cons.mp (List.nodup_append.mp core.nodup).2.1).1
      have away : ∀ b ∈ rest ++ held, b ∈ shape.buffers ∧ p ≠ b := by
        intro b inside
        refine ⟨core.mem_held (List.mem_cons_of_mem _ inside), ?_⟩
        rintro rfl
        exact distinct inside
      rcases ih (s := ((s.putField .mNext p (free.headD 0)).putField .mLink p 0).putInfo
        shape.poolId (shape.info (p :: free))) core.release
        (walk.congr fun b inside => field_release here (away b (by simp [inside])).1
          (away b (by simp [inside])).2 _ _ _) (Nat.le_of_succ_le_succ enough)
        with ⟨s', done, core', kept, log⟩
      refine ⟨s', ?_, ?_, ?_, log⟩
      · rw [poolFreeLoop, if_neg cell]
        simp only [core.info, Option.bind_eq_bind, Option.bind_some, shape.setField_eq _ _ _ here,
          shape.getField_eq _ _ here, info_cons]
        rw [field_putField_other _ (by decide)]
        exact done
      · rw [List.reverse_cons, List.append_assoc]
        exact core'
      · intro b inside
        rw [kept b inside]
        exact field_release here (away b (by simp [inside])).1 (away b (by simp [inside])).2 _ _ _

theorem poolFreeChain_spec (core : PoolCore shape s free (buf :: rest ++ held))
    (walk : Threaded (s.field .mLink) 0 buf (buf :: rest)) :
    ∃ s', poolFreeChain shape.map shape.poolId buf s = some s' ∧
      PoolCore shape s' (buf :: (rest.reverse ++ free)) held ∧
      (∀ b ∈ held, s'.field .mLink b = s.field .mLink b) ∧ s'.handed = s.handed := by
  have here : buf ∈ shape.buffers := core.mem_held List.mem_cons_self
  have distinct : buf ∉ rest ++ held :=
    (List.nodup_cons.mp (List.nodup_append.mp core.nodup).2.1).1
  have tail : Threaded (s.field .mLink) 0 (s.field .mLink buf) rest := walk.2.2
  have other : s.field .mLink buf ≠ buf := by
    intro same
    rw [same] at tail
    rcases tail.cons_of_ne walk.2.1 with ⟨rest', rfl, -⟩
    exact distinct (by simp)
  have count := core.length_le
  simp only [List.cons_append, List.length_cons, List.length_append] at count
  have enough : rest.length ≤ shape.num.toNat := by omega
  have regrouped : PoolCore shape s free (rest ++ buf :: held) := core.perm_held List.perm_middle
  rcases poolFreeLoop_spec regrouped tail enough with ⟨s1, looped, core1, kept, log⟩
  refine ⟨_, ?_, core1.release, ?_, log⟩
  · have low : ¬ systemMemoryPoolMax ≤ shape.poolId := UInt8.not_le.mpr shape.known
    rw [poolFreeChain, if_neg low]
    simp only [Option.bind_eq_bind, Option.bind_some, shape.getField_eq _ _ here, core.info,
      if_neg other]
    rw [show (shape.info free).num = shape.num from rfl, looped]
    simp only [Option.bind_some, core1.info, shape.setField_eq _ _ _ here, info_cons]
    rfl
  · intro b inside
    rw [field_release here (core.mem_held (by simp [inside]))]
    · exact kept b (List.mem_cons_of_mem _ inside)
    · rintro rfl
      exact distinct (by simp [inside])

/-- A chain without hook or callback is put back whole. -/
theorem systemMemoryPoolFree_spec (hooks : PoolHooks)
    (core : PoolCore shape s free (buf :: rest ++ held))
    (walk : Threaded (s.field .mLink) 0 buf (buf :: rest)) :
    ∃ s', systemMemoryPoolFree shape.map hooks buf s = some s' ∧
      PoolCore shape s' (buf :: (rest.reverse ++ free)) held ∧
      (∀ b ∈ held, s'.field .mLink b = s.field .mLink b) ∧ s'.handed = s.handed := by
  have inside : buf ∈ buf :: rest ++ held := List.mem_cons_self
  have here : buf ∈ shape.buffers := core.mem_held inside
  have quiet := core.quiet buf inside
  rcases poolFreeChain_spec core walk with ⟨s', freed, rest⟩
  refine ⟨s', ?_, rest⟩
  rw [systemMemoryPoolFree]
  simp only [Option.bind_eq_bind, Option.bind_some, shape.getField_eq _ _ here, quiet.1, quiet.2,
    core.tagged buf here, UInt8.ofNat_toNat, if_true]
  cases hooks.poolFreeHook <;> exact freed

end Free

/-! ## Chains -/

/-- The buffers in use are chains, each threaded through `m_link`. -/
structure PoolInv (shape : PoolShape) (s : PoolMem) (free : List Nat) (chains : List (List Nat)) :
    Prop where
  core : PoolCore shape s free chains.flatten
  linked : ∀ c ∈ chains, c ≠ [] ∧ Threaded (s.field .mLink) 0 (c.headD 0) c

section Chains

variable {shape : PoolShape} {s : PoolMem} {free : List Nat} {chains : List (List Nat)}
variable {b iter packet fuel : Nat} {c ys : List Nat}

theorem PoolInv.mem_buffers (inv : PoolInv shape s free chains) (member : c ∈ chains)
    (inside : b ∈ c) : b ∈ shape.buffers :=
  inv.core.mem_held (List.mem_flatten.mpr ⟨c, member, inside⟩)

/-- `system_memory_pool_alloc` starts a chain of one buffer, and leaves the other headers. -/
theorem PoolInv.alloc_kept (inv : PoolInv shape s (b :: free) chains) :
    ∃ s', systemMemoryPoolAlloc shape.map shape.poolId s = some (b, s') ∧
      PoolInv shape s' free ([b] :: chains) ∧ s'.handed = s.handed ++ [b] ∧
      ∀ f, ∀ b' ∈ shape.buffers, b ≠ b' → s'.field f b' = s.field f b' := by
  have distinct := inv.core.nodup
  rw [List.cons_append, List.nodup_cons, List.mem_append] at distinct
  have cell : b ≠ 0 := shape.ne_zero (inv.core.mem_free List.mem_cons_self)
  rcases systemMemoryPoolAlloc_cons inv.core with ⟨s', done, core, link, kept, log⟩
  refine ⟨s', done, ⟨core, ?_⟩, log, kept⟩
  intro c member
  rcases List.mem_cons.mp member with rfl | old
  · exact ⟨List.cons_ne_nil _ _, rfl, cell, link⟩
  · refine ⟨(inv.linked c old).1, (inv.linked c old).2.congr ?_⟩
    intro b' inside
    apply kept .mLink b' (inv.mem_buffers old inside)
    rintro rfl
    exact distinct.1 (.inr (List.mem_flatten.mpr ⟨c, old, inside⟩))

theorem PoolInv.alloc (inv : PoolInv shape s (b :: free) chains) :
    ∃ s', systemMemoryPoolAlloc shape.map shape.poolId s = some (b, s') ∧
      PoolInv shape s' free ([b] :: chains) ∧ s'.handed = s.handed ++ [b] := by
  rcases inv.alloc_kept with ⟨s', done, inv', log, -⟩
  exact ⟨s', done, inv', log⟩

/-- `SYS_BUF_LENGTH` is written. -/
theorem PoolInv.setLength (inv : PoolInv shape s free chains) (member : c ∈ chains)
    (inside : b ∈ c) (v : Nat) :
    PoolInv shape (s.putField .mPayloadLength b v) free chains where
  core := inv.core.putField (List.mem_flatten.mpr ⟨c, member, inside⟩) (.inr (.inr rfl))
  linked := fun c' member' => ⟨(inv.linked c' member').1, (inv.linked c' member').2.congr
    fun b' inside' => shape.field_putField s (inv.mem_buffers member inside)
      (inv.mem_buffers member' inside') (.inr (by decide))⟩

/-- A chain of one buffer is hung on the chain before it. -/
theorem PoolInv.join (inv : PoolInv shape s free ([b] :: (ys ++ [iter]) :: chains)) :
    PoolInv shape (s.putField .mLink iter b) free ((ys ++ [iter] ++ [b]) :: chains) := by
  have inside : iter ∈ (ys ++ [iter]) := by simp
  have held : iter ∈ ([b] :: (ys ++ [iter]) :: chains).flatten :=
    List.mem_flatten.mpr ⟨_, by simp, inside⟩
  have here : iter ∈ shape.buffers := inv.core.mem_held held
  have there : b ∈ shape.buffers := inv.mem_buffers List.mem_cons_self (by simp)
  have distinct : (b :: (ys ++ [iter] ++ chains.flatten)).Nodup := by
    simpa using (List.nodup_append.mp inv.core.nodup).2.1
  have regroup : ((ys ++ [iter] ++ [b]) :: chains).flatten.Perm
      ([b] :: (ys ++ [iter]) :: chains).flatten := by
    simp only [List.flatten_cons]
    rw [← List.append_assoc]
    exact (List.perm_append_comm).append_right _
  have kept : ∀ b' ∈ shape.buffers, iter ≠ b' →
      (s.putField .mLink iter b).field .mLink b' = s.field .mLink b' :=
    fun b' inside' other => shape.field_putField s here inside' (.inl other)
  refine ⟨(inv.core.putField held (.inl rfl)).perm_held regroup, ?_⟩
  rw [List.nodup_cons, List.append_assoc, List.nodup_append] at distinct
  intro c member
  rcases List.mem_cons.mp member with rfl | old
  · have walk := (inv.linked (ys ++ [iter]) (by simp)).2
    have single := (inv.linked [b] (by simp)).2
    refine ⟨by simp, ?_⟩
    have head : (ys ++ [iter] ++ [b]).headD 0 = (ys ++ [iter]).headD 0 := by
      cases ys <;> rfl
    rw [head]
    refine walk.snoc ?_ (field_putField_same _ (shape.lt_word there)) single.2.1 ?_
    · intro z early
      apply kept z (inv.mem_buffers (by simp) (show z ∈ ys ++ [iter] by simp [early]))
      rintro rfl
      exact distinct.2.2.2 iter early iter (by simp) rfl
    · rw [kept b there, single.2.2]
      rintro rfl
      exact distinct.1 (by simp)
  · refine ⟨(inv.linked c (by simp [old])).1, (inv.linked c (by simp [old])).2.congr ?_⟩
    intro z inside'
    apply kept z (inv.mem_buffers (show c ∈ _ by simp [old]) inside')
    rintro rfl
    have flat : iter ∈ chains.flatten := List.mem_flatten.mpr ⟨c, old, inside'⟩
    exact (List.nodup_cons.mp distinct.2.2.1).1 flat

/-- `system_memory_pool_free` of a chain in use. -/
theorem PoolInv.release (hooks : PoolHooks) (inv : PoolInv shape s free chains)
    (member : c ∈ chains) :
    ∃ s' free', systemMemoryPoolFree shape.map hooks (c.headD 0) s = some s' ∧
      PoolInv shape s' free' (chains.erase c) ∧ free'.Perm (c ++ free) ∧ s'.handed = s.handed := by
  have regroup : (c ++ (chains.erase c).flatten).Perm chains.flatten :=
    (List.perm_cons_erase member).symm.flatten
  have core := inv.core.perm_held regroup
  have walk := (inv.linked c member).2
  cases c with
  | nil => exact absurd rfl (inv.linked [] member).1
  | cons buf rest =>
    rcases systemMemoryPoolFree_spec hooks core walk with ⟨s', freed, core', kept, log⟩
    refine ⟨s', _, freed, ⟨core', ?_⟩, ?_, log⟩
    · intro c' member'
      have old := List.mem_of_mem_erase member'
      refine ⟨(inv.linked c' old).1, (inv.linked c' old).2.congr ?_⟩
      intro b inside
      exact kept b (List.mem_flatten.mpr ⟨c', member', inside⟩)
    · exact ((List.reverse_perm rest).append_right free).cons buf

/-- The buffers carry `left` bytes, each as many as are left and fit behind the headers. -/
def PoolMem.Filled (s : PoolMem) (bufLeft : UInt16) : (left : UInt16) → List Nat → Prop
  | left, [] => left = 0
  | left, b :: rest => left ≠ 0 ∧
    s.field .mPayloadLength b = (sizeofLmacTxhdr + min bufLeft left).toNat ∧
    s.Filled bufLeft (left - min bufLeft left) rest

/-- What is left of a buffer of the pool behind the two headers. -/
def PoolShape.bufLeft (shape : PoolShape) : UInt16 :=
  shape.size - UInt16.ofNat sizeofSysHdr - sizeofLmacTxhdr

/-- A buffer is taken, hung on the last one, and given a length. -/
theorem PoolInv.grow (inv : PoolInv shape s (b :: free) ((ys ++ [iter]) :: chains)) (len : Nat)
    (small : len < 256 ^ HdrField.mPayloadLength.width) :
    ∃ s₁ s₂, systemMemoryPoolAlloc shape.map shape.poolId s = some (b, s₁) ∧
      setField shape.map s₁ .mLink iter b = some s₂ ∧
      s₂.sysMemInfo shape.poolId = some (shape.info free) ∧
      setField shape.map s₂ .mPayloadLength b len = some (s₂.putField .mPayloadLength b len) ∧
      PoolInv shape (s₂.putField .mPayloadLength b len) free ((ys ++ [iter] ++ [b]) :: chains) ∧
      s₂.handed = s.handed ++ [b] ∧
      (s₂.putField .mPayloadLength b len).field .mPayloadLength b = len ∧
      ∀ b' ∈ ys ++ [iter], (s₂.putField .mPayloadLength b len).field .mPayloadLength b' =
        s.field .mPayloadLength b' := by
  have fresh : ∀ b' ∈ ys ++ [iter], b ≠ b' := by
    rintro b' inside rfl
    exact (List.nodup_append.mp inv.core.nodup).2.2 b List.mem_cons_self b
      (List.mem_flatten.mpr ⟨_, List.mem_cons_self, inside⟩) rfl
  have here : iter ∈ shape.buffers := inv.mem_buffers (show ys ++ [iter] ∈ _ by simp) (by simp)
  have there : b ∈ shape.buffers := inv.core.mem_free List.mem_cons_self
  rcases inv.alloc_kept with ⟨s₁, popped, inv₁, log, kept⟩
  have inv₂ := inv₁.join
  refine ⟨s₁, s₁.putField .mLink iter b, popped, shape.setField_eq _ _ _ here, inv₂.core.info,
    shape.setField_eq _ _ _ there, inv₂.setLength List.mem_cons_self (by simp) len, log,
    field_putField_same _ small, ?_⟩
  intro b' inside
  have member : b' ∈ shape.buffers := inv.mem_buffers List.mem_cons_self inside
  rw [shape.field_putField _ there member (.inl (fresh b' inside)),
    shape.field_putField _ here member (.inr (by decide)), kept _ b' member (fresh b' inside)]

/-- The chain grows until the length is covered, or all of it goes back; what was in the chain
keeps its length. -/
theorem sysBufAllocLoop_spec (hooks : PoolHooks) (hifLen : UInt16)
    (inv : PoolInv shape s free ((ys ++ [iter]) :: chains))
    (start : (ys ++ [iter]).headD 0 = packet) (enough : free.length < fuel) :
    (∃ s' free' more,
      sysBufAllocLoop shape.map hooks shape.poolId packet fuel iter hifLen s = some (packet, s') ∧
      PoolInv shape s' free' ((ys ++ [iter] ++ more) :: chains) ∧ s'.handed = s.handed ++ more ∧
      s'.Filled shape.bufLeft hifLen more ∧
      ∀ b ∈ ys ++ [iter], s'.field .mPayloadLength b = s.field .mPayloadLength b) ∨
    (∃ s' free',
      sysBufAllocLoop shape.map hooks shape.poolId packet fuel iter hifLen s = some (0, s') ∧
      PoolInv shape s' free' chains ∧ free'.Perm ((ys ++ [iter]) ++ free)) := by
  induction fuel generalizing s free ys iter hifLen with
  | zero => cases enough
  | succ fuel ih =>
    by_cases covered : hifLen = 0
    · refine .inl ⟨s, free, [], ?_, ?_, ?_, covered, fun _ _ => rfl⟩
      · rw [sysBufAllocLoop, if_pos covered]
      · simpa using inv
      · simp
    · cases free with
      | nil =>
        right
        rcases inv.release hooks List.mem_cons_self with ⟨s', free', freed, inv', perm, -⟩
        rw [List.erase_cons_head] at inv'
        rw [start] at freed
        refine ⟨s', free', ?_, inv', perm⟩
        rw [sysBufAllocLoop, if_neg covered]
        simp only [systemMemoryPoolAlloc_nil inv.core, Option.bind_eq_bind, Option.bind_some,
          if_true, freed]
      | cons link free =>
        have cell : link ≠ 0 := shape.ne_zero (inv.core.mem_free List.mem_cons_self)
        let takeLen := min shape.bufLeft hifLen
        rcases inv.grow (sizeofLmacTxhdr + takeLen).toNat (UInt16.toNat_lt _) with
          ⟨s₁, s₂, popped, hung, info, set, inv₃, log₃, length, lengths⟩
        have unfolded :
            sysBufAllocLoop shape.map hooks shape.poolId packet (fuel + 1) iter hifLen s =
              sysBufAllocLoop shape.map hooks shape.poolId packet fuel link (hifLen - takeLen)
                (s₂.putField .mPayloadLength link (sizeofLmacTxhdr + takeLen).toNat) := by
          rw [sysBufAllocLoop, if_neg covered]
          simp only [popped, Option.bind_eq_bind, Option.bind_some, if_neg cell, hung, info]
          rw [show min ((shape.info free).size - UInt16.ofNat sizeofSysHdr - sizeofLmacTxhdr)
            hifLen = takeLen from rfl, set, Option.bind_some]
        have first : (ys ++ [iter] ++ [link]).headD 0 = packet := by
          rw [← start]
          cases ys <;> rfl
        rw [unfolded]
        rcases ih (hifLen - takeLen) inv₃ first (Nat.lt_of_succ_lt_succ enough) with
          ⟨s', free', more, done, inv', log, filled, kept⟩ | ⟨s', free', done, inv', perm⟩
        · refine .inl ⟨s', free', link :: more, done, ?_, ?_, ⟨covered, ?_, filled⟩, ?_⟩
          · simpa using inv'
          · rw [log, putField_handed, log₃, List.append_assoc]
            rfl
          · rw [kept link (by simp), length]
          · intro b inside
            rw [kept b (List.mem_append_left _ inside), lengths b inside]
        · refine .inr ⟨s', free', done, inv', ?_⟩
          simpa using perm

/-- The first buffer carries the HIF header and what fits behind it, the others the rest. -/
def PoolMem.FilledFirst (s : PoolMem) (shape : PoolShape) (hifLen : UInt16) : List Nat → Prop
  | [] => False
  | packet :: more =>
    s.field .mPayloadLength packet =
      (sizeofLmacTxhdr + sizeofHifHdr + min (shape.bufLeft - sizeofHifHdr) hifLen).toNat ∧
    s.Filled shape.bufLeft (hifLen - min (shape.bufLeft - sizeofHifHdr) hifLen) more

/-- `sys_buf_alloc` hands out one chain with its lengths set, or nothing and the free buffers stay
the same. -/
theorem PoolInv.sysBufAlloc_filled (hooks : PoolHooks) (hifLen : UInt16)
    (inv : PoolInv shape s free chains) :
    (∃ s' free' c, sysBufAlloc shape.map hooks shape.poolId hifLen s = some (c.headD 0, s') ∧
      PoolInv shape s' free' (c :: chains) ∧ s'.handed = s.handed ++ c ∧
      s'.FilledFirst shape hifLen c) ∨
    (∃ s' free', sysBufAlloc shape.map hooks shape.poolId hifLen s = some (0, s') ∧
      PoolInv shape s' free' chains ∧ free'.Perm free) := by
  cases free with
  | nil =>
    refine .inr ⟨s, [], ?_, inv, .refl _⟩
    rw [Tr6260.sysBufAlloc]
    simp only [systemMemoryPoolAlloc_nil inv.core, Option.bind_eq_bind, Option.bind_some, if_true]
  | cons packet free =>
    have here : packet ∈ shape.buffers := inv.core.mem_free List.mem_cons_self
    rcases inv.alloc with ⟨s1, popped, inv1, log1⟩
    have inv2 := fun v => inv1.setLength (b := packet) List.mem_cons_self (by simp) v
    have count := inv1.core.length_le
    let takeLen := min (shape.bufLeft - sizeofHifHdr) hifLen
    let len := (sizeofLmacTxhdr + sizeofHifHdr + takeLen).toNat
    have unfolded :
        Tr6260.sysBufAlloc shape.map hooks shape.poolId hifLen s =
          sysBufAllocLoop shape.map hooks shape.poolId packet (shape.num.toNat + 1) packet
            (hifLen - takeLen) (s1.putField .mPayloadLength packet len) := by
      rw [Tr6260.sysBufAlloc]
      simp only [popped, Option.bind_eq_bind, Option.bind_some, if_neg (shape.ne_zero here),
        shape.setField_eq _ _ _ here, inv1.core.info]
      rfl
    rw [unfolded]
    have enough : free.length < shape.num.toNat + 1 := by omega
    rcases sysBufAllocLoop_spec hooks (hifLen - takeLen)
      (show PoolInv shape _ free (([] ++ [packet]) :: chains) from inv2 len) rfl enough with
      ⟨s', free', more, done, inv', log, filled, kept⟩ | ⟨s', free', done, inv', perm⟩
    · refine .inl ⟨s', free', packet :: more, done, inv', ?_, ?_, filled⟩
      · rw [log, putField_handed, log1, List.append_assoc]
        rfl
      · rw [kept packet (by simp)]
        exact field_putField_same _ (UInt16.toNat_lt _)
    · exact .inr ⟨s', free', done, inv', perm⟩

theorem PoolInv.sysBufAlloc (hooks : PoolHooks) (hifLen : UInt16)
    (inv : PoolInv shape s free chains) :
    (∃ s' free' c, sysBufAlloc shape.map hooks shape.poolId hifLen s = some (c.headD 0, s') ∧
      PoolInv shape s' free' (c :: chains) ∧ s'.handed = s.handed ++ c) ∨
    (∃ s' free', sysBufAlloc shape.map hooks shape.poolId hifLen s = some (0, s') ∧
      PoolInv shape s' free' chains ∧ free'.Perm free) := by
  rcases inv.sysBufAlloc_filled hooks hifLen with ⟨s', free', c, done, inv', log, -⟩ | failed
  · exact .inl ⟨s', free', c, done, inv', log⟩
  · exact .inr failed

end Chains

/-! ## Creation -/

section Create

variable {shape : PoolShape} {s : PoolMem} {k fuel : Nat}

def PoolShape.buffer (shape : PoolShape) (k : Nat) : Nat := shape.base + k * shape.size.toNat

theorem PoolShape.buffer_mem (shape : PoolShape) (low : k < shape.num.toNat) :
    shape.buffer k ∈ shape.buffers :=
  shape.mem_buffers.mpr ⟨k, low, rfl⟩

theorem PoolShape.buffer_inj (shape : PoolShape) {j : Nat} (other : j ≠ k) :
    shape.buffer j ≠ shape.buffer k := by
  intro same
  have pos : 0 < shape.size.toNat := Nat.lt_of_lt_of_le (by decide) shape.holdsHdr
  exact other (Nat.eq_of_mul_eq_mul_right pos (Nat.add_left_cancel same))

/-- The first `k` buffers are threaded, and those after the first are marked up to `k`. -/
structure CreatedUpTo (shape : PoolShape) (s : PoolMem) (k : Nat) : Prop where
  next : ∀ j < k, s.field .mNext (shape.buffer j) = shape.buffer (j + 1)
  tagged : ∀ j, 1 ≤ j → j ≤ k → s.field .poolId (shape.buffer j) = shape.poolId.toNat

theorem CreatedUpTo.step (done : CreatedUpTo shape s k) (low : k + 1 < shape.num.toNat) :
    CreatedUpTo shape (((s.putField .mNext (shape.buffer k) (shape.buffer (k + 1))).putField .mLink
      (shape.buffer k) 0).putField .poolId (shape.buffer (k + 1)) shape.poolId.toNat) (k + 1) := by
  have here : shape.buffer k ∈ shape.buffers := shape.buffer_mem (by omega)
  have there : shape.buffer (k + 1) ∈ shape.buffers := shape.buffer_mem low
  constructor
  · intro j below
    have inside : shape.buffer j ∈ shape.buffers := shape.buffer_mem (by omega)
    rw [shape.field_putField _ there inside (.inr (by decide)),
      shape.field_putField _ here inside (.inr (by decide))]
    by_cases same : j = k
    · subst same
      exact field_putField_same _ (shape.lt_word there)
    · rw [shape.field_putField _ here inside (.inl (shape.buffer_inj (Ne.symm same)))]
      exact done.next j (by omega)
  · intro j first below
    have inside : shape.buffer j ∈ shape.buffers := shape.buffer_mem (by omega)
    by_cases same : j = k + 1
    · subst same
      exact field_putField_same _ shape.poolId.toNat_lt
    · rw [shape.field_putField _ there inside (.inl (shape.buffer_inj (Ne.symm same))),
        shape.field_putField _ here inside (.inr (by decide)),
        shape.field_putField _ here inside (.inr (by decide))]
      exact done.tagged j first (by omega)

theorem poolCreateLoop_spec (done : CreatedUpTo shape s k) (low : k < shape.num.toNat)
    (enough : shape.num.toNat < fuel + k + 1) :
    ∃ s', poolCreateLoop shape.map shape.poolId shape.size shape.num fuel (UInt8.ofNat (k + 1))
        (shape.buffer k) s = some (shape.buffer (shape.num.toNat - 1), s') ∧
      CreatedUpTo shape s' (shape.num.toNat - 1) := by
  induction fuel generalizing s k with
  | zero => omega
  | succ fuel ih =>
    have counted := shape.counted
    have counter : (UInt8.ofNat (k + 1)).toNat = k + 1 := by
      rw [UInt8.toNat_ofNat']
      omega
    rw [poolCreateLoop]
    by_cases more : k + 1 < shape.num.toNat
    · have here : shape.buffer k ∈ shape.buffers := shape.buffer_mem low
      have there : shape.buffer (k + 1) ∈ shape.buffers := shape.buffer_mem more
      have next : shape.buffer k + shape.size.toNat = shape.buffer (k + 1) := by
        rw [PoolShape.buffer, PoolShape.buffer, Nat.succ_mul, Nat.add_assoc]
      rcases ih (done.step more) more (by omega) with ⟨s', looped, done'⟩
      refine ⟨s', ?_, done'⟩
      rw [if_pos (by rw [counter]; exact more)]
      simp only [next, Option.bind_eq_bind, Option.bind_some, shape.setField_eq _ _ _ here,
        shape.setField_eq _ _ _ there]
      rw [← looped, UInt8.ofNat_add (k + 1) 1]
      rfl
    · have last : k = shape.num.toNat - 1 := by omega
      refine ⟨s, ?_, last ▸ done⟩
      rw [if_neg (by rw [counter]; exact more), last]

/-- A pool just created has all its buffers on the free list. -/
theorem systemMemoryPoolCreate_spec (shape : PoolShape) (s : PoolMem) :
    ∃ s', systemMemoryPoolCreate shape.map true shape.poolId shape.size shape.num s =
        some (some (shape.info shape.buffers), s') ∧
      PoolInv shape (s'.putInfo shape.poolId (shape.info shape.buffers)) shape.buffers [] := by
  have some_ := shape.some_
  have counted := shape.counted
  have first : shape.buffer 0 = shape.base := by simp [PoolShape.buffer]
  have inside : shape.map.Inside shape.poolId shape.base (shape.size.toNat * shape.num.toNat) :=
    ⟨Nat.le_refl _, Nat.add_le_add_left shape.fits _⟩
  have baseInside : shape.base ∈ shape.buffers := by
    rw [← first]
    exact shape.buffer_mem some_
  let s0 : PoolMem := { s with
    ram := s.ram.store shape.base (List.replicate (shape.size.toNat * shape.num.toNat) 0) }
  have start : CreatedUpTo shape s0 0 :=
    ⟨fun j low => absurd low (Nat.not_lt_zero j), fun j low high => by omega⟩
  have enough : shape.num.toNat < 256 + 0 + 1 := by omega
  rcases poolCreateLoop_spec start some_ enough with ⟨s1, looped, done⟩
  have lastInside : shape.buffer (shape.num.toNat - 1) ∈ shape.buffers :=
    shape.buffer_mem (by omega)
  let s2 := (s1.putField .mNext (shape.buffer (shape.num.toNat - 1)) 0).putField .poolId shape.base
    shape.poolId.toNat
  have next : ∀ j, j + 1 < shape.num.toNat →
      s2.field .mNext (shape.buffer j) = shape.buffer (j + 1) := by
    intro j low
    have here : shape.buffer j ∈ shape.buffers := shape.buffer_mem (by omega)
    rw [shape.field_putField _ baseInside here (.inr (by decide)),
      shape.field_putField _ lastInside here (.inl (shape.buffer_inj (by omega)))]
    exact done.next j (by omega)
  have last : ∀ j, j + 1 = shape.num.toNat → s2.field .mNext (shape.buffer j) = 0 := by
    intro j top
    have here : shape.buffer j ∈ shape.buffers := shape.buffer_mem (by omega)
    rw [shape.field_putField _ baseInside here (.inr (by decide)),
      show shape.num.toNat - 1 = j by omega]
    exact field_putField_same _ (by decide)
  have tagged : ∀ b ∈ shape.buffers, s2.field .poolId b = shape.poolId.toNat := by
    intro b member
    rcases shape.mem_buffers.mp member with ⟨j, low, rfl⟩
    by_cases zero : j = 0
    · subst zero
      rw [Nat.zero_mul, Nat.add_zero]
      exact field_putField_same _ shape.poolId.toNat_lt
    · have other : shape.base ≠ shape.buffer j := by
        rw [← first]
        exact shape.buffer_inj (Ne.symm zero)
      rw [shape.field_putField _ baseInside member (.inl other),
        shape.field_putField _ lastInside member (.inr (by decide))]
      exact done.tagged j (by omega) (by omega)
  have walk : Threaded (s2.field .mNext) 0 (shape.buffer 0) shape.buffers :=
    Threaded.of_range (fun i low => shape.ne_zero (shape.buffer_mem low)) next last some_
  have info : shape.info shape.buffers =
      ⟨shape.poolId, shape.size, shape.num, shape.num, shape.base⟩ := by
    rw [PoolShape.info, shape.length_buffers, UInt16.ofNat_toNat, ← walk.eq_headD, first]
  refine ⟨s2, ?_, ⟨⟨putInfo_sysMemInfo .., ?_, ?_, tagged, fun b inside => by cases inside⟩,
    fun c member => by cases member⟩⟩
  · rw [systemMemoryPoolCreate, if_neg (by decide)]
    rw [first] at looped
    simp only [show systemMemoryPoolBaseAddr shape.map shape.poolId = shape.base from rfl,
      if_pos inside]
    rw [show poolCreateLoop shape.map shape.poolId shape.size shape.num 256 1 shape.base _ = _ from
      looped]
    simp only [Option.bind_eq_bind, Option.bind_some, shape.setField_eq _ _ _ lastInside,
      shape.setField_eq _ _ _ baseInside, info]
    rfl
  · rw [← walk.eq_headD]
    exact walk
  · rw [List.flatten_nil, List.append_nil]

end Create

end Tr6260
