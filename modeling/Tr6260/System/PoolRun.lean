import Tr6260.System.PoolInvariant

/-!
# Runs of a packet buffer pool

A run starts with the pool `system_memory_pool_create` made and takes any calls of
`system_memory_pool_alloc`, `sys_buf_alloc` and `system_memory_pool_free`; only a
chain that is in use is given back.
-/

namespace Tr6260

open PoolMem

/-- The pool, and what callers hold: the pointer a call returned with the buffers that were
handed out during the call. -/
structure PoolRun where
  mem : PoolMem
  chains : List (Nat × List Nat)

/-- What callers hold after a call that returned `ret`. -/
def PoolRun.handOut (r : PoolRun) (ret : Nat) (mem : PoolMem) : PoolRun :=
  ⟨mem, if ret = 0 then r.chains
    else (ret, mem.handed.drop r.mem.handed.length) :: r.chains⟩

/-- One call. -/
inductive PoolStep (map : PoolMap) (hooks : PoolHooks) (poolId : UInt8) : PoolRun → PoolRun → Prop
  | alloc {r : PoolRun} {ret : Nat} {mem : PoolMem} :
    systemMemoryPoolAlloc map poolId r.mem = some (ret, mem) →
    PoolStep map hooks poolId r (r.handOut ret mem)
  | sysBufAlloc {r : PoolRun} {ret : Nat} {mem : PoolMem} (hifLen : UInt16) :
    sysBufAlloc map hooks poolId hifLen r.mem = some (ret, mem) →
    PoolStep map hooks poolId r (r.handOut ret mem)
  | free {r : PoolRun} {chain : Nat × List Nat} {mem : PoolMem} :
    chain ∈ r.chains → systemMemoryPoolFree map hooks chain.1 r.mem = some mem →
    PoolStep map hooks poolId r ⟨mem, r.chains.erase chain⟩

/-- The list `sys_buf_pool` heads. -/
def FreeList (poolId : UInt8) (mem : PoolMem) (info : SystemMemoryInfo) (free : List Nat) : Prop :=
  mem.sysMemInfo poolId = some info ∧ Threaded (mem.field .mNext) 0 info.sysBufPool free

/-- The free list and the chains in use are a partition of the pool, `avail` counts the free
list, and a chain is what was handed out for it. -/
structure PoolSound (map : PoolMap) (poolId : UInt8) (size num : UInt16) (r : PoolRun) : Prop where
  partition : ∃ info free, FreeList poolId r.mem info free ∧ info.avail.toNat = free.length ∧
    (free ++ (r.chains.map Prod.snd).flatten).Nodup ∧
    ∀ b, b ∈ free ++ (r.chains.map Prod.snd).flatten ↔
      b ∈ poolBuffers map poolId size.toNat num.toNat
  chains : ∀ chain ∈ r.chains, chain.2 ≠ [] ∧ Threaded (r.mem.field .mLink) 0 chain.1 chain.2

/-- Every call returns, and a `sys_buf_alloc` that returns no packet leaves the free buffers as
they were. -/
structure PoolServes (map : PoolMap) (hooks : PoolHooks) (poolId : UInt8) (r : PoolRun) : Prop where
  alloc : (systemMemoryPoolAlloc map poolId r.mem).isSome
  sysBufAlloc : ∀ hifLen, (sysBufAlloc map hooks poolId hifLen r.mem).isSome
  free : ∀ chain ∈ r.chains, (systemMemoryPoolFree map hooks chain.1 r.mem).isSome
  failed : ∀ hifLen mem info free, Tr6260.sysBufAlloc map hooks poolId hifLen r.mem = some (0, mem) →
    FreeList poolId r.mem info free →
    ∃ info' free', FreeList poolId mem info' free' ∧ ∀ b, b ∈ free' ↔ b ∈ free

/-- A pool is created, and every run on it keeps the invariant. -/
def PoolKept (map : PoolMap) (hooks : PoolHooks) (poolId : UInt8) (size num : UInt16)
    (s : PoolMem) : Prop :=
  ∃ info s', systemMemoryPoolCreate map true poolId size num s = some (some info, s') ∧
    ∀ r, Relation.ReflTransGen (PoolStep map hooks poolId) ⟨s'.putInfo poolId info, []⟩ r →
      PoolSound map poolId size num r ∧ PoolServes map hooks poolId r

/-! ## The invariant of a run -/

/-- The invariant, with the pointers callers hold. -/
structure RunInv (shape : PoolShape) (r : PoolRun) (free : List Nat) : Prop where
  inv : PoolInv shape r.mem free (r.chains.map Prod.snd)
  heads : ∀ chain ∈ r.chains, chain.1 = chain.2.headD 0

theorem PoolInv.perm_chains {shape : PoolShape} {s : PoolMem} {free : List Nat}
    {chains chains' : List (List Nat)} (inv : PoolInv shape s free chains)
    (same : chains'.Perm chains) : PoolInv shape s free chains' where
  core := inv.core.perm_held same.flatten
  linked := fun c member => inv.linked c (same.subset member)

namespace RunInv

variable {shape : PoolShape} {hooks : PoolHooks} {r r' : PoolRun} {free : List Nat}

theorem alloc (run : RunInv shape r free) :
    ∃ ret mem free', systemMemoryPoolAlloc shape.map shape.poolId r.mem = some (ret, mem) ∧
      RunInv shape (r.handOut ret mem) free' := by
  cases free with
  | nil => exact ⟨0, r.mem, [], systemMemoryPoolAlloc_nil run.inv.core, run.inv, run.heads⟩
  | cons b free =>
    have cell : b ≠ 0 := shape.ne_zero (run.inv.core.mem_free List.mem_cons_self)
    rcases run.inv.alloc with ⟨mem, done, inv, log⟩
    refine ⟨b, mem, free, done, ?_⟩
    rw [PoolRun.handOut, if_neg cell, log, List.drop_left]
    exact ⟨inv, List.forall_mem_cons.mpr ⟨rfl, run.heads⟩⟩

theorem sysBufAlloc (hooks : PoolHooks) (hifLen : UInt16) (run : RunInv shape r free) :
    ∃ ret mem free', sysBufAlloc shape.map hooks shape.poolId hifLen r.mem = some (ret, mem) ∧
      RunInv shape (r.handOut ret mem) free' ∧ (ret = 0 → free'.Perm free) := by
  rcases run.inv.sysBufAlloc hooks hifLen with
    ⟨mem, free', c, done, inv, log⟩ | ⟨mem, free', done, inv, perm⟩
  · have walk := inv.linked c List.mem_cons_self
    have cell : c.headD 0 ≠ 0 := by
      cases c with
      | nil => exact absurd rfl walk.1
      | cons b c => exact walk.2.2.1
    refine ⟨_, mem, free', done, ?_, fun zero => absurd zero cell⟩
    rw [PoolRun.handOut, if_neg cell, log, List.drop_left]
    exact ⟨inv, List.forall_mem_cons.mpr ⟨rfl, run.heads⟩⟩
  · exact ⟨0, mem, free', done, ⟨inv, run.heads⟩, fun _ => perm⟩

theorem release {chain : Nat × List Nat} (hooks : PoolHooks) (run : RunInv shape r free)
    (member : chain ∈ r.chains) :
    ∃ mem free', systemMemoryPoolFree shape.map hooks chain.1 r.mem = some mem ∧
      RunInv shape ⟨mem, r.chains.erase chain⟩ free' := by
  have inside : chain.2 ∈ r.chains.map Prod.snd := List.mem_map_of_mem member
  rcases run.inv.release hooks inside with ⟨mem, free', done, inv, -, -⟩
  rw [run.heads chain member]
  refine ⟨mem, free', done, inv.perm_chains ?_, ?_⟩
  · -- one entry with these buffers is gone on either side
    apply (List.perm_cons chain.2).mp
    exact ((List.perm_cons_erase member).symm.map Prod.snd).trans (List.perm_cons_erase inside)
  · exact fun other kept => run.heads other (List.mem_of_mem_erase kept)

theorem step (run : RunInv shape r free) (step : PoolStep shape.map hooks shape.poolId r r') :
    ∃ free', RunInv shape r' free' := by
  cases step with
  | alloc done =>
    rcases run.alloc with ⟨ret, mem, free', done', run'⟩
    cases done.symm.trans done'
    exact ⟨free', run'⟩
  | sysBufAlloc hifLen done =>
    rcases run.sysBufAlloc hooks hifLen with ⟨ret, mem, free', done', run', -⟩
    cases done.symm.trans done'
    exact ⟨free', run'⟩
  | free member done =>
    rcases run.release hooks member with ⟨mem, free', done', run'⟩
    cases done.symm.trans done'
    exact ⟨free', run'⟩

theorem run (start : RunInv shape r free)
    (steps : Relation.ReflTransGen (PoolStep shape.map hooks shape.poolId) r r') :
    ∃ free', RunInv shape r' free' := by
  induction steps with
  | refl => exact ⟨free, start⟩
  | tail _ last ih =>
    rcases ih with ⟨free', run'⟩
    exact run'.step last

theorem freeList (run : RunInv shape r free) : FreeList shape.poolId r.mem (shape.info free) free :=
  ⟨run.inv.core.info, run.inv.core.walk⟩

theorem sound (run : RunInv shape r free) :
    PoolSound shape.map shape.poolId shape.size shape.num r where
  partition := by
    have count := run.inv.core.length_le
    have counted := shape.counted
    refine ⟨_, free, run.freeList, ?_, run.inv.core.nodup, fun b => run.inv.core.perm.mem_iff⟩
    rw [PoolShape.info, UInt16.toNat_ofNat']
    exact Nat.mod_eq_of_lt (by omega)
  chains := by
    intro chain member
    rw [run.heads chain member]
    exact run.inv.linked chain.2 (List.mem_map_of_mem member)

theorem serves (hooks : PoolHooks) (run : RunInv shape r free) :
    PoolServes shape.map hooks shape.poolId r where
  alloc := by
    rcases run.alloc with ⟨ret, mem, -, done, -⟩
    rw [done]
    rfl
  sysBufAlloc := by
    intro hifLen
    rcases run.sysBufAlloc hooks hifLen with ⟨ret, mem, -, done, -⟩
    rw [done]
    rfl
  free := by
    intro chain member
    rcases run.release hooks member with ⟨mem, -, done, -⟩
    rw [done]
    rfl
  failed := by
    intro hifLen mem info before done list
    rcases run.sysBufAlloc hooks hifLen with ⟨ret, mem', after, done', run', perm⟩
    cases done.symm.trans done'
    have same : before = free := by
      rcases run.freeList with ⟨known, walk⟩
      cases known.symm.trans list.1
      exact list.2.unique walk
    subst same
    exact ⟨_, after, run'.freeList, fun b => (perm rfl).mem_iff⟩

end RunInv

/-- A pool whose buffers hold a header and lie in its array keeps the invariant, whatever hook
and callbacks there are. -/
theorem systemMemoryPool_kept (map : PoolMap) (hooks : PoolHooks) (poolId : UInt8)
    (size num : UInt16) (s : PoolMem) (known : poolId < systemMemoryPoolMax)
    (holdsHdr : sizeofSysHdr ≤ size.toNat) (some_ : 1 ≤ num.toNat) (counted : num.toNat ≤ 255)
    (fits : size.toNat * num.toNat ≤ map.room poolId) :
    PoolKept map hooks poolId size num s := by
  let shape : PoolShape := ⟨map, poolId, size, num, known, holdsHdr, some_, counted, fits⟩
  rcases systemMemoryPoolCreate_spec shape s with ⟨s', created, inv⟩
  refine ⟨_, s', created, ?_⟩
  intro r steps
  have start :
      RunInv shape ⟨s'.putInfo shape.poolId (shape.info shape.buffers), []⟩ shape.buffers :=
    ⟨inv, fun chain member => by cases member⟩
  rcases start.run steps with ⟨free, run⟩
  exact ⟨run.sound, run.serves hooks⟩

/-- The arrays at an address of the data memory, as the standard build sizes them. -/
def poolMapSample : PoolMap := ⟨0x100000, 64, by decide, by decide⟩

/-- No hook, and callbacks that do nothing. -/
def poolHooksNone : PoolHooks := ⟨none, fun _ _ s => (0, s), false⟩

/-- The memory before anything was created. -/
def poolMemBlank : PoolMem := ⟨fun _ => 0, fun _ => none, []⟩

/-- The receive pool as `system_memory_pool_init` makes it. -/
theorem systemMemoryPool_kept_rx :
    PoolKept poolMapSample poolHooksNone systemMemoryPoolRx 512 32 poolMemBlank :=
  systemMemoryPool_kept _ _ _ _ _ _ (by decide) (by decide) (by decide) (by decide) (by decide)

/-- Buffers of no bytes are one and the same header, so the free list holds one buffer where
`avail` says two; and buffers that do not fit the array are written outside of it. -/
theorem systemMemoryPool_broken :
    ¬ PoolKept poolMapSample poolHooksNone systemMemoryPoolRx 0 2 poolMemBlank ∧
      ¬ PoolKept poolMapSample poolHooksNone systemMemoryPoolRx 512 255 poolMemBlank := by
  constructor
  · rintro ⟨info, s', created, kept⟩
    have made : ∃ mem,
        systemMemoryPoolCreate poolMapSample true systemMemoryPoolRx 0 2 poolMemBlank =
        some (some ⟨0, 0, 2, 2, 0x100000⟩, mem) ∧ mem.field .mNext 0x100000 = 0 :=
      ⟨_, rfl, by decide⟩
    rcases made with ⟨mem, made, next⟩
    cases created.symm.trans made
    rcases (kept _ .refl).1.partition with ⟨info, free, list, count, -⟩
    have known : some (SystemMemoryInfo.mk 0 0 2 2 0x100000) = some info :=
      (putInfo_sysMemInfo ..).symm.trans list.1
    cases known
    have single : free = [0x100000] := list.2.unique ⟨rfl, by decide, next⟩
    rw [single] at count
    exact absurd count (by decide)
  · rintro ⟨info, s', created, -⟩
    cases created

end Tr6260
