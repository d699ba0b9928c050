import Tr6260.LittleEndian
import Tr6260.ThreadedList
import Mathlib.Logic.Function.Basic
import Mathlib.Logic.Relation
import Mathlib.Data.List.Perm.Basic

/-!
# Packet buffer pools

`system_memory_manager.c`: two static arrays are cut into buffers of equal size. A
buffer starts with a `SYS_HDR`, whose `m_next` threads the free list and whose
`m_link` threads the buffers of one packet; both are read and written in the bytes
of the array, so buffers that overlap or leave the array go wrong here as they do
on the board. An access outside the two arrays has no result.

`handed` is the one thing the code does not have: the buffers `system_memory_pool_alloc`
has returned so far, in order.
-/

namespace Tr6260

/-! ## Headers -/

/-- `sizeof(SYS_HDR)`. -/
def sizeofSysHdr : Nat := 20

/-- `sizeof(LMAC_TXHDR)`. -/
def sizeofLmacTxhdr : UInt16 := 36

/-- `sizeof(HIF_HDR)`. -/
def sizeofHifHdr : UInt16 := 8

/-- The fields of `SYS_HDR` the pool uses; `mFlags` is the byte of the bit fields. -/
inductive HdrField
  | mCb
  | mFlags
  | poolId
  | mPayloadLength
  | mNext
  | mLink
  deriving DecidableEq

def HdrField.offset : HdrField → Nat
  | mCb => 0
  | mFlags => 6
  | poolId => 7
  | mPayloadLength => 8
  | mNext => 12
  | mLink => 16

def HdrField.width : HdrField → Nat
  | mCb => 4
  | mFlags => 1
  | poolId => 1
  | mPayloadLength => 2
  | mNext => 4
  | mLink => 4

/-- The bit `m_hooked` of `mFlags`. -/
def mHookedBit : Nat := 4

/-- `mFlags` with `m_hooked` cleared. -/
def clearHooked (flags : Nat) : Nat := flags &&& 0xEF

/-! ## Memory -/

/-- `SYSTEM_MEMORY_POOL_RX`. -/
def systemMemoryPoolRx : UInt8 := 0

/-- `SYSTEM_MEMORY_POOL_TX`. -/
def systemMemoryPoolTx : UInt8 := 1

/-- `SYSTEM_MEMORY_POOL_MAX`. -/
def systemMemoryPoolMax : UInt8 := 2

/-- `LMAC_CONFIG_BUFFER_SIZE`. -/
def lmacConfigBufferSize : Nat := 512

/-- `LMAC_CONFIG_POOL_0_NUM`. -/
def lmacConfigPool0Num : Nat := 32

/-- Where the linker puts `system_memory_pool`, and `LMAC_CONFIG_POOL_1_NUM`, which
depends on the build. -/
structure PoolMap where
  systemMemoryPool : Nat
  lmacConfigPool1Num : Nat
  placed : 0 < systemMemoryPool
  addressable :
    systemMemoryPool + (lmacConfigPool0Num + lmacConfigPool1Num) * lmacConfigBufferSize ≤ 2 ^ 32

/-- `system_memory_pool_base_addr`. -/
def systemMemoryPoolBaseAddr (map : PoolMap) (poolId : UInt8) : Nat :=
  if poolId = systemMemoryPoolRx then map.systemMemoryPool
  else if poolId = systemMemoryPoolTx then
    map.systemMemoryPool + lmacConfigPool0Num * lmacConfigBufferSize
  else 0

/-- The number of bytes of a pool's array. -/
def PoolMap.room (map : PoolMap) (poolId : UInt8) : Nat :=
  if poolId = systemMemoryPoolRx then lmacConfigPool0Num * lmacConfigBufferSize
  else if poolId = systemMemoryPoolTx then map.lmacConfigPool1Num * lmacConfigBufferSize
  else 0

/-- The region lies in the array of one pool. -/
def PoolMap.Inside (map : PoolMap) (poolId : UInt8) (addr len : Nat) : Prop :=
  systemMemoryPoolBaseAddr map poolId ≤ addr ∧
    addr + len ≤ systemMemoryPoolBaseAddr map poolId + map.room poolId

instance (map : PoolMap) (poolId : UInt8) (addr len : Nat) :
    Decidable (map.Inside poolId addr len) :=
  inferInstanceAs (Decidable (_ ∧ _))

/-- `system_memory_info_t`. -/
structure SystemMemoryInfo where
  poolId : UInt8
  size : UInt16
  num : UInt16
  avail : UInt16
  sysBufPool : Nat
  deriving DecidableEq

/-- The memory the pools live in, `sys_mem_info`, and the log of `system_memory_pool_alloc`. -/
structure PoolMem where
  ram : ByteMem
  sysMemInfo : UInt8 → Option SystemMemoryInfo
  handed : List Nat

namespace PoolMem

/-- A field of the header at `buf`. -/
def field (s : PoolMem) (f : HdrField) (buf : Nat) : Nat := s.ram.loadLe (buf + f.offset) f.width

def putField (s : PoolMem) (f : HdrField) (buf v : Nat) : PoolMem :=
  { s with ram := s.ram.storeLe (buf + f.offset) f.width v }

def putInfo (s : PoolMem) (poolId : UInt8) (info : SystemMemoryInfo) : PoolMem :=
  { s with sysMemInfo := Function.update s.sysMemInfo poolId (some info) }

/-- The field may be accessed. -/
def Valid (map : PoolMap) (f : HdrField) (buf : Nat) : Prop :=
  map.Inside systemMemoryPoolRx (buf + f.offset) f.width ∨
    map.Inside systemMemoryPoolTx (buf + f.offset) f.width

instance (map : PoolMap) (f : HdrField) (buf : Nat) : Decidable (Valid map f buf) :=
  inferInstanceAs (Decidable (_ ∨ _))

/-- Read a field of a header. -/
def getField (map : PoolMap) (s : PoolMem) (f : HdrField) (buf : Nat) : Option Nat :=
  if Valid map f buf then some (s.field f buf) else none

/-- Write a field of a header. -/
def setField (map : PoolMap) (s : PoolMem) (f : HdrField) (buf v : Nat) : Option PoolMem :=
  if Valid map f buf then some (s.putField f buf v) else none

end PoolMem

open PoolMem

/-! ## Operations -/

/-- The loop of `system_memory_pool_create`; its counter is a `uint8_t`, so it comes
to an end within 256 rounds or not at all. -/
def poolCreateLoop (map : PoolMap) (poolId : UInt8) (size num : UInt16) :
    Nat → UInt8 → Nat → PoolMem → Option (Nat × PoolMem)
  | 0, _, _, _ => none
  | fuel + 1, i, bufAddr, s =>
    if i.toNat < num.toNat then do
      let next := bufAddr + size.toNat
      let s ← setField map s .mNext bufAddr next
      let s ← setField map s .mLink bufAddr 0
      let s ← setField map s .poolId next poolId.toNat
      poolCreateLoop map poolId size num fuel (i + 1) next s
    else
      some (bufAddr, s)

/-- `system_memory_pool_create`. `malloc` says whether `pvPortMalloc` returned memory. -/
def systemMemoryPoolCreate (map : PoolMap) (malloc : Bool) (poolId : UInt8) (size num : UInt16)
    (s : PoolMem) : Option (Option SystemMemoryInfo × PoolMem) :=
  if malloc = false then
    some (none, s)
  else
    let base := systemMemoryPoolBaseAddr map poolId
    let total := size.toNat * num.toNat
    if map.Inside poolId base total then do
      let s := { s with ram := s.ram.store base (List.replicate total 0) }
      let (last, s) ← poolCreateLoop map poolId size num 256 1 base s
      let s ← setField map s .mNext last 0
      let s ← setField map s .poolId base poolId.toNat
      some (some ⟨poolId, size, num, num, base⟩, s)
    else
      none

/-- `system_memory_pool_alloc`. -/
def systemMemoryPoolAlloc (map : PoolMap) (poolId : UInt8) (s : PoolMem) :
    Option (Nat × PoolMem) := do
  let memInfo ← s.sysMemInfo poolId
  let ret := memInfo.sysBufPool
  if ret = 0 then
    some (0, s)
  else
    let head ← getField map s .mNext ret
    let s ← setField map s .mNext ret 0
    let s ← setField map s .mLink ret 0
    let s ← setField map s .mCb ret 0
    let flags ← getField map s .mFlags ret
    let s ← setField map s .mFlags ret (clearHooked flags)
    let s := s.putInfo poolId { memInfo with sysBufPool := head, avail := memInfo.avail - 1 }
    some (ret, { s with handed := s.handed ++ [ret] })

/-- What `system_memory_pool_free` calls: the registered hook and the functions `m_cb` can
point to. `traced` says whether the build prints the messages of `I`, one of which calls
`m_cb` once more. -/
structure PoolHooks where
  poolFreeHook : Option (Nat → PoolMem → PoolMem)
  mCb : Nat → Nat → PoolMem → Int × PoolMem
  traced : Bool

/-- The loop of `system_memory_pool_free`. -/
def poolFreeLoop (map : PoolMap) (poolId : UInt8) : Nat → Nat → PoolMem → Option PoolMem
  | fuel, link, s =>
    if link = 0 then
      some s
    else match fuel with
      | 0 => none
      | fuel + 1 => do
        let memInfo ← s.sysMemInfo poolId
        let s ← setField map s .mNext link memInfo.sysBufPool
        let after ← getField map s .mLink link
        let s ← setField map s .mLink link 0
        let s := s.putInfo poolId { memInfo with sysBufPool := link, avail := memInfo.avail + 1 }
        poolFreeLoop map poolId fuel after s

/-- `system_memory_pool_free` after the hook and the callback. A chain is at most as long as
the pool; the model has no result for a longer one. -/
def poolFreeChain (map : PoolMap) (poolId : UInt8) (buf : Nat) (s : PoolMem) : Option PoolMem :=
  if systemMemoryPoolMax ≤ poolId then
    some s
  else do
    let link ← getField map s .mLink buf
    let memInfo ← s.sysMemInfo poolId
    let s ← poolFreeLoop map poolId memInfo.num.toNat (if link = buf then 0 else link) s
    let memInfo ← s.sysMemInfo poolId
    let s ← setField map s .mNext buf memInfo.sysBufPool
    let s ← setField map s .mLink buf 0
    some (s.putInfo poolId { memInfo with sysBufPool := buf, avail := memInfo.avail + 1 })

/-- `system_memory_pool_free`. -/
def systemMemoryPoolFree (map : PoolMap) (hooks : PoolHooks) (buf : Nat) (s : PoolMem) :
    Option PoolMem := do
  let poolId ← getField map s .poolId buf
  let flags ← getField map s .mFlags buf
  match hooks.poolFreeHook, flags.testBit mHookedBit with
  | some hook, true => some (hook buf s)
  | _, _ =>
    let cb ← getField map s .mCb buf
    if cb = 0 then
      poolFreeChain map (UInt8.ofNat poolId) buf s
    else
      let (result, s) := hooks.mCb cb buf s
      if result = 0 then
        poolFreeChain map (UInt8.ofNat poolId) buf s
      else
        let s := if hooks.traced then (hooks.mCb cb buf s).2 else s
        setField map s .mCb buf 0

/-- The loop of `sys_buf_alloc`. -/
def sysBufAllocLoop (map : PoolMap) (hooks : PoolHooks) (poolId : UInt8) (packet : Nat) :
    Nat → Nat → UInt16 → PoolMem → Option (Nat × PoolMem)
  | fuel, iter, hifLen, s =>
    if hifLen = 0 then
      some (packet, s)
    else match fuel with
      | 0 => none
      | fuel + 1 => do
        let (link, s) ← systemMemoryPoolAlloc map poolId s
        if link = 0 then do
          let s ← systemMemoryPoolFree map hooks packet s
          some (0, s)
        else do
          let s ← setField map s .mLink iter link
          let memInfo ← s.sysMemInfo poolId
          let bufLeft := memInfo.size - UInt16.ofNat sizeofSysHdr - sizeofLmacTxhdr
          let takeLen := min bufLeft hifLen
          let s ← setField map s .mPayloadLength link (sizeofLmacTxhdr + takeLen).toNat
          sysBufAllocLoop map hooks poolId packet fuel link (hifLen - takeLen) s

/-- `sys_buf_alloc`. Every round takes a buffer, so there are at most as many as the pool has;
one more finds the pool empty. -/
def sysBufAlloc (map : PoolMap) (hooks : PoolHooks) (poolId : UInt8) (hifLen : UInt16)
    (s : PoolMem) : Option (Nat × PoolMem) := do
  let (packet, s) ← systemMemoryPoolAlloc map poolId s
  if packet = 0 then
    some (0, s)
  else
    let memInfo ← s.sysMemInfo poolId
    let bufLeft := memInfo.size - UInt16.ofNat sizeofSysHdr - sizeofLmacTxhdr - sizeofHifHdr
    let takeLen := min bufLeft hifLen
    let s ← setField map s .mPayloadLength packet (sizeofLmacTxhdr + sizeofHifHdr + takeLen).toNat
    sysBufAllocLoop map hooks poolId packet (memInfo.num.toNat + 1) packet (hifLen - takeLen) s

end Tr6260
