import Tr6260.System.PoolRun
import Mathlib.Algebra.Order.BigOperators.Group.List
import Mathlib.Algebra.Order.Ring.Nat
import Mathlib.Algebra.Group.Action.Defs

/-!
# Buffer lengths from the HIF header

`sys_buf_alloc` splits the length it is asked for over the buffers of a packet and counts the
HIF header apart; `sys_buf_len_calc_using_hif_len` splits the length the HIF header states, with
the header counted in. Over a packet just allocated the second writes what the first wrote.
-/

namespace Tr6260

open PoolMem

/-! ## The HIF header -/

/-- Where `hif_hdr.len` stands in a `SYS_BUF`. -/
def hifLenOffset : Nat := sizeofSysHdr + sizeofLmacTxhdr.toNat + 4

/-- `hif_hdr.len` may be accessed. -/
def HifLenValid (map : PoolMap) (packet : Nat) : Prop :=
  map.Inside systemMemoryPoolRx (packet + hifLenOffset) 2 ∨
    map.Inside systemMemoryPoolTx (packet + hifLenOffset) 2

instance (map : PoolMap) (packet : Nat) : Decidable (HifLenValid map packet) :=
  inferInstanceAs (Decidable (_ ∨ _))

namespace PoolMem

/-- Read `hif_hdr.len`. -/
def getHifLen (map : PoolMap) (s : PoolMem) (packet : Nat) : Option UInt16 :=
  if HifLenValid map packet then some (UInt16.ofNat (s.ram.loadLe (packet + hifLenOffset) 2))
  else none

def putHifLen (s : PoolMem) (packet : Nat) (len : UInt16) : PoolMem :=
  { s with ram := s.ram.storeLe (packet + hifLenOffset) 2 len.toNat }

/-- Write `hif_hdr.len`. -/
def setHifLen (map : PoolMap) (s : PoolMem) (packet : Nat) (len : UInt16) : Option PoolMem :=
  if HifLenValid map packet then some (s.putHifLen packet len) else none

end PoolMem

/-! ## The function -/

/-- The loop of `sys_buf_len_calc_using_hif_len`. -/
def sysBufLenCalcLoop (map : PoolMap) (poolId : UInt8) :
    Nat → Nat → UInt16 → PoolMem → Option PoolMem
  | fuel, iter, hifLen, s =>
    if hifLen = 0 then
      some s
    else match fuel with
      | 0 => none
      | fuel + 1 => do
        let link ← getField map s .mLink iter
        if link = 0 then
          some s
        else do
          let memInfo ← s.sysMemInfo poolId
          let bufLeft := memInfo.size - UInt16.ofNat sizeofSysHdr - sizeofLmacTxhdr
          let takeLen := min bufLeft hifLen
          let s ← setField map s .mPayloadLength link (sizeofLmacTxhdr + takeLen).toNat
          sysBufLenCalcLoop map poolId fuel link (hifLen - takeLen) s

/-- `sys_buf_len_calc_using_hif_len`. A round takes a byte at least, or buffers hold none and the
chain has to end; so after 65536 rounds the function never returns. -/
def sysBufLenCalcUsingHifLen (map : PoolMap) (packet : Nat) (s : PoolMem) : Option PoolMem := do
  let len ← getHifLen map s packet
  let hifLen := len + sizeofHifHdr
  let poolId ← getField map s .poolId packet
  let memInfo ← s.sysMemInfo (UInt8.ofNat poolId)
  let bufLeft := memInfo.size - UInt16.ofNat sizeofSysHdr - sizeofLmacTxhdr
  let takeLen := min bufLeft hifLen
  let s ← setField map s .mPayloadLength packet (sizeofLmacTxhdr + takeLen).toNat
  sysBufLenCalcLoop map (UInt8.ofNat poolId) 65536 packet (hifLen - takeLen) s

/-! ## Sixteen bits -/

theorem toNat_min (a b : UInt16) : (min a b).toNat = min a.toNat b.toNat := by
  rw [UInt16.min_def]
  split
  next low => rw [Nat.min_eq_left (UInt16.le_iff_toNat_le.mp low)]
  next high =>
    rw [UInt16.not_le, UInt16.lt_iff_toNat_lt] at high
    rw [Nat.min_eq_right (Nat.le_of_lt high)]

theorem toNat_sub_min (a b : UInt16) : (b - min a b).toNat = b.toNat - min a.toNat b.toNat := by
  have part : min a b ≤ b := by
    rw [UInt16.le_iff_toNat_le, toNat_min]
    exact Nat.min_le_right ..
  rw [UInt16.toNat_sub_of_le _ _ part, toNat_min]

/-! ## What the lengths say -/

section Filled

variable {s : PoolMem} {bufLeft left : UInt16} {chain : List Nat}

/-- What a buffer carries behind the transmit header. -/
def PoolMem.dataLength (s : PoolMem) (b : Nat) : Nat :=
  s.field .mPayloadLength b - sizeofLmacTxhdr.toNat

/-- The length of a buffer counts the transmit header and at most `room` bytes. -/
def PoolMem.Bounded (s : PoolMem) (room b : Nat) : Prop :=
  sizeofLmacTxhdr.toNat ≤ s.field .mPayloadLength b ∧
    s.field .mPayloadLength b ≤ sizeofLmacTxhdr.toNat + room

theorem toNat_payload {take : UInt16} (small : sizeofLmacTxhdr.toNat + bufLeft.toNat < 2 ^ 16)
    (low : take.toNat ≤ bufLeft.toNat) :
    (sizeofLmacTxhdr + take).toNat = sizeofLmacTxhdr.toNat + take.toNat := by
  rw [UInt16.toNat_add]
  exact Nat.mod_eq_of_lt (by omega)

theorem PoolMem.Filled.data (small : sizeofLmacTxhdr.toNat + bufLeft.toNat < 2 ^ 16)
    (filled : s.Filled bufLeft left chain) :
    (∀ b ∈ chain, s.Bounded bufLeft.toNat b) ∧ (chain.map s.dataLength).sum = left.toNat := by
  induction chain generalizing left with
  | nil =>
    rw [show left = 0 from filled]
    exact ⟨fun b inside => (List.not_mem_nil inside).elim, rfl⟩
  | cons b rest ih =>
    rcases filled with ⟨-, length, filled⟩
    rcases ih filled with ⟨bounds, sum⟩
    have part : (min bufLeft left).toNat ≤ bufLeft.toNat := by
      rw [toNat_min]
      exact Nat.min_le_left ..
    rw [toNat_payload small part, toNat_min] at length
    have short : min bufLeft.toNat left.toNat ≤ left.toNat := Nat.min_le_right ..
    rw [toNat_min] at part
    refine ⟨List.forall_mem_cons.mpr ⟨?_, bounds⟩, ?_⟩
    · rw [PoolMem.Bounded]
      omega
    · rw [List.map_cons, List.sum_cons, sum, toNat_sub_min, PoolMem.dataLength]
      omega

theorem PoolMem.Filled.congr {s' : PoolMem}
    (same : ∀ b ∈ chain, s'.field .mPayloadLength b = s.field .mPayloadLength b)
    (filled : s.Filled bufLeft left chain) : s'.Filled bufLeft left chain := by
  induction chain generalizing left with
  | nil => exact filled
  | cons b rest ih =>
    rcases filled with ⟨open_, length, filled⟩
    exact ⟨open_, (same b List.mem_cons_self).trans length,
      ih (fun b later => same b (List.mem_cons_of_mem _ later)) filled⟩

end Filled

/-! ## The header and the fields -/

section Header

variable {shape : PoolShape} {s : PoolMem} {b b' : Nat}

/-- The buffers hold the three headers of a packet. -/
def PoolShape.HoldsHdrs (shape : PoolShape) : Prop :=
  sizeofSysHdr + sizeofLmacTxhdr.toNat + sizeofHifHdr.toNat ≤ shape.size.toNat

theorem PoolShape.toNat_bufLeft (holds : shape.HoldsHdrs) :
    shape.bufLeft.toNat = shape.size.toNat - sizeofSysHdr - sizeofLmacTxhdr.toNat := by
  have sys : (UInt16.ofNat sizeofSysHdr).toNat = sizeofSysHdr := rfl
  have big : shape.size.toNat < 2 ^ 16 := UInt16.toNat_lt _
  rw [PoolShape.HoldsHdrs] at holds
  have first : UInt16.ofNat sizeofSysHdr ≤ shape.size := by
    rw [UInt16.le_iff_toNat_le]
    omega
  have rest := UInt16.toNat_sub_of_le _ _ first
  rw [sys] at rest
  have second : sizeofLmacTxhdr ≤ shape.size - UInt16.ofNat sizeofSysHdr := by
    rw [UInt16.le_iff_toNat_le]
    omega
  rw [PoolShape.bufLeft, UInt16.toNat_sub_of_le _ _ second, rest]

theorem PoolShape.payload_small (holds : shape.HoldsHdrs) :
    sizeofLmacTxhdr.toNat + shape.bufLeft.toNat < 2 ^ 16 := by
  have room := shape.toNat_bufLeft holds
  have big : shape.size.toNat < 2 ^ 16 := UInt16.toNat_lt _
  rw [PoolShape.HoldsHdrs] at holds
  omega

/-- The HIF header fits into the first buffer. -/
theorem PoolShape.toNat_bufLeft_first (holds : shape.HoldsHdrs) :
    sizeofHifHdr.toNat ≤ shape.bufLeft.toNat ∧
      (shape.bufLeft - sizeofHifHdr).toNat = shape.bufLeft.toNat - sizeofHifHdr.toNat := by
  have room := shape.toNat_bufLeft holds
  rw [PoolShape.HoldsHdrs] at holds
  have header : sizeofHifHdr.toNat ≤ shape.bufLeft.toNat := by omega
  exact ⟨header, UInt16.toNat_sub_of_le _ _ (UInt16.le_iff_toNat_le.mpr header)⟩

/-- A buffer ends inside the array. -/
theorem PoolShape.end_le (inside : b ∈ shape.buffers) :
    b + shape.size.toNat ≤ shape.base + shape.map.room shape.poolId := by
  rcases shape.mem_buffers.mp inside with ⟨i, low, rfl⟩
  have fits := shape.fits
  have step : (i + 1) * shape.size.toNat ≤ shape.num.toNat * shape.size.toNat :=
    Nat.mul_le_mul_right _ low
  rw [Nat.succ_mul] at step
  rw [Nat.mul_comm] at fits
  omega

theorem PoolShape.hifLenValid (holds : shape.HoldsHdrs) (inside : b ∈ shape.buffers) :
    HifLenValid shape.map b := by
  have low := (shape.header_le inside).1
  have high := shape.end_le inside
  have offset : hifLenOffset + 2 ≤ shape.size.toNat :=
    Nat.le_trans (show hifLenOffset + 2 ≤ 64 by decide) holds
  rw [PoolShape.base] at low high
  rcases shape.poolId_cases with rx | tx
  · rw [rx] at low high
    exact .inl ⟨by omega, by omega⟩
  · rw [tx] at low high
    exact .inr ⟨by omega, by omega⟩

/-- The HIF header lies apart from every `SYS_HDR`. -/
theorem PoolShape.field_putHifLen (holds : shape.HoldsHdrs) (inside : b ∈ shape.buffers)
    (inside' : b' ∈ shape.buffers) (len : UInt16) (f : HdrField) :
    (s.putHifLen b len).field f b' = s.field f b' := by
  apply ByteMem.loadLe_storeLe_apart
  have last := f.end_le
  have sys : sizeofSysHdr ≤ hifLenOffset := by decide
  have top : hifLenOffset + 2 ≤ shape.size.toNat :=
    Nat.le_trans (show hifLenOffset + 2 ≤ 64 by decide) holds
  by_cases same : b = b'
  · subst same
    omega
  · have apart := shape.whole_apart inside inside' same
    omega

theorem getHifLen_putHifLen (holds : shape.HoldsHdrs) (inside : b ∈ shape.buffers) (len : UInt16) :
    getHifLen shape.map (s.putHifLen b len) b = some len := by
  have back : (s.putHifLen b len).ram.loadLe (b + hifLenOffset) 2 = len.toNat :=
    ByteMem.loadLe_storeLe_same _ _ (UInt16.toNat_lt _)
  rw [getHifLen, if_pos (shape.hifLenValid holds inside), back, UInt16.ofNat_toNat]

/-- A field written back leaves the memory as it was. -/
theorem putField_field (s : PoolMem) (f : HdrField) (buf : Nat) :
    s.putField f buf (s.field f buf) = s := by
  rw [PoolMem.putField, PoolMem.field, ByteMem.storeLe_loadLe]

end Header

/-! ## The two splits agree -/

section Agree

variable {shape : PoolShape} {s : PoolMem} {free : List Nat} {chains : List (List Nat)}
variable {c more : List Nat} {left hifLen : UInt16} {iter packet fuel : Nat}

/-- Over buffers filled with what is left, every length written is the one that is there. -/
theorem sysBufLenCalcLoop_filled (info : s.sysMemInfo shape.poolId = some (shape.info free))
    (here : iter ∈ shape.buffers) (inside : ∀ b ∈ more, b ∈ shape.buffers)
    (walk : Threaded (s.field .mLink) 0 (s.field .mLink iter) more)
    (filled : s.Filled shape.bufLeft left more) (enough : more.length ≤ fuel) :
    sysBufLenCalcLoop shape.map shape.poolId fuel iter left s = some s := by
  induction more generalizing iter left fuel with
  | nil =>
    unfold sysBufLenCalcLoop
    rw [if_pos (show left = 0 from filled)]
  | cons link more ih =>
    rcases filled with ⟨open_, length, filled⟩
    rcases walk with ⟨next, cell, walk⟩
    cases fuel with
    | zero => cases enough
    | succ fuel =>
      have there : link ∈ shape.buffers := inside link List.mem_cons_self
      have same : s.putField .mPayloadLength link
          (sizeofLmacTxhdr + min shape.bufLeft left).toNat = s := by
        rw [← length]
        exact putField_field ..
      rw [sysBufLenCalcLoop, if_neg open_]
      simp only [shape.getField_eq _ _ here, next, Option.bind_eq_bind, Option.bind_some,
        if_neg cell, info, PoolShape.info, shape.setField_eq _ _ _ there]
      rw [show shape.size - UInt16.ofNat sizeofSysHdr - sizeofLmacTxhdr = shape.bufLeft from rfl,
        same]
      exact ih there (fun b later => inside b (List.mem_cons_of_mem _ later)) walk filled
        (Nat.le_of_succ_le_succ enough)

/-- With the header counted in, the first buffer takes the same and leaves the same. -/
theorem first_split (holds : shape.HoldsHdrs) (short : hifLen.toNat + sizeofHifHdr.toNat < 2 ^ 16) :
    sizeofLmacTxhdr + min shape.bufLeft (hifLen + sizeofHifHdr) =
      sizeofLmacTxhdr + sizeofHifHdr + min (shape.bufLeft - sizeofHifHdr) hifLen ∧
    hifLen + sizeofHifHdr - min shape.bufLeft (hifLen + sizeofHifHdr) =
      hifLen - min (shape.bufLeft - sizeofHifHdr) hifLen := by
  rcases shape.toNat_bufLeft_first holds with ⟨header, behind⟩
  have whole : (hifLen + sizeofHifHdr).toNat = hifLen.toNat + sizeofHifHdr.toNat := by
    rw [UInt16.toNat_add]
    exact Nat.mod_eq_of_lt short
  have take : min shape.bufLeft (hifLen + sizeofHifHdr) =
      sizeofHifHdr + min (shape.bufLeft - sizeofHifHdr) hifLen := by
    have part : min (shape.bufLeft.toNat - sizeofHifHdr.toNat) hifLen.toNat ≤ hifLen.toNat :=
      Nat.min_le_right ..
    apply UInt16.toNat_inj.mp
    rw [UInt16.toNat_add, toNat_min, toNat_min, whole, behind]
    omega
  constructor
  · rw [take, UInt16.add_assoc]
  · apply UInt16.toNat_inj.mp
    rw [toNat_sub_min, toNat_sub_min, whole, behind]
    omega

theorem PoolMem.FilledFirst.data (holds : shape.HoldsHdrs) (filled : s.FilledFirst shape hifLen c) :
    (∀ b ∈ c, s.Bounded shape.bufLeft.toNat b) ∧
      (c.map s.dataLength).sum = hifLen.toNat + sizeofHifHdr.toNat := by
  cases c with
  | nil => exact filled.elim
  | cons packet more =>
    rcases filled with ⟨length, filled⟩
    have small := shape.payload_small holds
    rcases shape.toNat_bufLeft_first holds with ⟨header, behind⟩
    rcases filled.data small with ⟨bounds, sum⟩
    let take := min (shape.bufLeft.toNat - sizeofHifHdr.toNat) hifLen.toNat
    have part : take ≤ shape.bufLeft.toNat - sizeofHifHdr.toNat := Nat.min_le_left ..
    have part' : take ≤ hifLen.toNat := Nat.min_le_right ..
    have length' : s.field .mPayloadLength packet =
        sizeofLmacTxhdr.toNat + (sizeofHifHdr.toNat + take) := by
      rw [length, UInt16.add_assoc]
      have inner : (sizeofHifHdr + min (shape.bufLeft - sizeofHifHdr) hifLen).toNat =
          sizeofHifHdr.toNat + take := by
        rw [UInt16.toNat_add, toNat_min, behind]
        exact Nat.mod_eq_of_lt (by omega)
      rw [toNat_payload small (by rw [inner]; omega), inner]
    rw [toNat_sub_min, behind] at sum
    refine ⟨List.forall_mem_cons.mpr ⟨?_, bounds⟩, ?_⟩
    · rw [PoolMem.Bounded]
      omega
    · rw [List.map_cons, List.sum_cons, sum, PoolMem.dataLength, length']
      omega

theorem PoolMap.room_le (map : PoolMap) (poolId : UInt8) (built : map.lmacConfigPool1Num ≤ 64) :
    map.room poolId ≤ 64 * lmacConfigBufferSize := by
  rw [PoolMap.room, lmacConfigPool0Num]
  split_ifs
  · omega
  · exact Nat.mul_le_mul_right _ built
  · omega

/-- A packet of the pool states its length with the header in sixteen bits. -/
theorem PoolInv.hifLen_short (built : shape.map.lmacConfigPool1Num ≤ 64)
    (holds : shape.HoldsHdrs) (inv : PoolInv shape s free (c :: chains))
    (filled : s.FilledFirst shape hifLen c) : hifLen.toNat + sizeofHifHdr.toNat < 2 ^ 16 := by
  rcases filled.data holds with ⟨bounds, sum⟩
  have count := inv.core.length_le
  rw [List.flatten_cons, List.length_append] at count
  have each : ∀ n ∈ c.map s.dataLength, n ≤ shape.bufLeft.toNat := by
    rintro n inside
    rcases List.mem_map.mp inside with ⟨b, member, rfl⟩
    exact Nat.sub_le_iff_le_add'.mpr (bounds b member).2
  have total := List.sum_le_card_nsmul _ _ each
  rw [List.length_map, sum, smul_eq_mul] at total
  have room := shape.toNat_bufLeft holds
  have inside : c.length * shape.bufLeft.toNat ≤ shape.num.toNat * shape.size.toNat :=
    Nat.mul_le_mul (by omega) (by omega)
  have fits := shape.fits
  rw [Nat.mul_comm] at fits
  have array := shape.map.room_le shape.poolId built
  rw [lmacConfigBufferSize] at array
  omega

/-- A packet just allocated: its chain, the lengths that `sys_buf_alloc` gave the buffers, and
`sys_buf_len_calc_using_hif_len` once the HIF header states the length. -/
structure LengthsAgree (map : PoolMap) (size hifLen : UInt16) (packet : Nat) (mem : PoolMem)
    (chain : List Nat) : Prop where
  walk : Threaded (mem.field .mLink) 0 packet chain
  recomputed : ∃ marked after, setHifLen map mem packet hifLen = some marked ∧
    sysBufLenCalcUsingHifLen map packet marked = some after ∧
    ∀ b ∈ chain, after.field .mPayloadLength b = mem.field .mPayloadLength b
  bounded : ∀ b ∈ chain, sizeofLmacTxhdr.toNat ≤ mem.field .mPayloadLength b ∧
    mem.field .mPayloadLength b ≤ size.toNat - sizeofSysHdr
  sum : (chain.map fun b => mem.field .mPayloadLength b - sizeofLmacTxhdr.toNat).sum =
    hifLen.toNat + sizeofHifHdr.toNat

/-- `sys_buf_len_calc_using_hif_len` leaves the whole memory as it is. -/
theorem sysBufLenCalc_filled (holds : shape.HoldsHdrs)
    (short : hifLen.toNat + sizeofHifHdr.toNat < 2 ^ 16)
    (inv : PoolInv shape s free ((packet :: more) :: chains))
    (filled : s.FilledFirst shape hifLen (packet :: more)) :
    sysBufLenCalcUsingHifLen shape.map packet (s.putHifLen packet hifLen) =
      some (s.putHifLen packet hifLen) := by
  have inside : ∀ b ∈ packet :: more, b ∈ shape.buffers :=
    fun b member => inv.mem_buffers List.mem_cons_self member
  have here := inside packet List.mem_cons_self
  have kept : ∀ f, ∀ b ∈ packet :: more, (s.putHifLen packet hifLen).field f b = s.field f b :=
    fun f b member => shape.field_putHifLen holds here (inside b member) hifLen f
  have walk := (inv.linked _ List.mem_cons_self).2.2.2
  have count := inv.core.length_le
  rw [List.flatten_cons, List.length_append, List.length_cons] at count
  have counted := shape.counted
  rcases first_split holds short with ⟨take, rest⟩
  rcases filled with ⟨length, filled⟩
  let marked := s.putHifLen packet hifLen
  have same : marked.putField .mPayloadLength packet
      (sizeofLmacTxhdr + sizeofHifHdr + min (shape.bufLeft - sizeofHifHdr) hifLen).toNat =
        marked := by
    rw [← length, ← kept .mPayloadLength packet List.mem_cons_self]
    exact putField_field ..
  have info : marked.sysMemInfo shape.poolId = some (shape.info free) := inv.core.info
  rw [sysBufLenCalcUsingHifLen]
  simp only [getHifLen_putHifLen holds here, shape.getField_eq _ _ here, Option.bind_eq_bind,
    Option.bind_some, kept .poolId packet List.mem_cons_self, inv.core.tagged packet here,
    UInt8.ofNat_toNat]
  rw [show (s.putHifLen packet hifLen).sysMemInfo shape.poolId = _ from info, Option.bind_some,
    show (shape.info free).size - UInt16.ofNat sizeofSysHdr - sizeofLmacTxhdr = shape.bufLeft
      from rfl, shape.setField_eq _ _ _ here, Option.bind_some, take, rest, same]
  refine sysBufLenCalcLoop_filled info here (fun b later => inside b (List.mem_cons_of_mem _ later))
    ?_ ?_ (by omega)
  · rw [kept .mLink packet List.mem_cons_self]
    exact walk.congr fun b later => kept .mLink b (List.mem_cons_of_mem _ later)
  · exact filled.congr fun b later => kept .mPayloadLength b (List.mem_cons_of_mem _ later)

/-- A packet `sys_buf_alloc` returns has its lengths agree. -/
theorem PoolInv.lengthsAgree (hooks : PoolHooks) (built : shape.map.lmacConfigPool1Num ≤ 64)
    (holds : shape.HoldsHdrs) (inv : PoolInv shape s free chains) {mem : PoolMem}
    (done : Tr6260.sysBufAlloc shape.map hooks shape.poolId hifLen s = some (packet, mem))
    (found : packet ≠ 0) : ∃ chain, LengthsAgree shape.map shape.size hifLen packet mem chain := by
  rcases inv.sysBufAlloc_filled hooks hifLen with
    ⟨mem', free', c, done', inv', -, filled⟩ | ⟨mem', free', done', -⟩
  · cases done.symm.trans done'
    have short := inv'.hifLen_short built holds filled
    have room := shape.toNat_bufLeft holds
    rcases filled.data holds with ⟨bounds, sum⟩
    cases c with
    | nil => exact filled.elim
    | cons packet more =>
      have inside : ∀ b ∈ packet :: more, b ∈ shape.buffers :=
        fun b member => inv'.mem_buffers List.mem_cons_self member
      have here := inside packet List.mem_cons_self
      refine ⟨packet :: more, (inv'.linked _ List.mem_cons_self).2,
        ⟨_, _, if_pos (shape.hifLenValid holds here),
          sysBufLenCalc_filled holds short inv' filled, ?_⟩, ?_, sum⟩
      · exact fun b member => shape.field_putHifLen holds here (inside b member) hifLen _
      · intro b member
        rcases bounds b member with ⟨low, high⟩
        rw [PoolShape.HoldsHdrs] at holds
        exact ⟨low, by omega⟩
  · cases done.symm.trans done'
    exact absurd rfl found

end Agree

/-- In a pool as the builds size it, whose buffers hold the headers, every packet allocated in any
run has the lengths its HIF header gives. -/
theorem sysBufLenCalc_agrees (map : PoolMap) (hooks : PoolHooks) (poolId : UInt8)
    (size num : UInt16) (s : PoolMem) (known : poolId < systemMemoryPoolMax)
    (holdsHdrs : sizeofSysHdr + sizeofLmacTxhdr.toNat + sizeofHifHdr.toNat ≤ size.toNat)
    (some_ : 1 ≤ num.toNat) (counted : num.toNat ≤ 255)
    (fits : size.toNat * num.toNat ≤ map.room poolId) (built : map.lmacConfigPool1Num ≤ 64) :
    ∃ info s', systemMemoryPoolCreate map true poolId size num s = some (some info, s') ∧
      ∀ r, Relation.ReflTransGen (PoolStep map hooks poolId) ⟨s'.putInfo poolId info, []⟩ r →
        ∀ hifLen packet mem, sysBufAlloc map hooks poolId hifLen r.mem = some (packet, mem) →
          packet ≠ 0 → ∃ chain, LengthsAgree map size hifLen packet mem chain := by
  let shape : PoolShape :=
    ⟨map, poolId, size, num, known, Nat.le_trans (by decide) holdsHdrs, some_, counted, fits⟩
  rcases systemMemoryPoolCreate_spec shape s with ⟨s', created, inv⟩
  refine ⟨_, s', created, ?_⟩
  intro r steps hifLen packet mem done found
  have start :
      RunInv shape ⟨s'.putInfo shape.poolId (shape.info shape.buffers), []⟩ shape.buffers :=
    ⟨inv, fun chain member => by cases member⟩
  rcases start.run steps with ⟨free, run⟩
  exact run.inv.lengthsAgree hooks built (show shape.HoldsHdrs from holdsHdrs) done found

/-- A thousand bytes from the transmit pool as `system_memory_pool_init` makes it: one buffer does
not hold them. -/
theorem sysBufLenCalc_agrees_tx :
    ∃ info s' packet mem chain,
      systemMemoryPoolCreate poolMapSample true systemMemoryPoolTx 512 64 poolMemBlank =
        some (some info, s') ∧
      sysBufAlloc poolMapSample poolHooksNone systemMemoryPoolTx 1000
        (s'.putInfo systemMemoryPoolTx info) = some (packet, mem) ∧
      packet ≠ 0 ∧ 1 < chain.length ∧ LengthsAgree poolMapSample 512 1000 packet mem chain := by
  obtain ⟨info, s', created, agrees⟩ := sysBufLenCalc_agrees poolMapSample poolHooksNone
    systemMemoryPoolTx 512 64 poolMemBlank (by decide) (by decide) (by decide) (by decide)
    (by decide) (by decide)
  have allocated : ((systemMemoryPoolCreate poolMapSample true systemMemoryPoolTx 512 64
      poolMemBlank).any fun out => out.1.any fun info =>
        (sysBufAlloc poolMapSample poolHooksNone systemMemoryPoolTx 1000
          (out.2.putInfo systemMemoryPoolTx info)).any fun result => result.1 ≠ 0) = true := by
    decide +kernel
  rw [created, Option.any_some, Option.any_some] at allocated
  obtain ⟨⟨packet, mem⟩, done, found⟩ := (Option.any_eq_true _ _).mp allocated
  have found : packet ≠ 0 := of_decide_eq_true found
  obtain ⟨chain, agree⟩ := agrees _ .refl 1000 packet mem done found
  refine ⟨info, s', packet, mem, chain, created, done, found, ?_, agree⟩
  by_contra short
  have most := List.sum_le_card_nsmul
    (chain.map fun b => mem.field .mPayloadLength b - sizeofLmacTxhdr.toNat) 512 (by
      intro n member
      obtain ⟨b, inside, rfl⟩ := List.mem_map.mp member
      have := (agree.bounded b inside).2
      change _ ≤ 512 - _ at this
      omega)
  rw [agree.sum, List.length_map, smul_eq_mul] at most
  have : (1000 : UInt16).toNat = 1000 := rfl
  omega

end Tr6260
