import Mathlib.Data.List.Infix
import Tr6260.AmtNv.Search

/-!
# Compaction

The scan of `amt_nv_gc` walks over a RAM copy of the first half of the
partition and replaces every deleted record by the used one of the second half.
The walk moves by the record length on a record and word by word over blank
space, so it meets every slot exactly at its start: this is the content of
`amtNvGcScan_eqAt`.
-/

namespace Tr6260

open FlashProg ByteMem

/-- The cache shows the copies `view` in their slots and is blank behind them. -/
structure CacheAt (view : (s : AmtNvSlot) → Copy s) (cache : ByteMem) : Prop where
  slots : ∀ s, cache.Holds s.start (copyBytes (view s))
  tail : cache.Erased 528 (amtNvSize - 528)

/-- The copy of a slot after compaction. -/
def compactCopy {s : AmtNvSlot} (v : Option (SlotData s)) : Copy s := (PairState.ofValue v).copy0

/-! ## Steps of the scan -/

theorem head_magic (m : ByteMem) (offset : Nat) :
    (AmtNvHead.ofBytes (m.load offset amtNvHeadSize)).magic =
      (m offset).toNat + 256 * (m (offset + 1)).toNat := by
  simp [AmtNvHead.ofBytes, le16, amtNvHeadSize, ByteMem.load]

theorem head_valLen (m : ByteMem) (offset : Nat) :
    (AmtNvHead.ofBytes (m.load offset amtNvHeadSize)).valLen = (m (offset + 4)).toNat := by
  simp [AmtNvHead.ofBytes, amtNvHeadSize, ByteMem.load]

theorem amtNvGcScan_unfold (base offset : Nat) (cache : ByteMem) :
    amtNvGcScan base offset cache = (amtNvGcStep base offset cache >>= fun cache' =>
      if offset + amtNvGcAdvance offset cache cache' < amtNvSize then
        amtNvGcScan base (offset + amtNvGcAdvance offset cache cache') cache'
      else Pure.pure cache') := by
  rw [amtNvGcScan]
  simp only [dite_eq_ite]

/-- Over two blank bytes the scan moves on by one word. -/
theorem amtNvGcScan_blank_word (base : Nat) {offset : Nat} {cache : ByteMem}
    (blank : cache.Erased offset 2) :
    amtNvGcScan base offset cache =
      if offset + 4 < amtNvSize then amtNvGcScan base (offset + 4) cache
      else Pure.pure cache := by
  have magic : (AmtNvHead.ofBytes (cache.load offset amtNvHeadSize)).magic ≠ amtNvMagicValue := by
    rw [head_magic, blank offset (by omega) (by omega), blank (offset + 1) (by omega) (by omega)]
    decide
  have step : amtNvGcStep base offset cache = Pure.pure cache := by
    rw [amtNvGcStep, if_neg (fun both => magic both.1)]
  have advance : amtNvGcAdvance offset cache cache = 4 := by
    rw [amtNvGcAdvance, if_neg (fun both => magic both.1)]
  rw [amtNvGcScan_unfold, step, ret_bind, advance]

/-- Over a blank slot the scan moves on to the next one. -/
theorem amtNvGcScan_blank (base : Nat) {cache : ByteMem} (words : Nat) {offset : Nat}
    (blank : cache.Erased offset (4 * words)) (more : offset + 4 * words < amtNvSize) :
    amtNvGcScan base offset cache = amtNvGcScan base (offset + 4 * words) cache := by
  induction words generalizing offset with
  | zero => rfl
  | succ words ih =>
    rw [amtNvGcScan_blank_word base (blank.sub (Nat.le_refl _) (by omega)), if_pos (by omega),
      ih (blank.sub (by omega) (by omega)) (by omega),
      show offset + 4 + 4 * words = offset + 4 * (words + 1) by omega]

/-- Behind the last slot the scan runs to its end. -/
theorem amtNvGcScan_tail (base : Nat) {cache : ByteMem} (words : Nat) {offset : Nat}
    (blank : cache.Erased offset (amtNvSize - offset)) (left : 2048 = offset + 4 * (words + 1)) :
    amtNvGcScan base offset cache = Pure.pure cache := by
  induction words generalizing offset with
  | zero =>
    rw [amtNvGcScan_blank_word base (blank.sub (Nat.le_refl _) (by unfold amtNvSize; omega)),
      if_neg (by unfold amtNvSize; omega)]
  | succ words ih =>
    rw [amtNvGcScan_blank_word base (blank.sub (Nat.le_refl _) (by unfold amtNvSize; omega)),
      if_pos (by unfold amtNvSize; omega),
      ih (blank.sub (by omega) (by unfold amtNvSize; omega)) (by omega)]

section Slot

variable {s : AmtNvSlot} {cache : ByteMem}

/-- The distance moved over a record. -/
theorem amtNvGcAdvance_record {before after : ByteMem} {c : Copy s} {data : SlotData s}
    (record : c = .dele data ∨ c = .used data) (held : before.Holds s.start (copyBytes c))
    {data' : SlotData s} (held' : after.Holds s.start (copyBytes (.used data'))) :
    amtNvGcAdvance s.start before after = s.offset := by
  have head := Copy.head_eq held
  have len : (after (s.start + 4)).toNat = s.len := by
    rw [← head_valLen, Copy.head_eq held']
    rfl
  rw [amtNvGcAdvance, if_pos, len, s.wordAlign_head]
  rw [head]
  rcases record with rfl | rfl
  · exact ⟨rfl, .inl rfl⟩
  · exact ⟨rfl, .inr rfl⟩

theorem slot_more (s : AmtNvSlot) : s.start + s.offset < amtNvSize := by
  have := s.start_add_offset_le
  unfold amtNvSize
  omega

/-- A used record stays and is stepped over. -/
theorem amtNvGcScan_used (base : Nat) {data : SlotData s}
    (held : cache.Holds s.start (copyBytes (.used data))) :
    amtNvGcScan base s.start cache = amtNvGcScan base (s.start + s.offset) cache := by
  have step : amtNvGcStep base s.start cache = Pure.pure cache := by
    rw [amtNvGcStep, if_neg]
    rw [Copy.head_eq held]
    exact fun both => absurd both.2 (show ¬ amtNvStateUsed = amtNvStateDele by decide)
  rw [amtNvGcScan_unfold, step, ret_bind, amtNvGcAdvance_record (.inr rfl) held held,
    if_pos (slot_more s)]

/-- The bytes of a used copy, cut where the scan writes them. -/
theorem copyBytes_used (data : SlotData s) :
    copyBytes (.used data) = usedHead data ++ data.1 ++
      List.replicate (s.offset - (amtNvHeadSize + s.len)) 0xFF := by
  have front : usedHead data = (amtNvRecord stateUsedBytes data.1).take amtNvHeadSize := by
    rw [usedHead, copyBytes, paddedRecord, List.take_append_of_le_length
      (by rw [length_amtNvRecord rfl]; omega)]
  have back : data.1 = (amtNvRecord stateUsedBytes data.1).drop amtNvHeadSize :=
    (amtNvRecord_drop _ _ _).symm
  rw [front, copyBytes, paddedRecord]
  nth_rewrite 3 [back]
  rw [List.take_append_drop]

/-- Writing head and data of `data` over a deleted record gives its used copy. -/
theorem store_used {old : SlotData s} (data : SlotData s)
    (held : cache.Holds s.start (copyBytes (.dele old))) :
    ((cache.store s.start (usedHead data)).store (s.start + amtNvHeadSize) data).Holds s.start
      (copyBytes (.used data)) := by
  have headLen := length_usedHead data
  have pad := (holds_append.mp held).2
  rw [length_amtNvRecord rfl, old.2] at pad
  rw [copyBytes_used, holds_append, holds_append, List.length_append, headLen, data.2]
  refine ⟨⟨(store_holds cache _ _).congr (store_frame _ _ _ (Or.inl ?_)), ?_⟩, ?_⟩
  · rw [headLen]
  · exact store_holds _ _ _
  · refine (pad.congr (store_frame cache _ _ (Or.inr ?_))).congr (store_frame _ _ _ (Or.inr ?_))
    · rw [headLen]
      omega
    · rw [data.2]
      omega

/-- A deleted record is replaced by the used one of the second half. -/
theorem amtNvGcScan_dele {m : ByteMem} {base : Nat} {old data : SlotData s}
    (held : cache.Holds s.start (copyBytes (.dele old)))
    (held0 : m.Holds (base + s.start) (copyBytes (.dele old)))
    (held1 : m.Holds (base + s.start + amtNvBlockSize) (copyBytes (.used data))) :
    EqAt m (amtNvGcScan base s.start cache)
      (amtNvGcScan base (s.start + s.offset)
        ((cache.store s.start (usedHead data)).store (s.start + amtNvHeadSize) data)) := by
  have stored := store_used data held
  have search : EqAt m (amtNvSearch (base + s.start))
      (Pure.pure (PairState.second old data).found) :=
    amtNvSearch_eqAt (p := .second old data) held0 held1
  have len : ((cache.store s.start (usedHead data)) (s.start + 4)).toNat = s.len := by
    have head := congrArg AmtNvHead.valLen (Copy.head_eq stored)
    rw [head_valLen] at head
    have kept := store_frame (cache.store s.start (usedHead data)) (s.start + amtNvHeadSize)
      data.1 (Or.inl (Nat.le_refl (s.start + amtNvHeadSize)))
    rw [kept (s.start + 4) (by omega) (by unfold amtNvHeadSize; omega), head]
    rfl
  have step : EqAt m (amtNvGcStep base s.start cache) (Pure.pure
      ((cache.store s.start (usedHead data)).store (s.start + amtNvHeadSize) data)) := by
    rw [amtNvGcStep, if_pos (by rw [Copy.head_eq held]; exact ⟨rfl, rfl⟩)]
    refine (search.bind _).trans ?_
    rw [ret_bind]
    change EqAt m (ite (1 < amtNvBlockNum) _ _) _
    rw [if_pos (show 1 < amtNvBlockNum by decide)]
    change EqAt m (halSpiflashRead _ ((cache.store s.start (usedHead data)) (s.start + 4)).toNat
      >>= _) _
    rw [len]
    refine (halSpiflashRead_bind _ _ _ m).trans ?_
    change EqAt m (Pure.pure ((cache.store s.start (usedHead data)).store (s.start + amtNvHeadSize)
      (m.load (base + s.start + 1 * amtNvBlockSize + amtNvHeadSize) s.len))) _
    rw [Nat.one_mul, Copy.load_data held1]
    exact .refl m _
  rw [amtNvGcScan_unfold]
  refine (step.bind _).trans ?_
  rw [ret_bind, amtNvGcAdvance_record (.inl rfl) held stored, if_pos (slot_more s)]
  exact .refl m _

end Slot

/-! ## The whole scan -/

/-- Where the scan stands with the slots `rest` still ahead. -/
def scanStart : List AmtNvSlot → Nat
  | [] => 528
  | s :: _ => s.start

theorem scanStart_next {s : AmtNvSlot} {rest : List AmtNvSlot}
    (ahead : s :: rest <:+ AmtNvSlot.all) : s.start + s.offset = scanStart rest := by
  have chain : ∀ l ∈ AmtNvSlot.all.tails,
      (l.head?.map fun s => s.start + s.offset) = l.head?.map fun _ => scanStart l.tail := by
    decide +kernel
  exact Option.some.inj (chain (s :: rest) ((List.mem_tails _ _).mpr ahead))

theorem all_nodup : AmtNvSlot.all.Nodup := by decide +kernel

theorem CacheAt.update {view : (s : AmtNvSlot) → Copy s} {cache cache' : ByteMem}
    (shows : CacheAt view cache) (s : AmtNvSlot) {c : Copy s}
    (held : cache'.Holds s.start (copyBytes c))
    (frame : ∀ addr len, (addr + len ≤ s.start ∨ s.start + s.offset ≤ addr) →
      AgreeOn cache cache' addr len) : CacheAt (Function.update view s c) cache' := by
  refine ⟨fun t => ?_, ?_⟩
  · by_cases same : t = s
    · subst same
      rwa [Function.update_self]
    · have apart := AmtNvSlot.start_disjoint same
      rw [Function.update_of_ne same]
      refine (shows.slots t).congr (frame _ _ ?_)
      rw [length_copyBytes]
      exact apart
  · have := s.start_add_offset_le
    exact shows.tail.congr (frame _ _ (Or.inr (by omega)))

/-- The scan compacts all slots of the cache and leaves the flash alone. -/
theorem amtNvGcScan_eqAt {part : AmtPartition} {σ : SlotPairs} {m : ByteMem}
    (rep : AmtRep part σ m) (rest : List AmtNvSlot) (ahead : rest <:+ AmtNvSlot.all)
    {view : (s : AmtNvSlot) → Copy s} {cache : ByteMem} (shows : CacheAt view cache)
    (todo : ∀ s ∈ rest, view s = (σ s).copy0)
    (finished : ∀ s, s ∉ rest → view s = compactCopy (σ.values s)) :
    ∃ cache', EqAt m (amtNvGcScan part.base (scanStart rest) cache) (Pure.pure cache') ∧
      CacheAt (fun s => compactCopy (σ.values s)) cache' := by
  induction rest generalizing view cache with
  | nil =>
    refine ⟨cache, ?_, ?_⟩
    · rw [scanStart, amtNvGcScan_tail part.base 379 shows.tail rfl]
      exact .refl m _
    · have same : view = fun s => compactCopy (σ.values s) := funext fun s => finished s (by simp)
      rwa [← same]
  | cons s rest ih =>
    have next := scanStart_next ahead
    have behind : rest <:+ AmtNvSlot.all := (List.suffix_cons s rest).trans ahead
    have fresh : s ∉ rest := (List.nodup_cons.mp (all_nodup.sublist ahead.sublist)).1
    have here := shows.slots s
    rw [todo s List.mem_cons_self] at here
    -- a slot whose first copy already counts needs no change
    have unchanged (same : (σ s).copy0 = compactCopy (σ.values s))
        (skip : amtNvGcScan part.base s.start cache =
          amtNvGcScan part.base (s.start + s.offset) cache) :
        ∃ cache', EqAt m (amtNvGcScan part.base s.start cache) (Pure.pure cache') ∧
          CacheAt (fun s => compactCopy (σ.values s)) cache' := by
      rw [skip, next]
      refine ih behind shows (fun t ht => todo t (List.mem_cons_of_mem _ ht)) fun t ht => ?_
      by_cases eq : t = s
      · subst eq
        rw [todo t List.mem_cons_self, same]
      · exact finished t (by simp [eq, ht])
    rw [scanStart]
    cases hp : σ s with
    | empty =>
      rw [hp] at here
      refine unchanged (by simp [compactCopy, SlotPairs.values, hp, PairState.value,
        PairState.ofValue, PairState.copy0]) ?_
      have words : s.offset = 4 * (s.offset / 4) := by have := s.offset_mod; omega
      rw [words]
      refine amtNvGcScan_blank part.base _ ?_ (by rw [← words]; exact slot_more s)
      rw [← words]
      exact erased_iff_holds.mpr here
    | first data | both data lost | kept data lost =>
      rw [hp] at here
      exact unchanged (by simp [compactCopy, SlotPairs.values, hp, PairState.value,
        PairState.ofValue, PairState.copy0]) (amtNvGcScan_used part.base here)
    | second old data =>
      have held0 := rep.first s
      have held1 := rep.second s
      rw [hp] at here held0 held1
      have compact : compactCopy (σ.values s) = .used data := by
        simp [compactCopy, SlotPairs.values, hp, PairState.value, PairState.ofValue,
          PairState.copy0]
      have stored := shows.update s (store_used data here) (fun addr len apart => by
        have room := s.head_len_le
        refine (store_frame cache _ _ ?_).trans (store_frame _ _ _ ?_)
        · rw [length_usedHead]
          omega
        · rw [data.2]
          omega)
      obtain ⟨cache', same, compacted⟩ := ih behind stored
        (fun t ht => by
          rw [Function.update_of_ne (ne_of_mem_of_not_mem ht fresh)]
          exact todo t (List.mem_cons_of_mem _ ht))
        (fun t ht => by
          by_cases eq : t = s
          · subst eq
            rw [Function.update_self, compact]
          · rw [Function.update_of_ne eq]
            exact finished t (by simp [eq, ht]))
      rw [← next] at same
      exact ⟨cache', (amtNvGcScan_dele here held0 held1).trans same, compacted⟩

end Tr6260
