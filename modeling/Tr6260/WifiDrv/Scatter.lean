import Tr6260.WifiDrv.Transmit

/-!
# Frames over buffers

The copy loops spread a frame over a chain in one way, whatever the segments it comes in: `scatter`.
Each buffer is given as many bytes as its length says.
-/

namespace ByteMem

theorem store_nil (m : ByteMem) (addr : Nat) : m.store addr [] = m := by
  funext a
  rw [store, if_neg]
  rintro ⟨low, high⟩
  rw [List.length_nil] at high
  omega

theorem store_append (m : ByteMem) (addr : Nat) (xs ys : List UInt8) :
    m.store addr (xs ++ ys) = (m.store addr xs).store (addr + xs.length) ys := by
  funext a
  simp only [store, List.length_append]
  by_cases second : addr + xs.length ≤ a ∧ a < addr + xs.length + ys.length
  · have whole : addr ≤ a ∧ a < addr + (xs.length + ys.length) := by omega
    rw [if_pos whole, if_pos second, List.getD_append_right _ _ _ _ (by omega)]
    congr 1
    omega
  · rw [if_neg second]
    by_cases first : addr ≤ a ∧ a < addr + xs.length
    · have whole : addr ≤ a ∧ a < addr + (xs.length + ys.length) := by omega
      rw [if_pos first, if_pos whole, List.getD_append _ _ _ _ (by omega)]
    · have neither : ¬ (addr ≤ a ∧ a < addr + (xs.length + ys.length)) := by omega
      rw [if_neg first, if_neg neither]

end ByteMem

namespace Tr6260

namespace WifiDrv

/-! ## Where the bytes go -/

/-- The room of a buffer behind the first. -/
def SysBuf.room (buf : SysBuf) : Nat := buf.length - sizeofLmacTxhdr.toNat

/-- A buffer behind the first, as long as `sys_buf_alloc` makes one. -/
def SysBuf.Fits (buf : SysBuf) : Prop :=
  sizeofLmacTxhdr.toNat ≤ buf.length ∧ morePayload + buf.room ≤ lmacConfigBufferSize

def SysBuf.stored (buf : SysBuf) (pos : Nat) (bytes : List UInt8) : SysBuf :=
  { buf with ram := buf.ram.store pos bytes }

/-- Bytes over the buffers behind the first. -/
def scatterRest : List SysBuf → List UInt8 → List SysBuf
  | [], _ => []
  | buf :: rest, bytes =>
    buf.stored morePayload (bytes.take buf.room) :: scatterRest rest (bytes.drop buf.room)

/-- Bytes over a chain. -/
def scatter : List SysBuf → List UInt8 → List SysBuf
  | [], _ => []
  | buf :: rest, bytes =>
    let room := buf.room - sizeofPhyTxvector
    buf.stored payload (bytes.take room) :: scatterRest rest (bytes.drop room)

def restRoom (rest : List SysBuf) : Nat := (rest.map (·.room)).sum

/-- The bytes in the payload areas of a chain, in order. -/
def gatherRest (rest : List SysBuf) : List UInt8 :=
  rest.flatMap fun buf => buf.ram.load morePayload buf.room

def gather : List SysBuf → List UInt8
  | [] => []
  | buf :: rest => buf.ram.load payload (buf.room - sizeofPhyTxvector) ++ gatherRest rest

theorem put_eq {buf : SysBuf} {pos : Nat} {bytes : List UInt8}
    (fits : pos + bytes.length ≤ lmacConfigBufferSize) :
    buf.put pos bytes = some (buf.stored pos bytes) := by
  rw [SysBuf.put, if_pos fits]
  rfl

theorem stored_stored (buf : SysBuf) (pos : Nat) (xs ys : List UInt8) :
    (buf.stored pos xs).stored (pos + xs.length) ys = buf.stored pos (xs ++ ys) := by
  unfold SysBuf.stored
  rw [ByteMem.store_append]

theorem stored_nil (buf : SysBuf) (pos : Nat) : buf.stored pos [] = buf := by
  unfold SysBuf.stored
  rw [ByteMem.store_nil]

theorem scatterRest_nil (rest : List SysBuf) : scatterRest rest [] = rest := by
  induction rest with
  | nil => rfl
  | cons buf rest ih => rw [scatterRest, List.take_nil, List.drop_nil, stored_nil, ih]

/-! ## One segment -/

/-- A cursor whose buffers are of the right lengths. -/
structure Cursor.Sound (c : Cursor) : Prop where
  remain : 0 ≤ c.remain
  here : c.pos + c.remain.toNat ≤ lmacConfigBufferSize
  ahead : ∀ buf ∈ c.rest, buf.Fits

theorem Cursor.Sound.advance {c : Cursor} (sound : c.Sound) {cur : SysBuf} {n : Nat}
    (fits : n ≤ c.remain.toNat) : Cursor.Sound ⟨c.done, cur, c.rest, c.pos + n, c.remain - n⟩ := by
  have remain := sound.remain
  have here := sound.here
  refine ⟨?_, ?_, sound.ahead⟩
  · change 0 ≤ c.remain - n
    omega
  · change c.pos + n + (c.remain - n).toNat ≤ lmacConfigBufferSize
    omega

/-- The next buffer. -/
def Cursor.next (done : List SysBuf) (cur buf : SysBuf) (rest : List SysBuf) : Cursor :=
  ⟨done ++ [cur], buf, rest, morePayload, buf.room⟩

theorem SysBuf.Fits.dataLength {buf : SysBuf} (fits : buf.Fits) : buf.dataLength = buf.room := by
  have long := fits.1
  rw [SysBuf.dataLength, SysBuf.room]
  omega

theorem Cursor.Sound.next {done : List SysBuf} {cur buf : SysBuf} {rest : List SysBuf}
    (fits : ∀ b ∈ buf :: rest, b.Fits) : (Cursor.next done cur buf rest).Sound := by
  refine ⟨Int.natCast_nonneg _, ?_, fun b inside => fits b (List.mem_cons_of_mem _ inside)⟩
  exact (fits buf List.mem_cons_self).2

theorem copyRest_done (rest done : List SysBuf) (cur : SysBuf) (pos : Nat) (remain : Int) :
    copyRest rest done cur pos remain [] = some ⟨done, cur, rest, pos, remain⟩ := by
  cases rest with
  | nil => rfl
  | cons buf rest => rfl

theorem copyRest_end {done : List SysBuf} {cur : SysBuf} {pos : Nat} {remain : Int}
    {frame : List UInt8} (more : frame ≠ []) : copyRest [] done cur pos remain frame = none := by
  cases frame with
  | nil => exact absurd rfl more
  | cons x frame => rfl

/-- What does not fit here goes to the next buffer. -/
theorem copyRest_cons {done : List SysBuf} {cur buf : SysBuf} {rest : List SysBuf} {pos : Nat}
    {remain : Int} {frame : List UInt8} (fits : buf.Fits) (more : frame ≠ []) :
    copyRest (buf :: rest) done cur pos remain frame =
      copySegment (Cursor.next done cur buf rest) frame := by
  cases frame with
  | nil => exact absurd rfl more
  | cons x frame =>
    rw [copyRest, copySegment, fits.dataLength]
    rfl

/-- A segment that fits into this buffer. -/
theorem copySegment_here {c : Cursor} (sound : c.Sound) {frame : List UInt8}
    (fits : frame.length ≤ c.remain.toNat) :
    copySegment c frame = some ⟨c.done, c.cur.stored c.pos frame, c.rest, c.pos + frame.length,
      c.remain - frame.length⟩ := by
  have room := sound.here
  rw [copySegment, if_neg (Int.not_lt.mpr sound.remain)]
  dsimp only
  rw [Nat.min_eq_left fits, List.take_length, List.drop_length, put_eq (by omega)]
  exact copyRest_done ..

/-- A segment that does not. -/
theorem copySegment_beyond {c : Cursor} (sound : c.Sound) {frame : List UInt8}
    (long : c.remain.toNat < frame.length) :
    copySegment c frame = match c.rest with
      | [] => none
      | buf :: rest => copySegment (Cursor.next c.done
          (c.cur.stored c.pos (frame.take c.remain.toNat)) buf rest)
          (frame.drop c.remain.toNat) := by
  have room := sound.here
  have more : frame.drop c.remain.toNat ≠ [] := by
    intro none_
    have short := congrArg List.length none_
    rw [List.length_drop, List.length_nil] at short
    omega
  rw [copySegment, if_neg (Int.not_lt.mpr sound.remain)]
  dsimp only
  rw [Nat.min_eq_right (Nat.le_of_lt long), put_eq (by rw [List.length_take]; omega)]
  cases behind : c.rest with
  | nil => exact copyRest_end more
  | cons buf rest =>
    have fits : buf.Fits := sound.ahead buf (behind ▸ List.mem_cons_self)
    exact copyRest_cons fits more

/-- Where a segment ends up. -/
theorem copySegment_chain {c : Cursor} (sound : c.Sound) {frame : List UInt8}
    (fits : frame.length ≤ c.remain.toNat + restRoom c.rest) :
    ∃ c', copySegment c frame = some c' ∧
      c'.chain = c.done ++ c.cur.stored c.pos (frame.take c.remain.toNat) ::
        scatterRest c.rest (frame.drop c.remain.toNat) := by
  rcases c with ⟨done, cur, rest, pos, remain⟩
  induction rest generalizing done cur pos remain frame with
  | nil =>
    have here : frame.length ≤ remain.toNat := fits
    refine ⟨_, copySegment_here sound here, ?_⟩
    rw [List.take_of_length_le here]
    rfl
  | cons buf rest ih =>
    by_cases here : frame.length ≤ remain.toNat
    · refine ⟨_, copySegment_here sound here, ?_⟩
      rw [List.take_of_length_le here, List.drop_of_length_le here, scatterRest_nil]
      rfl
    · have long := Nat.lt_of_not_le here
      rw [copySegment_beyond sound long]
      have next : (Cursor.next done (cur.stored pos (frame.take remain.toNat)) buf rest).Sound :=
        .next sound.ahead
      have room : (frame.drop remain.toNat).length ≤ buf.room + restRoom rest := by
        change frame.length ≤ remain.toNat + restRoom (buf :: rest) at fits
        rw [restRoom, List.map_cons, List.sum_cons] at fits
        rw [List.length_drop, restRoom]
        omega
      rcases ih _ buf morePayload buf.room next room with ⟨c', run, chain⟩
      refine ⟨c', run, ?_⟩
      rw [chain, List.append_assoc]
      rfl

/-- A segment for which there is no room. -/
theorem copySegment_overrun {c : Cursor} (sound : c.Sound) {frame : List UInt8}
    (long : c.remain.toNat + restRoom c.rest < frame.length) : copySegment c frame = none := by
  rcases c with ⟨done, cur, rest, pos, remain⟩
  induction rest generalizing done cur pos remain frame with
  | nil => rw [copySegment_beyond sound (Nat.lt_of_le_of_lt (Nat.le_add_right _ _) long)]
  | cons buf rest ih =>
    rw [copySegment_beyond sound (Nat.lt_of_le_of_lt (Nat.le_add_right _ _) long)]
    have next : (Cursor.next done (cur.stored pos (frame.take remain.toNat)) buf rest).Sound :=
      .next sound.ahead
    refine ih _ buf morePayload buf.room next ?_
    change remain.toNat + restRoom (buf :: rest) < frame.length at long
    rw [restRoom, List.map_cons, List.sum_cons] at long
    change buf.room + restRoom rest < (frame.drop remain.toNat).length
    rw [List.length_drop, restRoom]
    omega

/-! ## Several segments -/

/-- Copying keeps a cursor sound. -/
theorem copySegment_sound {c c' : Cursor} (sound : c.Sound) {frame : List UInt8}
    (run : copySegment c frame = some c') : c'.Sound := by
  rcases c with ⟨done, cur, rest, pos, remain⟩
  induction rest generalizing done cur pos remain frame with
  | nil =>
    by_cases here : frame.length ≤ remain.toNat
    · rw [copySegment_here sound here] at run
      cases run
      exact sound.advance here
    · rw [copySegment_beyond sound (Nat.lt_of_not_le here)] at run
      cases run
  | cons buf rest ih =>
    by_cases here : frame.length ≤ remain.toNat
    · rw [copySegment_here sound here] at run
      cases run
      exact sound.advance here
    · rw [copySegment_beyond sound (Nat.lt_of_not_le here)] at run
      exact ih _ buf morePayload buf.room (.next sound.ahead) run

/-- A segment that fits here, and another one. -/
theorem copySegment_append_here {c : Cursor} (sound : c.Sound) {xs : List UInt8}
    (here : xs.length ≤ c.remain.toNat) (ys : List UInt8) :
    copySegment c (xs ++ ys) = (copySegment c xs).bind fun c => copySegment c ys := by
  have sound1 : Cursor.Sound ⟨c.done, c.cur.stored c.pos xs, c.rest, c.pos + xs.length,
      c.remain - xs.length⟩ := sound.advance here
  have left : (c.remain - xs.length).toNat = c.remain.toNat - xs.length := by omega
  rw [copySegment_here sound here, Option.bind_some]
  by_cases both : (xs ++ ys).length ≤ c.remain.toNat
  · have second : ys.length ≤ (c.remain - xs.length).toNat := by
      rw [List.length_append] at both
      omega
    rw [copySegment_here sound both, copySegment_here sound1 second]
    dsimp only
    rw [stored_stored, List.length_append, Nat.add_assoc, Int.natCast_add, Int.sub_sub]
  · have long := Nat.lt_of_not_le both
    have second : (c.remain - xs.length).toNat < ys.length := by
      rw [List.length_append] at long
      omega
    rw [copySegment_beyond sound long, copySegment_beyond sound1 second]
    dsimp only
    rw [stored_stored, left, List.take_append, List.drop_append, List.take_of_length_le here,
      List.drop_of_length_le here, List.nil_append]

/-- One segment behind another is both at once. -/
theorem copySegment_append {c : Cursor} (sound : c.Sound) (xs ys : List UInt8) :
    copySegment c (xs ++ ys) = (copySegment c xs).bind fun c => copySegment c ys := by
  rcases c with ⟨done, cur, rest, pos, remain⟩
  induction rest generalizing done cur pos remain xs with
  | nil =>
    by_cases here : xs.length ≤ remain.toNat
    · exact copySegment_append_here sound here ys
    · have long := Nat.lt_of_not_le here
      have whole : remain.toNat < (xs ++ ys).length := by
        rw [List.length_append]
        omega
      rw [copySegment_beyond sound long, copySegment_beyond sound whole]
      rfl
  | cons buf rest ih =>
    by_cases here : xs.length ≤ remain.toNat
    · exact copySegment_append_here sound here ys
    · have long := Nat.lt_of_not_le here
      have whole : remain.toNat < (xs ++ ys).length := by
        rw [List.length_append]
        omega
      rw [copySegment_beyond sound long, copySegment_beyond sound whole]
      dsimp only
      rw [List.take_append_of_le_length (Nat.le_of_lt long),
        List.drop_append_of_le_length (Nat.le_of_lt long)]
      exact ih _ _ buf morePayload buf.room (.next sound.ahead)

/-- All segments are one. -/
theorem copySegments_flatten {c : Cursor} (sound : c.Sound) (frames : List (List UInt8)) :
    frames.foldlM copySegment c = copySegment c frames.flatten := by
  induction frames generalizing c with
  | nil =>
    rw [List.flatten_nil, copySegment_here sound (Nat.zero_le _)]
    change some c = _
    rw [stored_nil, List.length_nil, Int.natCast_zero, Int.sub_zero, Nat.add_zero]
  | cons frame frames ih =>
    rw [List.foldlM_cons, List.flatten_cons, copySegment_append sound]
    cases run : copySegment c frame with
    | none => rfl
    | some c' => exact ih (copySegment_sound sound run)

/-! ## The lengths of a chain -/

theorem sysBufRest_fits {fuel hifLen length : Nat} (inside : length ∈ sysBufRest fuel hifLen) :
    36 ≤ length ∧ length ≤ 492 := by
  induction fuel generalizing hifLen with
  | zero => cases inside
  | succ fuel ih =>
    rw [sysBufRest] at inside
    split at inside
    · cases inside
    · rcases List.mem_cons.mp inside with rfl | inside
      · change 36 ≤ 36 + min 456 hifLen ∧ 36 + min 456 hifLen ≤ 492
        omega
      · exact ih inside

theorem sysBufRest_sum {fuel hifLen : Nat} (enough : hifLen ≤ fuel) :
    ((sysBufRest fuel hifLen).map (· - 36)).sum = hifLen := by
  induction fuel generalizing hifLen with
  | zero =>
    rw [Nat.le_zero.mp enough]
    rfl
  | succ fuel ih =>
    rw [sysBufRest]
    split
    · next none_ =>
      rw [none_]
      rfl
    · next some_ =>
      change (36 + min 456 hifLen - 36) +
        ((sysBufRest fuel (hifLen - min 456 hifLen)).map (· - 36)).sum = hifLen
      rw [ih (by omega)]
      omega

/-- A chain that was allocated for a length. -/
theorem chain_of_lengths {chain : List SysBuf} {hifLen : Nat}
    (lengths : chain.map (·.length) = sysBufLengths hifLen) :
    ∃ buffer rest, chain = buffer :: rest ∧ buffer.length = 44 + min 448 hifLen ∧
      (∀ buf ∈ rest, buf.Fits) ∧ restRoom rest = hifLen - min 448 hifLen := by
  cases chain with
  | nil => cases lengths
  | cons buffer rest =>
    have parts : buffer.length = 44 + min 448 hifLen ∧
        rest.map (·.length) = sysBufRest hifLen (hifLen - min 448 hifLen) := by
      rw [List.map_cons] at lengths
      exact List.cons_eq_cons.mp lengths
    refine ⟨buffer, rest, rfl, parts.1, ?_, ?_⟩
    · intro buf inside
      have there : buf.length ∈ sysBufRest hifLen (hifLen - min 448 hifLen) :=
        parts.2 ▸ List.mem_map_of_mem inside
      have bounds := sysBufRest_fits there
      refine ⟨bounds.1, ?_⟩
      change 56 + (buf.length - 36) ≤ 512
      omega
    · have sum := sysBufRest_sum (Nat.sub_le hifLen (min 448 hifLen))
      rw [← parts.2, List.map_map] at sum
      exact sum

/-! ## What is stored -/

theorem load_stored (buf : SysBuf) (pos : Nat) (bytes : List UInt8) :
    (buf.stored pos bytes).ram.load pos bytes.length = bytes :=
  (ByteMem.store_holds buf.ram pos bytes).load

theorem gatherRest_scatterRest {rest : List SysBuf} {bytes : List UInt8}
    (exact_ : bytes.length = restRoom rest) : gatherRest (scatterRest rest bytes) = bytes := by
  induction rest generalizing bytes with
  | nil => exact (List.length_eq_zero_iff.mp exact_).symm
  | cons buf rest ih =>
    rw [restRoom, List.map_cons, List.sum_cons] at exact_
    have here : (bytes.take buf.room).length = buf.room := by
      rw [List.length_take]
      omega
    have behind : (bytes.drop buf.room).length = restRoom rest := by
      rw [List.length_drop, restRoom]
      omega
    have first := load_stored buf morePayload (bytes.take buf.room)
    rw [here] at first
    rw [scatterRest, gatherRest, List.flatMap_cons]
    change (buf.stored morePayload (bytes.take buf.room)).ram.load morePayload buf.room ++
      gatherRest (scatterRest rest (bytes.drop buf.room)) = bytes
    rw [first, ih behind, List.take_append_drop]

/-- The whole room of a chain. -/
def chainRoom : List SysBuf → Nat
  | [] => 0
  | buf :: rest => buf.room - sizeofPhyTxvector + restRoom rest

theorem gather_scatter {chain : List SysBuf} {bytes : List UInt8}
    (exact_ : bytes.length = chainRoom chain) : gather (scatter chain bytes) = bytes := by
  cases chain with
  | nil => exact (List.length_eq_zero_iff.mp exact_).symm
  | cons buf rest =>
    rw [chainRoom] at exact_
    have here : (bytes.take (buf.room - sizeofPhyTxvector)).length =
        buf.room - sizeofPhyTxvector := by
      rw [List.length_take]
      omega
    have behind : (bytes.drop (buf.room - sizeofPhyTxvector)).length = restRoom rest := by
      rw [List.length_drop]
      omega
    have first := load_stored buf payload (bytes.take (buf.room - sizeofPhyTxvector))
    rw [here] at first
    change (buf.stored payload (bytes.take (buf.room - sizeofPhyTxvector))).ram.load payload
      (buf.room - sizeofPhyTxvector) ++
      gatherRest (scatterRest rest (bytes.drop (buf.room - sizeofPhyTxvector))) = bytes
    rw [first, gatherRest_scatterRest behind, List.take_append_drop]

/-- Nothing is written behind the lengths of the buffers. -/
def Untouched : List SysBuf → List SysBuf → Prop :=
  List.Forall₂ fun buf buf' => buf'.length = buf.length ∧
    ∀ a, sizeofSysHdr + buf.length ≤ a → buf'.ram a = buf.ram a

theorem stored_untouched {buf : SysBuf} {pos : Nat} {bytes : List UInt8}
    (within : pos + bytes.length ≤ sizeofSysHdr + buf.length) :
    (buf.stored pos bytes).length = buf.length ∧
      ∀ a, sizeofSysHdr + buf.length ≤ a → (buf.stored pos bytes).ram a = buf.ram a := by
  refine ⟨rfl, fun a behind => ?_⟩
  change buf.ram.store pos bytes a = buf.ram a
  rw [ByteMem.store, if_neg (by omega)]

theorem scatterRest_untouched {rest : List SysBuf} (fits : ∀ buf ∈ rest, buf.Fits)
    (bytes : List UInt8) : Untouched rest (scatterRest rest bytes) := by
  induction rest generalizing bytes with
  | nil => exact .nil
  | cons buf rest ih =>
    refine .cons (stored_untouched ?_)
      (ih (fun b inside => fits b (List.mem_cons_of_mem _ inside)) _)
    have long := (fits buf List.mem_cons_self).1
    rw [List.length_take]
    change 56 + min (buf.length - 36) bytes.length ≤ 20 + buf.length
    change 36 ≤ buf.length at long
    omega

end WifiDrv

end Tr6260
