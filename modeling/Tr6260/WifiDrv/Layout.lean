import Tr6260.WifiDrv.Scatter

/-!
# The layout of sent frames

The three copies put a frame over the chain that was allocated for it as `scatter` does.
`nrc_transmit_from_8023_mb` counts the lengths of the headers before it writes them; both agree. It
takes the Ethernet header from its first segment.
-/

namespace Tr6260

namespace WifiDrv

/-! ## Headers -/

theorem length_nrcGet80211Hdr (intf : WpaIf) (dest src : Mac) (key : Option WpaKey) (qos : Bool) :
    (nrcGet80211Hdr intf dest src key qos).length = 24 := by
  unfold nrcGet80211Hdr
  cases intf.isAp with
  | false => simp
  | true => simp

theorem length_nrcAddLlc (ethertype : Nat) :
    (nrcAddLlc ethertype).length = nrcGetLlcLen ethertype := by
  unfold nrcAddLlc nrcGetLlcLen
  by_cases small : ethertype < ethP8023Min
  · rw [if_pos small, if_neg (Nat.not_le_of_lt small)]
    rfl
  · rw [if_neg small, if_pos (Nat.le_of_not_lt small)]
    split
    · rfl
    · rfl

theorem length_secHdr (key : Option WpaKey) : (secHdr key).length = nrcGetSecHdrLen key := by
  cases key with
  | none => rfl
  | some key =>
    unfold secHdr nrcAddSecHdr nrcGetSecHdrLen
    dsimp only
    cases key.cipher with
    | _ => rfl

theorem nrcGetSecHdrLen_le (key : Option WpaKey) : nrcGetSecHdrLen key ≤ 8 := by
  cases key with
  | none => decide
  | some key =>
    unfold nrcGetSecHdrLen
    dsimp only
    cases key.cipher with
    | _ => decide

theorem nrcGetLlcLen_le (type : Nat) : nrcGetLlcLen type ≤ 8 := by
  unfold nrcGetLlcLen
  split
  · exact Nat.le_refl 8
  · exact Nat.zero_le 8

theorem length_head (intf : WpaIf) (ether : List UInt8) (total : Nat) (dsta : WpaSta) :
    let plan := txPlanFor intf ether total dsta
    plan.head.length = 24 + (if plan.qos then 2 else 0) + nrcGetSecHdrLen plan.key +
      nrcGetLlcLen (ethertype ether) := by
  intro plan
  have qos : (if plan.qos then nrcAddQos else []).length = if plan.qos then 2 else 0 := by
    cases plan.qos with
    | false => rfl
    | true => rfl
  change (nrcGet80211Hdr intf (etherDest ether) (etherSrc ether) plan.key plan.qos ++
    (if plan.qos then nrcAddQos else []) ++ secHdr plan.key ++ nrcAddLlc (ethertype ether)).length =
    _
  rw [List.length_append, List.length_append, List.length_append, length_nrcGet80211Hdr, qos,
    length_secHdr, length_nrcAddLlc]

/-- The lengths that are counted are those of the headers. -/
theorem txPlanFor_lengths (intf : WpaIf) (ether : List UInt8) (total : Nat) (dsta : WpaSta) :
    let plan := txPlanFor intf ether total dsta
    plan.hifLen = (4 + plan.head.length + total - 14) % 2 ^ 16 ∧ 24 ≤ plan.head.length ∧
      plan.head.length ≤ 42 := by
  intro plan
  have head : plan.head.length = 24 + (if plan.qos then 2 else 0) + nrcGetSecHdrLen plan.key +
      nrcGetLlcLen (ethertype ether) := length_head intf ether total dsta
  have sec := nrcGetSecHdrLen_le plan.key
  have llc := nrcGetLlcLen_le (ethertype ether)
  have hifLen : plan.hifLen = (4 + (24 + if plan.qos then 2 else 0) +
    nrcGetLlcLen (ethertype ether) + nrcGetSecHdrLen plan.key + total - 14) % 2 ^ 16 := rfl
  have qos : (if plan.qos then 2 else 0) ≤ 2 := by
    split
    · exact Nat.le_refl 2
    · exact Nat.zero_le 2
  refine ⟨?_, by omega, by omega⟩
  rw [hifLen, head]
  congr 2
  omega

/-! ## Chains -/

/-- The room of an allocated chain. -/
theorem chainRoom_of_lengths {chain : List SysBuf} {n : Nat}
    (lengths : chain.map (·.length) = sysBufLengths (4 + n)) : chainRoom chain = n := by
  rcases chain_of_lengths lengths with ⟨buffer, rest, rfl, length, -, behind⟩
  change buffer.length - 36 - 12 + restRoom rest = n
  omega

theorem scatter_untouched {chain : List SysBuf} {n : Nat}
    (lengths : chain.map (·.length) = sysBufLengths (4 + n)) (bytes : List UInt8) :
    Untouched chain (scatter chain bytes) := by
  rcases chain_of_lengths lengths with ⟨buffer, rest, rfl, length, fits, -⟩
  refine .cons (stored_untouched ?_) (scatterRest_untouched fits _)
  rw [List.length_take]
  change 68 + min (buffer.length - 36 - 12) bytes.length ≤ 20 + buffer.length
  omega

/-- A head in the first buffer and a frame behind it. -/
theorem copySegment_scatter {buffer : SysBuf} {rest : List SysBuf} {head frame : List UInt8}
    (lengths : (buffer :: rest).map (·.length) = sysBufLengths (4 + (head ++ frame).length))
    (small : head.length ≤ 42) :
    let c : Cursor := ⟨[], buffer.stored payload head, rest, payload + head.length,
      buffer.dataLength - sizeofPhyTxvector - head.length⟩
    c.Sound ∧ ∃ c', copySegment c frame = some c' ∧
      c'.chain = scatter (buffer :: rest) (head ++ frame) := by
  intro c
  rcases chain_of_lengths lengths with ⟨_, _, same, length, fits, behind⟩
  cases same
  rw [List.length_append] at length behind
  have remain : c.remain = (buffer.length - 48 - head.length : Nat) := by
    change (buffer.length : Int) - 36 - 12 - head.length = _
    omega
  have room : buffer.room - sizeofPhyTxvector = head.length + c.remain.toNat := by
    rw [remain]
    change buffer.length - 36 - 12 = head.length + (buffer.length - 48 - head.length)
    omega
  have sound : c.Sound := by
    refine ⟨by omega, ?_, fits⟩
    rw [remain]
    change 68 + head.length + (buffer.length - 48 - head.length) ≤ 512
    omega
  have enough : frame.length ≤ c.remain.toNat + restRoom c.rest := by
    change frame.length ≤ c.remain.toNat + restRoom rest
    rw [remain, Int.toNat_natCast]
    omega
  rcases copySegment_chain sound enough with ⟨c', run, chain⟩
  refine ⟨sound, c', run, ?_⟩
  rw [chain, scatter, room, List.take_length_add_append, List.drop_length_add_append]
  change (buffer.stored payload head).stored (payload + head.length) _ :: _ = _
  rw [stored_stored]

/-! ## Sending -/

/-- The interface behind a frame: the key has counted. -/
def countedIf (intf : WpaIf) (plan : TxPlan) : WpaIf :=
  match plan.keyRef with
  | none => intf
  | some ref => intf.modifyKey (fun key => (nrcAddSecHdr key).2) ref

/-- A frame that is sent, as one copy of all its bytes. -/
theorem transmit_copy {pool : Pool} {intf : WpaIf} {first : List UInt8} {others : List (List UInt8)}
    {plan : TxPlan} {buffer : SysBuf} {rest : List SysBuf} (header : hlen8023 ≤ first.length)
    (made : txPlan intf first ((first :: others).map List.length).sum = some plan)
    (allocated : pool.alloc plan.hifLen = some (buffer :: rest))
    (lengths : (buffer :: rest).map (·.length) =
      sysBufLengths (4 + (plan.head ++ (first :: others).flatten.drop hlen8023).length))
    (small : plan.head.length ≤ 42) :
    nrcTransmitFrom8023Mb pool intf (first :: others) =
      (txRequest intf plan
        (scatter (buffer :: rest) (plan.head ++ (first :: others).flatten.drop hlen8023))).map
        fun request => (some request, countedIf intf plan) := by
  have put : buffer.put payload plan.head = some (buffer.stored payload plan.head) := by
    apply put_eq
    change 68 + plan.head.length ≤ 512
    omega
  have whole : (first :: others).flatten.drop hlen8023 =
      (first.drop hlen8023 :: others).flatten := by
    rw [List.flatten_cons, List.flatten_cons, List.drop_append_of_le_length header]
  rcases copySegment_scatter lengths small with ⟨sound, c', run, chain⟩
  rw [whole, ← copySegments_flatten sound, List.foldlM_cons] at run
  rw [nrcTransmitFrom8023Mb, if_neg (Nat.not_lt_of_le header), made]
  dsimp only
  rw [allocated]
  dsimp only
  rw [put, Option.bind_eq_bind, Option.bind_some]
  rcases Option.bind_eq_some_iff.mp run with ⟨c1, one, more⟩
  rw [one, Option.bind_eq_bind, Option.bind_some, more, Option.bind_eq_bind, Option.bind_some,
    chain]
  cases txRequest intf plan (scatter (buffer :: rest) _) with
  | none => rfl
  | some request => rfl

/-- The length of a frame as it is counted, in 16 bits. -/
theorem txPlan_hifLen {intf : WpaIf} {first : List UInt8} {others : List (List UInt8)}
    {plan : TxPlan} (header : hlen8023 ≤ first.length)
    (made : txPlan intf first (first :: others).flatten.length = some plan) :
    plan.hifLen =
        (4 + (plan.head ++ (first :: others).flatten.drop hlen8023).length) % 2 ^ 16 ∧
      plan.head.length ≤ 42 := by
  rcases Option.bind_eq_some_iff.mp made with ⟨ref, -, found⟩
  rcases Option.bind_eq_some_iff.mp found with ⟨dsta, -, same⟩
  rcases txPlanFor_lengths intf first (first :: others).flatten.length dsta with
    ⟨hifLen, -, small⟩
  rw [Option.some_inj.mp same] at hifLen small
  have whole : 14 ≤ (first :: others).flatten.length := by
    rw [List.flatten_cons, List.length_append]
    change 14 ≤ first.length at header
    omega
  refine ⟨?_, small⟩
  rw [hifLen, List.length_append, List.length_drop]
  change _ = (4 + (plan.head.length + ((first :: others).flatten.length - 14))) % 2 ^ 16
  congr 1
  omega

/-- Nothing is sent of a frame whose length does not fit into 16 bits: the chain is too short. -/
theorem transmit_long {pool : Pool} {intf intf' : WpaIf} {first : List UInt8}
    {others : List (List UInt8)} {plan : TxPlan} {request : TxRequest}
    (header : hlen8023 ≤ first.length)
    (made : txPlan intf first (first :: others).flatten.length = some plan)
    (long : 2 ^ 16 ≤ 4 + (plan.head ++ (first :: others).flatten.drop hlen8023).length) :
    nrcTransmitFrom8023Mb pool intf (first :: others) ≠ some (some request, intf') := by
  rcases txPlan_hifLen header made with ⟨hifLen, small⟩
  intro sent
  rw [List.length_flatten] at made
  rw [nrcTransmitFrom8023Mb, if_neg (Nat.not_lt_of_le header), made] at sent
  dsimp only at sent
  cases allocated : pool.alloc plan.hifLen with
  | none =>
    rw [allocated] at sent
    cases sent
  | some chain =>
    rcases chain_of_lengths (pool.lengths _ _ allocated) with
      ⟨buffer, rest, rfl, length, fits, behind⟩
    have put : buffer.put payload plan.head = some (buffer.stored payload plan.head) := by
      apply put_eq
      change 68 + plan.head.length ≤ 512
      omega
    rw [allocated] at sent
    dsimp only at sent
    rw [put, Option.bind_eq_bind, Option.bind_some] at sent
    rcases Option.bind_eq_some_iff.mp sent with ⟨c1, one, sent⟩
    rcases Option.bind_eq_some_iff.mp sent with ⟨c2, more, -⟩
    have remain : buffer.dataLength - sizeofPhyTxvector - plan.head.length =
        (min 448 plan.hifLen : Int) - 4 - plan.head.length := by
      change (buffer.length : Int) - 36 - 12 - plan.head.length = _
      omega
    rw [remain] at one
    by_cases room : (min 448 plan.hifLen : Int) - 4 - plan.head.length < 0
    · rw [copySegment, if_pos room] at one
      cases one
    · have sound : Cursor.Sound ⟨[], buffer.stored payload plan.head, rest,
          payload + plan.head.length, (min 448 plan.hifLen : Int) - 4 - plan.head.length⟩ := by
        refine ⟨Int.not_lt.mp room, ?_, fits⟩
        change 68 + plan.head.length + ((min 448 plan.hifLen : Int) - 4 - plan.head.length).toNat ≤
          512
        omega
      have both : (first.drop hlen8023 :: others).foldlM copySegment
          (⟨[], buffer.stored payload plan.head, rest, payload + plan.head.length,
            (min 448 plan.hifLen : Int) - 4 - plan.head.length⟩ : Cursor) = some c2 := by
        rw [List.foldlM_cons, one]
        exact more
      have whole : (first :: others).flatten.drop hlen8023 =
          (first.drop hlen8023 :: others).flatten := by
        rw [List.flatten_cons, List.flatten_cons, List.drop_append_of_le_length header]
      rw [copySegments_flatten sound, ← whole, copySegment_overrun sound] at both
      · cases both
      · change ((min 448 plan.hifLen : Int) - 4 - plan.head.length).toNat + restRoom rest <
          ((first :: others).flatten.drop hlen8023).length
        rw [List.length_append] at long hifLen
        omega

/-- Only the Ethernet header of the first segment is looked at. -/
theorem txPlan_append (intf : WpaIf) {first : List UInt8} (header : hlen8023 ≤ first.length)
    (behind : List UInt8) (total : Nat) :
    txPlan intf first total = txPlan intf (first ++ behind) total := by
  change 14 ≤ first.length at header
  have mac : ∀ offset, offset ≤ 6 → macAt (first ++ behind) offset = macAt first offset := by
    intro offset small
    unfold macAt
    congr 1
    funext i
    exact List.getD_append _ _ _ _ (by omega)
  have dest : etherDest (first ++ behind) = etherDest first := mac 0 (by omega)
  have src : etherSrc (first ++ behind) = etherSrc first := mac 6 (by omega)
  have type : ethertype (first ++ behind) = ethertype first := by
    unfold ethertype
    rw [List.getD_append _ _ _ _ (by omega), List.getD_append _ _ _ _ (by omega)]
  unfold txPlan txPlanFor
  rw [dest, src, type]

/-- `copy_to_sysbuf` behind the first buffer. -/
theorem copyMore_scatterRest {rest : List SysBuf} (fits : ∀ buf ∈ rest, buf.Fits)
    {frame : List UInt8} (exact_ : frame.length = restRoom rest) :
    copyMore rest frame = some (scatterRest rest frame) := by
  induction rest generalizing frame with
  | nil =>
    rw [copyMore]
    rfl
  | cons buf rest ih =>
    cases frame with
    | nil =>
      rw [copyMore, scatterRest_nil]
    | cons x xs =>
      have here := fits buf List.mem_cons_self
      have ahead : ∀ b ∈ rest, b.Fits := fun b inside => fits b (List.mem_cons_of_mem _ inside)
      rw [restRoom, List.map_cons, List.sum_cons] at exact_
      have behind : ((x :: xs).drop buf.room).length = restRoom rest := by
        rw [List.length_drop, exact_, restRoom]
        omega
      have put : buf.put morePayload ((x :: xs).take buf.room) =
          some (buf.stored morePayload ((x :: xs).take buf.room)) := by
        apply put_eq
        have room := here.2
        rw [List.length_take]
        omega
      have goes : ¬ (buf.dataLength < 0 ∨ ((x :: xs).length : Int) < buf.dataLength ∧ rest ≠ []) := by
        rw [here.dataLength]
        omega
      rw [copyMore, if_neg goes, here.dataLength, Int.toNat_natCast, put, Option.bind_eq_bind,
        Option.bind_some, ih ahead behind]
      rfl

/-- `wifi_drv_raw_xmit` and `copy_to_sysbuf` store a frame alike. -/
theorem raw_scatter {chain : List SysBuf} {frame : List UInt8}
    (lengths : chain.map (·.length) = sysBufLengths (4 + frame.length)) :
    rawXmit chain frame = some (scatter chain frame) ∧
      copyToSysbuf chain frame = some (scatter chain frame) := by
  rcases chain_of_lengths lengths with ⟨buffer, rest, rfl, length, fits, behind⟩
  constructor
  · have head : buffer.stored payload [] = buffer := stored_nil buffer payload
    rcases @copySegment_scatter buffer rest [] frame lengths (by decide) with
      ⟨-, c', run, chain⟩
    rw [head, List.length_nil, Int.natCast_zero, Int.sub_zero, Nat.add_zero] at run
    rw [rawXmit, run, Option.map_some, chain, List.nil_append]
  · have data : buffer.dataLength - sizeofPhyTxvector = (buffer.room - sizeofPhyTxvector : Nat) := by
      change (buffer.length : Int) - 36 - 12 = (buffer.length - 36 - 12 : Nat)
      omega
    have room : buffer.room - sizeofPhyTxvector + restRoom rest = frame.length := by
      change buffer.length - 36 - 12 + restRoom rest = frame.length
      omega
    have last : payload + (buffer.room - sizeofPhyTxvector) ≤ lmacConfigBufferSize := by
      change 68 + (buffer.length - 36 - 12) ≤ 512
      omega
    have put : buffer.put payload (frame.take (buffer.room - sizeofPhyTxvector)) =
        some (buffer.stored payload (frame.take (buffer.room - sizeofPhyTxvector))) := by
      apply put_eq
      rw [List.length_take]
      omega
    have more : (frame.drop (buffer.room - sizeofPhyTxvector)).length = restRoom rest := by
      rw [List.length_drop]
      omega
    rw [copyToSysbuf, data, if_neg (by omega), Int.toNat_natCast, put, Option.bind_eq_bind, Option.bind_some,
      copyMore_scatterRest fits more]
    rfl

/-! ## The layout -/

/-- A frame that is sent: its bytes are in the payload areas in order, nothing is written behind
them, and it does not matter in what segments it came. -/
structure Scattered (pool : Pool) (intf : WpaIf) (frames : List (List UInt8)) (head : List UInt8)
    (chain : List SysBuf) : Prop where
  sent : ∃ request intf', nrcTransmitFrom8023Mb pool intf frames = some (some request, intf') ∧
    gather request.chain = head ++ frames.flatten.drop hlen8023 ∧ Untouched chain request.chain
  same : ∀ first others, hlen8023 ≤ first.length → (first :: others).flatten = frames.flatten →
    nrcTransmitFrom8023Mb pool intf (first :: others) = nrcTransmitFrom8023Mb pool intf frames

theorem transmit_scattered {pool : Pool} {intf : WpaIf} {first : List UInt8}
    {others : List (List UInt8)} {plan : TxPlan} {chain : List SysBuf}
    (header : hlen8023 ≤ first.length)
    (made : txPlan intf first (first :: others).flatten.length = some plan)
    (short : 4 + (plan.head ++ (first :: others).flatten.drop hlen8023).length < 2 ^ 16)
    (allocated : pool.alloc plan.hifLen = some chain) :
    Scattered pool intf (first :: others) plan.head chain := by
  rcases txPlan_hifLen header made with ⟨length, small⟩
  rw [Nat.mod_eq_of_lt short] at length
  have lengths := pool.lengths _ _ allocated
  rw [length] at lengths
  -- every cut of the frame is one copy
  have cut : ∀ first' others', hlen8023 ≤ first'.length →
      (first' :: others').flatten = (first :: others).flatten →
      nrcTransmitFrom8023Mb pool intf (first' :: others') =
        (txRequest intf plan
          (scatter chain (plan.head ++ (first :: others).flatten.drop hlen8023))).map
          fun request => (some request, countedIf intf plan) := by
    intro first' others' header' flat
    have made' : txPlan intf first' ((first' :: others').map List.length).sum = some plan := by
      rw [← List.length_flatten, flat, txPlan_append intf header' others'.flatten,
        ← List.flatten_cons, flat, List.flatten_cons, ← txPlan_append intf header,
        ← List.flatten_cons]
      exact made
    rcases chain_of_lengths lengths with ⟨buffer, rest, rfl, -⟩
    rw [← flat] at lengths ⊢
    exact transmit_copy header' made' allocated lengths small
  have here := cut first others header rfl
  have stored : gather (scatter chain (plan.head ++ (first :: others).flatten.drop hlen8023)) =
      plan.head ++ (first :: others).flatten.drop hlen8023 :=
    gather_scatter (chainRoom_of_lengths lengths).symm
  have untouched := scatter_untouched lengths
    (plan.head ++ (first :: others).flatten.drop hlen8023)
  refine ⟨?_, ?_⟩
  · rcases chain_of_lengths lengths with ⟨buffer, rest, rfl, -⟩
    exact ⟨_, _, here, stored, untouched⟩
  · intro first' others' header' flat
    rw [here]
    exact cut first' others' header' flat

/-- What has gone before when a frame was sent. -/
theorem transmit_sent {pool : Pool} {intf intf' : WpaIf} {first : List UInt8}
    {others : List (List UInt8)} {request : TxRequest}
    (sent : nrcTransmitFrom8023Mb pool intf (first :: others) = some (some request, intf')) :
    ∃ ref dsta buffer rest, nrcWpaFindSta intf (etherDest first) = some ref ∧
      intf.staAt ref = some dsta ∧
      let plan := txPlanFor intf first (first :: others).flatten.length dsta
      let frame := plan.head ++ (first :: others).flatten.drop hlen8023
      (buffer :: rest).map (·.length) = sysBufLengths (4 + frame.length) ∧
        frame.length < 2 ^ 16 ∧ txRequest intf plan (scatter (buffer :: rest) frame) = some request ∧
        intf' = countedIf intf plan := by
  have header : hlen8023 ≤ first.length := by
    by_contra short
    rw [nrcTransmitFrom8023Mb, if_pos (Nat.lt_of_not_le short)] at sent
    cases sent
  cases made : txPlan intf first (first :: others).flatten.length with
  | none =>
    rw [List.length_flatten] at made
    rw [nrcTransmitFrom8023Mb, if_neg (Nat.not_lt_of_le header), made] at sent
    cases sent
  | some plan =>
    rcases Option.bind_eq_some_iff.mp made with ⟨ref, found, rest⟩
    rcases Option.bind_eq_some_iff.mp rest with ⟨dsta, there, same⟩
    have short : 4 + (plan.head ++ (first :: others).flatten.drop hlen8023).length < 2 ^ 16 := by
      by_contra long
      exact transmit_long header made (Nat.le_of_not_lt long) sent
    rcases txPlan_hifLen header made with ⟨length, small⟩
    rw [Nat.mod_eq_of_lt short] at length
    rw [List.length_flatten] at made
    cases allocated : pool.alloc plan.hifLen with
    | none =>
      rw [nrcTransmitFrom8023Mb, if_neg (Nat.not_lt_of_le header), made] at sent
      dsimp only at sent
      rw [allocated] at sent
      cases sent
    | some chain =>
      have lengths := pool.lengths _ _ allocated
      rw [length] at lengths
      rcases chain_of_lengths lengths with ⟨buffer, rest, rfl, -⟩
      rw [transmit_copy header made allocated lengths small] at sent
      rcases Option.map_eq_some_iff.mp sent with ⟨request', asked, pair⟩
      rcases Prod.mk.inj pair with ⟨one, two⟩
      cases one
      refine ⟨ref, dsta, buffer, rest, found, there, ?_⟩
      rw [Option.some_inj.mp same]
      exact ⟨lengths, by omega, asked, two.symm⟩

/-- What is in the chain of a frame that was sent. -/
theorem transmit_stored {pool : Pool} {intf intf' : WpaIf} {first : List UInt8}
    {others : List (List UInt8)} {request : TxRequest}
    (sent : nrcTransmitFrom8023Mb pool intf (first :: others) = some (some request, intf')) :
    ∃ ref dsta, nrcWpaFindSta intf (etherDest first) = some ref ∧ intf.staAt ref = some dsta ∧
      let plan := txPlanFor intf first (first :: others).flatten.length dsta
      let frame := plan.head ++ (first :: others).flatten.drop hlen8023
      gather request.chain = frame ∧ frame.length < 2 ^ 16 := by
  rcases transmit_sent sent with
    ⟨ref, dsta, buffer, rest, found, there, lengths, short, asked, -⟩
  refine ⟨ref, dsta, found, there, ?_, short⟩
  rw [← Option.some_inj.mp asked]
  exact gather_scatter (chainRoom_of_lengths lengths).symm

/-- Frames that are sent are scattered exactly, and the two copies of a frame that is whole agree. -/
theorem frames_scattered (pool : Pool) :
    (∀ (intf : WpaIf) (first : List UInt8) (others : List (List UInt8)) (plan : TxPlan)
      (chain : List SysBuf), hlen8023 ≤ first.length →
      (first :: others).flatten.length < 60000 →
      txPlan intf first (first :: others).flatten.length = some plan →
      pool.alloc plan.hifLen = some chain →
      Scattered pool intf (first :: others) plan.head chain) ∧
    ∀ (frame : List UInt8) (chain : List SysBuf), sizeofFrameHdr + frame.length < 2 ^ 16 →
      pool.alloc (sizeofFrameHdr + frame.length) = some chain →
      ∃ chain', rawXmit chain frame = some chain' ∧ copyToSysbuf chain frame = some chain' ∧
        gather chain' = frame ∧ Untouched chain chain' := by
  constructor
  · intro intf first others plan chain header short made allocated
    have small := (txPlan_hifLen header made).2
    refine transmit_scattered header made ?_ allocated
    rw [List.length_append, List.length_drop]
    omega
  · intro frame chain _ allocated
    have lengths := pool.lengths _ _ allocated
    have both := raw_scatter lengths
    exact ⟨_, both.1, both.2, gather_scatter (chainRoom_of_lengths lengths).symm,
      scatter_untouched lengths frame⟩

/-- A pool that never runs out. -/
def freshPool : Pool :=
  ⟨fun hifLen => some ((sysBufLengths hifLen).map fun length => ⟨length, fun _ => 0⟩), by
    intro hifLen chain allocated
    rw [← Option.some_inj.mp allocated, List.map_map]
    exact List.map_id _⟩

/-- An Ethernet header for IPv4. -/
def ipHeader : List UInt8 := .replicate 6 2 ++ .replicate 6 4 ++ [8, 0]

theorem frames_scattered_ip :
    ∃ request intf', nrcTransmitFrom8023Mb freshPool idleStation [ipHeader, [1, 2, 3]] =
      some (some request, intf') ∧
      gather request.chain = [8, 1, 0, 0] ++ .replicate 6 0 ++ .replicate 6 4 ++ .replicate 6 2 ++
        [0, 0] ++ [0xaa, 0xaa, 3, 0, 0, 0, 8, 0] ++ [1, 2, 3] := by
  have sent := ((frames_scattered freshPool).1 idleStation ipHeader [[1, 2, 3]] _ _ (by decide)
    (by decide) rfl rfl).sent
  rcases sent with ⟨request, intf', run, stored, -⟩
  exact ⟨request, intf', run, stored⟩

/-- A first segment that is shorter than the Ethernet header is read beyond its end. -/
theorem frames_scattered_short : ¬ ∀ (pool : Pool) (intf : WpaIf) (first : List UInt8)
    (others : List (List UInt8)) (plan : TxPlan) (chain : List SysBuf),
    (first :: others).flatten.length < 60000 →
    txPlan intf first (first :: others).flatten.length = some plan →
    pool.alloc plan.hifLen = some chain → Scattered pool intf (first :: others) plan.head chain := by
  intro all
  have sent := (all freshPool idleStation [2, 2, 2, 2, 2, 2] [.replicate 60 0] _ _ (by decide) rfl
    rfl).sent
  rcases sent with ⟨request, intf', run, -⟩
  cases run

end WifiDrv

end Tr6260
