import Tr6260.ScRecv.Delivery

/-!
# Two rounds

The pieces of a round are stored one by one until the map of 16 bits is full, which is behind the
last piece when there are at most 16.
-/

namespace Tr6260

namespace ScRecv

/-! ## Completion -/

/-- The number of pieces after which the map is full. -/
def mapFull (data : List UInt8) : Nat := min (pieceCount data) 16

theorem cmp_eq {data : List UInt8} (fits : data.length ≤ usrDataBuffMaxSize) :
    (2 ^ pieceCount data - 1) % 2 ^ 16 = 2 ^ mapFull data - 1 := by
  have bits : ∀ n < 32, (2 ^ n - 1) % 2 ^ 16 = 2 ^ min n 16 - 1 := by
    decide
  apply bits
  change data.length ≤ 97 at fits
  change (data.length + 3) / 4 < 32
  omega

theorem map_injective : ∀ a < 17, ∀ b < 17, 2 ^ a - 1 = 2 ^ b - 1 → a = b := by
  decide

/-- As long as the map is not full nothing happens. -/
theorem scComplete_wait {s : ScContext} {type base pswdLen k : Nat} {data : List UInt8}
    (ready : Ready s type base pswdLen data k) (fits : data.length ≤ usrDataBuffMaxSize)
    (below : k < mapFull data) : (scComplete s).1 = s := by
  have most : mapFull data ≤ 16 := Nat.min_le_right _ _
  rw [scComplete, if_neg]
  rw [ready.cmp, ready.map, cmp_eq fits]
  intro same
  exact Nat.ne_of_gt below (map_injective _ (by omega) _ (by omega) same)

/-- When the map is full, the password is got, if enough was stored. -/
theorem scComplete_got {s : ScContext} {type base pswdLen : Nat} {data : List UInt8}
    (ready : Ready s type base pswdLen data (mapFull data))
    (fits : data.length ≤ usrDataBuffMaxSize) :
    (scComplete s).1.scState = .complete ∧
      (pswdLen < min (4 * mapFull data) data.length →
        (scComplete s).1.pswdLen = pswdLen ∧
        (scComplete s).1.pwd.load 0 pswdLen = data.take pswdLen ∧
        (scComplete s).1.randomNum = data.getD pswdLen 0) := by
  rw [scComplete, if_pos (by rw [ready.cmp, ready.map, cmp_eq fits])]
  refine ⟨rfl, fun enough => ⟨ready.pswdLen, ?_, ?_⟩⟩
  · change (s.pwd.store 0 (s.usrData.load 0 s.pswdLen)).load 0 pswdLen = _
    rw [ready.pswdLen]
    have held := (ByteMem.store_holds s.pwd 0 (s.usrData.load 0 pswdLen)).load
    rw [ByteMem.length_load] at held
    have stored := congrArg (List.take pswdLen) ready.stored
    rw [take_load _ _ (Nat.le_of_lt enough), List.take_take,
      Nat.min_eq_left (by omega)] at stored
    rw [held, stored]
  · change s.usrData s.pswdLen = _
    rw [ready.pswdLen]
    have stored : (s.usrData.load 0 (min (4 * mapFull data) data.length))[pswdLen]? =
        (data.take (4 * mapFull data))[pswdLen]? := by
      rw [ready.stored]
    rw [ByteMem.getElem?_load, if_pos enough, Nat.zero_add, List.getElem?_take,
      if_pos (by omega)] at stored
    rw [List.getD_eq_getElem?_getD, ← stored]
    rfl

/-! ## Pieces -/

/-- The codes from a piece on, with the next round. -/
def remaining (data : List UInt8) (k : Nat) : List Nat :=
  (List.range' k (pieceCount data - k)).flatMap (fun i => pieceCodes i (pieceOf data i)) ++
    dataCodes data

theorem remaining_zero (data : List UInt8) : remaining data 0 = dataCodes data ++ dataCodes data := by
  rw [remaining, dataCodes, List.range_eq_range']
  rfl

theorem remaining_succ {data : List UInt8} {k : Nat} (below : k < pieceCount data) :
    remaining data k = pieceCodes k (pieceOf data k) ++ remaining data (k + 1) := by
  have count : pieceCount data - k = pieceCount data - (k + 1) + 1 := by omega
  rw [remaining, count, List.range'_succ, List.flatMap_cons, List.append_assoc]
  rfl

theorem length_pieceOf (data : List UInt8) (k : Nat) :
    (pieceOf data k).length = min 4 (data.length - 4 * k) := by
  rw [pieceOf, List.length_take, List.length_drop]

/-- A round starts with a code that is not a byte. -/
theorem dataCodes_front {data : List UInt8} (some_ : data ≠ []) :
    3 ≤ (dataCodes data).length ∧ (dataCodes data).getD 0 0 &&& 0x0100 ≠ 0x0100 := by
  have long := List.length_pos_iff.mpr some_
  have count : pieceCount data = pieceCount data - 1 + 1 := by
    change (data.length + 3) / 4 = (data.length + 3) / 4 - 1 + 1
    omega
  have first := length_pieceOf data 0
  rw [dataCodes, List.range_eq_range', count, List.range'_succ, List.flatMap_cons, pieceCodes]
  refine ⟨?_, (mark_crc _).2.2.1⟩
  rw [List.length_append, List.length_cons, List.length_cons, List.length_map]
  omega

theorem dataCodes_low {data : List UInt8} (fits : data.length ≤ usrDataBuffMaxSize) :
    ∀ c ∈ dataCodes data, c < 2 ^ 9 := by
  intro c inside
  rcases List.mem_flatMap.mp inside with ⟨i, low, code⟩
  rw [List.mem_range] at low
  change data.length ≤ 97 at fits
  change i < (data.length + 3) / 4 at low
  exact pieceCodes_low (by omega) _ c code

/-- The window that a piece is found in. -/
structure PieceWindow (data : List UInt8) (k : Nat) (window rest : List Nat) (bytes : List UInt8) :
    Prop where
  codes : remaining data k = window ++ rest
  accepted : Accepted data.length (pieceCount data) window k bytes
  four : bytes.length = 4
  same : bytes.take (pieceOf data k).length = pieceOf data k
  low : ∀ c ∈ window, c < 2 ^ 9
  next : k + 1 < pieceCount data → rest = remaining data (k + 1)

theorem pieceWindow {data : List UInt8} {k : Nat} (some_ : data ≠ [])
    (fits : data.length ≤ usrDataBuffMaxSize) (below : k < pieceCount data) :
    ∃ window rest bytes, PieceWindow data k window rest bytes := by
  have codes := remaining_succ below
  have length := length_pieceOf data k
  have small : k < 128 := by
    change data.length ≤ 97 at fits
    change k < (data.length + 3) / 4 at below
    omega
  have lows := pieceCodes_low small (pieceOf data k)
  by_cases full : 4 * k + 4 ≤ data.length
  · have four : (pieceOf data k).length = 4 := by omega
    have near : k ≤ (data.length >>> 2) + 1 := by
      rw [Nat.shiftRight_eq_div_pow]
      omega
    generalize piece : pieceOf data k = bytes at *
    rcases bytes with _ | ⟨b0, _ | ⟨b1, _ | ⟨b2, _ | ⟨b3, _ | ⟨b4, more⟩⟩⟩⟩⟩
    · cases four
    · cases four
    · cases four
    · cases four
    · refine ⟨_, _, [b0, b1, b2, b3], codes, accepted_full small near b0 b1 b2 b3, rfl, ?_, lows,
        fun _ => rfl⟩
      rw [piece]
      rfl
    · cases four
  · -- the last piece, with the first codes of the next round
    have last : k + 1 = pieceCount data := by
      change k < (data.length + 3) / 4 at below
      change k + 1 = (data.length + 3) / 4
      omega
    have behind : remaining data (k + 1) = dataCodes data := by
      rw [remaining, last, Nat.sub_self]
      rfl
    rw [behind] at codes
    change k < (data.length + 3) / 4 at below
    have bytes : pieceOf data k ≠ [] := by
      intro none_
      rw [none_, List.length_nil] at length
      omega
    rcases dataCodes_front some_ with ⟨long, noByte⟩
    rcases accepted_short data.length small last bytes (by omega) (by omega) long
      noByte with ⟨bytes', accepted, same, four⟩
    refine ⟨_, (pieceCodes k (pieceOf data k) ++ dataCodes data).drop maxSeqCodeRecord, bytes', ?_,
      accepted, four, same, ?_, fun more => absurd last (by omega)⟩
    · rw [codes, List.take_append_drop]
    · intro c inside
      rcases List.mem_append.mp (List.mem_of_mem_take inside) with here | there
      · exact lows c here
      · exact dataCodes_low fits c there

theorem mapFull_le (data : List UInt8) : mapFull data ≤ pieceCount data ∧ mapFull data ≤ 16 :=
  ⟨Nat.min_le_left .., Nat.min_le_right ..⟩

/-- The frames of one piece. -/
theorem untilGot_piece {aps : List ApInfo} {stack : Int} {s : ScContext}
    {type base pswdLen k : Nat} {data : List UInt8} {frames : List (List UInt8)}
    {accesses : List Access} (low : type < maxPtype) (some_ : base ≠ 0) (small : base < 2 ^ 8)
    (filled : data ≠ []) (fits : data.length ≤ usrDataBuffMaxSize) (below : k < mapFull data)
    (ready : Ready s type base pswdLen data k)
    (stored : ∀ i, Access.usrData (i * 4) 4 ∈ accesses ↔ i < k)
    (sent : Sent type base (s.lastSn type) (remaining data k) frames) :
    ∃ s' frames' accesses', Ready s' type base pswdLen data (k + 1) ∧
      (∀ i, Access.usrData (i * 4) 4 ∈ accesses' ↔ i < k + 1) ∧
      (k + 1 < pieceCount data →
        Sent type base (s'.lastSn type) (remaining data (k + 1)) frames') ∧
      untilGot aps stack s frames accesses =
        let r := (scComplete s').1
        if r.scState = .complete then some (r, accesses')
        else untilGot aps stack r frames' accesses' := by
  rcases mapFull_le data with ⟨count, few⟩
  have before : k < pieceCount data := Nat.lt_of_lt_of_le below count
  rcases pieceWindow filled fits before with ⟨window, rest, bytes, here⟩
  rw [here.codes] at sent
  rcases untilGot_window aps stack ready low some_ small before
    (Nat.lt_of_lt_of_le below few) here.accepted here.low sent with
    ⟨lastSn, frames', new, behind, one, run⟩
  refine ⟨_, frames', accesses ++ new, ready.added before here.four here.same lastSn, ?_, ?_,
    run accesses⟩
  · intro i
    rw [List.mem_append, stored, one]
    omega
  · intro more
    rw [← here.next more]
    exact behind

/-- Frames from a piece on get the password when the map is full. -/
theorem untilGot_pieces (aps : List ApInfo) (stack : Int) {type base pswdLen : Nat}
    {data : List UInt8} (low : type < maxPtype) (some_ : base ≠ 0) (small : base < 2 ^ 8)
    (filled : data ≠ []) (fits : data.length ≤ usrDataBuffMaxSize) {more k : Nat} {s : ScContext}
    {frames : List (List UInt8)} {accesses : List Access} (place : k + more + 1 = mapFull data)
    (ready : Ready s type base pswdLen data k)
    (stored : ∀ i, Access.usrData (i * 4) 4 ∈ accesses ↔ i < k)
    (sent : Sent type base (s.lastSn type) (remaining data k) frames) :
    ∃ s' accesses', untilGot aps stack s frames accesses = some (s', accesses') ∧
      (∀ i, Access.usrData (i * 4) 4 ∈ accesses' ↔ i < mapFull data) ∧
      (pswdLen < min (4 * mapFull data) data.length → s'.pswdLen = pswdLen ∧
        s'.pwd.load 0 pswdLen = data.take pswdLen ∧ s'.randomNum = data.getD pswdLen 0) := by
  induction more generalizing k s frames accesses with
  | zero =>
    rcases untilGot_piece low some_ small filled fits (by omega) ready stored sent with
      ⟨s', frames', accesses', ready', stored', -, run⟩
    have full : k + 1 = mapFull data := place
    rw [full] at ready' stored'
    rcases scComplete_got ready' fits with ⟨complete, got⟩
    refine ⟨(scComplete s').1, accesses', ?_, stored', got⟩
    rw [run]
    exact if_pos complete
  | succ more ih =>
    rcases untilGot_piece low some_ small filled fits (by omega) ready stored sent with
      ⟨s', frames', accesses', ready', stored', sent', run⟩
    have wait := scComplete_wait ready' fits (by omega)
    have going : s'.scState ≠ .complete := by
      rw [ready'.state]
      decide
    have count := (mapFull_le data).1
    rw [run, wait]
    dsimp only
    rw [if_neg going]
    exact ih (by omega) ready' stored' (sent' (by omega))

/-! ## From the magic code on -/

theorem scRecv_magicDone (aps : List ApInfo) (stack : Int) {s : ScContext}
    {type base totalLen ssidCrc code : Nat} {codes : List Nat} {frame : List UInt8}
    (state : s.scState = .srcLocked) (known : s.baseLen type = base) (some_ : base ≠ 0)
    (small : base < 2 ^ 8) (total : totalLen < 2 ^ 7) (crc : ssidCrc < 2 ^ 8)
    (fed : Fed s.data (rowOf maxMagicCodeRecord type) maxMagicCodeRecord codes)
    (whole : codes ++ [code] = magicCodes totalLen ssidCrc) (typed : OfType type frame)
    (length : frame.length = base + code)
    (new : snOf frame ≠ s.lastSn type ∨ snOf frame = 0) :
    ∃ accesses, NoPiece accesses ∧ scRecv aps stack s frame =
      some ⟨.continue_, (s.saw type frame).gotMagic totalLen ssidCrc, accesses⟩ := by
  have known0 : (s.saw type frame).baseLen type ≠ 0 := known ▸ some_
  have inside : code ∈ magicCodes totalLen ssidCrc := by
    rw [← whole]
    exact List.mem_append_right _ (List.mem_singleton_self _)
  have codeIs : codeOf (s.saw type frame) (frame.length % 2 ^ 16) type = code := by
    rw [length]
    exact codeOf_length known small (magicCodes_low (by omega) crc code inside)
  have few : codes.length < maxMagicCodeRecord := by
    have five := congrArg List.length whole
    rw [List.length_append] at five
    change codes.length + 1 = 5 at five
    change codes.length < 5
    omega
  have pushed : Fed (pushRecord (s.saw type frame).data (rowOf maxMagicCodeRecord type)
      maxMagicCodeRecord (codeOf (s.saw type frame) (frame.length % 2 ^ 16) type))
      (rowOf maxMagicCodeRecord type) maxMagicCodeRecord (magicCodes totalLen ssidCrc) := by
    rw [codeIs, ← whole]
    exact fed.push few code
  have stage : Stage s.scState maxMagicCodeRecord := state ▸ .magic
  rcases scRecv_stage aps stack stage known0 typed new with ⟨accesses, quiet, run, -, -⟩
  refine ⟨_, quiet.append (noPiece_index type), ?_⟩
  rw [run state, magic_done known0 total crc pushed]

theorem scRecv_prefixDone (aps : List ApInfo) (stack : Int) {s : ScContext}
    {type base pswdLen code : Nat} {codes : List Nat} {frame : List UInt8}
    (state : s.scState = .magicCodeComplete) (known : s.baseLen type = base) (some_ : base ≠ 0)
    (small : base < 2 ^ 8) (password : pswdLen ≤ passwordMaxLen)
    (total : s.totalLen ≤ usrDataBuffMaxSize)
    (fed : Fed s.data (rowOf maxPrefixCodeRecord type) maxPrefixCodeRecord codes)
    (whole : codes ++ [code] = prefixCodes pswdLen) (typed : OfType type frame)
    (length : frame.length = base + code)
    (new : snOf frame ≠ s.lastSn type ∨ snOf frame = 0) :
    ∃ accesses lencrc, NoPiece accesses ∧ scRecv aps stack s frame =
      some ⟨.continue_, (s.saw type frame).gotPrefix pswdLen lencrc, accesses⟩ := by
  have known0 : (s.saw type frame).baseLen type ≠ 0 := known ▸ some_
  have low : pswdLen < 2 ^ 8 := Nat.lt_of_le_of_lt password (by decide)
  have inside : code ∈ prefixCodes pswdLen := by
    rw [← whole]
    exact List.mem_append_right _ (List.mem_singleton_self _)
  have codeIs : codeOf (s.saw type frame) (frame.length % 2 ^ 16) type = code := by
    rw [length]
    exact codeOf_length known small (prefixCodes_low low code inside)
  have few : codes.length < maxPrefixCodeRecord := by
    have four := congrArg List.length whole
    rw [List.length_append] at four
    change codes.length + 1 = 4 at four
    change codes.length < 4
    omega
  have pushed : Fed (pushRecord (s.saw type frame).data (rowOf maxPrefixCodeRecord type)
      maxPrefixCodeRecord (codeOf (s.saw type frame) (frame.length % 2 ^ 16) type))
      (rowOf maxPrefixCodeRecord type) maxPrefixCodeRecord (prefixCodes pswdLen) := by
    rw [codeIs, ← whole]
    exact fed.push few code
  have stage : Stage s.scState maxPrefixCodeRecord := state ▸ .prefix_
  rcases scRecv_stage aps stack stage known0 typed new with ⟨accesses, quiet, -, run, -⟩
  rcases prefix_done known0 password total pushed with ⟨lencrc, done⟩
  have more : NoPiece [.index type, .shift ((s.totalLen + 3) / 4)] := by
    intro pos inside
    rcases List.mem_cons.mp inside with here | inside
    · cases here
    · cases List.mem_singleton.mp inside
  refine ⟨_, lencrc, quiet.append more, ?_⟩
  rw [run state, done]
  rfl

/-- The total length was received. -/
structure GotMagic (s : ScContext) (type base totalLen : Nat) : Prop where
  state : s.scState = .magicCodeComplete
  base : s.baseLen type = base
  data : s.data = scDataZero
  totalLen : s.totalLen = totalLen
  map : s.seqSuccessMap = 0

theorem untilGot_magic (aps : List ApInfo) (stack : Int) {s : ScContext}
    {type base totalLen ssidCrc : Nat} {rest : List Nat} {frames : List (List UInt8)}
    (locked : LockedOn s type base) (low : type < maxPtype) (some_ : base ≠ 0)
    (small : base < 2 ^ 8) (total : totalLen < 2 ^ 7) (crc : ssidCrc < 2 ^ 8)
    (sent : Sent type base (s.lastSn type) (magicCodes totalLen ssidCrc ++ rest) frames) :
    ∃ s' frames' new, GotMagic s' type base totalLen ∧
      Sent type base (s'.lastSn type) rest frames' ∧ NoPiece new ∧
      ∀ accesses, untilGot aps stack s frames accesses =
        untilGot aps stack s' frames' (accesses ++ new) := by
  have lows := magicCodes_low (by omega : totalLen < 2 ^ 8) crc
  have split : magicCodes totalLen ssidCrc =
      (magicCodes totalLen ssidCrc).take 4 ++ [(magicCodes totalLen ssidCrc).getD 4 0] := rfl
  have fed : Fed s.data (rowOf maxMagicCodeRecord type) maxMagicCodeRecord [] := by
    rw [locked.data]
    exact fed_zero low (by decide)
  have four : ([] : List Nat).length + ((magicCodes totalLen ssidCrc).take 4).length <
      maxMagicCodeRecord := Nat.lt_succ_self 4
  rw [split, List.append_assoc] at sent
  rcases untilGot_feed aps stack (locked.state ▸ .magic : Stage s.scState maxMagicCodeRecord)
    locked.base some_ small fed (fun c inside => lows c (List.mem_of_mem_take inside)) four sent
    with ⟨moved, lastSn, frames', new, fed', sent', quiet, run⟩
  cases sent' with
  | cons typed length sn behind =>
    rename_i frame frames'
    rcases scRecv_magicDone aps stack (s := s.waited moved lastSn) locked.state locked.base some_
      small total crc fed' split.symm typed length sn with ⟨more, quietMore, received⟩
    refine ⟨((s.waited moved lastSn).saw type frame).gotMagic totalLen ssidCrc, frames', new ++ more,
      ⟨rfl, locked.base, rfl, rfl, locked.map⟩, ?_, quiet.append quietMore, fun accesses => ?_⟩
    · change Sent type base (Function.update lastSn type (snOf frame) type) _ _
      rw [Function.update_self]
      exact behind
    · rw [run, untilGot, received]
      dsimp only
      rw [if_neg (by decide), List.append_assoc]

/-- The password's length was received: no piece is stored yet. -/
theorem untilGot_prefix (aps : List ApInfo) (stack : Int) {s : ScContext}
    {type base pswdLen : Nat} {data : List UInt8} {rest : List Nat} {frames : List (List UInt8)}
    (got : GotMagic s type base data.length) (low : type < maxPtype) (some_ : base ≠ 0)
    (small : base < 2 ^ 8) (fits : data.length ≤ usrDataBuffMaxSize)
    (password : pswdLen ≤ passwordMaxLen)
    (sent : Sent type base (s.lastSn type) (prefixCodes pswdLen ++ rest) frames) :
    ∃ s' frames' new, Ready s' type base pswdLen data 0 ∧
      Sent type base (s'.lastSn type) rest frames' ∧ NoPiece new ∧
      ∀ accesses, untilGot aps stack s frames accesses =
        untilGot aps stack s' frames' (accesses ++ new) := by
  have lows := prefixCodes_low (Nat.lt_of_le_of_lt password (by decide) : pswdLen < 2 ^ 8)
  have split : prefixCodes pswdLen =
      (prefixCodes pswdLen).take 3 ++ [(prefixCodes pswdLen).getD 3 0] := rfl
  have fed : Fed s.data (rowOf maxPrefixCodeRecord type) maxPrefixCodeRecord [] := by
    rw [got.data]
    exact fed_zero low (by decide)
  have three : ([] : List Nat).length + ((prefixCodes pswdLen).take 3).length <
      maxPrefixCodeRecord := Nat.lt_succ_self 3
  rw [split, List.append_assoc] at sent
  rcases untilGot_feed aps stack (got.state ▸ .prefix_ : Stage s.scState maxPrefixCodeRecord)
    got.base some_ small fed (fun c inside => lows c (List.mem_of_mem_take inside)) three sent
    with ⟨moved, lastSn, frames', new, fed', sent', quiet, run⟩
  cases sent' with
  | cons typed length sn behind =>
    rename_i frame frames'
    rcases scRecv_prefixDone aps stack (s := s.waited moved lastSn) got.state got.base some_ small
      password (got.totalLen ▸ fits) fed' split.symm typed length sn with
      ⟨more, lencrc, quietMore, received⟩
    refine ⟨((s.waited moved lastSn).saw type frame).gotPrefix pswdLen lencrc, frames', new ++ more,
      ⟨rfl, got.base, rfl, got.totalLen, ?_, ?_, got.map, rfl, ?_⟩, ?_, quiet.append quietMore,
      fun accesses => ?_⟩
    · change (s.totalLen + 3) / 4 = _
      rw [got.totalLen]
      rfl
    · change (1 <<< ((s.totalLen + 3) / 4) - 1) % 2 ^ 16 = _
      rw [got.totalLen, Nat.one_shiftLeft]
      rfl
    · rw [Nat.mul_zero, Nat.zero_min]
      rfl
    · change Sent type base (Function.update lastSn type (snOf frame) type) _ _
      rw [Function.update_self]
      exact behind
    · rw [run, untilGot, received]
      dsimp only
      rw [if_neg (by decide), List.append_assoc]

/-! ## Delivery -/

/-- The codes of two rounds. -/
def twoRounds (data : List UInt8) (pswdLen ssidCrc : Nat) : List Nat :=
  magicCodes data.length ssidCrc ++ (prefixCodes pswdLen ++ (dataCodes data ++ dataCodes data))

/-- Two rounds end when the map is full. -/
theorem untilGot_twoRounds (aps : List ApInfo) (stack : Int) {s : ScContext}
    {type base pswdLen ssidCrc : Nat} {data : List UInt8} {frames : List (List UInt8)}
    (low : type < maxPtype) (some_ : base ≠ 0) (small : base < 2 ^ 8)
    (fits : data.length ≤ usrDataBuffMaxSize) (password : pswdLen ≤ passwordMaxLen)
    (random : pswdLen < data.length) (crc : ssidCrc < 2 ^ 8) (locked : LockedOn s type base)
    (sent : Sent type base (s.lastSn type) (twoRounds data pswdLen ssidCrc) frames) :
    ∃ s' accesses, untilGot aps stack s frames [] = some (s', accesses) ∧
      (∀ i, Access.usrData (i * 4) 4 ∈ accesses ↔ i < mapFull data) ∧
      (pswdLen < min (4 * mapFull data) data.length → s'.pswdLen = pswdLen ∧
        s'.pwd.load 0 pswdLen = data.take pswdLen ∧ s'.randomNum = data.getD pswdLen 0) := by
  have filled : data ≠ [] := by
    rintro rfl
    exact absurd random (Nat.not_lt_zero _)
  have count : mapFull data = min ((data.length + 3) / 4) 16 := rfl
  have fits' : data.length ≤ 97 := fits
  rcases untilGot_magic aps stack locked low some_ small (by omega) crc sent with
    ⟨s1, frames1, new1, got, sent1, quiet1, run1⟩
  rcases untilGot_prefix aps stack got low some_ small fits password sent1 with
    ⟨s2, frames2, new2, ready, sent2, quiet2, run2⟩
  rw [← remaining_zero] at sent2
  have none_ : ∀ i, Access.usrData (i * 4) 4 ∈ [] ++ new1 ++ new2 ↔ i < 0 := by
    intro i
    rw [List.nil_append]
    exact iff_of_false (quiet1.append quiet2 (i * 4)) (Nat.not_lt_zero i)
  have place : 0 + (mapFull data - 1) + 1 = mapFull data := by omega
  rcases untilGot_pieces aps stack low some_ small filled fits place ready none_ sent2 with
    ⟨s', accesses, run, stored, right⟩
  refine ⟨s', accesses, ?_, stored, right⟩
  rw [run1, run2]
  exact run

/-- With more than 16 pieces the password is got before they are stored. -/
theorem not_delivered {aps : List ApInfo} {stack : Int} {s s' : ScContext} {pswdLen : Nat}
    {data : List UInt8} {frames : List (List UInt8)} {accesses : List Access}
    (run : untilGot aps stack s frames [] = some (s', accesses))
    (stored : ∀ i, Access.usrData (i * 4) 4 ∈ accesses ↔ i < mapFull data)
    (long : 64 < data.length) : ¬ Delivered aps stack s frames data pswdLen := by
  rintro ⟨s'', accesses', run', all, -⟩
  cases run.symm.trans run'
  have below : 16 < pieceCount data := by
    change 16 < (data.length + 3) / 4
    omega
  have most := (mapFull_le data).2
  have piece := (stored 16).mp (all 16 below)
  omega

/-- Two rounds deliver the password if and only if there are at most 64 bytes of data. -/
theorem delivered_iff {aps : List ApInfo} {stack : Int} {s : ScContext}
    {type base pswdLen ssidCrc : Nat} {data : List UInt8} {frames : List (List UInt8)}
    (low : type < maxPtype) (some_ : base ≠ 0) (small : base < 2 ^ 8)
    (fits : data.length ≤ usrDataBuffMaxSize) (password : pswdLen ≤ passwordMaxLen)
    (random : pswdLen < data.length) (crc : ssidCrc < 2 ^ 8) (locked : LockedOn s type base)
    (sent : Sent type base (s.lastSn type) (twoRounds data pswdLen ssidCrc) frames) :
    Delivered aps stack s frames data pswdLen ↔ data.length ≤ 64 := by
  rcases untilGot_twoRounds aps stack low some_ small fits password random crc locked sent with
    ⟨s', accesses, run, stored, right⟩
  constructor
  · intro delivered
    by_contra long
    exact not_delivered run stored (Nat.lt_of_not_le long) delivered
  · intro short
    have every : mapFull data = pieceCount data := by
      change min ((data.length + 3) / 4) 16 = (data.length + 3) / 4
      omega
    have enough : pswdLen < min (4 * mapFull data) data.length := by
      rw [every]
      change pswdLen < min (4 * ((data.length + 3) / 4)) data.length
      omega
    refine ⟨s', accesses, run, ?_, right enough⟩
    intro i below
    rw [stored, every]
    exact below

/-- The header of a broadcast frame from an access point, with one of two sequence numbers. -/
def carrierHead (odd : Bool) : List UInt8 :=
  [0x08, 0x42, 0, 0] ++ broadAddr ++ .replicate 6 2 ++ .replicate 6 4 ++
    [if odd then 0x10 else 0x20, 0]

/-- A broadcast frame of some length. -/
def carrier (odd : Bool) (length : Nat) : List UInt8 :=
  carrierHead odd ++ .replicate (length - 24) 0

theorem carrier_getD (odd : Bool) (length : Nat) {i : Nat} (low : i < 24) :
    (carrier odd length).getD i 0 = (carrierHead odd).getD i 0 := List.getD_append _ _ _ _ low

/-- Frames that carry some codes above a base of 80. -/
def carriers : Bool → List Nat → List (List UInt8)
  | _, [] => []
  | odd, code :: codes => carrier odd (80 + code) :: carriers (!odd) codes

theorem sent_carriers (codes : List Nat) : ∀ (odd : Bool) (last : Nat),
    last ≠ (if odd then 1 else 2) → Sent brodaTypeFrds 80 last codes (carriers odd codes) := by
  induction codes with
  | nil => exact fun _ last _ => .nil last
  | cons code codes ih =>
    intro odd last other
    have length : (carrier odd (80 + code)).length = 80 + code := by
      rw [carrier, List.length_append, List.length_replicate]
      change 24 + (80 + code - 24) = 80 + code
      omega
    have sn : snOf (carrier odd (80 + code)) = if odd then 1 else 2 := by
      rw [snOf, carrier_getD odd _ (by decide : 22 < 24), carrier_getD odd _ (by decide : 23 < 24)]
      cases odd with
      | false => decide
      | true => decide
    have flags : (carrier odd (80 + code)).getD 1 0 = 0x42 := rfl
    have typed : OfType brodaTypeFrds (carrier odd (80 + code)) := by
      refine ⟨by omega, ?_, ?_, .inl ⟨?_, .inr ⟨rfl, rfl⟩⟩⟩
      all_goals
        rw [flags]
        decide
    refine .cons typed length (.inl (by rw [sn]; exact other.symm)) (ih _ _ ?_)
    rw [sn]
    cases odd with
    | false => decide
    | true => decide

/-- The source of broadcast frames is locked. -/
def lockedBroadcast : ScContext :=
  { ScContext.start with
    scState := .srcLocked, baseLen := fun type => if type = brodaTypeFrds then 80 else 0 }

/-- Eight bytes of a password, a token and an SSID. -/
def userData : List UInt8 := [0x31, 0x32, 0x33, 0x34, 0x35, 0x36, 0x37, 0x38, 0x07, 0x61, 0x62]

theorem delivered_iff_password : Delivered [] 0 lockedBroadcast
    (carriers true (twoRounds userData 8 0x5a)) userData 8 :=
  (delivered_iff (by decide) (by decide) (by decide) (by decide) (by decide) (by decide) (by decide)
    ⟨rfl, rfl, rfl, rfl⟩ (sent_carriers _ true 0 (by decide))).mpr (by decide)

/-- 65 bytes are not all stored. -/
theorem delivered_incomplete : ¬ ∀ (data : List UInt8) (pswdLen ssidCrc : Nat)
    (frames : List (List UInt8)), data.length ≤ usrDataBuffMaxSize → pswdLen ≤ passwordMaxLen →
    pswdLen < data.length → ssidCrc < 2 ^ 8 →
    Sent brodaTypeFrds 80 0 (twoRounds data pswdLen ssidCrc) frames →
    Delivered [] 0 lockedBroadcast frames data pswdLen := by
  intro all
  have sent := sent_carriers (twoRounds (.replicate 65 7) 8 0x5a) true 0 (by decide)
  rcases untilGot_twoRounds [] 0 (s := lockedBroadcast) (by decide) (by decide) (by decide)
    (by decide) (by decide) (by decide) (by decide) ⟨rfl, rfl, rfl, rfl⟩ sent with
    ⟨s', accesses, run, stored, -⟩
  exact not_delivered run stored (by decide)
    (all _ 8 0x5a _ (by decide) (by decide) (by decide) (by decide) sent)

end ScRecv

end Tr6260
