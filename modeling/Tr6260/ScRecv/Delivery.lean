import Mathlib.Data.Nat.Bitwise
import Tr6260.ScRecv.Window

/-!
# Delivering the password

A sender lays a total length, the length of the password and the data out over the lengths of its
frames. `sc_recv` completes when a map of 16 bits is full, so that it waits for all pieces only when
there are at most 16 of them. The last piece may be short: it is recognised when its checksum has
come to the front of the window, behind the first codes of the next round.
-/

namespace Tr6260

namespace ScRecv

/-! ## The sender -/

/-- The codes of the total length and of the name's checksum. -/
def magicCodes (totalLen ssidCrc : Nat) : List Nat :=
  let c0 := 0x40 ||| totalLen >>> 4
  let c1 := 0x10 ||| totalLen &&& 0xF
  let c2 := 0x20 ||| ssidCrc >>> 4
  let c3 := 0x30 ||| ssidCrc &&& 0xF
  [c0, c1, c2, c3, c0 ^^^ c1 ^^^ c2 ^^^ c3]

/-- The codes of the password's length. -/
def prefixCodes (pswdLen : Nat) : List Nat :=
  let crc := (calcrc1byte (.ofNat pswdLen)).toNat
  [0x40 ||| pswdLen >>> 4, 0x50 ||| pswdLen &&& 0xF, 0x60 ||| crc >>> 4, 0x70 ||| crc &&& 0xF]

/-- The codes of a piece. -/
def pieceCodes (i : Nat) (bytes : List UInt8) : List Nat :=
  (0x80 ||| (calcrcBytes (.ofNat i :: bytes) &&& 0x7F).toNat) :: (0x80 ||| i) ::
    bytes.map fun byte => 0x100 ||| byte.toNat

/-- A piece of the data: four bytes, the last one may have less. -/
def pieceOf (data : List UInt8) (i : Nat) : List UInt8 := (data.drop (4 * i)).take 4

/-- The number of pieces. -/
def pieceCount (data : List UInt8) : Nat := (data.length + 3) / 4

/-- The codes of all pieces. -/
def dataCodes (data : List UInt8) : List Nat :=
  (List.range (pieceCount data)).flatMap fun i => pieceCodes i (pieceOf data i)

/-- A frame that `sc_filter` takes to be of a type. -/
structure OfType (type : Nat) (frame : List UInt8) : Prop where
  long : 24 ≤ frame.length
  first : frame.getD 1 0 &&& 0x08 = 0
  encrypted : frame.getD 1 0 &&& 0x40 ≠ 0
  address : (frame.getD 1 0 &&& 0x02 = 0x02 ∧ (type = multiTypeFrds ∧ addrAt frame 4 = mutilAddr ∨
      type = brodaTypeFrds ∧ addrAt frame 4 = broadAddr)) ∨
    (frame.getD 1 0 &&& 0x02 ≠ 0x02 ∧ frame.getD 1 0 &&& 0x01 = 0x01 ∧
      (type = multiTypeTods ∧ addrAt frame 16 = mutilAddr ∨
        type = brodaTypeTods ∧ addrAt frame 16 = broadAddr))

/-- The frames that carry some codes: their lengths are above a base, and no frame has the sequence
number of the one before it. -/
inductive Sent (type base : Nat) : Nat → List Nat → List (List UInt8) → Prop
  | nil (last : Nat) : Sent type base last [] []
  | cons {last code : Nat} {codes : List Nat} {frame : List UInt8} {frames : List (List UInt8)} :
    OfType type frame → frame.length = base + code → (snOf frame ≠ last ∨ snOf frame = 0) →
    Sent type base (snOf frame) codes frames → Sent type base last (code :: codes) (frame :: frames)

/-- `sc_recv` over frames until it has got the password: the context then and the accesses so
far. -/
def untilGot (aps : List ApInfo) (stack : Int) :
    ScContext → List (List UInt8) → List Access → Option (ScContext × List Access)
  | _, [], _ => none
  | s, frame :: frames, accesses => match scRecv aps stack s frame with
    | none => none
    | some r =>
      if r.status = .gotSsidPswd then some (r.context, accesses ++ r.accesses)
      else untilGot aps stack r.context frames (accesses ++ r.accesses)

/-- The source is locked, the base length of one type is known and nothing was received. -/
structure LockedOn (s : ScContext) (type base : Nat) : Prop where
  state : s.scState = .srcLocked
  base : s.baseLen type = base
  data : s.data = scDataZero
  map : s.seqSuccessMap = 0

/-- The password is got when every piece was stored. -/
def Delivered (aps : List ApInfo) (stack : Int) (s : ScContext) (frames : List (List UInt8))
    (data : List UInt8) (pswdLen : Nat) : Prop :=
  ∃ s' accesses, untilGot aps stack s frames [] = some (s', accesses) ∧
    (∀ i, i < pieceCount data → Access.usrData (i * 4) 4 ∈ accesses) ∧
    s'.pswdLen = pswdLen ∧ s'.pwd.load 0 pswdLen = data.take pswdLen ∧
    s'.randomNum = data.getD pswdLen 0

/-! ## Frames of a type -/

theorem scFilter_ofType (aps : List ApInfo) {s : ScContext} {type : Nat} {frame : List UInt8}
    (typed : OfType type frame) (locked : s.scState.unlocked = false)
    (new : snOf frame ≠ s.lastSn type ∨ snOf frame = 0) :
    scFilter aps s frame = some ⟨some type,
      { s with lastSn := Function.update s.lastSn type (snOf frame) }, [.index type]⟩ := by
  have ended : scFilterEnd s (snOf frame) type = ⟨some type,
      { s with lastSn := Function.update s.lastSn type (snOf frame) }, [.index type]⟩ := by
    rw [scFilterEnd, snCheck, if_pos new]
    rfl
  have multi : ∀ mac, scFilterMulti aps s frame mac type = scFilterEnd s (snOf frame) type := by
    intro mac
    rw [scFilterMulti, if_neg]
    rintro ⟨unlocked, -⟩
    exact Bool.false_ne_true (locked.symm.trans unlocked)
  rw [scFilter, if_neg (Nat.not_lt_of_le typed.long), if_neg (not_not.mpr typed.first),
    if_neg typed.encrypted]
  have different : broadAddr ≠ mutilAddr := by decide
  rcases typed.address with ⟨fromDs, ⟨rfl, addr⟩ | ⟨rfl, addr⟩⟩ |
    ⟨notFrom, toDs, ⟨rfl, addr⟩ | ⟨rfl, addr⟩⟩
  · rw [if_pos fromDs, if_pos addr, multi, ended]
  · rw [if_pos fromDs, if_neg (addr ▸ different), if_pos addr, ended]
  · rw [if_neg notFrom, if_pos toDs, if_pos addr, multi, ended]
  · rw [if_neg notFrom, if_pos toDs, if_neg (addr ▸ different), if_pos addr, ended]

/-- Accesses among which no piece is stored. -/
def NoPiece (accesses : List Access) : Prop := ∀ pos, Access.usrData pos 4 ∉ accesses

theorem NoPiece.append {front behind : List Access} (front_ : NoPiece front)
    (behind_ : NoPiece behind) : NoPiece (front ++ behind) :=
  fun pos inside => (List.mem_append.mp inside).elim (front_ pos) (behind_ pos)

theorem noPiece_index (type : Nat) : NoPiece [.index type] :=
  fun _ inside => (nomatch List.mem_singleton.mp inside)

/-- A type whose base length is known. -/
theorem getBaseLen_known (aps : List ApInfo) {s : ScContext} (frame : List UInt8) (length : Nat)
    {type : Nat} (known : s.baseLen type ≠ 0) :
    (getBaseLen aps s frame length type).context = s ∧
      NoPiece (getBaseLen aps s frame length type).accesses := by
  have no : ¬ isGuide s length type := fun guide => known guide.2.2
  rw [getBaseLen, if_neg no]
  split
  · refine ⟨rfl, fun pos inside => ?_⟩
    rcases List.mem_cons.mp inside with here | inside
    · cases here
    · cases List.mem_singleton.mp inside
  · exact ⟨rfl, fun pos inside => (nomatch List.mem_singleton.mp inside)⟩

theorem codeOf_length {s : ScContext} {type base code : Nat} (known : s.baseLen type = base)
    (small : base < 2 ^ 8) (low : code < 2 ^ 9) :
    codeOf s ((base + code) % 2 ^ 16) type = code := by
  rw [codeOf, known]
  omega

/-! ## Waiting for codes -/

/-- The context behind `sc_filter`. -/
def ScContext.saw (s : ScContext) (type : Nat) (frame : List UInt8) : ScContext :=
  { s with lastSn := Function.update s.lastSn type (snOf frame) }

/-- The context when a window has moved. -/
def ScContext.pushed (s : ScContext) (type n code : Nat) : ScContext :=
  { s with data := pushRecord s.data (rowOf n type) n code }

@[simp] theorem ScContext.saw_scState (s : ScContext) (type : Nat) (frame : List UInt8) :
    (s.saw type frame).scState = s.scState := rfl

@[simp] theorem ScContext.pushed_scState (s : ScContext) (type n code : Nat) :
    (s.pushed type n code).scState = s.scState := rfl

/-- The states that wait for codes, with the length of their window. -/
inductive Stage : ScState → Nat → Prop
  | magic : Stage .srcLocked maxMagicCodeRecord
  | prefix_ : Stage .magicCodeComplete maxPrefixCodeRecord
  | sequence : Stage .prefixCodeComplete maxSeqCodeRecord

theorem Stage.locked {state : ScState} {n : Nat} (stage : Stage state n) :
    state.unlocked = false := by
  cases stage with
  | magic => rfl
  | prefix_ => rfl
  | sequence => rfl

/-- A frame in one of them. -/
theorem scRecv_stage (aps : List ApInfo) (stack : Int) {s : ScContext} {n type : Nat}
    {frame : List UInt8} (stage : Stage s.scState n) (known : s.baseLen type ≠ 0)
    (typed : OfType type frame) (new : snOf frame ≠ s.lastSn type ∨ snOf frame = 0) :
    ∃ accesses, NoPiece accesses ∧
      (s.scState = .srcLocked → scRecv aps stack s frame =
        let r := scProcessMagicCode (s.saw type frame) type (frame.length % 2 ^ 16)
        some ⟨.continue_, r.1, accesses ++ r.2⟩) ∧
      (s.scState = .magicCodeComplete → scRecv aps stack s frame =
        (scProcessPrefixCode (s.saw type frame) type (frame.length % 2 ^ 16)).map fun r =>
          ⟨.continue_, r.1, accesses ++ r.2⟩) ∧
      (s.scState = .prefixCodeComplete → scRecv aps stack s frame =
        let r := scProcessSequence (s.saw type frame) type (frame.length % 2 ^ 16)
        some ⟨if r.1.scState = .complete then .gotSsidPswd else .continue_, r.1,
          accesses ++ r.2⟩) := by
  have filtered := scFilter_ofType aps typed stage.locked new
  rcases getBaseLen_known aps frame (frame.length % 2 ^ 16)
    (show (s.saw type frame).baseLen type ≠ 0 from known) with ⟨same, quiet⟩
  refine ⟨[.index type] ++ (getBaseLen aps (s.saw type frame) frame (frame.length % 2 ^ 16)
    type).accesses, (noPiece_index type).append quiet, ?_, ?_, ?_⟩
  · intro state
    have here : (s.saw type frame).scState = .srcLocked := state
    rw [scRecv_of_filter filtered]
    change (scSwitch aps stack (s.saw type frame) frame type).map _ = _
    rw [scSwitch, here]
    dsimp only
    rw [same, Option.map_some, List.append_assoc]
  · intro state
    have here : (s.saw type frame).scState = .magicCodeComplete := state
    rw [scRecv_of_filter filtered]
    change (scSwitch aps stack (s.saw type frame) frame type).map _ = _
    rw [scSwitch, here]
    dsimp only
    rw [same, Option.map_map]
    congr 1
  · intro state
    have here : (s.saw type frame).scState = .prefixCodeComplete := state
    rw [scRecv_of_filter filtered]
    change (scSwitch aps stack (s.saw type frame) frame type).map _ = _
    rw [scSwitch, here]
    dsimp only
    rw [same, Option.map_some, List.append_assoc]

theorem magic_quiet {s : ScContext} {type length : Nat} (known : s.baseLen type ≠ 0)
    (zero : cell (pushRecord s.data (rowOf maxMagicCodeRecord type) maxMagicCodeRecord
      (codeOf s length type)) (rowOf maxMagicCodeRecord type) = 0) :
    scProcessMagicCode s type length =
      (s.pushed type maxMagicCodeRecord (codeOf s length type), [.index type]) := by
  rw [scProcessMagicCode, if_neg known]
  refine if_neg ?_
  rintro ⟨first, -⟩
  rw [zero] at first
  cases first

theorem prefix_quiet {s : ScContext} {type length : Nat} (known : s.baseLen type ≠ 0)
    (zero : cell (pushRecord s.data (rowOf maxPrefixCodeRecord type) maxPrefixCodeRecord
      (codeOf s length type)) (rowOf maxPrefixCodeRecord type) = 0) :
    scProcessPrefixCode s type length =
      some (s.pushed type maxPrefixCodeRecord (codeOf s length type), [.index type]) := by
  rw [scProcessPrefixCode, if_neg known]
  refine if_neg ?_
  rintro ⟨first, -⟩
  rw [zero] at first
  cases first

theorem sequence_quiet {s : ScContext} {type length : Nat} (known : s.baseLen type ≠ 0)
    (zero : cell (pushRecord s.data (rowOf maxSeqCodeRecord type) maxSeqCodeRecord
      (codeOf s length type)) (rowOf maxSeqCodeRecord type) = 0) :
    scProcessSequence s type length =
      (s.pushed type maxSeqCodeRecord (codeOf s length type), [.index type]) := by
  rw [scProcessSequence, if_neg known]
  refine if_neg (not_not.mpr ?_)
  rw [scPktSeqType, zero, if_neg (fun all => by cases all.1), if_neg (fun all => by cases all.1)]

/-- A window whose first cell is zero asks for nothing. -/
theorem scRecv_quiet (aps : List ApInfo) (stack : Int) {s : ScContext} {n type base code : Nat}
    {codes : List Nat} {frame : List UInt8} (stage : Stage s.scState n)
    (known : s.baseLen type = base) (some_ : base ≠ 0) (small : base < 2 ^ 8) (low : code < 2 ^ 9)
    (fed : Fed s.data (rowOf n type) n codes) (more : codes.length + 1 < n)
    (typed : OfType type frame) (length : frame.length = base + code)
    (new : snOf frame ≠ s.lastSn type ∨ snOf frame = 0) :
    ∃ accesses, NoPiece accesses ∧ scRecv aps stack s frame = some ⟨.continue_,
      (s.saw type frame).pushed type n code, accesses⟩ := by
  have known0 : (s.saw type frame).baseLen type ≠ 0 := known ▸ some_
  have codeIs : codeOf (s.saw type frame) (frame.length % 2 ^ 16) type = code := by
    rw [length]
    exact codeOf_length known small low
  have zero : cell (pushRecord (s.saw type frame).data (rowOf n type) n
      (codeOf (s.saw type frame) (frame.length % 2 ^ 16) type)) (rowOf n type) = 0 := by
    rw [codeIs]
    refine (fed.push (Nat.lt_of_succ_lt more) code).zero ?_
    rw [List.length_append]
    exact more
  rcases scRecv_stage aps stack stage known0 typed new with
    ⟨accesses, quiet, magic, prefix_, sequence⟩
  have both := quiet.append (noPiece_index type)
  generalize state : s.scState = here at stage magic prefix_ sequence
  cases stage with
  | magic =>
    have done := magic_quiet known0 zero
    rw [codeIs] at done
    refine ⟨_, both, ?_⟩
    rw [magic rfl, done]
  | prefix_ =>
    have done := prefix_quiet known0 zero
    rw [codeIs] at done
    refine ⟨_, both, ?_⟩
    rw [prefix_ rfl, done, Option.map_some]
  | sequence =>
    have done := sequence_quiet known0 zero
    rw [codeIs] at done
    have going : ((s.saw type frame).pushed type maxSeqCodeRecord code).scState ≠ .complete := by
      rw [ScContext.pushed_scState, ScContext.saw_scState, state]
      decide
    refine ⟨_, both, ?_⟩
    rw [sequence rfl, done]
    dsimp only
    rw [if_neg going]

/-- The context when a stage has waited. -/
def ScContext.waited (s : ScContext) (data : List Nat) (lastSn : Nat → Nat) : ScContext :=
  { s with data := data, lastSn := lastSn }

/-- Frames that do not fill the window. -/
theorem untilGot_feed (aps : List ApInfo) (stack : Int) {s : ScContext} {n type base : Nat}
    {before codes rest : List Nat} {frames : List (List UInt8)} (stage : Stage s.scState n)
    (known : s.baseLen type = base) (some_ : base ≠ 0) (small : base < 2 ^ 8)
    (fed : Fed s.data (rowOf n type) n before) (low : ∀ c ∈ codes, c < 2 ^ 9)
    (more : before.length + codes.length < n)
    (sent : Sent type base (s.lastSn type) (codes ++ rest) frames) :
    ∃ data lastSn frames' new, Fed data (rowOf n type) n (before ++ codes) ∧
      Sent type base (lastSn type) rest frames' ∧ NoPiece new ∧
      ∀ accesses, untilGot aps stack s frames accesses =
        untilGot aps stack (s.waited data lastSn) frames' (accesses ++ new) := by
  induction codes generalizing s before frames with
  | nil =>
    refine ⟨s.data, s.lastSn, frames, [], ?_, sent, fun _ inside => (nomatch inside), ?_⟩
    · rw [List.append_nil]
      exact fed
    · intro accesses
      rw [List.append_nil]
      rfl
  | cons code codes ih =>
    rw [List.cons_append] at sent
    rw [List.length_cons] at more
    cases sent with
    | cons typed length new_ behind =>
      rename_i frame frames
      rcases scRecv_quiet aps stack stage known some_ small (low code List.mem_cons_self) fed
        (by omega) typed length new_ with ⟨here, quiet, run⟩
      have next : Sent type base (((s.saw type frame).pushed type n code).lastSn type)
          (codes ++ rest) frames := by
        change Sent type base (Function.update s.lastSn type (snOf frame) type) _ _
        rw [Function.update_self]
        exact behind
      have few : (before ++ [code]).length + codes.length < n := by
        rw [List.length_append, List.length_singleton]
        omega
      rcases ih (s := (s.saw type frame).pushed type n code) stage known
        (fed.push (by omega) code) (fun c inside => low c (List.mem_cons_of_mem _ inside)) few next
        with ⟨data, lastSn, frames', new, fed', sent', quiet', same⟩
      refine ⟨data, lastSn, frames', here ++ new, ?_, sent', quiet.append quiet', ?_⟩
      · rw [← List.append_cons] at fed'
        exact fed'
      · intro accesses
        rw [untilGot, run]
        dsimp only
        rw [if_neg (by decide), same, List.append_assoc]
        rfl

/-! ## Codes -/

/-- A digit behind a mark. -/
theorem mark_digit : ∀ mark ∈ [0x10, 0x20, 0x30, 0x40, 0x50, 0x60, 0x70], ∀ digit < 16,
    (mark ||| digit) &&& 0x01f0 = mark ∧ (mark ||| digit) &&& 0x000F = digit ∧
      (mark ||| digit) < 2 ^ 9 := by
  decide

theorem digits_lt (n : Nat) : n &&& 0xF < 16 := Nat.lt_of_le_of_lt Nat.and_le_right (by decide)

theorem digits_high {n : Nat} (small : n < 2 ^ 8) : n >>> 4 < 16 := by
  rw [Nat.shiftRight_eq_div_pow]
  omega

/-- A byte in two digits. -/
theorem nibbles_digits {high low n : Nat} (small : n < 2 ^ 8)
    (highIn : high ∈ [0x10, 0x20, 0x30, 0x40, 0x50, 0x60, 0x70])
    (lowIn : low ∈ [0x10, 0x20, 0x30, 0x40, 0x50, 0x60, 0x70]) :
    nibbles (high ||| n >>> 4) (low ||| n &&& 0xF) = n := by
  rw [nibbles, (mark_digit high highIn _ (digits_high small)).2.1,
    (mark_digit low lowIn _ (digits_lt n)).2.1, Nat.shiftRight_eq_div_pow, Nat.shiftLeft_eq]
  have low4 : n &&& 0xF = n % 2 ^ 4 := Nat.and_two_pow_sub_one_eq_mod n 4
  rw [low4]
  omega

theorem magicCodes_low {totalLen ssidCrc : Nat} (total : totalLen < 2 ^ 8)
    (crc : ssidCrc < 2 ^ 8) : ∀ c ∈ magicCodes totalLen ssidCrc, c < 2 ^ 9 := by
  have c0 := (mark_digit 0x40 (by decide) _ (digits_high total)).2.2
  have c1 := (mark_digit 0x10 (by decide) _ (digits_lt totalLen)).2.2
  have c2 := (mark_digit 0x20 (by decide) _ (digits_high crc)).2.2
  have c3 := (mark_digit 0x30 (by decide) _ (digits_lt ssidCrc)).2.2
  simp only [magicCodes, List.forall_mem_cons]
  exact ⟨c0, c1, c2, c3, Nat.xor_lt_two_pow (Nat.xor_lt_two_pow (Nat.xor_lt_two_pow c0 c1) c2) c3,
    fun _ inside => (nomatch inside)⟩

theorem prefixCodes_low {pswdLen : Nat} (small : pswdLen < 2 ^ 8) :
    ∀ c ∈ prefixCodes pswdLen, c < 2 ^ 9 := by
  have crc : (calcrc1byte (.ofNat pswdLen)).toNat < 2 ^ 8 := UInt8.toNat_lt _
  have c0 := (mark_digit 0x40 (by decide) _ (digits_high small)).2.2
  have c1 := (mark_digit 0x50 (by decide) _ (digits_lt pswdLen)).2.2
  have c2 := (mark_digit 0x60 (by decide) _ (digits_high crc)).2.2
  have c3 := (mark_digit 0x70 (by decide) _
    (digits_lt (calcrc1byte (.ofNat pswdLen)).toNat)).2.2
  simp only [prefixCodes, List.forall_mem_cons]
  exact ⟨c0, c1, c2, c3, fun _ inside => (nomatch inside)⟩

/-- The context behind the magic code. -/
def ScContext.gotMagic (s : ScContext) (totalLen ssidCrc : Nat) : ScContext :=
  { s with
    data := scDataZero
    totalLen := totalLen
    ssidCrc := ssidCrc
    scState := .magicCodeComplete }

/-- The context behind the prefix code. -/
def ScContext.gotPrefix (s : ScContext) (pswdLen pswdLencrc : Nat) : ScContext :=
  { s with
    data := scDataZero
    pswdLen := pswdLen
    pswdLencrc := pswdLencrc
    scState := .prefixCodeComplete
    needSeq := (s.totalLen + 3) / 4
    seqSuccessMapCmp := (1 <<< ((s.totalLen + 3) / 4) - 1) % 2 ^ 16 }

/-- The total length comes out of the codes for it. -/
theorem magic_done {s : ScContext} {type length totalLen ssidCrc : Nat}
    (known : s.baseLen type ≠ 0) (total : totalLen < 2 ^ 7) (crc : ssidCrc < 2 ^ 8)
    (fed : Fed (pushRecord s.data (rowOf maxMagicCodeRecord type) maxMagicCodeRecord
      (codeOf s length type)) (rowOf maxMagicCodeRecord type) maxMagicCodeRecord
      (magicCodes totalLen ssidCrc)) :
    scProcessMagicCode s type length = (s.gotMagic totalLen ssidCrc, [.index type]) := by
  have big : totalLen < 2 ^ 8 := by omega
  rw [scProcessMagicCode, if_neg known]
  dsimp only
  generalize pushRecord s.data (rowOf maxMagicCodeRecord type) maxMagicCodeRecord
    (codeOf s length type) = data at fed ⊢
  generalize rowOf maxMagicCodeRecord type = row at fed ⊢
  have cell0 : cell data row = 0x40 ||| totalLen >>> 4 :=
    fed.full (i := 0) rfl (by decide)
  have cell1 : cell data (row + 1) = 0x10 ||| totalLen &&& 0xF := fed.full rfl (by decide)
  have cell2 : cell data (row + 2) = 0x20 ||| ssidCrc >>> 4 := fed.full rfl (by decide)
  have cell3 : cell data (row + 3) = 0x30 ||| ssidCrc &&& 0xF := fed.full rfl (by decide)
  have cell4 : cell data (row + 4) = cell data row ^^^ cell data (row + 1) ^^^
      cell data (row + 2) ^^^ cell data (row + 3) := by
    rw [cell0, cell1, cell2, cell3]
    exact fed.full rfl (by decide)
  have sum := nibbles_digits big (by decide : 0x40 ∈ _) (by decide : 0x10 ∈ _)
  rw [← cell0, ← cell1] at sum
  have name := nibbles_digits crc (by decide : 0x20 ∈ _) (by decide : 0x30 ∈ _)
  rw [← cell2, ← cell3] at name
  have all : cell data row &&& 0x01f0 = 0x0040 ∧ cell data (row + 1) &&& 0x01f0 = 0x0010 ∧
      cell data (row + 2) &&& 0x01f0 = 0x0020 ∧ cell data (row + 3) &&& 0x01f0 = 0x0030 ∧
      cell data row ^^^ cell data (row + 1) ^^^ cell data (row + 2) ^^^ cell data (row + 3) =
        cell data (row + 4) := by
    refine ⟨?_, ?_, ?_, ?_, cell4.symm⟩
    · rw [cell0]
      exact (mark_digit 0x40 (by decide) _ (digits_high big)).1
    · rw [cell1]
      exact (mark_digit 0x10 (by decide) _ (digits_lt _)).1
    · rw [cell2]
      exact (mark_digit 0x20 (by decide) _ (digits_high crc)).1
    · rw [cell3]
      exact (mark_digit 0x30 (by decide) _ (digits_lt _)).1
  rw [if_pos all, sum, name, if_neg (by omega)]
  rfl

/-- The password's length comes out of the codes for it. -/
theorem prefix_done {s : ScContext} {type length pswdLen : Nat} (known : s.baseLen type ≠ 0)
    (fits : pswdLen ≤ passwordMaxLen) (total : s.totalLen ≤ usrDataBuffMaxSize)
    (fed : Fed (pushRecord s.data (rowOf maxPrefixCodeRecord type) maxPrefixCodeRecord
      (codeOf s length type)) (rowOf maxPrefixCodeRecord type) maxPrefixCodeRecord
      (prefixCodes pswdLen)) :
    ∃ lencrc, scProcessPrefixCode s type length =
      some (s.gotPrefix pswdLen lencrc, [.index type, .shift ((s.totalLen + 3) / 4)]) := by
  change pswdLen ≤ 64 at fits
  have small : pswdLen < 2 ^ 8 := by omega
  have crc : (calcrc1byte (.ofNat pswdLen)).toNat < 2 ^ 8 := UInt8.toNat_lt _
  rw [scProcessPrefixCode, if_neg known]
  dsimp only
  generalize pushRecord s.data (rowOf maxPrefixCodeRecord type) maxPrefixCodeRecord
    (codeOf s length type) = data at fed ⊢
  generalize rowOf maxPrefixCodeRecord type = row at fed ⊢
  have cell0 : cell data row = 0x40 ||| pswdLen >>> 4 := fed.full (i := 0) rfl (by decide)
  have cell1 : cell data (row + 1) = 0x50 ||| pswdLen &&& 0xF := fed.full rfl (by decide)
  have cell2 : cell data (row + 2) = 0x60 ||| (calcrc1byte (.ofNat pswdLen)).toNat >>> 4 :=
    fed.full rfl (by decide)
  have cell3 : cell data (row + 3) = 0x70 ||| (calcrc1byte (.ofNat pswdLen)).toNat &&& 0xF :=
    fed.full rfl (by decide)
  have sum := nibbles_digits small (by decide : 0x40 ∈ _) (by decide : 0x50 ∈ _)
  rw [← cell0, ← cell1] at sum
  have check := nibbles_digits crc (by decide : 0x60 ∈ _) (by decide : 0x70 ∈ _)
  rw [← cell2, ← cell3] at check
  have here : isPrefix data row := by
    refine ⟨?_, ?_, ?_, ?_⟩
    · rw [cell0]
      exact (mark_digit 0x40 (by decide) _ (digits_high small)).1
    · rw [cell1]
      exact (mark_digit 0x50 (by decide) _ (digits_lt _)).1
    · rw [cell2]
      exact (mark_digit 0x60 (by decide) _ (digits_high crc)).1
    · rw [cell3]
      exact (mark_digit 0x70 (by decide) _ (digits_lt _)).1
  have len : prefixLen data row = pswdLen := by
    rw [prefixLen, sum]
    exact if_neg (by change ¬ pswdLen > 64; omega)
  have good : prefixGood data row := by
    rw [prefixGood, len, check]
  have few : (s.totalLen + 3) / 4 < 32 := by
    change s.totalLen ≤ 97 at total
    omega
  refine ⟨nibbles (cell data (row + 2)) (cell data (row + 3)), ?_⟩
  rw [if_pos here, if_pos good, len]
  exact if_pos few

/-! ## Pieces -/

/-- A full window is taken to be a piece. The last one may be short, and is followed by a code that
is not a byte. -/
structure Accepted (totalLen needSeq : Nat) (window : List Nat) (k : Nat) (bytes : List UInt8) :
    Prop where
  full : window.length = maxSeqCodeRecord
  mark : window.getD 0 0 &&& 0x180 = 0x80
  index : window.getD 1 0 &&& 0x7F = k
  stored : (List.range 4).map (fun i => UInt8.ofNat (window.getD (2 + i) 0 &&& 0xFF)) = bytes
  byte : window.getD 2 0 &&& 0x0100 = 0x0100
  kind : (window.getD 1 0 &&& 0x180 = 0x80 ∧ window.getD 3 0 &&& 0x0100 = 0x0100 ∧
      window.getD 4 0 &&& 0x0100 = 0x0100 ∧ window.getD 5 0 &&& 0x0100 = 0x0100 ∧
      k ≤ (totalLen >>> 2) + 1 ∧
      UInt8.ofNat (window.getD 0 0 &&& 0x7F) = calcrcBytes (.ofNat k :: bytes) &&& 0x7F) ∨
    (¬ (window.getD 3 0 &&& 0x0100 = 0x0100 ∧ window.getD 4 0 &&& 0x0100 = 0x0100 ∧
        window.getD 5 0 &&& 0x0100 = 0x0100) ∧ k + 1 = needSeq ∧
      UInt8.ofNat (window.getD 0 0 &&& 0x7F) =
        calcrcBytes (.ofNat k :: bytes.take (totalLen % 4)) &&& 0x7F)

/-- What an accepted window does to the context. -/
def ScContext.added (s : ScContext) (k : Nat) (bytes : List UInt8) : ScContext :=
  { s with
    data := scDataZero
    usrData := s.usrData.store (k * 4) bytes
    seqSuccessMap := 2 ^ (k + 1) - 1 }

theorem scAddSeqData_new {s : ScContext} {k : Nat} (needed : k < s.needSeq) (few : k < 16)
    (map : s.seqSuccessMap = 2 ^ k - 1) (bytes : List UInt8) :
    scAddSeqData s bytes k =
      ({ s with usrData := s.usrData.store (k * 4) bytes, seqSuccessMap := 2 ^ (k + 1) - 1 },
        [.shift k, .usrData (k * 4) 4]) := by
  have bits : ∀ k < 16, (2 ^ k - 1) &&& (1 <<< k) = 0 ∧
      ((2 ^ k - 1) ||| (1 <<< k)) % 2 ^ 16 = 2 ^ (k + 1) - 1 := by
    decide
  have fits : k * 4 + 4 ≤ usrDataBuffMaxSize := by
    change k * 4 + 4 ≤ 97
    omega
  rw [scAddSeqData, if_pos ⟨needed, fits⟩, map, if_pos (bits k few).1, (bits k few).2]

theorem sequence_done {s : ScContext} {type length k : Nat} {window : List Nat}
    {bytes : List UInt8} (known : s.baseLen type ≠ 0) (needed : k < s.needSeq) (few : k < 16)
    (map : s.seqSuccessMap = 2 ^ k - 1)
    (accepted : Accepted s.totalLen s.needSeq window k bytes)
    (fed : Fed (pushRecord s.data (rowOf maxSeqCodeRecord type) maxSeqCodeRecord
      (codeOf s length type)) (rowOf maxSeqCodeRecord type) maxSeqCodeRecord window) :
    scProcessSequence s type length =
      ((scComplete (s.added k bytes)).1,
        .index type :: ([.shift k, .usrData (k * 4) 4] ++ (scComplete (s.added k bytes)).2)) := by
  rw [scProcessSequence, if_neg known]
  dsimp only
  generalize pushRecord s.data (rowOf maxSeqCodeRecord type) maxSeqCodeRecord
    (codeOf s length type) = data at fed ⊢
  generalize rowOf maxSeqCodeRecord type = row at fed ⊢
  have cell0 : cell data row = window.getD 0 0 := fed.full (i := 0) accepted.full (by decide)
  have cells_ : ∀ i, i < 6 → cell data (row + i) = window.getD i 0 :=
    fun i low => fed.full accepted.full low
  have buffer : tempBuffer data row = .ofNat k :: bytes := by
    rw [tempBuffer, cells_ 1 (by decide), accepted.index, ← accepted.stored]
    congr 1
    apply List.map_congr_left
    intro i inside
    rw [Nat.add_assoc, cells_ (2 + i) (by rw [List.mem_range] at inside; omega)]
  have four : bytes.length = 4 := by
    rw [← accepted.stored, List.length_map, List.length_range]
  have moved : ∀ s', s'.totalLen = s.totalLen → s'.needSeq = s.needSeq →
      scPktSeqType s' data row ≠ 2 ∧ pieceGood s' data row (scPktSeqType s' data row) := by
    intro s' total need
    rw [scPktSeqType, cell0, cells_ 1 (by decide), cells_ 2 (by decide), cells_ 3 (by decide),
      cells_ 4 (by decide), cells_ 5 (by decide), accepted.index, total, need]
    rcases accepted.kind with ⟨idx, b1, b2, b3, low, crc⟩ | ⟨no, last, crc⟩
    · rw [if_pos ⟨accepted.mark, idx, accepted.byte, b1, b2, b3, low⟩]
      refine ⟨by decide, ?_⟩
      rw [pieceGood, if_pos rfl, cell0, buffer, crc, List.take_of_length_le]
      rw [List.length_cons, four]
    · rw [if_neg (fun all => no ⟨all.2.2.2.1, all.2.2.2.2.1, all.2.2.2.2.2.1⟩),
        if_pos ⟨accepted.mark, last, accepted.byte⟩]
      refine ⟨by decide, ?_⟩
      rw [pieceGood, if_neg (by decide), cell0, buffer, crc, total, List.take_succ_cons]
  rcases moved { s with data := data } rfl rfl with ⟨piece, good⟩
  have stored := scAddSeqData_new (s := { s with data := data }) needed few map bytes
  have rest : (tempBuffer data row).drop 1 = bytes := by
    rw [buffer]
    rfl
  rw [if_pos piece, if_pos good, rest, cells_ 1 (by decide), accepted.index, stored]
  rfl

theorem mark_index : ∀ n < 128, (0x80 ||| n) &&& 0x180 = 0x80 ∧ (0x80 ||| n) &&& 0x7F = n ∧
    (0x80 ||| n) &&& 0x0100 ≠ 0x0100 ∧ (0x80 ||| n) < 2 ^ 9 := by
  decide

theorem mark_byte (byte : UInt8) : (0x100 ||| byte.toNat) &&& 0x0100 = 0x0100 ∧
    UInt8.ofNat ((0x100 ||| byte.toNat) &&& 0xFF) = byte ∧ (0x100 ||| byte.toNat) < 2 ^ 9 := by
  have bits : ∀ n < 256, (0x100 ||| n) &&& 0x0100 = 0x0100 ∧ (0x100 ||| n) &&& 0xFF = n ∧
      (0x100 ||| n) < 2 ^ 9 := by
    decide +kernel
  rcases bits byte.toNat byte.toNat_lt with ⟨mark, value, low⟩
  refine ⟨mark, ?_, low⟩
  rw [value, UInt8.ofNat_toNat]

/-- The checksum of a piece in its code. -/
theorem mark_crc (crc : UInt8) : (0x80 ||| (crc &&& 0x7F).toNat) &&& 0x180 = 0x80 ∧
    UInt8.ofNat ((0x80 ||| (crc &&& 0x7F).toNat) &&& 0x7F) = crc &&& 0x7F ∧
    (0x80 ||| (crc &&& 0x7F).toNat) &&& 0x0100 ≠ 0x0100 ∧
    (0x80 ||| (crc &&& 0x7F).toNat) < 2 ^ 9 := by
  have low : (crc &&& 0x7F).toNat < 128 := by
    rw [UInt8.toNat_and]
    exact Nat.lt_of_le_of_lt Nat.and_le_right (by decide)
  rcases mark_index _ low with ⟨mark, value, noByte, small⟩
  refine ⟨mark, ?_, noByte, small⟩
  rw [value, UInt8.ofNat_toNat]

theorem pieceCodes_low {k : Nat} (small : k < 128) (bytes : List UInt8) :
    ∀ c ∈ pieceCodes k bytes, c < 2 ^ 9 := by
  rw [pieceCodes, List.forall_mem_cons, List.forall_mem_cons]
  refine ⟨(mark_crc _).2.2.2, (mark_index k small).2.2.2, ?_⟩
  intro c inside
  rcases List.mem_map.mp inside with ⟨byte, -, rfl⟩
  exact (mark_byte byte).2.2

theorem accepted_full {totalLen needSeq k : Nat} (small : k < 128)
    (low : k ≤ (totalLen >>> 2) + 1) (b0 b1 b2 b3 : UInt8) :
    Accepted totalLen needSeq (pieceCodes k [b0, b1, b2, b3]) k [b0, b1, b2, b3] where
  full := rfl
  mark := (mark_crc _).1
  index := (mark_index k small).2.1
  stored := by
    change [UInt8.ofNat ((0x100 ||| b0.toNat) &&& 0xFF), UInt8.ofNat ((0x100 ||| b1.toNat) &&& 0xFF),
      UInt8.ofNat ((0x100 ||| b2.toNat) &&& 0xFF), UInt8.ofNat ((0x100 ||| b3.toNat) &&& 0xFF)] = _
    rw [(mark_byte b0).2.1, (mark_byte b1).2.1, (mark_byte b2).2.1, (mark_byte b3).2.1]
  byte := (mark_byte b0).1
  kind := .inl ⟨(mark_index k small).1, (mark_byte b1).1, (mark_byte b2).1, (mark_byte b3).1, low,
    (mark_crc _).2.1⟩

/-- A short piece with the next codes behind it. -/
theorem accepted_short (totalLen : Nat) {needSeq k : Nat} (small : k < 128) (last : k + 1 = needSeq)
    {bytes : List UInt8} (some_ : bytes ≠ []) (short : bytes.length < 4)
    (rest : totalLen % 4 = bytes.length) {next : List Nat} (long : 3 ≤ next.length)
    (noByte : next.getD 0 0 &&& 0x0100 ≠ 0x0100) :
    ∃ bytes', Accepted totalLen needSeq ((pieceCodes k bytes ++ next).take maxSeqCodeRecord) k
      bytes' ∧ bytes'.take bytes.length = bytes ∧ bytes'.length = 4 := by
  rcases next with _ | ⟨c, _ | ⟨m0, _ | ⟨m1, more⟩⟩⟩
  · cases long
  · exact absurd long (by simp)
  · exact absurd long (by simp)
  change c &&& 0x0100 ≠ 0x0100 at noByte
  have index := mark_index k small
  have value : ∀ n : Nat, ∃ b, UInt8.ofNat (n &&& 0xFF) = b := fun n => ⟨_, rfl⟩
  rcases value c with ⟨cb, isCb⟩
  rcases value m0 with ⟨mb0, isMb0⟩
  rcases value m1 with ⟨mb1, isMb1⟩
  rcases bytes with _ | ⟨b0, _ | ⟨b1, _ | ⟨b2, _ | ⟨b3, bytes⟩⟩⟩⟩
  · exact absurd rfl some_
  · refine ⟨[b0, cb, mb0, mb1], ⟨rfl, (mark_crc _).1, index.2.1, ?_, (mark_byte b0).1,
      .inr ⟨fun all => noByte all.1, last, ?_⟩⟩, rfl, rfl⟩
    · change [UInt8.ofNat ((0x100 ||| b0.toNat) &&& 0xFF), UInt8.ofNat (c &&& 0xFF),
        UInt8.ofNat (m0 &&& 0xFF), UInt8.ofNat (m1 &&& 0xFF)] = _
      rw [(mark_byte b0).2.1, isCb, isMb0, isMb1]
    · rw [rest]
      exact (mark_crc _).2.1
  · refine ⟨[b0, b1, cb, mb0], ⟨rfl, (mark_crc _).1, index.2.1, ?_, (mark_byte b0).1,
      .inr ⟨fun all => noByte all.2.1, last, ?_⟩⟩, rfl, rfl⟩
    · change [UInt8.ofNat ((0x100 ||| b0.toNat) &&& 0xFF), UInt8.ofNat ((0x100 ||| b1.toNat) &&& 0xFF),
        UInt8.ofNat (c &&& 0xFF), UInt8.ofNat (m0 &&& 0xFF)] = _
      rw [(mark_byte b0).2.1, (mark_byte b1).2.1, isCb, isMb0]
    · rw [rest]
      exact (mark_crc _).2.1
  · refine ⟨[b0, b1, b2, cb], ⟨rfl, (mark_crc _).1, index.2.1, ?_, (mark_byte b0).1,
      .inr ⟨fun all => noByte all.2.2, last, ?_⟩⟩, rfl, rfl⟩
    · change [UInt8.ofNat ((0x100 ||| b0.toNat) &&& 0xFF), UInt8.ofNat ((0x100 ||| b1.toNat) &&& 0xFF),
        UInt8.ofNat ((0x100 ||| b2.toNat) &&& 0xFF), UInt8.ofNat (c &&& 0xFF)] = _
      rw [(mark_byte b0).2.1, (mark_byte b1).2.1, (mark_byte b2).2.1, isCb]
    · rw [rest]
      exact (mark_crc _).2.1
  · exact absurd short (by simp)

/-- The first pieces are stored and the window is clear. -/
structure Ready (s : ScContext) (type base pswdLen : Nat) (data : List UInt8) (k : Nat) : Prop where
  state : s.scState = .prefixCodeComplete
  base : s.baseLen type = base
  clear : s.data = scDataZero
  totalLen : s.totalLen = data.length
  needSeq : s.needSeq = pieceCount data
  cmp : s.seqSuccessMapCmp = (2 ^ pieceCount data - 1) % 2 ^ 16
  map : s.seqSuccessMap = 2 ^ k - 1
  pswdLen : s.pswdLen = pswdLen
  stored : s.usrData.load 0 (min (4 * k) data.length) = data.take (4 * k)

theorem take_load (m : ByteMem) (addr : Nat) {n len : Nat} (within : n ≤ len) :
    (m.load addr len).take n = m.load addr n := by
  rcases Nat.exists_eq_add_of_le within with ⟨more, rfl⟩
  rw [ByteMem.load_add, List.take_left' (ByteMem.length_load ..)]

/-- One more piece is stored. -/
theorem Ready.added {s : ScContext} {type base pswdLen k : Nat} {data : List UInt8}
    (ready : Ready s type base pswdLen data k) (low : k < pieceCount data) {bytes : List UInt8}
    (four : bytes.length = 4) (same : bytes.take (pieceOf data k).length = pieceOf data k)
    (lastSn : Nat → Nat) :
    Ready ({ s with lastSn := lastSn }.added k bytes) type base pswdLen data (k + 1) := by
  have below : 4 * k < data.length := by
    change k < (data.length + 3) / 4 at low
    omega
  refine ⟨ready.state, ready.base, rfl, ready.totalLen, ready.needSeq, ready.cmp, rfl,
    ready.pswdLen, ?_⟩
  have length : (pieceOf data k).length = min 4 (data.length - 4 * k) := by
    rw [pieceOf, List.length_take, List.length_drop]
  have places : min (4 * (k + 1)) data.length = 4 * k + (pieceOf data k).length := by
    rw [length]
    omega
  have start : min (4 * k) data.length = 4 * k := by omega
  have front : (s.usrData.store (k * 4) bytes).load 0 (4 * k) = data.take (4 * k) := by
    have stored := ready.stored
    rw [start] at stored
    rw [← stored]
    exact ByteMem.load_congr (ByteMem.store_frame s.usrData (k * 4) bytes (by omega)).symm
  have back : (s.usrData.store (k * 4) bytes).load (4 * k) (pieceOf data k).length =
      pieceOf data k := by
    have held := (ByteMem.store_holds s.usrData (k * 4) bytes).load
    rw [four, Nat.mul_comm k 4] at held
    have cut := take_load (s.usrData.store (4 * k) bytes) (4 * k)
      (by omega : (pieceOf data k).length ≤ 4)
    rw [Nat.mul_comm k 4, ← cut, held, same]
  change (s.usrData.store (k * 4) bytes).load 0 (min (4 * (k + 1)) data.length) = _
  rw [places, ByteMem.load_add, front, Nat.zero_add, back, pieceOf, ← List.take_add]
  rw [Nat.mul_add]

/-- The accesses at the end of `sc_process_sequence` store no piece. -/
theorem scComplete_noPiece (s : ScContext) : NoPiece (scComplete s).2 := by
  intro pos inside
  rw [scComplete] at inside
  split at inside
  · rcases List.mem_cons.mp inside with here | inside
    · cases here
    · cases List.mem_singleton.mp inside
  · cases inside

/-- Six frames whose codes are taken to be a piece. -/
theorem untilGot_window (aps : List ApInfo) (stack : Int) {s : ScContext}
    {type base pswdLen k : Nat} {data bytes : List UInt8} {window rest : List Nat}
    {frames : List (List UInt8)} (ready : Ready s type base pswdLen data k) (low : type < maxPtype)
    (some_ : base ≠ 0) (small : base < 2 ^ 8) (below : k < pieceCount data) (few : k < 16)
    (accepted : Accepted data.length (pieceCount data) window k bytes)
    (codes : ∀ c ∈ window, c < 2 ^ 9)
    (sent : Sent type base (s.lastSn type) (window ++ rest) frames) :
    ∃ lastSn frames' new, Sent type base (lastSn type) rest frames' ∧
      (∀ pos, Access.usrData pos 4 ∈ new ↔ pos = k * 4) ∧
      ∀ accesses, untilGot aps stack s frames accesses =
        let r := (scComplete ({ s with lastSn := lastSn }.added k bytes)).1
        if r.scState = .complete then some (r, accesses ++ new)
        else untilGot aps stack r frames' (accesses ++ new) := by
  have six : window.length = 6 := accepted.full
  have split : window = window.take 5 ++ [window.getD 5 0] := by
    rcases window with _ | ⟨w0, _ | ⟨w1, _ | ⟨w2, _ | ⟨w3, _ | ⟨w4, _ | ⟨w5, _ | ⟨w6, more⟩⟩⟩⟩⟩⟩⟩
    all_goals first | rfl | cases six
  have five : (window.take 5).length = 5 := by
    rw [List.length_take, six]
    rfl
  have stage : Stage s.scState maxSeqCodeRecord := ready.state ▸ .sequence
  have fed : Fed s.data (rowOf maxSeqCodeRecord type) maxSeqCodeRecord [] := by
    rw [ready.clear]
    exact fed_zero low (Nat.le_refl _)
  rw [split, List.append_assoc] at sent
  rcases untilGot_feed aps stack stage ready.base some_ small fed
    (fun c inside => codes c (List.mem_of_mem_take inside))
    (by rw [five]; decide) sent with ⟨moved, lastSn, frames1, new, fed', sent', quiet, same⟩
  rw [List.nil_append] at fed'
  cases sent' with
  | cons typed length new_ behind =>
    rename_i frame frames2
    have known : (s.waited moved lastSn).baseLen type ≠ 0 := by
      change s.baseLen type ≠ 0
      rw [ready.base]
      exact some_
    have state : (s.waited moved lastSn).scState = .prefixCodeComplete := ready.state
    have last : window.getD 5 0 < 2 ^ 9 := by
      apply codes
      rw [List.getD_eq_getElem _ _ (by omega)]
      exact List.getElem_mem _
    have codeIs : codeOf ((s.waited moved lastSn).saw type frame) (frame.length % 2 ^ 16) type =
        window.getD 5 0 := by
      rw [length]
      exact codeOf_length ready.base small last
    have whole : Fed (pushRecord ((s.waited moved lastSn).saw type frame).data
        (rowOf maxSeqCodeRecord type) maxSeqCodeRecord
        (codeOf ((s.waited moved lastSn).saw type frame) (frame.length % 2 ^ 16) type))
        (rowOf maxSeqCodeRecord type) maxSeqCodeRecord window := by
      rw [codeIs]
      have pushed := fed'.push (by rw [five]; decide) (window.getD 5 0)
      rw [← split] at pushed
      exact pushed
    have stage' : Stage (s.waited moved lastSn).scState maxSeqCodeRecord := stage
    rcases scRecv_stage aps stack stage' known typed new_ with
      ⟨accesses1, quiet1, -, -, run⟩
    have needed : k < ((s.waited moved lastSn).saw type frame).needSeq := by
      change k < s.needSeq
      rw [ready.needSeq]
      exact below
    have accepted' : Accepted ((s.waited moved lastSn).saw type frame).totalLen
        ((s.waited moved lastSn).saw type frame).needSeq window k bytes := by
      change Accepted s.totalLen s.needSeq window k bytes
      rw [ready.totalLen, ready.needSeq]
      exact accepted
    have done := sequence_done (s := (s.waited moved lastSn).saw type frame) known needed few
      ready.map accepted' whole
    have after : ((s.waited moved lastSn).saw type frame).added k bytes =
        { s with lastSn := Function.update lastSn type (snOf frame) }.added k bytes := rfl
    have none_ := scComplete_noPiece
      ({ s with lastSn := Function.update lastSn type (snOf frame) }.added k bytes)
    rw [after] at done
    generalize made : scComplete
      ({ s with lastSn := Function.update lastSn type (snOf frame) }.added k bytes) = r
      at done none_
    refine ⟨Function.update lastSn type (snOf frame), frames2,
      new ++ (accesses1 ++ (.index type :: ([.shift k, .usrData (k * 4) 4] ++ r.2))), ?_, ?_, ?_⟩
    · rw [Function.update_self]
      exact behind
    · intro pos
      simp only [List.mem_append, List.mem_cons, List.not_mem_nil, or_false]
      constructor
      · rintro (inside | inside | inside | (inside | inside) | inside)
        · exact absurd inside (quiet pos)
        · exact absurd inside (quiet1 pos)
        · cases inside
        · cases inside
        · cases inside
          rfl
        · exact absurd inside (none_ pos)
      · rintro rfl
        exact .inr (.inr (.inr (.inl (.inr rfl))))
    · intro accesses
      rw [same, untilGot, run state, done, made]
      dsimp only
      by_cases complete : r.1.scState = .complete
      · rw [if_pos complete, if_pos rfl, if_pos complete, List.append_assoc]
      · rw [if_neg complete, if_neg (by decide), if_neg complete, List.append_assoc]

end ScRecv

end Tr6260
