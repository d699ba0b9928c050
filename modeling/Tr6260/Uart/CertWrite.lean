import Mathlib.Logic.Function.Basic
import Tr6260.Uart.Cert

/-!
# Writing a certificate

A transfer is a list of sub-frames of one certificate or key. The code keeps no record of the
sub-frames that came: it copies each to its place in the buffer, and takes the length from the last.
`TransferSound` is what a final `1` should mean. It does mean that when every sub-frame came since
the buffer was last cleared, and all but the last were full (`Covered`).
-/

namespace Tr6260

open FlashProg ByteMem

/-! ## Transfers -/

/-- The sub-command of a kind. -/
def CertKind.subCmd : CertKind → UInt8
  | .cert => 0x01
  | .key => 0x02

@[simp] theorem CertKind.ofSubCmd_subCmd (kind : CertKind) :
    CertKind.ofSubCmd kind.subCmd = some kind := by
  cases kind <;> rfl

/-- A sub-frame in `rx_buf`: seven bytes that are not looked at, the fields, the data, and what
stands behind them. -/
structure SubFrame where
  front : List UInt8
  seven : front.length = 7
  index : UInt8
  data : List UInt8
  short : data.length ≤ certPiece
  rest : List UInt8

/-- The bytes of a sub-frame. -/
def SubFrame.buf (f : SubFrame) (kind : CertKind) (total : UInt8) : List UInt8 :=
  f.front ++ kind.subCmd :: total :: f.index :: (f.data ++ f.rest)

/-- The sub-frames of a transfer in the order they come: the results, and the state. -/
def writeSubFrames (env : CertEnv) (heaps : Nat → Heap) (kind : CertKind) (total : UInt8) :
    Nat → List SubFrame → CertState → FlashProg (Option (List UInt8 × CertState))
  | _, [], s => return some ([], s)
  | n, f :: later, s => do
    match ← writeCertificate env (heaps n) s (f.buf kind total) (f.data.length + 4) with
    | none => return none
    | some (result, s) =>
      match ← writeSubFrames env heaps kind total (n + 1) later s with
      | none => return none
      | some (results, s) => return some (result :: results, s)

/-- A sum as it stands behind a certificate, high byte first. -/
def crcField (crc : UInt16) : List UInt8 := [(crc >>> 8).toUInt8, crc.toUInt8]

/-- What a `1` for the last sub-frame should mean: the record is the data of the sub-frames, all of
them received, less the sum at the end. -/
def TransferSound (kind : CertKind) (total : UInt8) (frames : List SubFrame)
    (results : List UInt8) (m : ByteMem) : Prop :=
  results.getLast? = some 1 →
    ∃ parts : List (List UInt8), parts.length = total.toNat ∧
      (∀ i part, parts[i]? = some part → ∃ f ∈ frames, f.index.toNat = i ∧ f.data = part) ∧
      ∃ record, parts.flatten = record ++ crcField (crcCheck record) ∧ RecordAt m kind.addr record

/-! ## What came since the buffer was cleared -/

/-- Sub-frame `0` clears the buffer, and each one replaces what came for its place. -/
def received (got : Nat → Option (List UInt8)) (f : SubFrame) : Nat → Option (List UInt8) :=
  Function.update (if f.index = 0 then fun _ => none else got) f.index.toNat (some f.data)

/-- The newest data for each place. -/
def newest (frames : List SubFrame) : Nat → Option (List UInt8) := frames.foldl received fun _ => none

/-- Every sub-frame came since the buffer was cleared, and all but the last are full. -/
def Covered (total : UInt8) (frames : List SubFrame) : Prop :=
  ∀ i < total.toNat, ∃ data, newest frames i = some data ∧
    (i + 1 < total.toNat → data.length = certPiece)

/-! ## One sub-frame -/

/-- A sub-frame in terms of its fields. -/
def placePiece (env : CertEnv) (heap : Heap) (s : CertState) (kind : CertKind) (total : UInt8)
    (f : SubFrame) : FlashProg (Option (UInt8 × CertState)) :=
  match certBlock (heap 0) s f.index.toNat with
  | none => return none
  | some none => return some (0, s)
  | some (some block) =>
    match Block.write block (f.index.toNat * certPiece) f.data with
    | none => return none
    | some block =>
      if f.index.toNat + 1 = total.toNat then do
        match ← finishCertificate env heap kind block
            (f.data.length + f.index.toNat * certPiece) with
        | none => return none
        | some result => return some (result, s.free)
      else if f.index.toNat + 1 > total.toNat then
        return some (0, s.free)
      else
        return some (1, { s with certBuffer := some block })

theorem writeCertificate_subFrame (env : CertEnv) (heap : Heap) (s : CertState) (kind : CertKind)
    (total : UInt8) (f : SubFrame) :
    writeCertificate env heap s (f.buf kind total) (f.data.length + 4) =
      placePiece env heap s kind total f := by
  have at7 : (f.buf kind total).getD 7 0 = kind.subCmd := by
    simp [SubFrame.buf, List.getD_eq_getElem?_getD, f.seven]
  have at8 : (f.buf kind total).getD 8 0 = total := by
    simp [SubFrame.buf, List.getD_eq_getElem?_getD, List.getElem?_append_right, f.seven]
  have at9 : (f.buf kind total).getD 9 0 = f.index := by
    simp [SubFrame.buf, List.getD_eq_getElem?_getD, List.getElem?_append_right, f.seven]
  have data : Block.read (f.buf kind total) 10 f.data.length = some f.data := by
    rw [Block.read_of_le (by simp [SubFrame.buf, f.seven]; omega)]
    have split : f.buf kind total =
        (f.front ++ [kind.subCmd, total, f.index]) ++ (f.data ++ f.rest) := by
      simp [SubFrame.buf]
    rw [split, List.drop_left' (by simp [f.seven]), List.take_left]
  rw [writeCertificate, at7, CertKind.ofSubCmd_subCmd]
  dsimp only
  rw [at8, at9, writePiece, placePiece]
  rcases certBlock (heap 0) s f.index.toNat with _ | _ | block
  · rfl
  · rfl
  · refine (if_neg (by omega)).trans ?_
    generalize taken : Block.read (f.buf kind total) 10 (f.data.length + 4 - 4) = piece
    cases taken.symm.trans data
    rfl

/-! ## The last sub-frame -/

/-- The sum from its two bytes. -/
theorem crcField_bytes (hi lo : UInt8) : crcField (hi.toUInt16 <<< 8 + lo.toUInt16) = [hi, lo] := by
  have eight : UInt16.toNat 8 % 16 = 8 := rfl
  have nat : (hi.toUInt16 <<< 8 + lo.toUInt16).toNat = hi.toNat * 256 + lo.toNat := by
    have high := hi.toNat_lt
    have low := lo.toNat_lt
    simp only [UInt16.toNat_add, UInt16.toNat_shiftLeft, UInt8.toNat_toUInt16, Nat.shiftLeft_eq,
      eight]
    omega
  have low := lo.toNat_lt
  have high := hi.toNat_lt
  have first : ((hi.toUInt16 <<< 8 + lo.toUInt16) >>> 8).toUInt8 = hi := by
    apply UInt8.toNat.inj
    simp only [UInt16.toNat_toUInt8, UInt16.toNat_shiftRight, nat, Nat.shiftRight_eq_div_pow,
      eight]
    omega
  have second : (hi.toUInt16 <<< 8 + lo.toUInt16).toUInt8 = lo := by
    apply UInt8.toNat.inj
    simp only [UInt16.toNat_toUInt8, nat]
    omega
  rw [crcField, first, second]

/-- The bytes of a sum give it back. -/
theorem crcField_sum (crc : UInt16) :
    (crc >>> 8).toUInt8.toUInt16 <<< 8 + crc.toUInt8.toUInt16 = crc := by
  have eight : UInt16.toNat 8 % 16 = 8 := rfl
  have small := crc.toNat_lt
  apply UInt16.toNat.inj
  simp only [UInt16.toNat_add, UInt16.toNat_shiftLeft, UInt8.toNat_toUInt16, UInt16.toNat_toUInt8,
    UInt16.toNat_shiftRight, Nat.shiftLeft_eq, Nat.shiftRight_eq_div_pow, eight]
  omega

/-- The two bytes of the sum. -/
theorem drop_take_two {block : List UInt8} {certLen : Nat} (long : 2 ≤ certLen)
    (fits : certLen ≤ block.length) :
    (block.drop (certLen - 2)).take 2 =
      [block.getD (certLen - 2) 0, block.getD (certLen - 1) 0] := by
  rw [List.drop_eq_getElem_cons (by omega), List.drop_eq_getElem_cons (by omega),
    List.getD_eq_getElem _ _ (by omega), List.getD_eq_getElem _ _ (by omega)]
  have next : certLen - 2 + 1 = certLen - 1 := by omega
  simp only [next, List.take_succ_cons, List.take_zero]

/-- The terminator stands behind the record. -/
theorem take_of_terminated {block block' : List UInt8} {len : Nat}
    (written : Block.write block len [0] = some block') : block'.take len = block.take len := by
  simpa using @Block.slice_write_apart _ _ _ _ _ len written 0 (.inl (by omega))

/-- A record that was checked and written. -/
theorem yaWriteCheckAwsPara_accepted {env : CertEnv} {board : Board} {kind : CertKind}
    {block block' : List UInt8} {dataLen : Nat} {m m' : ByteMem}
    (accepted : (yaWriteCheckAwsPara env board kind block dataLen).run m = (some (0, block'), m')) :
    RecordAt m' kind.addr (block.take dataLen) ∧ (block.take dataLen).length ≤ maxDataLen - 10 ∧
      block'.length = block.length := by
  unfold yaWriteCheckAwsPara at accepted
  split at accepted
  next => cases accepted
  next block1 written =>
  split at accepted
  next => cases accepted
  next =>
  rw [run_bind, take_of_terminated written] at accepted
  rcases wrote : (yaWriteFlash board kind.addr (block.take dataLen) 1).run m with ⟨_ | ret, m1⟩
  · rw [wrote] at accepted
    cases accepted
  · rw [wrote] at accepted
    by_cases zero : ret = 0
    · subst zero
      obtain ⟨-, -, bound, -, stored⟩ := yaWriteFlash_accepted wrote
      cases accepted
      exact ⟨stored, bound, Block.length_write written⟩
    · dsimp only at accepted
      rw [if_pos zero] at accepted
      cases accepted

/-- After a `1` the record stands in flash, and its sum behind it in the buffer. -/
theorem finishCertificate_sound {env : CertEnv} {heap : Heap} {kind : CertKind}
    {block : List UInt8} {certLen : Nat} {m m' : ByteMem}
    (finished : (finishCertificate env heap kind block certLen).run m = (some 1, m')) :
    2 ≤ certLen ∧ certLen ≤ block.length ∧ RecordAt m' kind.addr (block.take (certLen - 2)) ∧
      (block.drop (certLen - 2)).take 2 = crcField (crcCheck (block.take (certLen - 2))) := by
  unfold finishCertificate at finished
  split at finished
  next => cases finished
  next inside =>
  have long : 2 ≤ certLen := by omega
  have fits : certLen ≤ block.length := by omega
  dsimp only at finished
  rw [run_bind] at finished
  rcases wrote : (yaWriteCheckAwsPara env (heap 1) kind block (certLen - 2)).run m with
    ⟨_ | ⟨ret, block1⟩, m1⟩
  · rw [wrote] at finished
    cases finished
  rw [wrote] at finished
  dsimp only at finished
  by_cases failed : ret = 0
  case neg =>
    rw [if_pos failed] at finished
    cases finished
  subst failed
  rw [if_neg (by simp)] at finished
  obtain ⟨stored, bound, len1⟩ := yaWriteCheckAwsPara_accepted wrote
  generalize record : block.take (certLen - 2) = data at stored bound ⊢
  rw [run_bind, yaReadFlashWithVarLen_memory _ stored (Nat.lt_of_le_of_lt bound (by decide))
    (by decide) (by decide) (by decide)] at finished
  split at finished
  next => cases finished
  next stored' found =>
  dsimp only at found
  split at found
  case isFalse => cases found
  obtain rfl := Option.some.inj found
  split at finished
  next => cases finished
  next block2 copied =>
  split at finished
  next => cases finished
  next =>
  split at finished
  next => cases finished
  next sum =>
  cases finished
  rw [Block.take_write_zero copied, Decidable.not_not] at sum
  refine ⟨long, fits, stored, ?_⟩
  rw [sum, crcField_bytes]
  exact drop_take_two long fits

/-! ## The buffer during a transfer -/

/-- Each piece that came stands at its place. -/
def Placed (block : List UInt8) (got : Nat → Option (List UInt8)) : Prop :=
  ∀ i data, got i = some data →
    data.length ≤ certPiece ∧ (block.drop (i * certPiece)).take data.length = data

theorem Placed.none (block : List UInt8) : Placed block fun _ => none := by
  intro i data found
  cases found

/-- The places do not overlap. -/
theorem Placed.write {block block' : List UInt8} {got : Nat → Option (List UInt8)}
    (placed : Placed block got) {index : Nat} {data : List UInt8} (short : data.length ≤ certPiece)
    (written : Block.write block (index * certPiece) data = some block') :
    Placed block' (Function.update got index (some data)) := by
  intro i part found
  by_cases same : i = index
  · subst same
    rw [Function.update_self] at found
    cases found
    exact ⟨short, Block.slice_write written⟩
  · rw [Function.update_of_ne same] at found
    obtain ⟨partShort, held⟩ := placed i part found
    refine ⟨partShort, ?_⟩
    rw [Block.slice_write_apart written, held]
    unfold certPiece at *
    omega

section Step

variable {env : CertEnv} {heap : Heap} {kind : CertKind} {total : UInt8}
  {got : Nat → Option (List UInt8)}

/-- The block a sub-frame is copied to. -/
theorem certBlock_placed {board : Board} {s : CertState} {f : SubFrame} {block : List UInt8}
    (placed : ∀ block ∈ s.certBuffer, Placed block got)
    (found : certBlock board s f.index.toNat = some (some block)) :
    Placed block (if f.index = 0 then fun _ => none else got) := by
  by_cases first : f.index = 0
  · rw [if_pos first]
    exact Placed.none block
  · rw [if_neg first]
    have later : f.index.toNat ≠ 0 := fun zero => first (UInt8.toNat.inj zero)
    rw [certBlock, if_neg later] at found
    exact placed block (Option.some.inj found)

/-- One sub-frame: the buffer afterwards, and where a `1` of the last one comes from. -/
theorem placePiece_placed {s s' : CertState} {f : SubFrame} {result : UInt8} {m m' : ByteMem}
    (placed : ∀ block ∈ s.certBuffer, Placed block got)
    (done : (placePiece env heap s kind total f).run m = (some (result, s'), m')) :
    (∀ block ∈ s'.certBuffer, Placed block (received got f)) ∧
      (result = 1 → f.index.toNat + 1 = total.toNat → ∃ block, Placed block (received got f) ∧
        (finishCertificate env heap kind block (f.data.length + f.index.toNat * certPiece)).run m =
          (some 1, m')) := by
  unfold placePiece at done
  split at done
  next => cases done
  next missing =>
    -- without a buffer the state stays as it is
    cases done
    have empty : s.certBuffer = none := by
      unfold certBlock at missing
      split at missing
      · split at missing
        · cases missing
        · simp at missing
      · exact Option.some.inj missing
    rw [empty]
    exact ⟨by simp, fun one => absurd one (by decide)⟩
  next block found =>
    split at done
    next => cases done
    next block' written =>
    have held : Placed block' (received got f) :=
      (certBlock_placed placed found).write f.short written
    split at done
    next =>
      rw [run_bind] at done
      rcases finished : (finishCertificate env heap kind block'
          (f.data.length + f.index.toNat * certPiece)).run m with ⟨_ | r, m1⟩
      · rw [finished] at done
        cases done
      · rw [finished] at done
        cases done
        exact ⟨by simp [CertState.free], fun one _ => ⟨block', held, by rw [finished, one]⟩⟩
    next notLast =>
      split at done
      next =>
        cases done
        exact ⟨by simp [CertState.free], fun one => absurd one (by decide)⟩
      next =>
        cases done
        exact ⟨by simpa using held, fun _ last => absurd last notLast⟩

end Step

/-! ## Soundness -/

section Run

variable {env : CertEnv} {heaps : Nat → Heap} {kind : CertKind} {total : UInt8}

/-- A result for each sub-frame. -/
theorem writeSubFrames_length {frames : List SubFrame} {n : Nat} {s s' : CertState}
    {results : List UInt8} {m m' : ByteMem}
    (done : (writeSubFrames env heaps kind total n frames s).run m = (some (results, s'), m')) :
    results.length = frames.length := by
  induction frames generalizing n s results m with
  | nil =>
    cases done
    rfl
  | cons f later ih =>
    rw [writeSubFrames, run_bind] at done
    split at done
    next => cases done
    next =>
    rw [run_bind] at done
    split at done
    next => cases done
    next results' s1 rest =>
      cases done
      rw [List.length_cons, List.length_cons, ih (Prod.ext rest rfl)]

/-- A transfer whose last sub-frame got a `1`: the buffer it was finished from. -/
theorem writeSubFrames_finished {earlier : List SubFrame} {last : SubFrame}
    (ends : last.index.toNat + 1 = total.toNat) {n : Nat} {s s' : CertState}
    {results : List UInt8} {m m' : ByteMem} {got : Nat → Option (List UInt8)}
    (placed : ∀ block ∈ s.certBuffer, Placed block got)
    (done : (writeSubFrames env heaps kind total n (earlier ++ [last]) s).run m =
      (some (results, s'), m'))
    (one : results.getLast? = some 1) :
    ∃ heap m0 block, Placed block ((earlier ++ [last]).foldl received got) ∧
      (finishCertificate env heap kind block
        (last.data.length + last.index.toNat * certPiece)).run m0 = (some 1, m') := by
  induction earlier generalizing n s results m got with
  | nil =>
    rw [List.nil_append, writeSubFrames, writeCertificate_subFrame, run_bind] at done
    rcases piece : (placePiece env (heaps n) s kind total last).run m with ⟨_ | ⟨result, s1⟩, m1⟩
    · rw [piece] at done
      cases done
    · rw [piece] at done
      cases done
      have isOne : result = 1 := Option.some.inj one
      obtain ⟨block, held, finished⟩ := (placePiece_placed placed piece).2 isOne ends
      exact ⟨heaps n, m, block, held, finished⟩
  | cons f earlier ih =>
    rw [List.cons_append, writeSubFrames, writeCertificate_subFrame, run_bind] at done
    rcases piece : (placePiece env (heaps n) s kind total f).run m with ⟨_ | ⟨result, s1⟩, m1⟩
    · rw [piece] at done
      cases done
    · rw [piece] at done
      dsimp only at done
      rw [run_bind] at done
      rcases rest : (writeSubFrames env heaps kind total (n + 1) (earlier ++ [last]) s1).run m1 with
        ⟨_ | ⟨results', s2⟩, m2⟩
      · rw [rest] at done
        cases done
      · rw [rest] at done
        cases done
        have len := writeSubFrames_length rest
        have filled : results' ≠ [] := by
          rw [← List.length_pos_iff, len]
          simp
        rw [List.getLast?_cons_of_ne_nil filled] at one
        exact ih (placePiece_placed placed piece).1 rest one

end Run

theorem newest_mem {frames : List SubFrame} {got : Nat → Option (List UInt8)} {i : Nat}
    {data : List UInt8} (found : frames.foldl received got i = some data) :
    got i = some data ∨ ∃ f ∈ frames, f.index.toNat = i ∧ f.data = data := by
  induction frames generalizing got with
  | nil => exact .inl found
  | cons f later ih =>
    rcases ih found with before | ⟨g, mem, named, same⟩
    · unfold received at before
      by_cases here : i = f.index.toNat
      · subst here
        rw [Function.update_self] at before
        exact .inr ⟨f, List.mem_cons_self, rfl, Option.some.inj before⟩
      · rw [Function.update_of_ne here] at before
        split at before
        next => cases before
        next => exact .inl before
    · exact .inr ⟨g, List.mem_cons_of_mem _ mem, named, same⟩

theorem newest_last (earlier : List SubFrame) (last : SubFrame) :
    newest (earlier ++ [last]) last.index.toNat = some last.data := by
  rw [newest, List.foldl_append, List.foldl_cons, List.foldl_nil, received, Function.update_self]

/-- The pieces that came, side by side, are the front of the buffer. -/
theorem flatten_newest {total : UInt8} {frames : List SubFrame} {block : List UInt8}
    (covered : Covered total frames) (held : Placed block (newest frames)) {index : Nat}
    {data : List UInt8} (ends : index + 1 = total.toNat) (last : newest frames index = some data) :
    ((List.range total.toNat).map fun i => (newest frames i).getD []).flatten =
      block.take (index * certPiece + data.length) := by
  have full : (List.range index).map (fun i => (newest frames i).getD []) =
      (List.range index).map fun i => (block.drop (i * certPiece)).take certPiece := by
    refine List.map_congr_left fun i mem => ?_
    have small := List.mem_range.mp mem
    obtain ⟨part, found, whole⟩ := covered i (by omega)
    have slice := (held i part found).2
    rw [whole (by omega)] at slice
    rw [found, slice]
    rfl
  have lastPart : (newest frames index).getD [] =
      (block.drop (index * certPiece)).take data.length := by
    rw [last, (held index data last).2]
    rfl
  rw [← ends, List.range_succ, List.map_append, List.flatten_append, full, Block.flatten_slices,
    List.map_singleton, List.flatten_singleton, lastPart, ← List.take_add]

/-- A `1` for the last sub-frame of a covered transfer. -/
theorem transferSound_of_covered {env : CertEnv} {heaps : Nat → Heap} {kind : CertKind}
    {total : UInt8} {earlier : List SubFrame} {last : SubFrame}
    (ends : last.index.toNat + 1 = total.toNat) (covered : Covered total (earlier ++ [last]))
    {s s' : CertState} {results : List UInt8} {m m' : ByteMem}
    (done : (writeSubFrames env heaps kind total 0 (earlier ++ [last]) s).run m =
      (some (results, s'), m')) :
    TransferSound kind total (earlier ++ [last]) results m' := by
  intro one
  obtain ⟨heap, m0, block, held, finished⟩ := writeSubFrames_finished ends
    (fun block _ => Placed.none block) done one
  obtain ⟨long, fits, stored, sum⟩ := finishCertificate_sound finished
  have whole := flatten_newest covered held ends (newest_last earlier last)
  refine ⟨(List.range total.toNat).map fun i => (newest (earlier ++ [last]) i).getD [], by simp, ?_,
    _, ?_, stored⟩
  · intro i part found
    rw [List.getElem?_map] at found
    obtain ⟨j, place, rfl⟩ := Option.map_eq_some_iff.mp found
    obtain ⟨inside, rfl⟩ := List.getElem?_eq_some_iff.mp place
    rw [List.getElem_range]
    rw [List.length_range] at inside
    obtain ⟨data, got, -⟩ := covered i inside
    rcases newest_mem got with before | came
    · cases before
    · rw [got]
      exact came
  · rw [whole, ← sum, ← List.take_add]
    congr 1
    omega

/-! ## Certificates that come in order -/

/-- `bytes` in full pieces, in order. -/
structure InPieces (bytes : List UInt8) (frames : List SubFrame) : Prop where
  count : frames.length = pieceCount bytes.length
  piece : ∀ i f, frames[i]? = some f →
    f.index.toNat = i ∧ f.data = (bytes.drop (i * certPiece)).take certPiece

/-- A certificate with its sum. -/
def withCrc (cert : List UInt8) : List UInt8 := cert ++ crcField (crcCheck cert)

@[simp] theorem length_withCrc (cert : List UInt8) : (withCrc cert).length = cert.length + 2 := by
  simp [withCrc, crcField]

/-- What an acceptable certificate needs besides: a length the buffer has room for (with a zero
behind it when it is printed), a buffer of the writer's or memory for one, memory for the flash
record twice, and a flash driver that reports success. -/
structure CertRoom (env : CertEnv) (heaps : Nat → Heap) (s : CertState) (cert : List UInt8) :
    Prop where
  filled : cert ≠ []
  fits : cert.length + 2 ≤ maxCertBufLen
  printable : env.logs → cert.length + 2 < maxCertBufLen ∨ 0 ∈ withCrc cert
  writerBlock : ∀ block ∈ s.certBuffer, maxCertBufLen ≤ block.length
  buffer : s.certBuffer.isSome ∨ ((heaps 0 0).memoryAlloc maxCertBufLen).isSome
  record : ∀ call ∈ [1, 2], ((heaps (pieceCount (cert.length + 2) - 1) call).memoryAlloc
    (recordAllocLen cert.length + 4)).isSome
  flash : (heaps (pieceCount (cert.length + 2) - 1) 1).flashWriteResult = 0

/-- A buffer with `front` in it, cleared behind. -/
def certFill (front behind : List UInt8) : List UInt8 :=
  front ++ (List.replicate (maxCertBufLen - front.length) 0 ++ behind)

theorem length_certFill (front behind : List UInt8) :
    maxCertBufLen ≤ (certFill front behind).length := by
  simp only [certFill, List.length_append, List.length_replicate]
  omega

/-- The buffer with all of the certificate can be printed. -/
theorem CertRoom.printed {env : CertEnv} {heaps : Nat → Heap} {s : CertState} {cert : List UInt8}
    (room : CertRoom env heaps s cert) (behind : List UInt8) (logs : env.logs = true) :
    0 ∈ certFill (withCrc cert) behind := by
  rw [certFill, List.mem_append, List.mem_append, List.mem_replicate, length_withCrc]
  rcases room.printable logs with less | zero
  · exact .inr (.inl ⟨by omega, rfl⟩)
  · exact .inl zero

/-- The next sub-frame finds a buffer of the writer's. -/
theorem CertRoom.next {env : CertEnv} {heaps : Nat → Heap} {s : CertState} {cert : List UInt8}
    (room : CertRoom env heaps s cert) {front : List UInt8} (behind : List UInt8) {len : Nat} :
    CertRoom env heaps ⟨some (certFill front behind), len⟩ cert :=
  { room with
    writerBlock := by
      rintro block found
      obtain rfl := Option.some.inj found
      exact length_certFill front behind
    buffer := .inl rfl }

theorem certFill_write {front piece : List UInt8} (behind : List UInt8) {offset : Nat}
    (here : front.length = offset) (room : offset + piece.length ≤ maxCertBufLen) :
    Block.write (certFill front behind) offset piece = some (certFill (front ++ piece) behind) := by
  rw [certFill, Block.write_append here (by simp; omega), certFill,
    List.drop_append_of_le_length (by simp; omega), List.drop_replicate, List.length_append,
    Nat.sub_sub]

/-- The buffer after sub-frame `0` has been looked at. -/
theorem certBlock_first {board : Board} {s : CertState}
    (writerBlock : ∀ block ∈ s.certBuffer, maxCertBufLen ≤ block.length)
    (buffer : s.certBuffer.isSome ∨ (board.memoryAlloc maxCertBufLen).isSome) :
    ∃ block, s.certBuffer.or (board.memoryAlloc maxCertBufLen) = some block ∧
      certBlock board s 0 = some (some (certFill [] (block.drop maxCertBufLen))) := by
  rw [← Bool.or_eq_true, ← Option.isSome_or] at buffer
  obtain ⟨block, taken⟩ := Option.isSome_iff_exists.mp buffer
  have room : maxCertBufLen ≤ block.length := by
    rcases Option.or_eq_some_iff.mp taken with kept | ⟨-, found⟩
    · exact writerBlock block kept
    · exact Nat.le_of_eq (board.memoryAlloc_length _ _ found).symm
  refine ⟨block, taken, ?_⟩
  have cleared := @Block.write_append _ (List.replicate maxCertBufLen 0) 0 [] block rfl
    (by rwa [List.length_replicate])
  rw [List.nil_append, List.nil_append, List.length_replicate] at cleared
  rw [certBlock, if_pos rfl, taken]
  dsimp only
  rw [cleared]
  rfl

/-- A record with its sum in the buffer is accepted. -/
theorem finishCertificate_accepts {env : CertEnv} {heap : Heap} {kind : CertKind}
    {cert behind : List UInt8} (filled : cert ≠ []) (bound : cert.length + 2 ≤ maxCertBufLen)
    (printable : env.logs → 0 ∈ withCrc cert ++ behind)
    (parsed : env.parses kind (cert ++ [0]) = true)
    (record : ∀ call ∈ [1, 2],
      ((heap call).memoryAlloc (recordAllocLen cert.length + 4)).isSome)
    (flash : (heap 1).flashWriteResult = 0) (m : ByteMem) :
    ∃ m', (finishCertificate env heap kind (withCrc cert ++ behind) (cert.length + 2)).run m =
        (some 1, m') ∧ RecordAt m' kind.addr cert := by
  have pos : cert.length ≠ 0 := fun zero => filled (List.length_eq_zero_iff.mp zero)
  unfold maxCertBufLen at bound
  have whole : withCrc cert ++ behind = cert ++ (crcField (crcCheck cert) ++ behind) := by
    rw [withCrc, List.append_assoc]
  have ended : Block.write (withCrc cert ++ behind) cert.length [0] =
      some (cert ++ [0] ++ (crcField (crcCheck cert) ++ behind).drop 1) := by
    rw [whole, Block.write_append rfl (by simp [crcField])]
    rfl
  obtain ⟨m', wrote, stored, -⟩ := @yaWriteFlash_memory (heap 1) kind.addr (by cases kind <;> decide)
    cert 1 (by decide) pos (by change _ ≤ 4086; omega) (by omega) (record 1 (by simp)) m
  have checked : (yaWriteCheckAwsPara env (heap 1) kind (withCrc cert ++ behind) cert.length).run m =
      (some (0, cert ++ [0] ++ (crcField (crcCheck cert) ++ behind).drop 1), m') := by
    rw [yaWriteCheckAwsPara, ended]
    dsimp only
    rw [List.take_left' (by simp), parsed, if_neg (by decide), run_bind, List.append_assoc,
      List.take_left, wrote, flash]
    rfl
  have found : (yaReadFlashWithVarLen (heap 2) kind.addr maxCertBufLen 1).run m' =
      (some cert, m') := by
    rw [yaReadFlashWithVarLen_memory _ stored (by omega) (by decide) (by decide) (by decide),
      if_pos ⟨⟨by change _ ≤ 4086; omega, by change _ ≤ 3072; omega⟩, record 2 (by simp)⟩]
  have copied : Block.write (cert ++ [0] ++ (crcField (crcCheck cert) ++ behind).drop 1) 0 cert =
      some (cert ++ [0] ++ (crcField (crcCheck cert) ++ behind).drop 1) := by
    rw [Block.write_of_le (by simp)]
    simp
  have sum : ((withCrc cert ++ behind).getD cert.length 0).toUInt16 <<< 8 +
      ((withCrc cert ++ behind).getD (cert.length + 1) 0).toUInt16 = crcCheck cert := by
    have high : (withCrc cert ++ behind).getD cert.length 0 = (crcCheck cert >>> 8).toUInt8 := by
      simp [whole, crcField, List.getD_eq_getElem?_getD]
    have low : (withCrc cert ++ behind).getD (cert.length + 1) 0 = (crcCheck cert).toUInt8 := by
      simp [whole, crcField, List.getD_eq_getElem?_getD]
    rw [high, low]
    exact crcField_sum _
  refine ⟨m', ?_, stored⟩
  rw [finishCertificate, if_neg]
  · dsimp only
    rw [Nat.add_sub_cancel, run_bind, checked]
    dsimp only
    rw [if_neg (by simp), run_bind, found]
    dsimp only
    rw [copied]
    dsimp only
    rw [if_neg (by simp), if_neg]
    · rfl
    · rw [List.append_assoc, List.take_left]
      exact not_not_intro sum.symm
  · rintro (⟨logs, missing⟩ | short | outside)
    · exact missing (printable logs)
    · omega
    · rw [List.length_append, length_withCrc] at outside
      omega

section Accepted

variable {env : CertEnv} {heaps : Nat → Heap} {kind : CertKind} {total : UInt8} {bytes : List UInt8}

/-- A piece in front of the last is kept. -/
theorem placePiece_middle {heap : Heap} {s : CertState} {f : SubFrame} {i : Nat}
    {block block' : List UInt8} (index : f.index.toNat = i)
    (found : certBlock (heap 0) s i = some (some block))
    (written : Block.write block (i * certPiece) f.data = some block')
    (more : i + 1 < total.toNat) :
    placePiece env heap s kind total f = return some (1, ⟨some block', s.readDataLen⟩) := by
  rw [placePiece, index, found]
  dsimp only
  rw [written]
  dsimp only
  rw [if_neg (by omega), if_neg (by omega)]

/-- The last piece finishes the record. -/
theorem placePiece_last {heap : Heap} {s : CertState} {f : SubFrame} {i certLen : Nat}
    {block block' : List UInt8} {result : UInt8} {m m' : ByteMem} (index : f.index.toNat = i)
    (found : certBlock (heap 0) s i = some (some block))
    (written : Block.write block (i * certPiece) f.data = some block')
    (last : i + 1 = total.toNat) (len : f.data.length + i * certPiece = certLen)
    (finished : (finishCertificate env heap kind block' certLen).run m = (some result, m')) :
    (placePiece env heap s kind total f).run m = (some (result, s.free), m') := by
  rw [placePiece, index, found]
  dsimp only
  rw [written]
  dsimp only
  rw [if_pos last, len, run_bind, finished]
  rfl

/-- A piece behind those in front of it. -/
theorem certFill_piece {i : Nat} (behind : List UInt8) (before : i * certPiece ≤ bytes.length)
    (fits : bytes.length ≤ maxCertBufLen) :
    Block.write (certFill (bytes.take (i * certPiece)) behind) (i * certPiece)
        ((bytes.drop (i * certPiece)).take certPiece) =
      some (certFill (bytes.take ((i + 1) * certPiece)) behind) := by
  rw [certFill_write behind (by rw [List.length_take]; omega), ← List.take_add, Nat.succ_mul]
  rw [List.length_take, List.length_drop]
  omega

/-- The pieces from `i` on, with those in front of them in the buffer. -/
theorem writeSubFrames_filled {cert : List UInt8} {later : List SubFrame} {i : Nat}
    {s : CertState} {behind : List UInt8}
    (pieces : ∀ j f, later[j]? = some f → f.index.toNat = i + j ∧
      f.data = ((withCrc cert).drop ((i + j) * certPiece)).take certPiece)
    (some : later ≠ []) (count : i + later.length = pieceCount (cert.length + 2))
    (ends : total.toNat = pieceCount (cert.length + 2))
    (room : CertRoom env heaps s cert) (parsed : env.parses kind (cert ++ [0]) = true)
    (block : certBlock (heaps i 0) s i =
      .some (.some (certFill ((withCrc cert).take (i * certPiece)) behind))) (m : ByteMem) :
    ∃ m', (writeSubFrames env heaps kind total i later s).run m =
        (.some (List.replicate later.length 1, s.free), m') ∧ RecordAt m' kind.addr cert := by
  induction later generalizing i s with
  | nil => exact absurd rfl some
  | cons f later ih =>
    obtain ⟨index, data⟩ := pieces 0 f rfl
    rw [Nat.add_zero] at index data
    rw [List.length_cons] at count
    have before : i * certPiece ≤ (withCrc cert).length := by
      rw [length_withCrc]
      unfold pieceCount certPiece at *
      omega
    have fits : (withCrc cert).length ≤ maxCertBufLen := by
      rw [length_withCrc]
      exact room.fits
    have written := certFill_piece behind before fits
    rw [← data] at written
    rw [writeSubFrames, writeCertificate_subFrame, run_bind]
    by_cases last : later = []
    · subst last
      have all : (withCrc cert).take ((i + 1) * certPiece) = withCrc cert := by
        apply List.take_of_length_le
        rw [length_withCrc]
        unfold pieceCount certPiece at *
        simp only [List.length_nil] at count
        omega
      have certLen : f.data.length + i * certPiece = cert.length + 2 := by
        rw [data, List.length_take, List.length_drop, length_withCrc]
        unfold pieceCount certPiece at *
        simp only [List.length_nil] at count
        omega
      have call : i = pieceCount (cert.length + 2) - 1 := by
        rw [← count]
        rfl
      have record := room.record
      have flash := room.flash
      rw [← call] at record flash
      obtain ⟨m', finished, stored⟩ := finishCertificate_accepts room.filled room.fits
        (room.printed behind) parsed record flash m
      refine ⟨m', ?_, stored⟩
      rw [all] at written
      have lastIndex : i + 1 = total.toNat := by
        rw [ends, ← count]
        rfl
      rw [placePiece_last index block written lastIndex certLen finished]
      rfl
    · have more : 0 < later.length := List.length_pos_iff.mpr last
      have next : certBlock (heaps (i + 1) 0)
          ⟨.some (certFill ((withCrc cert).take ((i + 1) * certPiece)) behind), s.readDataLen⟩
            (i + 1) =
          .some (.some (certFill ((withCrc cert).take ((i + 1) * certPiece)) behind)) := by
        rw [certBlock, if_neg (by omega)]
      obtain ⟨m', rest, stored⟩ := ih (fun j g found => by
          have named := pieces (j + 1) g found
          rwa [show i + (j + 1) = i + 1 + j by omega] at named)
        last (by omega) (room.next behind) next
      refine ⟨m', ?_, stored⟩
      rw [placePiece_middle index block written (by omega), run_pure]
      dsimp only
      rw [run_bind, rest]
      rfl

/-- An acceptable certificate that comes in order, in full pieces, gets a `1` for each. -/
theorem transfer_accepted {cert : List UInt8} {frames : List SubFrame} {s : CertState}
    (parsed : env.parses kind (cert ++ [0]) = true) (room : CertRoom env heaps s cert)
    (pieces : InPieces (withCrc cert) frames) (ends : total.toNat = frames.length) (m : ByteMem) :
    ∃ m', (writeSubFrames env heaps kind total 0 frames s).run m =
        (some (List.replicate frames.length 1, s.free), m') ∧ RecordAt m' kind.addr cert := by
  have count := pieces.count
  rw [length_withCrc] at count
  have filled : frames ≠ [] := by
    rintro rfl
    rw [List.length_nil] at count
    unfold pieceCount certPiece at count
    omega
  obtain ⟨kept, -, block⟩ := certBlock_first room.writerBlock room.buffer
  have first : certBlock (heaps 0 0) s 0 =
      some (some (certFill ((withCrc cert).take (0 * certPiece)) (kept.drop maxCertBufLen))) := by
    rw [block, Nat.zero_mul, List.take_zero]
  refine writeSubFrames_filled ?_ filled (by omega) (by omega) room parsed first m
  intro j f found
  rw [Nat.zero_add]
  exact pieces.piece j f found

end Accepted

/-- Writing a certificate or a key. A `1` for the last sub-frame is sound when every sub-frame came
since the buffer was last cleared and all but the last are full, and an acceptable certificate in
order gets its `1` when there is room for it. -/
theorem certTransfer_sound (env : CertEnv) (heaps : Nat → Heap) (kind : CertKind) (total : UInt8)
    (s : CertState) (m : ByteMem) :
    (∀ earlier last results s' m', last.index.toNat + 1 = total.toNat →
      Covered total (earlier ++ [last]) →
      (writeSubFrames env heaps kind total 0 (earlier ++ [last]) s).run m =
        (some (results, s'), m') →
      TransferSound kind total (earlier ++ [last]) results m') ∧
    (∀ cert frames, env.parses kind (cert ++ [0]) = true → CertRoom env heaps s cert →
      InPieces (withCrc cert) frames → total.toNat = frames.length →
      ∃ m', (writeSubFrames env heaps kind total 0 frames s).run m =
        (some (List.replicate frames.length 1, s.free), m')) := by
  constructor
  · intro earlier last results s' m' ends covered done
    exact transferSound_of_covered ends covered done
  · intro cert frames parsed room pieces ends
    obtain ⟨m', done, -⟩ := transfer_accepted parsed room pieces ends m
    exact ⟨m', done⟩

/-- A parser that takes everything, and no log. -/
def CertEnv.quiet : CertEnv := ⟨fun _ _ => true, false⟩

/-- A sub-frame with nothing around it. -/
def SubFrame.plain (index : UInt8) (data : List UInt8) (short : data.length ≤ certPiece) : SubFrame :=
  ⟨List.replicate 7 0, rfl, index, data, short, []⟩

/-- A certificate of 600 bytes. -/
def longCert : List UInt8 := List.replicate 600 65

/-- One of its pieces. -/
def longPiece (i : Nat) : SubFrame :=
  .plain (UInt8.ofNat i) (((withCrc longCert).drop (i * certPiece)).take certPiece)
    (List.length_take_le _ _)

theorem certTransfer_sound_two :
    ∃ m', (writeSubFrames .quiet (fun _ _ => Board.zeroed) .cert 2 0 [longPiece 0, longPiece 1]
        ⟨none, 0⟩).run (fun _ => 0xFF) = (some ([1, 1], ⟨none, 0⟩), m') ∧
      TransferSound .cert 2 [longPiece 0, longPiece 1] [1, 1] m' := by
  have both := certTransfer_sound .quiet (fun _ _ => Board.zeroed) .cert 2 ⟨none, 0⟩ fun _ => 0xFF
  have size : longCert.length = 600 := List.length_replicate
  have length : (withCrc longCert).length = 602 := by rw [length_withCrc, size]
  have room : CertRoom .quiet (fun _ _ => Board.zeroed) ⟨none, 0⟩ longCert :=
    { filled := List.ne_nil_of_length_pos (by rw [size]; decide)
      fits := by rw [size]; decide
      printable := by simp [CertEnv.quiet]
      writerBlock := by simp
      buffer := .inr rfl
      record := fun _ _ => rfl
      flash := rfl }
  have pieces : InPieces (withCrc longCert) [longPiece 0, longPiece 1] := by
    refine ⟨by rw [length]; rfl, ?_⟩
    have data (i : Nat) :
        (longPiece i).data = ((withCrc longCert).drop (i * certPiece)).take certPiece := rfl
    rintro (_ | _ | i) f found
    · cases found
      exact ⟨rfl, data 0⟩
    · cases found
      exact ⟨rfl, data 1⟩
    · cases found
  have covered : Covered 2 ([longPiece 0] ++ [longPiece 1]) := by
    intro i small
    obtain rfl | rfl : i = 0 ∨ i = 1 := by
      change i < 2 at small
      omega
    · refine ⟨(longPiece 0).data, rfl, fun _ => ?_⟩
      change (((withCrc longCert).drop (0 * certPiece)).take certPiece).length = certPiece
      rw [List.length_take, List.length_drop, length]
      rfl
    · exact ⟨_, newest_last [longPiece 0] _, fun more => absurd more (by decide)⟩
  obtain ⟨m', done⟩ := both.2 longCert _ rfl room pieces rfl
  exact ⟨m', done, both.1 [longPiece 0] _ _ _ m' rfl covered done⟩

theorem certFill_zeros {front : List UInt8} (behind : List UInt8) {count : Nat}
    (room : front.length + count ≤ maxCertBufLen) :
    certFill (front ++ List.replicate count 0) behind = certFill front behind := by
  have split : maxCertBufLen - front.length =
      count + (maxCertBufLen - (front ++ List.replicate count (0 : UInt8)).length) := by
    rw [List.length_append, List.length_replicate]
    omega
  rw [certFill, certFill, split, List.replicate_add]
  simp only [List.append_assoc]

/-- `A` and zeros up to the end of a piece. -/
def gapCert : List UInt8 := [65] ++ List.replicate 511 0

theorem length_gapCert : gapCert.length = 512 := by
  rw [gapCert, List.length_append, List.length_replicate]
  rfl

/-- Sub-frame `0` of two, with a single byte, and sub-frame `1` with the sum of `gapCert`. -/
def gapFrames : List SubFrame :=
  [.plain 0 [65] (by decide), .plain 1 (crcField (crcCheck gapCert)) (by decide)]

/-- The sub-frames of `gapFrames` are answered with `1`, and `gapCert` is the record. -/
theorem gapFrames_accepted :
    ∃ m', (writeSubFrames .quiet (fun _ _ => Board.zeroed) .cert 2 0 gapFrames ⟨none, 0⟩).run
        (fun _ => 0xFF) = (some ([1, 1], ⟨none, 0⟩), m') ∧
      RecordAt m' (CertKind.addr .cert) gapCert := by
  obtain ⟨kept, -, block⟩ := @certBlock_first Board.zeroed ⟨none, 0⟩ (by simp) (.inr rfl)
  generalize kept.drop maxCertBufLen = behind at block
  have first : Block.write (certFill [] behind) 0 [65] = some (certFill gapCert behind) := by
    have written := @certFill_write [] [65] behind 0 rfl (by decide)
    rw [written, List.nil_append, gapCert, certFill_zeros behind (by decide)]
  have second : Block.write (certFill gapCert behind) 512 (crcField (crcCheck gapCert)) =
      some (certFill (withCrc gapCert) behind) := by
    rw [certFill_write behind length_gapCert (by simp [crcField, maxCertBufLen]), withCrc]
  obtain ⟨m', finished, stored⟩ := @finishCertificate_accepts .quiet (fun _ => Board.zeroed) .cert
    gapCert (List.replicate (maxCertBufLen - (withCrc gapCert).length) 0 ++ behind)
    (List.ne_nil_of_length_pos (by rw [length_gapCert]; decide)) (by rw [length_gapCert]; decide)
    (by simp [CertEnv.quiet]) rfl (fun _ _ => rfl) rfl
    (fun _ => 0xFF)
  refine ⟨m', ?_, stored⟩
  rw [length_gapCert] at finished
  have kept : placePiece .quiet (fun _ => Board.zeroed) ⟨none, 0⟩ .cert 2
      (.plain 0 [65] (by decide)) = return some (1, ⟨some (certFill gapCert behind), 0⟩) :=
    placePiece_middle (i := 0) rfl block first (by decide)
  have ended : (placePiece .quiet (fun _ => Board.zeroed) ⟨some (certFill gapCert behind), 0⟩ .cert 2
      (.plain 1 (crcField (crcCheck gapCert)) (by decide))).run (fun _ => 0xFF) =
      (some (1, ⟨none, 0⟩), m') :=
    placePiece_last (i := 1) rfl rfl second rfl rfl finished
  rw [gapFrames, writeSubFrames, writeCertificate_subFrame, run_bind, kept, run_pure]
  dsimp only
  rw [run_bind, writeSubFrames, writeCertificate_subFrame, run_bind, ended]
  rfl

/-- Three bytes came, and a record of 512 bytes was accepted. -/
theorem certTransfer_gap_not_sound :
    ∃ m', (writeSubFrames .quiet (fun _ _ => Board.zeroed) .cert 2 0 gapFrames ⟨none, 0⟩).run
        (fun _ => 0xFF) = (some ([1, 1], ⟨none, 0⟩), m') ∧
      ¬ TransferSound .cert 2 gapFrames [1, 1] m' := by
  obtain ⟨m', done, stored⟩ := gapFrames_accepted
  refine ⟨m', done, fun sound => ?_⟩
  obtain ⟨parts, count, came, record, whole, storedToo⟩ := sound rfl
  have same : recordHeader gapCert = recordHeader record := by
    rw [← stored.header, storedToo.header]
  have high : UInt8.ofNat (gapCert.length >>> 8) = UInt8.ofNat (record.length >>> 8) :=
    congrArg (fun header => header.getD 2 0) same
  obtain ⟨p0, p1, rfl⟩ : ∃ p0 p1, parts = [p0, p1] := by
    match parts, count with
    | [p0, p1], _ => exact ⟨p0, p1, rfl⟩
  have len0 : p0.length = 1 := by
    obtain ⟨f, mem, index, rfl⟩ := came 0 p0 rfl
    rcases List.mem_pair.mp mem with rfl | rfl
    · rfl
    · cases index
  have len1 : p1.length = 2 := by
    obtain ⟨f, mem, index, rfl⟩ := came 1 p1 rfl
    rcases List.mem_pair.mp mem with rfl | rfl
    · cases index
    · rfl
  have len : record.length = 1 := by
    have total := congrArg List.length whole
    simp only [List.flatten_cons, List.flatten_nil, List.length_append, List.length_nil, len0, len1,
      crcField, List.length_cons] at total
    omega
  rw [length_gapCert, len] at high
  exact absurd high (by decide)

end Tr6260
