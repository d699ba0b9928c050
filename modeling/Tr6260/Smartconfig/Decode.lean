import Tr6260.Smartconfig.Session
import Tr6260.Traced

/-!
# Decoding a key

`ya_smartconfig_decode` with every read of the plain text told. The plain text lies at the front of
a buffer of 128 bytes that was cleared before, and fields are taken from it before it is known
whether they end inside; what is accepted was read inside all the same. `KeyRecord` is what the
phone packs.
-/

namespace Tr6260

/-! ## The reads -/

/-- The size of the buffer for the plain text. -/
def plainSize : Nat := 128

/-- `buf[i]`. -/
def readBuf (buf : List UInt8) (i : Nat) : Traced Nat UInt8 :=
  if i < plainSize then do
    Traced.touch i
    pure (buf.getD i 0)
  else
    Traced.fault

/-- The bytes that `memcpy` takes from `buf + pos`, or a loop one after another. -/
def readBufs (buf : List UInt8) : (pos len : Nat) → Traced Nat (List UInt8)
  | _, 0 => pure []
  | pos, len + 1 => do
    let b ← readBuf buf pos
    let bs ← readBufs buf (pos + 1) len
    pure (b :: bs)

/-- The check of the sum. -/
def readSum (buf : List UInt8) : Traced Nat Bool := do
  let summed ← readBufs buf 0 (buf.length - 1)
  let last ← readBuf buf (buf.length - 1)
  pure (summed.sum = last)

/-- A password and what follows it, from the length byte at `pos` on. -/
def readPassword (buf : List UInt8) (pos : Nat) (passwordLen : UInt8) :
    Traced Nat (Option (List UInt8 × UInt8 × UInt8 × UInt8)) :=
  if passwordLen.toNat > 64 then
    pure none
  else do
    let password ← readBufs buf (pos + 1) passwordLen.toNat
    let pos := pos + 1 + passwordLen.toNat
    let cloudLen ← readBuf buf pos
    if buf.length < 1 + pos + cloudLen.toNat + 1 then
      pure none
    else if cloudLen < 3 then
      pure none
    else do
      let cloudSelect ← readBuf buf (pos + 1)
      let randA ← readBuf buf (pos + 2)
      let randB ← readBuf buf (pos + 3)
      pure (some (password, cloudSelect, randA, randB))

/-- The fields of a key in the layout with a name, or in the one without. -/
def readFields (buf : List UInt8) (named : Bool) :
    Traced Nat (Option (List UInt8 × List UInt8 × UInt8 × UInt8 × UInt8)) :=
  if named then do
    let ssidLen ← readBuf buf 0
    if ssidLen.toNat > 32 ∨ ssidLen.toNat = 0 then
      pure none
    else if buf.length < 1 + ssidLen.toNat + 1 then
      pure none
    else do
      let ssid ← readBufs buf 1 ssidLen.toNat
      let pos := 1 + ssidLen.toNat
      let passwordLen ← readBuf buf pos
      if buf.length < 1 + pos + passwordLen.toNat + 1 then
        pure none
      else do
        let fields ← readPassword buf pos passwordLen
        pure (fields.map fun fields => (ssid, fields))
  else do
    let passwordLen ← readBuf buf 0
    let fields ← readPassword buf 0 passwordLen
    pure (fields.map fun fields => ([], fields))

/-- What the fields of a key make of `smnt_result`. -/
def smntResult (env : SmartEnv) (s : SmartState) :
    List UInt8 × List UInt8 × UInt8 × UInt8 × UInt8 → Option SmntResult
  | (ssid, password, cloudSelect, randA, randB) =>
    let rand := env.digest (CString.ofBytes (password ++ hexByte randA ++ hexByte randB)).1
    match getApInfo s.routers s.info.bssid with
    | some apInfo =>
      some ⟨if apInfo.ssid.strlen ≠ 0 then apInfo.ssid.1 else ssid, password, s.info.bssid,
        cloudSelect, rand⟩
    | none =>
      if ssid.getD 0 0 = 0 then none else some ⟨ssid, password, s.info.bssid, cloudSelect, rand⟩

/-- `ya_smartconfig_decode` from the decrypted bytes on. -/
def readKey (env : SmartEnv) (s : SmartState) (named : Bool) (buf : List UInt8) :
    Traced Nat (Option SmntResult) := do
  let whole ← readSum buf
  if whole = false then
    pure none
  else do
    let fields ← readFields buf named
    pure (fields.bind (smntResult env s))

/-- `ya_smartconfig_decode`. A plain text that is longer than its buffer overruns it. -/
def readSmartconfig (env : SmartEnv) (alloc : Bool) (s : SmartState) :
    Traced Nat (Option SmntResult) :=
  if alloc = false then
    pure none
  else
    match finishedKey s with
    | none => pure none
    | some [] => pure none
    | some key =>
      if key.length ≤ plainSize then readKey env s s.mul.finish (env.decrypt key)
      else Traced.fault

/-! ## What is read -/

section Reads

variable {buf : List UInt8} {pos len : Nat}

theorem value_readBuf (inside : pos < plainSize) :
    (readBuf buf pos).value = some (buf.getD pos 0) := by
  rw [readBuf, if_pos inside]
  rfl

theorem value_readBufs (inside : pos + len ≤ plainSize) :
    (readBufs buf pos len).value = some ((List.range len).map fun i => buf.getD (pos + i) 0) := by
  induction len generalizing pos with
  | zero => rfl
  | succ len ih =>
    rw [readBufs, Traced.value_bind, value_readBuf (by omega), Option.bind_some,
      Traced.value_bind, ih (by omega), Option.bind_some, List.range_succ_eq_map, List.map_cons,
      List.map_map]
    refine congrArg some (congrArg _ (List.map_congr_left fun i _ => ?_))
    exact congrArg (fun i => buf.getD i 0) (by rw [Nat.add_assoc, Nat.add_comm 1 i])

theorem range_getD (bytes : List UInt8) :
    ((List.range bytes.length).map fun i => bytes.getD i 0) = bytes := by
  refine List.ext_getElem (by simp) fun i low high => ?_
  rw [List.getElem_map, List.getElem_range, List.getD_eq_getElem?_getD,
    List.getElem?_eq_getElem high, Option.getD_some]

theorem slice_getD (inside : pos + len ≤ buf.length) :
    ((List.range len).map fun i => buf.getD (pos + i) 0) = (buf.drop pos).take len := by
  have whole := range_getD ((buf.drop pos).take len)
  rw [List.length_take, List.length_drop, Nat.min_eq_left (by omega)] at whole
  refine Eq.trans (List.map_congr_left fun i low => ?_) whole
  rw [List.getD_eq_getElem?_getD, List.getD_eq_getElem?_getD, List.getElem?_take,
    if_pos (List.mem_range.mp low), List.getElem?_drop]

theorem value_readSum (some_ : buf ≠ []) (short : buf.length ≤ plainSize) :
    (readSum buf).value = some (decide (buf.dropLast.sum = buf.getLastD 0)) := by
  have pos := List.length_pos_iff.mpr some_
  have last : buf.getD (buf.length - 1) 0 = buf.getLastD 0 := by
    rw [List.getLastD_eq_getLast?, List.getLast?_eq_getElem?, List.getD_eq_getElem?_getD]
  have front : ((List.range (buf.length - 1)).map fun i => buf.getD (0 + i) 0) = buf.dropLast := by
    rw [slice_getD (by omega), List.drop_zero, List.dropLast_eq_take]
  rw [readSum, Traced.value_bind, value_readBufs (by omega), Option.bind_some, Traced.value_bind,
    value_readBuf (by omega), Option.bind_some, Traced.value_pure, last, front]

/-- What is taken from the buffer behind a password's length. -/
theorem value_readPassword (low : pos + 71 ≤ plainSize) :
    (readPassword buf pos (buf.getD pos 0)).value = some (decodePassword buf pos false) := by
  have loose : ¬ (false = true ∧ buf.length < 1 + pos + (buf.getD pos 0).toNat + 1) :=
    fun both => Bool.false_ne_true both.1
  rw [readPassword, decodePassword]
  dsimp only
  rw [if_neg loose]
  by_cases long : (buf.getD pos 0).toNat > 64
  · rw [if_pos long, if_pos long]
    rfl
  rw [if_neg long, if_neg long, Traced.value_bind, value_readBufs (by omega), Option.bind_some,
    Traced.value_bind, value_readBuf (by omega), Option.bind_some]
  split
  · rfl
  split
  · rfl
  rw [Traced.value_bind, value_readBuf (by omega), Option.bind_some, Traced.value_bind,
    value_readBuf (by omega), Option.bind_some, Traced.value_bind, value_readBuf (by omega),
    Option.bind_some]
  rfl

theorem decodePassword_bounded : decodePassword buf pos true =
    if buf.length < 1 + pos + (buf.getD pos 0).toNat + 1 then none
    else decodePassword buf pos false := by
  have loose : ¬ (false = true ∧ buf.length < 1 + pos + (buf.getD pos 0).toNat + 1) :=
    fun both => Bool.false_ne_true both.1
  rw [decodePassword, decodePassword]
  dsimp only
  rw [if_neg loose]
  simp only [true_and]

theorem value_readFields (named : Bool) :
    (readFields buf named).value = some (decodeFields buf named) := by
  cases named with
  | false =>
    rw [readFields, decodeFields, if_neg (by decide), if_neg (by decide), Traced.value_bind,
      value_readBuf (by decide), Option.bind_some, Traced.value_bind,
      value_readPassword (by decide), Option.bind_some]
    rfl
  | true =>
    have size : plainSize = 128 := rfl
    rw [readFields, decodeFields, if_pos rfl, if_pos rfl, Traced.value_bind,
      value_readBuf (by decide), Option.bind_some]
    dsimp only
    by_cases wrong : (buf.getD 0 0).toNat > 32 ∨ (buf.getD 0 0).toNat = 0
    · rw [if_pos wrong, if_pos wrong]
      rfl
    have short : (buf.getD 0 0).toNat ≤ 32 := by omega
    rw [if_neg wrong, if_neg wrong]
    by_cases cut : buf.length < 1 + (buf.getD 0 0).toNat + 1
    · rw [if_pos cut, if_pos cut]
      rfl
    rw [if_neg cut, if_neg cut, Traced.value_bind, value_readBufs (by omega), Option.bind_some,
      Traced.value_bind, value_readBuf (by omega), Option.bind_some, decodePassword_bounded,
      slice_getD (by omega)]
    split
    · rfl
    rw [Traced.value_bind, value_readPassword (by omega), Option.bind_some]
    rfl

end Reads

section Keys

variable {env : SmartEnv} {s : SmartState} {buf : List UInt8} {pos len n : Nat} {named alloc : Bool}

theorem decodeKey_eq : decodeKey env s named buf =
    if buf.dropLast.sum ≠ buf.getLastD 0 then none
    else (decodeFields buf named).bind (smntResult env s) := by
  rw [decodeKey]
  cases decodeFields buf named <;> rfl

/-- The reads give what the decoder computes. -/
theorem value_readKey (some_ : buf ≠ []) (short : buf.length ≤ plainSize) :
    (readKey env s named buf).value = some (decodeKey env s named buf) := by
  rw [readKey, Traced.value_bind, value_readSum some_ short, Option.bind_some, decodeKey_eq]
  by_cases right : buf.dropLast.sum = buf.getLastD 0
  · rw [if_neg (not_not_intro right), decide_eq_true right, if_neg (by decide), Traced.value_bind,
      value_readFields, Option.bind_some]
    rfl
  · rw [if_pos right, decide_eq_false right, if_pos rfl]
    rfl

/-- With a key that fits its buffer the reads give what `ya_smartconfig_decode` returns. -/
theorem value_readSmartconfig
    (short : ∀ key, finishedKey s = some key → key.length ≤ plainSize) :
    (readSmartconfig env alloc s).value = some (yaSmartconfigDecode env alloc s) := by
  rw [readSmartconfig, yaSmartconfigDecode]
  split
  · rfl
  cases found : finishedKey s with
  | none => rfl
  | some key =>
    cases key with
    | nil => rfl
    | cons b key =>
      have length := env.decrypt_length (b :: key)
      have fits := short _ found
      dsimp only
      rw [if_pos fits]
      refine value_readKey ?_ (length ▸ fits)
      rw [← List.length_pos_iff, length]
      exact Nat.succ_pos _

/-! ## The reads lie inside -/

theorem only_readBuf (below : pos < n) : (readBuf buf pos).Only (· < n) := by
  rw [readBuf]
  split
  · exact Traced.only_touch_bind below (Traced.only_pure _)
  · exact Traced.only_fault

theorem only_readBufs (below : pos + len ≤ n) : (readBufs buf pos len).Only (· < n) := by
  induction len generalizing pos with
  | zero => exact Traced.only_pure _
  | succ len ih =>
    refine (only_readBuf (by omega)).bind fun _ _ => ?_
    exact (ih (by omega)).bind fun _ _ => Traced.only_pure _

theorem only_readSum (some_ : buf ≠ []) : (readSum buf).Only (· < buf.length) := by
  have pos := List.length_pos_iff.mpr some_
  refine (only_readBufs (by omega)).bind fun _ _ => ?_
  exact (only_readBuf (by omega)).bind fun _ _ => Traced.only_pure _

/-- What is accepted: the password and the third field end before the sum. -/
theorem decodePassword_some {bounded : Bool} {fields : List UInt8 × UInt8 × UInt8 × UInt8}
    (accepted : decodePassword buf pos bounded = some fields) :
    ∃ passwordLen cloudLen, passwordLen = (buf.getD pos 0).toNat ∧ passwordLen ≤ 64 ∧
      cloudLen = (buf.getD (pos + 1 + passwordLen) 0).toNat ∧ 3 ≤ cloudLen ∧
      pos + 1 + passwordLen + 1 + cloudLen + 1 ≤ buf.length ∧
      fields = ((buf.drop (pos + 1)).take passwordLen,
        buf.getD (pos + 1 + passwordLen + 1) 0, buf.getD (pos + 1 + passwordLen + 2) 0,
        buf.getD (pos + 1 + passwordLen + 3) 0) := by
  unfold decodePassword at accepted
  dsimp only at accepted
  split at accepted
  · cases accepted
  split at accepted
  · cases accepted
  next low =>
    split at accepted
    · cases accepted
    next inside =>
      split at accepted
      · cases accepted
      next enough =>
        rw [UInt8.not_lt, UInt8.le_iff_toNat_le] at enough
        cases accepted
        refine ⟨_, _, rfl, by omega, rfl, enough, by omega, ?_⟩
        rw [slice_getD (by omega)]

theorem decodePassword_inside {bounded : Bool} {fields : List UInt8 × UInt8 × UInt8 × UInt8}
    (accepted : decodePassword buf pos bounded = some fields) :
    (buf.getD pos 0).toNat ≤ 64 ∧ pos + (buf.getD pos 0).toNat + 6 ≤ buf.length := by
  rcases decodePassword_some accepted with ⟨_, _, rfl, low, rfl, three, inside, -⟩
  exact ⟨low, by omega⟩

theorem only_readPassword {bounded : Bool} {fields : List UInt8 × UInt8 × UInt8 × UInt8}
    (accepted : decodePassword buf pos bounded = some fields) :
    (readPassword buf pos (buf.getD pos 0)).Only (· < buf.length) := by
  rcases decodePassword_inside accepted with ⟨low, inside⟩
  rw [readPassword, if_neg (by omega)]
  refine (only_readBufs (by omega)).bind fun _ _ => ?_
  refine (only_readBuf (by omega)).bind fun _ _ => ?_
  split
  · exact Traced.only_pure _
  split
  · exact Traced.only_pure _
  refine (only_readBuf (by omega)).bind fun _ _ => ?_
  refine (only_readBuf (by omega)).bind fun _ _ => ?_
  exact (only_readBuf (by omega)).bind fun _ _ => Traced.only_pure _

theorem eq_of_readBuf {b : UInt8} (value : (readBuf buf pos).value = some b) :
    b = buf.getD pos 0 := by
  by_cases inside : pos < plainSize
  · rw [value_readBuf inside] at value
    exact (Option.some.inj value).symm
  · rw [readBuf, if_neg inside] at value
    cases value

theorem only_readFields {fields : List UInt8 × List UInt8 × UInt8 × UInt8 × UInt8}
    (accepted : decodeFields buf named = some fields) :
    (readFields buf named).Only (· < buf.length) := by
  cases named with
  | false =>
    rw [decodeFields, if_neg (by decide)] at accepted
    rcases Option.map_eq_some_iff.mp accepted with ⟨rest, accepted, -⟩
    have inside := (decodePassword_inside accepted).2
    rw [readFields, if_neg (by decide)]
    refine (only_readBuf (by omega)).bind fun passwordLen value => ?_
    rw [eq_of_readBuf value]
    exact (only_readPassword accepted).bind fun _ _ => Traced.only_pure _
  | true =>
    rw [decodeFields, if_pos rfl] at accepted
    dsimp only at accepted
    split at accepted
    · cases accepted
    next open_ =>
      split at accepted
      · cases accepted
      rcases Option.map_eq_some_iff.mp accepted with ⟨rest, accepted, -⟩
      have inside := (decodePassword_inside accepted).2
      rw [readFields, if_pos rfl]
      refine (only_readBuf (by omega)).bind fun ssidLen value => ?_
      rw [eq_of_readBuf value, if_neg open_]
      split
      · exact Traced.only_pure _
      refine (only_readBufs (by omega)).bind fun _ _ => ?_
      refine (only_readBuf (by omega)).bind fun passwordLen value => ?_
      rw [eq_of_readBuf value]
      split
      · exact Traced.only_pure _
      exact (only_readPassword accepted).bind fun _ _ => Traced.only_pure _

/-- What is accepted was read below its length. -/
theorem only_readKey (some_ : buf ≠ []) (short : buf.length ≤ plainSize) {result : SmntResult}
    (accepted : (readKey env s named buf).value = some (some result)) :
    (readKey env s named buf).Only (· < buf.length) := by
  rw [value_readKey some_ short, Option.some.injEq, decodeKey_eq] at accepted
  split at accepted
  · cases accepted
  rcases Option.bind_eq_some_iff.mp accepted with ⟨fields, accepted, -⟩
  refine (only_readSum some_).bind fun whole _ => ?_
  split
  · exact Traced.only_pure _
  · exact (only_readFields accepted).bind fun _ _ => Traced.only_pure _

theorem only_readSmartconfig {key : List UInt8} (found : finishedKey s = some key)
    {result : SmntResult}
    (accepted : (readSmartconfig env alloc s).value = some (some result)) :
    (readSmartconfig env alloc s).Only (· < key.length) := by
  rw [readSmartconfig] at accepted ⊢
  split at accepted
  · cases accepted
  next memory =>
    rw [if_neg memory]
    rw [found] at accepted ⊢
    cases key with
    | nil => cases accepted
    | cons b key =>
      have length := env.decrypt_length (b :: key)
      dsimp only at accepted ⊢
      split at accepted
      next fits =>
        rw [if_pos fits]
        rw [← length] at fits ⊢
        refine only_readKey ?_ fits accepted
        rw [← List.length_pos_iff, length]
        exact Nat.succ_pos _
      next => cases accepted

end Keys

/-! ## What the phone packs -/

/-- What the phone tells: a name, a password, the cloud and two random bytes. More may follow the
random bytes in their field. -/
structure KeyRecord where
  ssid : List UInt8
  password : List UInt8
  cloudSelect : UInt8
  randA : UInt8
  randB : UInt8
  more : List UInt8
  ssid_length : 1 ≤ ssid.length ∧ ssid.length ≤ 32
  password_length : password.length ≤ 64
  more_length : more.length + 3 < 256

/-- A field with its length in front. -/
def withLen (field : List UInt8) : List UInt8 := UInt8.ofNat field.length :: field

namespace KeyRecord

variable (record : KeyRecord)

/-- The field of the cloud and the random bytes. -/
def cloud : List UInt8 := record.cloudSelect :: record.randA :: record.randB :: record.more

/-- The fields, with the name in the layout of the multicast parser only. -/
def fields (named : Bool) : List UInt8 :=
  (if named then withLen record.ssid else []) ++ withLen record.password ++
    withLen record.cloud

/-- The record as it is encrypted. -/
def encode (named : Bool) : List UInt8 := record.fields named ++ [(record.fields named).sum]

/-- The fields as the decoder hands them on. -/
def values (named : Bool) : List UInt8 × List UInt8 × UInt8 × UInt8 × UInt8 :=
  (if named then record.ssid else [], record.password, record.cloudSelect, record.randA,
    record.randB)

end KeyRecord

section Records

variable {front rest tail password : List UInt8} {pos : Nat}

theorem getD_behind (front rest : List UInt8) (i : Nat) :
    (front ++ rest).getD (front.length + i) 0 = rest.getD i 0 := by
  rw [List.getD_eq_getElem?_getD, List.getD_eq_getElem?_getD,
    List.getElem?_append_right (Nat.le_add_right _ _), Nat.add_sub_cancel_left]

theorem length_withLen (field : List UInt8) : (withLen field).length = 1 + field.length := by
  rw [withLen, List.length_cons, Nat.add_comm]

theorem toNat_length {field : List UInt8} (short : field.length < 256) :
    (UInt8.ofNat field.length).toNat = field.length := by
  rw [UInt8.toNat_ofNat']
  exact Nat.mod_eq_of_lt short

/-- The bytes behind a length byte. -/
theorem withLen_text (front field rest : List UInt8) :
    ((List.range field.length).map fun i =>
      (front ++ (withLen field ++ rest)).getD (front.length + 1 + i) 0) = field := by
  refine Eq.trans (List.map_congr_left fun i low => ?_) (range_getD field)
  have low := List.mem_range.mp low
  have shifted := getD_behind front (withLen field ++ rest) (1 + i)
  rw [← Nat.add_assoc] at shifted
  rw [shifted, withLen, Nat.add_comm 1 i, List.cons_append, List.getD_cons_succ,
    List.getD_eq_getElem?_getD, List.getD_eq_getElem?_getD, List.getElem?_append_left low]

/-- What follows a field. -/
theorem withLen_behind (front field rest : List UInt8) (i : Nat) :
    (front ++ (withLen field ++ rest)).getD (front.length + 1 + field.length + i) 0 =
      rest.getD i 0 := by
  have shifted := getD_behind (front ++ withLen field) rest i
  rw [List.length_append, length_withLen, List.append_assoc, ← Nat.add_assoc] at shifted
  exact shifted

theorem decodePassword_packed (record : KeyRecord) (front : List UInt8) (some_ : tail ≠ [])
    (bounded : Bool) :
    decodePassword (front ++ (withLen record.password ++ (withLen record.cloud ++ tail)))
      front.length bounded =
      some (record.password, record.cloudSelect, record.randA, record.randB) := by
  have short := record.password_length
  have cloudShort : record.cloud.length < 256 := record.more_length
  let rest := withLen record.cloud ++ tail
  let buf := front ++ (withLen record.password ++ rest)
  have passwordLen : (buf.getD front.length 0).toNat = record.password.length := by
    rw [show buf.getD front.length 0 = _ from getD_behind front _ 0]
    exact toNat_length (by omega)
  have behind := withLen_behind front record.password rest
  have cloudLen : (buf.getD (front.length + 1 + record.password.length) 0).toNat =
      record.cloud.length := by
    have zero := behind 0
    rw [Nat.add_zero] at zero
    rw [show buf.getD _ 0 = _ from zero]
    exact toNat_length cloudShort
  have length : buf.length = front.length + (1 + record.password.length) +
      (1 + record.cloud.length) + tail.length := by
    simp only [buf, rest, List.length_append, length_withLen]
    omega
  have last := List.length_pos_iff.mpr some_
  have three : 3 ≤ record.cloud.length := Nat.le_add_left 3 record.more.length
  have enough : ¬ buf.getD (front.length + 1 + record.password.length) 0 < 3 := by
    rw [UInt8.not_lt, UInt8.le_iff_toNat_le, cloudLen]
    exact three
  change decodePassword buf front.length bounded = _
  rw [decodePassword]
  dsimp only
  rw [passwordLen, if_neg (by omega), if_neg (by omega), if_neg (by omega), if_neg enough,
    withLen_text, behind 1, behind 2, behind 3]
  rfl

/-- The fields of a record are read back. -/
theorem decodeFields_packed (record : KeyRecord) (named : Bool) (some_ : tail ≠ []) :
    decodeFields (record.fields named ++ tail) named = some (record.values named) := by
  rw [decodeFields, KeyRecord.fields, List.append_assoc, List.append_assoc]
  cases named with
  | false =>
    rw [if_neg (by decide), if_neg (by decide), List.nil_append]
    have packed := decodePassword_packed record [] some_ false
    rw [List.nil_append, List.length_nil] at packed
    rw [packed]
    rfl
  | true =>
    have size := record.ssid_length
    have packed := decodePassword_packed record (withLen record.ssid) some_ true
    rw [length_withLen] at packed
    have behind : 1 ≤ (withLen record.password ++ (withLen record.cloud ++ tail)).length := by
      rw [List.length_append, length_withLen]
      omega
    rw [if_pos rfl, if_pos rfl]
    generalize withLen record.password ++ (withLen record.cloud ++ tail) = rest at packed behind ⊢
    have ssidLen : ((withLen record.ssid ++ rest).getD 0 0).toNat = record.ssid.length :=
      toNat_length (by omega)
    have name : ((withLen record.ssid ++ rest).drop 1).take record.ssid.length = record.ssid := by
      rw [withLen, List.cons_append, List.drop_one, List.tail_cons, List.take_left]
    have length : 2 + record.ssid.length ≤ (withLen record.ssid ++ rest).length := by
      rw [List.length_append, length_withLen]
      omega
    dsimp only
    rw [ssidLen, if_neg (by omega), if_neg (by omega), name, packed]
    rfl

/-- A length byte and what it counts come first. -/
theorem drop_withLen {buf : List UInt8} {len : Nat} (inside : pos + 1 + len ≤ buf.length)
    (length : len = (buf.getD pos 0).toNat) :
    buf.drop pos = withLen ((buf.drop (pos + 1)).take len) ++ buf.drop (pos + 1 + len) := by
  have low : pos < buf.length := by omega
  have size : ((buf.drop (pos + 1)).take len).length = len := by
    rw [List.length_take, List.length_drop, Nat.min_eq_left (by omega)]
  have byte : UInt8.ofNat len = buf[pos] := by
    rw [length, UInt8.ofNat_toNat, List.getD_eq_getElem?_getD, List.getElem?_eq_getElem low,
      Option.getD_some]
  have rest : buf.drop (pos + 1 + len) = (buf.drop (pos + 1)).drop len := by rw [List.drop_drop]
  rw [withLen, size, byte, List.drop_eq_getElem_cons low, List.cons_append, rest,
    List.take_append_drop]

/-- Three bytes and what follows them. -/
theorem slice_three {buf : List UInt8} {len : Nat} (three : 3 ≤ len)
    (inside : pos + len ≤ buf.length) :
    (buf.drop pos).take len = buf.getD pos 0 :: buf.getD (pos + 1) 0 :: buf.getD (pos + 2) 0 ::
      (buf.drop (pos + 3)).take (len - 3) := by
  rcases Nat.exists_eq_add_of_le' three with ⟨more, rfl⟩
  rw [← slice_getD inside, ← slice_getD (show pos + 3 + (more + 3 - 3) ≤ _ by omega),
    Nat.add_sub_cancel, List.range_succ_eq_map, List.range_succ_eq_map, List.range_succ_eq_map]
  simp only [List.map_cons, List.map_map, Nat.add_zero]
  refine congrArg _ (congrArg _ (congrArg _ (List.map_congr_left fun i _ => ?_)))
  exact congrArg (fun i => buf.getD i 0) (by simp only [Function.comp_apply]; omega)

theorem packed_of_decodePassword {buf : List UInt8} {bounded : Bool} {c a b : UInt8}
    (accepted : decodePassword buf pos bounded = some (password, c, a, b)) :
    ∃ more tail, password.length ≤ 64 ∧ more.length + 3 < 256 ∧ tail ≠ [] ∧
      buf.drop pos = withLen password ++ (withLen (c :: a :: b :: more) ++ tail) := by
  rcases decodePassword_some accepted with
    ⟨passwordLen, cloudLen, passwordByte, short, cloudByte, three, inside, fields⟩
  simp only [Prod.mk.injEq] at fields
  rcases fields with ⟨text, first, second, third⟩
  have byte := UInt8.toNat_lt (buf.getD (pos + 1 + passwordLen) 0)
  refine ⟨(buf.drop (pos + 1 + passwordLen + 1 + 3)).take (cloudLen - 3),
    buf.drop (pos + 1 + passwordLen + 1 + cloudLen), ?_, ?_, ?_, ?_⟩
  · rw [text]
    exact (List.length_take_le _ _).trans short
  · have length := List.length_take_le (cloudLen - 3) (buf.drop (pos + 1 + passwordLen + 1 + 3))
    omega
  · rw [← List.length_pos_iff, List.length_drop]
    omega
  · rw [drop_withLen (by omega) passwordByte, drop_withLen (by omega) cloudByte,
      slice_three three (by omega), text, first, second, third]

/-- A key is accepted when it starts with the fields of a record and more follows. -/
theorem decodeFields_iff {buf : List UInt8} {named : Bool}
    {values : List UInt8 × List UInt8 × UInt8 × UInt8 × UInt8} :
    decodeFields buf named = some values ↔ ∃ (record : KeyRecord) (tail : List UInt8),
      tail ≠ [] ∧ buf = record.fields named ++ tail ∧ values = record.values named := by
  constructor
  · intro accepted
    cases named with
    | false =>
      rw [decodeFields, if_neg (by decide)] at accepted
      rcases Option.map_eq_some_iff.mp accepted with ⟨⟨password, c, a, b⟩, taken, rfl⟩
      rcases packed_of_decodePassword taken with ⟨more, tail, short, byte, some_, packed⟩
      refine ⟨⟨[0], password, c, a, b, more, by decide, short, byte⟩, tail, some_, ?_, rfl⟩
      rw [List.drop_zero] at packed
      rw [packed, ← List.append_assoc]
      rfl
    | true =>
      rw [decodeFields, if_pos rfl] at accepted
      dsimp only at accepted
      split at accepted
      · cases accepted
      next size =>
        split at accepted
        · cases accepted
        next inside =>
          rcases Option.map_eq_some_iff.mp accepted with ⟨⟨password, c, a, b⟩, taken, rfl⟩
          rcases packed_of_decodePassword taken with ⟨more, tail, short, byte, some_, packed⟩
          have length : ((buf.drop 1).take (buf.getD 0 0).toNat).length =
              (buf.getD 0 0).toNat := by
            rw [List.length_take, List.length_drop, Nat.min_eq_left (by omega)]
          have whole : buf.drop 0 = withLen ((buf.drop (0 + 1)).take (buf.getD 0 0).toNat) ++
              buf.drop (0 + 1 + (buf.getD 0 0).toNat) := drop_withLen (by omega) rfl
          simp only [List.drop_zero, Nat.zero_add, packed] at whole
          refine ⟨⟨(buf.drop 1).take (buf.getD 0 0).toNat, password, c, a, b, more,
            by omega, short, byte⟩, tail, some_, whole.trans ?_, rfl⟩
          rw [KeyRecord.fields, if_pos rfl, List.append_assoc, List.append_assoc]
          rfl
  · rintro ⟨record, tail, some_, rfl, rfl⟩
    exact decodeFields_packed record named some_

variable {env : SmartEnv} {s : SmartState} {named : Bool}

theorem decodeKey_encode (record : KeyRecord) :
    decodeKey env s named (record.encode named) = smntResult env s (record.values named) := by
  rw [decodeKey_eq, KeyRecord.encode, List.dropLast_concat, List.getLastD_concat,
    if_neg (not_not_intro rfl), decodeFields_packed record named (List.cons_ne_nil _ _),
    Option.bind_some]

end Records

/-! ## The decoder and the record -/

/-- The places of a parser's array. -/
def KeySource.room : KeySource → Nat
  | .mul => 128
  | .toDs | .fromDs => 80

namespace KeyRecord

/-- There is a name: of an access point that is in the list, or in the record, which in the layout
of the multicast parser only has one. It must not be empty as a text. -/
def HasName (record : KeyRecord) (s : SmartState) (source : KeySource) : Prop :=
  (getApInfo s.routers s.info.bssid).isSome ∨ (source = .mul ∧ record.ssid.getD 0 0 ≠ 0)

/-- The name of the access point where it is known and shows one, and that of the record. -/
def name (record : KeyRecord) (s : SmartState) (named : Bool) : List UInt8 :=
  match getApInfo s.routers s.info.bssid with
  | some apInfo =>
    if apInfo.ssid.strlen ≠ 0 then apInfo.ssid.1 else if named then record.ssid else []
  | none => record.ssid

/-- What the application is to get. -/
def result (env : SmartEnv) (record : KeyRecord) (s : SmartState) (named : Bool) : SmntResult where
  ssid := record.name s named
  password := record.password
  bssid := s.info.bssid
  cloudSelect := record.cloudSelect
  rand := env.digest
    (CString.ofBytes (record.password ++ hexByte record.randA ++ hexByte record.randB)).1

theorem smntResult_values (env : SmartEnv) (record : KeyRecord) {s : SmartState}
    {source : KeySource} (known : record.HasName s source) :
    smntResult env s (record.values (source = .mul)) =
      some (record.result env s (source = .mul)) := by
  rw [values, smntResult, result, name]
  cases found : getApInfo s.routers s.info.bssid with
  | some apInfo => rfl
  | none =>
    rcases known with listed | ⟨multicast, text⟩
    · rw [found] at listed
      cases listed
    · dsimp only
      rw [decide_eq_true multicast, if_pos rfl, if_neg text]

end KeyRecord

/-- A record that fits the key is read back whole, where there is a name; and whatever is accepted
was read below the length of the key. -/
theorem readSmartconfig_right (env : SmartEnv) (s : SmartState) :
    (∀ source (record : KeyRecord), s.OnlyFinished source →
      (record.encode (source = .mul)).length ≤ source.room →
      env.decrypt (s.block source).bytes = record.encode (source = .mul) →
      record.HasName s source →
      (readFields (env.decrypt (s.block source).bytes) (source = .mul)).value =
          some (some (record.values (source = .mul))) ∧
        (readSmartconfig env true s).value = some (some (record.result env s (source = .mul)))) ∧
    ∀ alloc key result, finishedKey s = some key →
      (readSmartconfig env alloc s).value = some (some result) →
      (readSmartconfig env alloc s).Only (· < key.length) := by
  refine ⟨fun source record only fits plain known => ?_,
    fun alloc key result found accepted => only_readSmartconfig found accepted⟩
  rcases only.finishedKey with ⟨found, named⟩
  have length := env.decrypt_length (s.block source).bytes
  rw [plain] at length
  have room : source.room ≤ plainSize := by cases source <;> decide
  constructor
  · rw [value_readFields, plain, KeyRecord.encode,
      decodeFields_packed record _ (List.cons_ne_nil _ _)]
  · have short : ∀ key, finishedKey s = some key → key.length ≤ plainSize := by
      intro key same
      cases found.symm.trans same
      exact length ▸ fits.trans room
    rw [value_readSmartconfig short, yaSmartconfigDecode, if_neg (by decide), found]
    cases empty : (s.block source).bytes with
    | nil =>
      rw [empty] at length
      simp [KeyRecord.encode] at length
    | cons b key =>
      dsimp only
      rw [← empty, plain, named, decodeKey_encode, record.smntResult_values env known]

/-- A session in which the multicast parser has a record for its key. -/
def packedSession (record : KeyRecord) : SmartState :=
  newSession ⟨fun i => (record.encode true).getD i 0, fun _ => 1,
    UInt8.ofNat (record.encode true).length, 0, true, 0, true⟩

theorem packedSession_onlyFinished (record : KeyRecord) :
    (packedSession record).OnlyFinished .mul := by
  intro other
  cases other <;> simp [packedSession, newSession, SmartState.block, ParseBroadcast.block,
    ParseMulticast.block, ParseBroadcast.zero]

/-- The name `home`, the password `12345678`, and the cloud 1. -/
def homeRecord : KeyRecord :=
  ⟨[104, 111, 109, 101], [49, 50, 51, 52, 53, 54, 55, 56], 1, 0xA5, 0x3C, [], by decide, by decide,
    by decide⟩

theorem readSmartconfig_right_home :
    (packedSession homeRecord).OnlyFinished .mul ∧
      (homeRecord.encode true).length ≤ KeySource.mul.room ∧
      (readFields (plainEnv.decrypt ((packedSession homeRecord).block .mul).bytes) true).value =
        some (some (homeRecord.values true)) ∧
      (readSmartconfig plainEnv true (packedSession homeRecord)).value =
        some (some (homeRecord.result plainEnv (packedSession homeRecord) true)) ∧
      (readSmartconfig plainEnv true (packedSession homeRecord)).Only (· < 19) := by
  have only := packedSession_onlyFinished homeRecord
  have decoded := (readSmartconfig_right plainEnv (packedSession homeRecord)).1 .mul homeRecord only
    (by decide) (by decide) (.inr ⟨rfl, by decide⟩)
  exact ⟨only, by decide, decoded.1, decoded.2,
    (readSmartconfig_right plainEnv (packedSession homeRecord)).2 true _ _ rfl decoded.2⟩

/-- A name that starts with a zero byte, of an access point that is not in the list. -/
def zeroNameRecord : KeyRecord := ⟨[0], [], 1, 0, 0, [], by decide, by decide, by decide⟩

/-- A session in which a parser for broadcast frames has a record for its key, of an access point
that is not in the list. -/
def broadcastSession (record : KeyRecord) : SmartState :=
  { newSession .zero with
    toDs := { ParseBroadcast.zero with
      key := fun i => (record.encode false).getD i 0
      keyFlag := fun _ => 1
      keyLen := UInt8.ofNat (record.encode false).length
      finish := true } }

/-- The decoder refuses a name that is empty as a text, and a key without a name. -/
theorem readSmartconfig_refuses :
    ¬ (∀ env s source (record : KeyRecord), s.OnlyFinished source →
      (record.encode (source = .mul)).length ≤ source.room →
      env.decrypt (s.block source).bytes = record.encode (source = .mul) →
      ∃ result, (readSmartconfig env true s).value = some (some result) ∧
        result.password = record.password ∧ result.cloudSelect = record.cloudSelect ∧
        (getApInfo s.routers s.info.bssid = none → result.ssid = record.ssid)) ∧
      (readSmartconfig plainEnv true (packedSession zeroNameRecord)).value = some none ∧
      (readSmartconfig plainEnv true (broadcastSession homeRecord)).value = some none := by
  have refused :
      (readSmartconfig plainEnv true (packedSession zeroNameRecord)).value = some none := by
    decide
  refine ⟨fun right => ?_, refused, by decide⟩
  rcases right plainEnv (packedSession zeroNameRecord) .mul zeroNameRecord
    (packedSession_onlyFinished zeroNameRecord) (by decide) (by decide) with ⟨result, accepted, -⟩
  cases refused.symm.trans accepted

end Tr6260
