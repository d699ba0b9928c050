import Tr6260.Ota.Request

/-!
# The version of a request

Which versions `ya_ota_require_handle` takes for the module's own firmware. It compares the text up
to the last three characters of the current version and reads a number from there on, to whatever
digits follow: the end of the requested version is not looked at.
-/

namespace Tr6260

open CString

/-! ## What is wanted -/

/-- The last three characters of a version. -/
def lastThree (version : CString) : List UInt8 := version.1.drop (version.strlen - 3)

/-- It ends in a number of three digits. -/
def Numbered (version : CString) : Prop := ∀ b ∈ lastThree version, isDigit b = true

/-- The same text with a greater number at its end. -/
structure NewerVersion (cur ver : CString) : Prop where
  length : ver.strlen = cur.strlen
  text : ver.1.take (cur.strlen - 3) = cur.1.take (cur.strlen - 3)
  numbered : Numbered ver
  numbered' : Numbered cur
  greater : decimal (lastThree cur) < decimal (lastThree ver)

/-- The version that a request asks for, and the member in front of it that is read. -/
def requestedVersion (request : OtaRequest) : Option (CJson × CString × CString) := do
  let root ← request.root
  let cmd ← root.getObjectItem (CString.ascii ['d', 'a', 't', 'a'])
  let size ← cmd.getObjectItem (CString.ascii ['s', 'i', 'z', 'e'])
  let size ← size.valuestring
  let version ← cmd.getObjectItem (CString.ascii ['v', 'e', 'r', 's', 'i', 'o', 'n'])
  let version ← version.valuestring
  return (cmd, size, version)

/-- A request for a version is handled as it should be. -/
structure Gated (cur ver : CString) (ret : Int) : Prop where
  accepts : ret = cOk → NewerVersion cur ver
  equal : ver = cur → ret = yaHttpSuccess
  success : ret = yaHttpSuccess → ver = cur
  rejects : ret = cOk ∨ ret = yaHttpSuccess ∨ ret = cError

/-! ## The comparison -/

/-- The requested version behind the text that both have. -/
def versionRest (cur ver : CString) : List UInt8 :=
  (ver.1 ++ List.replicate (yaMaxMcuVersionLen + 1 - ver.strlen) 0).drop (cur.strlen - 3)

/-- The text in front of the numbers is the same, and there are three digits in both. -/
structure Comparable (cur ver : CString) : Prop where
  short : ver.strlen ≤ versionLen
  long : 4 ≤ ver.strlen
  text : (ver.1 ++ List.replicate (yaMaxMcuVersionLen + 1 - ver.strlen) 0).take (cur.strlen - 3) =
    cur.1.take (cur.strlen - 3)
  digits : ∀ b ∈ (versionRest cur ver).take 3, isDigit b = true
  digits' : ∀ b ∈ (lastThree cur).take 3, isDigit b = true

/-- What the comparison makes of a version. -/
inductive Compared (cur ver : CString) : Int → Prop
  | apart : ¬ Comparable cur ver → Compared cur ver cError
  | older : Comparable cur ver →
      (ofBytes (versionRest cur ver)).atoi < (ofBytes (lastThree cur)).atoi →
      Compared cur ver cError
  | equal : Comparable cur ver →
      (ofBytes (versionRest cur ver)).atoi = (ofBytes (lastThree cur)).atoi →
      Compared cur ver yaHttpSuccess
  | newer : Comparable cur ver →
      (ofBytes (lastThree cur)).atoi < (ofBytes (versionRest cur ver)).atoi → Compared cur ver cOk

/-- How steps of the handler end. -/
def stopped (code : Int) : Except Int Unit := if code = cOk then .ok () else .error code

/-- The result of steps of the handler. -/
def ran {α : Type} (steps : RequireM α) (url : OtaUrlPara) : Option (Except Int α × OtaUrlPara) :=
  steps.run.run url

theorem ran_modify {α : Type} (change : OtaUrlPara → OtaUrlPara) (rest : Unit → RequireM α)
    (url : OtaUrlPara) : ran (modify change >>= rest) url = ran (rest ()) (change url) := rfl

theorem any_not_digit {bytes : List UInt8} :
    (bytes.any fun c => !isDigit c) = true ↔ ¬ ∀ b ∈ bytes, isDigit b = true := by
  simp

theorem checkWifiVersion_compared {cur : CString} (long : 3 ≤ cur.strlen) (ver : CString)
    (url : OtaUrlPara) : ∃ code url', Compared cur ver code ∧
      ran (checkWifiVersion cur ver false) url = some (stopped code, url') := by
  unfold checkWifiVersion
  by_cases bounds : ver.strlen > versionLen ∨ ver.strlen < 4
  · rw [if_pos bounds]
    exact ⟨_, _, .apart fun all => by have := all.short; have := all.long; omega, rfl⟩
  rw [if_neg bounds, ran_modify, if_neg (Nat.not_lt_of_le long)]
  dsimp only
  by_cases text : (ver.1 ++ List.replicate (yaMaxMcuVersionLen + 1 - ver.strlen) 0).take
      (cur.strlen - 3) = cur.1.take (cur.strlen - 3)
  · rw [if_neg (not_not.mpr text)]
    by_cases digits : ∀ b ∈ (versionRest cur ver).take 3, isDigit b = true
    · by_cases digits' : ∀ b ∈ (lastThree cur).take 3, isDigit b = true
      · have numbers : ¬ (((versionRest cur ver).take 3).any (fun c => !isDigit c) = true ∨
            ((lastThree cur).take 3).any (fun c => !isDigit c) = true) := by
          rw [any_not_digit, any_not_digit]
          exact fun either => either.elim (· digits) (· digits')
        have all : Comparable cur ver := ⟨by omega, by omega, text, digits, digits'⟩
        unfold versionRest lastThree at numbers
        rw [if_neg numbers, if_pos rfl]
        by_cases older : (ofBytes (versionRest cur ver)).atoi < (ofBytes (lastThree cur)).atoi
        · refine ⟨cError, { url with otaVer := ver }, .older all older, ?_⟩
          unfold versionRest lastThree at older
          rw [if_pos older]
          rfl
        · by_cases equal : (ofBytes (versionRest cur ver)).atoi = (ofBytes (lastThree cur)).atoi
          · refine ⟨yaHttpSuccess, { url with otaVer := ver }, .equal all equal, ?_⟩
            unfold versionRest lastThree at older equal
            rw [if_neg older, if_pos equal]
            rfl
          · refine ⟨cOk, { url with otaVer := ver }, .newer all (by omega), ?_⟩
            unfold versionRest lastThree at older equal
            rw [if_neg older, if_neg equal]
            rfl
      · refine ⟨cError, { url with otaVer := ver }, .apart fun all => digits' all.digits', ?_⟩
        rw [if_pos (.inr (any_not_digit.mpr digits'))]
        rfl
    · refine ⟨cError, { url with otaVer := ver }, .apart fun all => digits all.digits, ?_⟩
      rw [if_pos (.inl (any_not_digit.mpr digits))]
      rfl
  · refine ⟨cError, { url with otaVer := ver }, .apart fun all => text all.text, ?_⟩
    rw [if_pos text]
    rfl

/-! ## The handler -/

/-- The handler behind the version. -/
def afterVersion (cmd : CJson) (alloc : Bool × Bool × Bool) : RequireM Unit := do
  let text ← memberText cmd (CString.ascii ['u', 'r', 'l'])
  takeUrl text alloc
  let md5sum ← memberText cmd (CString.ascii ['m', 'd', '5', 's', 'u', 'm'])
  takeMd5 md5sum
  let times ← memberText cmd
    (CString.ascii ['f', 'a', 'i', 'l', 'R', 'e', 't', 'r', 'y', 'T', 'i', 'm', 'e', 's'])
  modify fun url => { url with retryNum := times.atoi }
  let interval ← memberText cmd (CString.ascii
    ['f', 'a', 'i', 'l', 'R', 'e', 't', 'r', 'y', 'I', 'n', 't', 'e', 'r', 'n', 'a', 'l'])
  modify fun url => { url with retryInterval := retryInterval interval.atoi }

theorem ran_bind {α β : Type} (steps : RequireM α) (rest : α → RequireM β) (url : OtaUrlPara) :
    ran (steps >>= rest) url = (ran steps url).bind fun r =>
      match r.1 with
      | .ok a => ran (rest a) r.2
      | .error code => some (.error code, r.2) := by
  change (steps.run.run url).bind _ = _
  congr 1
  funext r
  rcases r with ⟨_ | a, url'⟩ <;> rfl

/-- Steps that give up do so with `C_ERROR`. -/
def OnlyErrors {α : Type} (steps : RequireM α) : Prop :=
  ∀ url code url', ran steps url = some (.error code, url') → code = cError

namespace OnlyErrors

variable {α β : Type}

theorem bind {steps : RequireM α} {rest : α → RequireM β} (first : OnlyErrors steps)
    (second : ∀ a, OnlyErrors (rest a)) : OnlyErrors (steps >>= rest) := by
  intro url code url' failed
  rw [ran_bind] at failed
  rcases Option.bind_eq_some_iff.mp failed with ⟨⟨result, url₁⟩, ended, failed⟩
  cases result with
  | ok a => exact second a url₁ code url' failed
  | error code' =>
    cases failed
    exact first url _ _ ended

theorem pure_ (a : α) : OnlyErrors (pure a : RequireM α) := by
  intro url code url' failed
  cases failed

theorem throw_ : OnlyErrors (throw cError : RequireM α) := by
  intro url code url' failed
  cases failed
  rfl

theorem fault : OnlyErrors (requireFault : RequireM α) := by
  intro url code url' failed
  cases failed

theorem modify_ (change : OtaUrlPara → OtaUrlPara) :
    OnlyErrors (modify change : RequireM Unit) := by
  intro url code url' failed
  cases failed

theorem get_ : OnlyErrors (get : RequireM OtaUrlPara) := by
  intro url code url' failed
  cases failed

theorem throwIf {condition : Prop} {dec : Decidable condition} {rest : Unit → RequireM α}
    (after : OnlyErrors (rest ())) :
    OnlyErrors (if condition then throw cError >>= rest else rest ()) := by
  split
  · exact throw_.bind fun _ => after
  · exact after

theorem memberText_ (object : CJson) (name : List UInt8) : OnlyErrors (memberText object name) := by
  have item : OnlyErrors (memberItem object name) := by
    unfold memberItem
    split
    · exact throw_
    · exact pure_ _
  refine item.bind fun value => ?_
  split
  · exact fault
  · exact pure_ _

end OnlyErrors

theorem afterVersion_errors (cmd : CJson) (alloc : Bool × Bool × Bool) :
    OnlyErrors (afterVersion cmd alloc) := by
  have url (text : CString) : OnlyErrors (takeUrl text alloc) := by
    unfold takeUrl
    exact .throwIf (.bind (.modify_ _) fun _ => .throwIf (.bind (.modify_ _) fun _ =>
      .throwIf (.modify_ _)))
  have md5 (text : CString) : OnlyErrors (takeMd5 text) := by
    unfold takeMd5
    refine .throwIf (.bind .get_ fun url => ?_)
    rcases parseMd5 text.1 16 0 url.md5 with ⟨passed, md5⟩
    refine .bind (.modify_ _) fun _ => ?_
    split
    · exact .throw_
    · exact .pure_ ()
  unfold afterVersion
  exact .bind (.memberText_ _ _) fun _ => .bind (url _) fun _ => .bind (.memberText_ _ _) fun _ =>
    .bind (md5 _) fun _ => .bind (.memberText_ _ _) fun _ => .bind (.modify_ _) fun _ =>
    .bind (.memberText_ _ _) fun _ => .modify_ _

theorem ran_memberText (object : CJson) (name : List UInt8) (url : OtaUrlPara) :
    ran (memberText object name) url =
      (object.getObjectItem name).elim (some (.error cError, url)) fun value =>
        value.valuestring.map fun s => (.ok s, url) := by
  unfold memberText memberItem
  rw [ran_bind]
  cases object.getObjectItem name with
  | none => rfl
  | some value =>
    dsimp only [Option.elim_some]
    cases text : value.valuestring with
    | none =>
      have fault : ran (requireFault : RequireM CString) url = none := rfl
      simpa [ran, text] using fault
    | some s => simp [ran, text]

/-- The handler for the module's own firmware, up to the version and from there on. -/
theorem requireBody_requested {request : OtaRequest} (cur : CString) (url : OtaUrlPara)
    (plain : request.testMode = false) :
    (∃ cmd size ver, requestedVersion request = some (cmd, size, ver) ∧
      ran (requireBody .wifi cur request) url =
        ran (checkWifiVersion cur ver false >>= fun _ => afterVersion cmd request.alloc)
          { url with otaSize := toU32 size.atoi }) ∨
    requestedVersion request = none ∧
      ∀ r, ran (requireBody .wifi cur request) url = some r → r.1 = .error cError := by
  unfold requireBody requestedVersion
  cases request.root with
  | none => exact .inr ⟨rfl, fun r ended => by cases ended; rfl⟩
  | some root =>
    dsimp only [Option.bind_eq_bind, Option.bind_some]
    unfold memberItem
    cases root.getObjectItem (CString.ascii ['d', 'a', 't', 'a']) with
    | none => exact .inr ⟨rfl, fun r ended => by cases ended; rfl⟩
    | some cmd =>
      dsimp only [Option.bind_some]
      rw [pure_bind, ran_bind, ran_memberText]
      cases cmd.getObjectItem (CString.ascii ['s', 'i', 'z', 'e']) with
      | none => exact .inr ⟨rfl, fun r ended => by cases ended; rfl⟩
      | some size =>
        dsimp only [Option.bind_some, Option.elim_some]
        cases size.valuestring with
        | none => exact .inr ⟨rfl, fun r ended => by cases ended⟩
        | some size =>
          dsimp only [Option.bind_some, Option.map_some]
          rw [ran_modify, ran_bind, ran_memberText]
          cases cmd.getObjectItem (CString.ascii ['v', 'e', 'r', 's', 'i', 'o', 'n']) with
          | none => exact .inr ⟨rfl, fun r ended => by cases ended; rfl⟩
          | some version =>
            dsimp only [Option.bind_some, Option.elim_some]
            cases version.valuestring with
            | none => exact .inr ⟨rfl, fun r ended => by cases ended⟩
            | some ver =>
              refine .inl ⟨cmd, size, ver, rfl, ?_⟩
              dsimp only [Option.bind_some, Option.map_some]
              rw [plain]
              rfl

/-- A member with a text. -/
def textMember (name value : List Char) : CString × CJson := (.lit name, .string (.lit value))

/-- A request for a version with all its members. -/
def requestFor (ver : CString) : OtaRequest where
  root := some (.object [(.lit ['d', 'a', 't', 'a'], .object
    [textMember ['s', 'i', 'z', 'e'] ['1'],
      (.lit ['v', 'e', 'r', 's', 'i', 'o', 'n'], .string ver),
      textMember ['u', 'r', 'l'] ['h', '/'],
      textMember ['m', 'd', '5', 's', 'u', 'm'] (List.replicate 32 '0'),
      textMember ['f', 'a', 'i', 'l', 'R', 'e', 't', 'r', 'y', 'T', 'i', 'm', 'e', 's'] ['0'],
      textMember
        ['f', 'a', 'i', 'l', 'R', 'e', 't', 'r', 'y', 'I', 'n', 't', 'e', 'r', 'n', 'a', 'l']
        ['1']])])
  alloc := (true, true, true)
  testMode := false
  board := .zeroed

theorem requestFor_requested (ver : CString) : ∃ cmd size,
    requestedVersion (requestFor ver) = some (cmd, size, ver) ∧
      ∀ url, ∃ url', ran (afterVersion cmd (requestFor ver).alloc) url = some (.ok (), url') :=
  ⟨_, _, rfl, fun _ => ⟨_, rfl⟩⟩

/-- The return code for the end of the handler's steps. -/
def handled (r : Except Int Unit × OtaUrlPara) : Int × OtaUrlPara :=
  match r.1 with
  | .ok _ => (cOk, r.2)
  | .error code => (code, r.2)

theorem yaOtaRequireHandle_ran (cur : CString) (request : OtaRequest) (url : OtaUrlPara) :
    yaOtaRequireHandle .wifi cur request url =
      (ran (requireBody .wifi cur request) url).map handled := by
  unfold yaOtaRequireHandle ran
  rcases (requireBody .wifi cur request).run.run url with _ | ⟨_ | a, url'⟩ <;> rfl

section Requested

variable {cur ver : CString} {request : OtaRequest}

/-- What the comparison says decides, and the rest of the handler may refuse. -/
theorem handle_compared {cmd : CJson} {size : CString}
    (requested : requestedVersion request = some (cmd, size, ver))
    (plain : request.testMode = false) (long : 3 ≤ cur.strlen) (url : OtaUrlPara) :
    ∃ code url₁, Compared cur ver code ∧ yaOtaRequireHandle .wifi cur request url =
      if code = cOk then (ran (afterVersion cmd request.alloc) url₁).map handled
      else some (code, url₁) := by
  rcases requireBody_requested cur url plain with ⟨cmd', size', ver', asked, steps⟩ | ⟨none_, -⟩
  · rw [requested] at asked
    cases asked
    rcases checkWifiVersion_compared long ver { url with otaSize := toU32 size.atoi } with
      ⟨code, url₁, compared, checked⟩
    refine ⟨code, url₁, compared, ?_⟩
    rw [yaOtaRequireHandle_ran, steps, ran_bind, checked, Option.bind_some]
    by_cases ok : code = cOk
    · rw [stopped, if_pos ok, if_pos ok]
    · rw [stopped, if_neg ok, if_neg ok]
      rfl
  · rw [requested] at none_
    cases none_

/-- A request without a version is rejected. -/
theorem handle_unversioned (none_ : requestedVersion request = none)
    (plain : request.testMode = false) {url url' : OtaUrlPara} {ret : Int}
    (returned : yaOtaRequireHandle .wifi cur request url = some (ret, url')) : ret = cError := by
  rcases requireBody_requested cur url plain with ⟨_, _, _, asked, -⟩ | ⟨-, errors⟩
  · rw [none_] at asked
    cases asked
  · rw [yaOtaRequireHandle_ran] at returned
    rcases Option.map_eq_some_iff.mp returned with ⟨r, ended, code⟩
    have error := errors r ended
    rw [handled, error] at code
    exact (congrArg Prod.fst code).symm

/-- What a request leads to that asks for a version. -/
theorem handle_requested {cmd : CJson} {size : CString}
    (requested : requestedVersion request = some (cmd, size, ver))
    (plain : request.testMode = false) (long : 3 ≤ cur.strlen) {url url' : OtaUrlPara} {ret : Int}
    (returned : yaOtaRequireHandle .wifi cur request url = some (ret, url')) :
    Compared cur ver ret ∨ Compared cur ver cOk ∧ ret = cError := by
  rcases handle_compared requested plain long url with ⟨code, url₁, compared, steps⟩
  rw [steps] at returned
  split at returned
  case isTrue ok =>
    rw [ok] at compared
    rcases Option.map_eq_some_iff.mp returned with ⟨⟨result, url₂⟩, ended, same⟩
    cases result with
    | ok _ =>
      cases same
      exact .inl compared
    | error code' =>
      cases same
      exact .inr ⟨compared, afterVersion_errors cmd request.alloc _ _ _ ended⟩
  case isFalse =>
    cases returned
    exact .inl compared

/-- There is a request for each version that is only handled by the comparison. -/
theorem handle_requestFor (ver : CString) (long : 3 ≤ cur.strlen) : ∃ code url',
    Compared cur ver code ∧
      yaOtaRequireHandle .wifi cur (requestFor ver) .zero = some (code, url') := by
  rcases requestFor_requested ver with ⟨cmd, size, requested, passes⟩
  rcases handle_compared requested rfl long .zero with ⟨code, url₁, compared, steps⟩
  rw [steps]
  split
  case isTrue ok =>
    rcases passes url₁ with ⟨url₂, passed⟩
    rw [passed]
    exact ⟨code, url₂, compared, by rw [ok]; rfl⟩
  case isFalse => exact ⟨code, url₁, compared, rfl⟩

end Requested

/-! ## The versions that are compared rightly -/

/-- A longer version goes on behind the text of the current one with at least three digits. -/
structure VersionContinues (cur ver : CString) : Prop where
  longer : cur.strlen < ver.strlen
  short : ver.strlen ≤ versionLen
  text : ver.1.take (cur.strlen - 3) = cur.1.take (cur.strlen - 3)
  digits : ∀ b ∈ (ver.1.drop (cur.strlen - 3)).take 3, isDigit b = true
  numbered : Numbered cur

/-- A longer version that goes on so has a smaller number; and the version that is asked for again
ends in a number. -/
structure VersionsApart (cur ver : CString) : Prop where
  longer : VersionContinues cur ver →
    (ofBytes (ver.1.drop (cur.strlen - 3))).atoi < decimal (lastThree cur)
  equal : ver = cur → Numbered cur

/-- Every request for a version is handled as it should be, and one without a version rejected. -/
def GateRight (cur ver : CString) : Prop :=
  ∀ request url ret url', request.testMode = false →
    yaOtaRequireHandle .wifi cur request url = some (ret, url') →
    (requestedVersion request = none → ret = cError) ∧
      ∀ cmd size, requestedVersion request = some (cmd, size, ver) → Gated cur ver ret

section Apart

variable {cur ver : CString}

theorem length_lastThree (long : 3 ≤ cur.strlen) : (lastThree cur).length = 3 := by
  unfold CString.strlen at long
  rw [lastThree, CString.strlen, List.length_drop]
  omega

/-- Three digits behind a text are read as their number. -/
theorem atoi_lastThree (long : 3 ≤ cur.strlen) (numbered : Numbered cur) :
    (ofBytes (lastThree cur)).atoi = decimal (lastThree cur) := by
  have three := length_lastThree long
  unfold Numbered at numbered
  generalize lastThree cur = digits at three numbered
  have some_ : digits ≠ [] := by
    rintro rfl
    cases three
  have read := @atoi_decimal digits [] some_ numbered (fun _ none_ => nomatch none_)
  rw [List.append_nil] at read
  rw [read]
  match digits, three with
  | [a, b, c], _ =>
    have := a.toNat_lt
    have := b.toNat_lt
    have := c.toNat_lt
    simp only [decimal, List.foldl_cons, List.foldl_nil, clampLong]
    omega

/-- Three digits are known from their number. -/
theorem decimal_three {digits digits' : List UInt8} (three : digits.length = 3)
    (three' : digits'.length = 3) (all : ∀ b ∈ digits, isDigit b = true)
    (all' : ∀ b ∈ digits', isDigit b = true) (same : decimal digits = decimal digits') :
    digits = digits' := by
  have bounds {b : UInt8} (digit : isDigit b = true) : 0x30 ≤ b.toNat ∧ b.toNat ≤ 0x39 :=
    isDigit_iff.mp digit
  match digits, three, digits', three' with
  | [a, b, c], _, [a', b', c'], _ =>
    simp only [List.forall_mem_cons] at all all'
    have := bounds all.1
    have := bounds all.2.1
    have := bounds all.2.2.1
    have := bounds all'.1
    have := bounds all'.2.1
    have := bounds all'.2.2.1
    simp only [decimal, List.foldl_cons, List.foldl_nil] at same
    have first : a.toNat = a'.toNat := by omega
    have second : b.toNat = b'.toNat := by omega
    have third : c.toNat = c'.toNat := by omega
    rw [UInt8.toNat_inj.mp first, UInt8.toNat_inj.mp second, UInt8.toNat_inj.mp third]

/-- A version that is compared is not shorter: the terminator is neither in the text nor a digit. -/
theorem Comparable.strlen_le (all : Comparable cur ver) (short : cur.strlen ≤ versionLen) :
    cur.strlen ≤ ver.strlen := by
  by_contra shorter
  have size : ver.1.length = ver.strlen := rfl
  have size' : cur.1.length = cur.strlen := rfl
  have room : cur.strlen < 33 := Nat.lt_succ_of_le short
  have zero : (ver.1 ++ List.replicate (yaMaxMcuVersionLen + 1 - ver.strlen) 0)[ver.strlen]? =
      some 0 := by
    rw [List.getElem?_append_right size.le, size, Nat.sub_self, List.getElem?_replicate_of_lt]
    unfold yaMaxMcuVersionLen
    omega
  rcases Nat.lt_or_ge ver.strlen (cur.strlen - 3) with before | behind
  · have byte : ((ver.1 ++ List.replicate (yaMaxMcuVersionLen + 1 - ver.strlen) 0).take
        (cur.strlen - 3))[ver.strlen]? = (cur.1.take (cur.strlen - 3))[ver.strlen]? := by
      rw [all.text]
    rw [List.getElem?_take_of_lt before, List.getElem?_take_of_lt before, zero] at byte
    exact cur.2 (List.mem_of_getElem? byte.symm)
  · have byte : ((versionRest cur ver).take 3)[ver.strlen - (cur.strlen - 3)]? = some 0 := by
      rw [List.getElem?_take_of_lt (by omega), versionRest, List.getElem?_drop,
        Nat.add_sub_cancel' behind, zero]
    exact absurd (all.digits 0 (List.mem_of_getElem? byte)) (by decide)

/-- The number of a version that is not shorter is read from the version itself. -/
theorem versionRest_ofBytes (atLeast : cur.strlen ≤ ver.strlen) :
    ofBytes (versionRest cur ver) = ofBytes (ver.1.drop (cur.strlen - 3)) := by
  have size : ver.1.length = ver.strlen := rfl
  apply Subtype.ext
  change List.takeWhile _ _ = List.takeWhile _ _
  have nonzero : ∀ b ∈ ver.1.drop (cur.strlen - 3), decide (b ≠ 0) = true := by
    intro b inside
    refine decide_eq_true ?_
    rintro rfl
    exact ver.2 (List.mem_of_mem_drop inside)
  rw [versionRest, List.drop_append_of_le_length (by omega),
    List.takeWhile_append_of_pos nonzero, List.takeWhile_eq_self_iff.mpr nonzero]
  cases yaMaxMcuVersionLen + 1 - ver.strlen with
  | zero => rw [List.replicate_zero, List.takeWhile_nil, List.append_nil]
  | succ n =>
    rw [List.replicate_succ, List.takeWhile_cons_of_neg (by simp), List.append_nil]

theorem comparable_iff (long : 4 ≤ cur.strlen) (atLeast : cur.strlen ≤ ver.strlen) :
    Comparable cur ver ↔ ver.strlen ≤ versionLen ∧
      ver.1.take (cur.strlen - 3) = cur.1.take (cur.strlen - 3) ∧
      (∀ b ∈ (ver.1.drop (cur.strlen - 3)).take 3, isDigit b = true) ∧ Numbered cur := by
  have size : ver.1.length = ver.strlen := rfl
  have text : (ver.1 ++ List.replicate (yaMaxMcuVersionLen + 1 - ver.strlen) 0).take
      (cur.strlen - 3) = ver.1.take (cur.strlen - 3) :=
    List.take_append_of_le_length (by omega)
  have digits : (versionRest cur ver).take 3 = (ver.1.drop (cur.strlen - 3)).take 3 := by
    rw [versionRest, List.drop_append_of_le_length (by omega),
      List.take_append_of_le_length (by rw [List.length_drop]; omega)]
  have digits' : (lastThree cur).take 3 = lastThree cur :=
    List.take_of_length_le (length_lastThree (by omega)).le
  constructor
  · intro all
    have some_' := all.digits'
    rw [digits'] at some_'
    exact ⟨all.short, text ▸ all.text, digits ▸ all.digits, some_'⟩
  · rintro ⟨short, same, some_, some_'⟩
    exact ⟨short, by omega, text.trans same, by rwa [digits], by rwa [digits']⟩

/-- Of a version with the same length, the numbers at the ends are compared. -/
theorem Comparable.sameLength (all : Comparable cur ver) (long : 4 ≤ cur.strlen)
    (length : ver.strlen = cur.strlen) :
    Numbered ver ∧ (ofBytes (versionRest cur ver)).atoi = decimal (lastThree ver) := by
  rcases (comparable_iff long length.ge).mp all with ⟨-, -, digits, -⟩
  rw [← length] at digits
  change ∀ b ∈ (lastThree ver).take 3, isDigit b = true at digits
  rw [List.take_of_length_le (length_lastThree (by omega)).le] at digits
  refine ⟨digits, ?_⟩
  rw [versionRest_ofBytes length.ge, ← length]
  exact atoi_lastThree (by omega) digits

/-- A version that is compared has the length of the current one, or is longer with a smaller
number. -/
theorem Comparable.apart (all : Comparable cur ver) (apart : VersionsApart cur ver)
    (long : 4 ≤ cur.strlen) (short : cur.strlen ≤ versionLen) : ver.strlen = cur.strlen ∨
      (ofBytes (versionRest cur ver)).atoi < (ofBytes (lastThree cur)).atoi := by
  have atLeast := all.strlen_le short
  rcases (comparable_iff long atLeast).mp all with ⟨fits, text, digits, numbered⟩
  rcases Nat.eq_or_lt_of_le atLeast with same | longer
  · exact .inl same.symm
  · refine .inr ?_
    rw [versionRest_ofBytes atLeast, atoi_lastThree (by omega) numbered]
    exact apart.longer ⟨longer, fits, text, digits, numbered⟩

theorem comparable_self (long : 4 ≤ cur.strlen) (short : cur.strlen ≤ versionLen)
    (numbered : Numbered cur) : Comparable cur cur := by
  refine (comparable_iff long (Nat.le_refl _)).mpr ⟨short, rfl, fun b inside => ?_, numbered⟩
  exact numbered b (List.mem_of_mem_take inside)

/-- The current version itself. -/
theorem compared_self (long : 4 ≤ cur.strlen) (short : cur.strlen ≤ versionLen)
    (numbered : Numbered cur) {code : Int} (compared : Compared cur cur code) :
    code = yaHttpSuccess := by
  have self := comparable_self long short numbered
  have number := (self.sameLength long rfl).2
  have number' := atoi_lastThree (by omega) numbered
  cases compared with
  | apart other => exact absurd self other
  | older _ less => omega
  | equal => rfl
  | newer _ less => omega

theorem compared_cOk {code : Int} (compared : Compared cur ver code) (ok : code = cOk) :
    Comparable cur ver ∧
      (ofBytes (lastThree cur)).atoi < (ofBytes (versionRest cur ver)).atoi := by
  cases compared with
  | apart => cases ok
  | older => cases ok
  | equal => cases ok
  | newer all less => exact ⟨all, less⟩

theorem compared_success {code : Int} (compared : Compared cur ver code)
    (success : code = yaHttpSuccess) : Comparable cur ver ∧
      (ofBytes (versionRest cur ver)).atoi = (ofBytes (lastThree cur)).atoi := by
  cases compared with
  | apart => cases success
  | older => cases success
  | equal all same => exact ⟨all, same⟩
  | newer => cases success

theorem Compared.code {code : Int} (compared : Compared cur ver code) :
    code = cOk ∨ code = yaHttpSuccess ∨ code = cError := by
  cases compared with
  | apart => exact .inr (.inr rfl)
  | older => exact .inr (.inr rfl)
  | equal => exact .inr (.inl rfl)
  | newer => exact .inl rfl

/-- What a comparison of versions that are apart means. -/
theorem Compared.gated {ret : Int} (apart : VersionsApart cur ver) (long : 4 ≤ cur.strlen)
    (short : cur.strlen ≤ versionLen)
    (ended : Compared cur ver ret ∨ Compared cur ver cOk ∧ ret = cError) : Gated cur ver ret where
  accepts := by
    intro ok
    rcases ended with compared | ⟨-, error⟩
    · rcases compared_cOk compared ok with ⟨all, greater⟩
      rcases all.apart apart long short with length | less
      · rcases all.sameLength long length with ⟨numbered, number⟩
        rcases (comparable_iff long length.ge).mp all with ⟨-, text, -, numbered'⟩
        have number' := atoi_lastThree (by omega) numbered'
        exact ⟨length, text, numbered, numbered', by omega⟩
      · omega
    · rw [error] at ok
      cases ok
  equal := by
    rintro rfl
    have numbered := apart.equal rfl
    rcases ended with compared | ⟨compared, -⟩
    · exact compared_self long short numbered compared
    · cases compared_self long short numbered compared
  success := by
    intro success
    rcases ended with compared | ⟨-, error⟩
    · rcases compared_success compared success with ⟨all, same⟩
      rcases all.apart apart long short with length | less
      · rcases all.sameLength long length with ⟨numbered, number⟩
        rcases (comparable_iff long length.ge).mp all with ⟨-, text, -, numbered'⟩
        have number' := atoi_lastThree (by omega) numbered'
        have back : lastThree ver = lastThree cur :=
          decimal_three (length_lastThree (by omega)) (length_lastThree (by omega)) numbered
            numbered' (by omega)
        unfold lastThree at back
        rw [length] at back
        exact Subtype.ext (by
          rw [← List.take_append_drop (cur.strlen - 3) ver.1, text, back, List.take_append_drop])
      · omega
    · rw [error] at success
      cases success
  rejects := ended.elim Compared.code fun refused => .inr (.inr refused.2)

/-- The gate is right about a version exactly when the text behind the number cannot decide. A
request with a member that is not a text reads through `NULL` and is left out. -/
theorem requireHandle_gated_iff (long : 4 ≤ cur.strlen) (short : cur.strlen ≤ versionLen) :
    GateRight cur ver ↔ VersionsApart cur ver := by
  constructor
  · intro right
    rcases handle_requestFor ver (Nat.le_of_succ_le long) with ⟨code, url, compared, returned⟩
    rcases requestFor_requested ver with ⟨cmd, size, requested, -⟩
    have gated := (right _ _ _ _ rfl returned).2 cmd size requested
    refine ⟨fun continues => ?_, fun same => ?_⟩
    · have atLeast := Nat.le_of_lt continues.longer
      have all := (comparable_iff long atLeast).mpr
        ⟨continues.short, continues.text, continues.digits, continues.numbered⟩
      have number := atoi_lastThree (Nat.le_of_succ_le long) continues.numbered
      rw [← versionRest_ofBytes atLeast, ← number]
      cases compared with
      | apart other => exact absurd all other
      | older _ less => exact less
      | equal => exact absurd (congrArg strlen (gated.success rfl)) continues.longer.ne'
      | newer => exact absurd (gated.accepts rfl).length continues.longer.ne'
    · have all := (compared_success compared (gated.equal same)).1
      rw [same] at all
      exact ((comparable_iff long (Nat.le_refl _)).mp all).2.2.2
  · intro apart request url ret url' plain returned
    exact ⟨fun none_ => handle_unversioned none_ plain returned, fun cmd size requested =>
      Compared.gated apart long short
        (handle_requested requested plain (Nat.le_of_succ_le long) returned)⟩

/-- The next version. -/
theorem requireHandle_gated_next :
    GateRight (.lit ['1', '.', '0', '0', '1']) (.lit ['1', '.', '0', '0', '2']) :=
  (requireHandle_gated_iff (by decide) (by decide)).mpr
    ⟨fun continues => absurd continues.longer (by decide), fun same => absurd same (by decide)⟩

/-- A version of another length goes through: ten times the number with one more digit. -/
theorem requireHandle_longer : ∃ url,
    yaOtaRequireHandle .wifi (.lit ['1', '.', '0', '0', '1'])
      (requestFor (.lit ['1', '.', '0', '0', '1', '0'])) .zero = some (cOk, url) ∧
    ¬ Gated (.lit ['1', '.', '0', '0', '1']) (.lit ['1', '.', '0', '0', '1', '0']) cOk :=
  ⟨_, rfl, fun gated => absurd (gated.accepts rfl).length (by decide)⟩

end Apart

end Tr6260
