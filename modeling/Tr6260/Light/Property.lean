import Mathlib.Data.List.Pairwise
import Mathlib.Logic.Function.Conjugate
import Tr6260.CJson
import Tr6260.CJsonPrint

/-!
# The properties of a light

`ya_light_example.c`: what a message of the cloud makes of `ya_cloud_light_data_new`, the copy of it
that is queued for the light, and the report to the cloud.

A message is what `cJSON_Parse` returns for it. `fieldsOf` says which of its members the code looks
at, and in which order. The members in front of the first one that is not a string are stored in any
case; a message is only queued and reported when there is no such member.
-/

/-! ## Updates that commute -/

section Updates

variable {σ : Type*}

theorem foldl_updates_comm {u : σ → σ} {updates : List (σ → σ)}
    (past : ∀ v ∈ updates, Function.Commute u v) (s : σ) :
    updates.foldl (fun s u => u s) (u s) = u (updates.foldl (fun s u => u s) s) := by
  induction updates generalizing s with
  | nil => rfl
  | cons v updates ih =>
    obtain ⟨one, past⟩ := List.forall_mem_cons.mp past
    rw [List.foldl_cons, List.foldl_cons, ← one s]
    exact ih past (v s)

/-- Updates that commute and do nothing the second time leave a state as it is only when each of
them does. -/
theorem foldl_updates_eq_self_iff {updates : List (σ → σ)}
    (commute : updates.Pairwise Function.Commute)
    (again : ∀ u ∈ updates, ∀ s, u (u s) = u s) (s : σ) :
    updates.foldl (fun s u => u s) s = s ↔ ∀ u ∈ updates, u s = s := by
  induction updates with
  | nil =>
    constructor
    · intro _ u mem
      cases mem
    · intro _
      rfl
  | cons u updates ih =>
    obtain ⟨past, commute⟩ := List.pairwise_cons.mp commute
    have rest := ih commute fun v mem => again v (List.mem_cons_of_mem u mem)
    rw [List.foldl_cons]
    constructor
    · intro same
      -- `u` can be done once more at the end, where it does nothing.
      have first : u s = s :=
        calc u s = u (updates.foldl (fun s u => u s) (u s)) := by rw [same]
          _ = updates.foldl (fun s u => u s) (u (u s)) := (foldl_updates_comm past (u s)).symm
          _ = updates.foldl (fun s u => u s) (u s) := by rw [again u List.mem_cons_self s]
          _ = s := same
      rw [first, rest] at same
      exact List.forall_mem_cons.mpr ⟨first, same⟩
    · intro each
      obtain ⟨first, each⟩ := List.forall_mem_cons.mp each
      rw [first]
      exact rest.mpr each

end Updates

namespace Tr6260

open CString

namespace LightExample

/-! ## The light -/

/-- `ya_cloud_light_data_t`. -/
structure CloudLightData where
  mode : UInt8
  onoff : UInt8
  wL : UInt16
  wColor : UInt16
  cH : UInt16
  cS : UInt16
  cB : UInt16
  scene : Int8
  deriving DecidableEq

/-- `ya_light_mode`. -/
def wControl : UInt8 := 0
def cControl : UInt8 := 1
def sControl : UInt8 := 2

/-- `ya_light_control_mode`. -/
def nonControl : Nat := 0
def whiteControl : Nat := 1
def colorControl : Nat := 2
def sceneControl : Nat := 3

/-! ## The members of a message -/

/-- The members `ya_thing_handle_downlink_data` looks for. -/
inductive Field
  | switch
  | workMode
  | luminance
  | colorTemperature
  | hue
  | saturation
  | brightness
  | lightScene
  deriving DecidableEq

/-- The name of a member. -/
def Field.key : Field → List UInt8
  | switch => ascii ['S', 'w', 'i', 't', 'c', 'h']
  | workMode => ascii ['W', 'o', 'r', 'k', 'M', 'o', 'd', 'e']
  | luminance => ascii ['L', 'u', 'm', 'i', 'n', 'a', 'n', 'c', 'e']
  | colorTemperature =>
    ascii ['C', 'o', 'l', 'o', 'r', 'T', 'e', 'm', 'p', 'e', 'r', 'a', 't', 'u', 'r', 'e']
  | hue => ascii ['H', 'u', 'e']
  | saturation => ascii ['S', 'a', 't', 'u', 'r', 'a', 't', 'i', 'o', 'n']
  | brightness => ascii ['B', 'r', 'i', 'g', 'h', 't', 'n', 'e', 's', 's']
  | lightScene => ascii ['L', 'i', 'g', 'h', 't', 'S', 'c', 'e', 'n', 'e']

/-- The variables of `ya_thing_handle_downlink_data`, with `ya_cloud_light_data_new`. -/
structure Downlink where
  light : CloudLightData
  enableSend : Bool
  getSwitchOff : Bool
  controlType : Nat

/-- The variables at the start. -/
def Downlink.start (light : CloudLightData) : Downlink := ⟨light, false, false, nonControl⟩

/-- What the branch of a member does with its number. -/
def Downlink.take (d : Downlink) : Field → Int → Downlink
  | .switch, value =>
    if toU32 value ≠ 0 then
      { d with light := { d.light with onoff := 1 }, enableSend := true }
    else
      { d with light := { d.light with onoff := 0 }, getSwitchOff := true, enableSend := true }
  | .workMode, value =>
    { d with
      light := { d.light with mode := toU8 value }
      enableSend := true
      controlType := (toU8 value).toNat + 1 }
  | .luminance, value =>
    { d with
      light := { d.light with wL := toU16 value, mode := wControl, onoff := 1 }
      enableSend := true
      controlType := whiteControl }
  | .colorTemperature, value =>
    { d with
      light := { d.light with wColor := toU16 value, mode := wControl, onoff := 1 }
      enableSend := true
      controlType := whiteControl }
  | .hue, value =>
    { d with
      light := { d.light with cH := toU16 value, onoff := 1, mode := cControl }
      enableSend := true
      controlType := colorControl }
  | .saturation, value =>
    { d with
      light := { d.light with cS := toU16 value, onoff := 1, mode := cControl }
      enableSend := true
      controlType := colorControl }
  | .brightness, value =>
    { d with
      light := { d.light with cB := toU16 value, onoff := 1, mode := cControl }
      enableSend := true
      controlType := colorControl }
  | .lightScene, value =>
    { d with
      light := { d.light with scene := (toU8 value).toInt8, mode := sControl, onoff := 1 }
      enableSend := true
      controlType := sceneControl }

/-- One of the members: nothing when it is not there, and out by `err` with what has been stored
when it is not a string. -/
def downlinkField (property : CJson) (f : Field) (d : Downlink) : Except CloudLightData Downlink :=
  match property.getObjectItem f.key with
  | none => .ok d
  | some jsonKey =>
    match jsonKey.valuestring with
    | none => .error d.light
    | some text => .ok (d.take f (atoi text))

/-- The members of a group, which are looked for when `control_type` is that of the group or
`NON_CONTROL`. -/
def downlinkGroup (property : CJson) (control : Nat) (fields : List Field) (d : Downlink) :
    Except CloudLightData Downlink :=
  if d.controlType = control ∨ d.controlType = nonControl then
    fields.foldlM (fun d f => downlinkField property f d) d
  else
    .ok d

/-- `ya_thing_handle_downlink_data` up to `if (enable_send)`. -/
def downlinkFields (property : CJson) (light : CloudLightData) :
    Except CloudLightData Downlink := do
  let d ← downlinkField property .switch (.start light)
  if d.getSwitchOff then
    return d
  let d ← downlinkField property .workMode d
  let d ← downlinkGroup property whiteControl [.luminance, .colorTemperature] d
  let d ← downlinkGroup property colorControl [.hue, .saturation, .brightness] d
  downlinkGroup property sceneControl [.lightScene] d

/-! ## The queue and the report -/

/-- `ya_int_to_string`. -/
def yaIntToString (value : Int) : CString :=
  if value < 0 then
    ofBytes (0x2D :: ascii (Nat.toDigits 10 (-value).toNat))
  else
    ofBytes (ascii (Nat.toDigits 10 value.toNat))

/-- The members of the report of `ya_report_whole_key_value_formulate`. -/
def wholeKeyValue (light : CloudLightData) : List (CString × CString) :=
  let member (f : Field) (value : Int) := (ofBytes f.key, yaIntToString value)
  member .switch light.onoff.toNat ::
    if light.onoff = 1 then
      [member .workMode light.mode.toNat, member .luminance light.wL.toNat,
        member .colorTemperature light.wColor.toNat, member .hue light.cH.toNat,
        member .saturation light.cS.toNat, member .brightness light.cB.toNat,
        member .lightScene light.scene.toInt]
    else
      []

/-- What the surroundings answer during a message: the memory for the copy, the queue, and the text
that is printed of the members of a report, if there is memory for one. -/
structure Answers where
  block : Bool
  queueSend : Bool
  printUnformatted : List (CString × CString) → Option (List UInt8)

/-- `ya_cloud_light_data_new`, the copies sent to `ya_light_queue` and the reports, oldest first. -/
structure LightApp where
  new : CloudLightData
  lightQueue : List CloudLightData
  reports : List (List UInt8)
  deriving DecidableEq

/-- `ya_set_light_para_to_queue`. -/
def LightApp.yaSetLightParaToQueue (a : Answers) (s : LightApp) : LightApp :=
  if a.block ∧ a.queueSend then { s with lightQueue := s.lightQueue ++ [s.new] } else s

/-- `ya_report_whole_key_value_formulate`. -/
def LightApp.yaReportWholeKeyValueFormulate (a : Answers) (s : LightApp) : LightApp :=
  match a.printUnformatted (wholeKeyValue s.new) with
  | some buf => { s with reports := s.reports ++ [buf] }
  | none => s

/-- `ya_thing_handle_downlink_data`. -/
def LightApp.yaThingHandleDownlinkData (a : Answers) (s : LightApp) : Option CJson → LightApp
  | none => s
  | some property =>
    match downlinkFields property s.new with
    | .error light => { s with new := light }
    | .ok d =>
      let s := { s with new := d.light }
      if d.enableSend then
        (s.yaSetLightParaToQueue a).yaReportWholeKeyValueFormulate a
      else
        s

/-! ## What a message asks for -/

/-- What storing a number in a member changes. -/
def Field.store (f : Field) (value : Int) (light : CloudLightData) : CloudLightData :=
  match f with
  | .switch => { light with onoff := if toU32 value ≠ 0 then 1 else 0 }
  | .workMode => { light with mode := toU8 value }
  | .luminance => { light with wL := toU16 value, mode := wControl, onoff := 1 }
  | .colorTemperature => { light with wColor := toU16 value, mode := wControl, onoff := 1 }
  | .hue => { light with cH := toU16 value, mode := cControl, onoff := 1 }
  | .saturation => { light with cS := toU16 value, mode := cControl, onoff := 1 }
  | .brightness => { light with cB := toU16 value, mode := cControl, onoff := 1 }
  | .lightScene => { light with scene := (toU8 value).toInt8, mode := sControl, onoff := 1 }

/-- Those of some members a message has. -/
def present (property : CJson) (fields : List Field) : List (Field × CJson) :=
  fields.filterMap fun f => (property.getObjectItem f.key).map (f, ·)

/-- The members of white, of colour and of a scene. -/
def whiteFields : List Field := [.luminance, .colorTemperature]
def colorFields : List Field := [.hue, .saturation, .brightness]
def sceneFields : List Field := [.lightScene]

/-- The members of a mode. -/
def modeFields (mode : UInt8) : List Field :=
  if mode = wControl then whiteFields
  else if mode = cControl then colorFields
  else if mode = sControl then sceneFields
  else []

/-- The first group that is there. -/
def firstGroup (property : CJson) : List (Field × CJson) :=
  if present property whiteFields ≠ [] then present property whiteFields
  else if present property colorFields ≠ [] then present property colorFields
  else present property sceneFields

/-- The group that goes with the work mode, or the first one when there is no work mode. -/
def groupOf (property : CJson) : List (Field × CJson) :=
  match property.getObjectItem Field.workMode.key with
  | none => firstGroup property
  | some item =>
    match item.valuestring with
    | none => []
    | some text => present property (modeFields (toU8 (atoi text)))

/-- The light is switched off, which makes the other members count for nothing. -/
def SwitchOff (property : CJson) : Prop :=
  ((property.getObjectItem Field.switch.key).bind CJson.valuestring).map (toU32 ∘ atoi) = some 0

instance (property : CJson) : Decidable (SwitchOff property) :=
  inferInstanceAs (Decidable (_ = _))

/-- The members of a message that count, up to the first one that is not a string. -/
def fieldsOf (property : CJson) : List (Field × CJson) :=
  present property [.switch] ++
    if SwitchOff property then [] else present property [.workMode] ++ groupOf property

/-- The numbers in front of the first member that is not a string. -/
def numbers : List (Field × CJson) → List (Field × Int)
  | [] => []
  | item :: items =>
    match item.2.valuestring with
    | none => []
    | some text => (item.1, atoi text) :: numbers items

/-- The state with these numbers stored. -/
def stored (values : List (Field × Int)) (light : CloudLightData) : CloudLightData :=
  values.foldl (fun light x => x.1.store x.2 light) light

/-- One of the members is not a string. -/
def Refused (items : List (Field × CJson)) : Prop := ∃ item ∈ items, item.2.valuestring = none

instance (items : List (Field × CJson)) : Decidable (Refused items) :=
  inferInstanceAs (Decidable (∃ item ∈ items, item.2.valuestring = none))

/-! ## The code reads those members -/

/-- The branches of some members, one after the other. -/
def runFields : List (Field × CJson) → Downlink → Except CloudLightData Downlink
  | [], d => .ok d
  | item :: items, d =>
    match item.2.valuestring with
    | none => .error d.light
    | some text => runFields items (d.take item.1 (atoi text))

theorem runFields_append (items rest : List (Field × CJson)) (d : Downlink) :
    runFields (items ++ rest) d = runFields items d >>= runFields rest := by
  induction items generalizing d with
  | nil => rfl
  | cons item items ih =>
    rw [List.cons_append, runFields, runFields]
    cases item.2.valuestring with
    | none => rfl
    | some text => exact ih _

theorem present_cons (property : CJson) (f : Field) (fields : List Field) :
    present property (f :: fields) = present property [f] ++ present property fields :=
  List.filterMap_append (l := [f])

theorem downlinkField_eq (property : CJson) (f : Field) (d : Downlink) :
    downlinkField property f d = runFields (present property [f]) d := by
  rw [downlinkField, present, List.filterMap_cons]
  cases property.getObjectItem f.key with
  | none => rfl
  | some item =>
    rw [Option.map_some, List.filterMap_nil, runFields]
    dsimp only
    cases item.valuestring with
    | none => rfl
    | some text => rfl

theorem foldlM_downlinkField (property : CJson) (fields : List Field) (d : Downlink) :
    fields.foldlM (fun d f => downlinkField property f d) d =
      runFields (present property fields) d := by
  induction fields generalizing d with
  | nil => rfl
  | cons f fields ih =>
    rw [List.foldlM_cons, present_cons, runFields_append, downlinkField_eq]
    cases runFields (present property [f]) d with
    | error light => rfl
    | ok d => exact ih d

theorem downlinkGroup_run {property : CJson} {control : Nat} {fields : List Field} {d : Downlink}
    (asked : d.controlType = control ∨ d.controlType = nonControl) :
    downlinkGroup property control fields d = runFields (present property fields) d := by
  rw [downlinkGroup, if_pos asked]
  exact foldlM_downlinkField property fields d

theorem downlinkGroup_skip {property : CJson} {control : Nat} {fields : List Field} {d : Downlink}
    (other : d.controlType ≠ control) (not_non : d.controlType ≠ nonControl) :
    downlinkGroup property control fields d = .ok d := by
  rw [downlinkGroup, if_neg]
  exact not_or.mpr ⟨other, not_non⟩

/-- Members that all set `control_type` to the same. -/
theorem runFields_controlType {items : List (Field × CJson)} {control : Nat}
    (sets : ∀ item ∈ items, ∀ (d : Downlink) value, (d.take item.1 value).controlType = control)
    {d d' : Downlink} (ran : runFields items d = .ok d') :
    d' = d ∧ items = [] ∨ d'.controlType = control := by
  induction items generalizing d with
  | nil => exact .inl ⟨(Except.ok.inj ran).symm, rfl⟩
  | cons item rest ih =>
    obtain ⟨first, sets⟩ := List.forall_mem_cons.mp sets
    right
    rw [runFields] at ran
    cases text : item.2.valuestring with
    | none =>
      rw [text] at ran
      cases ran
    | some text =>
      simp only [*] at ran
      rcases ih sets ran with ⟨same, -⟩ | control
      · rw [same]
        exact first d _
      · exact control

theorem mem_fields_of_present {property : CJson} {fields : List Field} {item : Field × CJson}
    (mem : item ∈ present property fields) : item.1 ∈ fields := by
  obtain ⟨f, mem, there⟩ := List.mem_filterMap.mp mem
  obtain ⟨_, _, same⟩ := Option.map_eq_some_iff.mp there
  rw [← same]
  exact mem

theorem white_controlType {property : CJson} {d d' : Downlink}
    (ran : runFields (present property whiteFields) d = .ok d') :
    d' = d ∧ present property whiteFields = [] ∨ d'.controlType = whiteControl := by
  apply runFields_controlType _ ran
  intro item mem d value
  have field := mem_fields_of_present mem
  simp only [whiteFields, List.mem_cons, List.not_mem_nil, or_false] at field
  rcases field with f | f <;> rw [f] <;> rfl

theorem color_controlType {property : CJson} {d d' : Downlink}
    (ran : runFields (present property colorFields) d = .ok d') :
    d' = d ∧ present property colorFields = [] ∨ d'.controlType = colorControl := by
  apply runFields_controlType _ ran
  intro item mem d value
  have field := mem_fields_of_present mem
  simp only [colorFields, List.mem_cons, List.not_mem_nil, or_false] at field
  rcases field with f | f | f <;> rw [f] <;> rfl

/-- A group that is not asked for after the one that was run. -/
theorem bind_downlinkGroup {property : CJson} {control : Nat} {fields : List Field}
    {r : Except CloudLightData Downlink}
    (other : ∀ d, r = .ok d → d.controlType ≠ control ∧ d.controlType ≠ nonControl) :
    r >>= downlinkGroup property control fields = r := by
  cases r with
  | error light => rfl
  | ok d => exact downlinkGroup_skip (other d rfl).1 (other d rfl).2

/-- After the members of white no other group is asked for. -/
theorem bind_downlinkGroups_white {property : CJson} {r : Except CloudLightData Downlink}
    (after : ∀ d, r = .ok d → d.controlType = whiteControl) :
    r >>= downlinkGroup property colorControl colorFields >>=
      downlinkGroup property sceneControl sceneFields = r := by
  have skip : r >>= downlinkGroup property colorControl colorFields = r := by
    apply bind_downlinkGroup
    intro d ran
    rw [after d ran]
    decide
  rw [skip]
  apply bind_downlinkGroup
  intro d ran
  rw [after d ran]
  decide

/-- The three groups of `ya_thing_handle_downlink_data`. -/
def downlinkGroups (property : CJson) (d : Downlink) : Except CloudLightData Downlink :=
  downlinkGroup property whiteControl whiteFields d >>=
    downlinkGroup property colorControl colorFields >>=
      downlinkGroup property sceneControl sceneFields

/-- Without a work mode the first group that is there is read. -/
theorem downlinkGroups_first (property : CJson) {d : Downlink} (non : d.controlType = nonControl) :
    downlinkGroups property d = runFields (firstGroup property) d := by
  rw [downlinkGroups, downlinkGroup_run (.inr non), firstGroup]
  by_cases white : present property whiteFields = []
  · rw [if_neg (not_not.mpr white), white]
    change downlinkGroup property colorControl colorFields d >>= _ = _
    rw [downlinkGroup_run (.inr non)]
    by_cases color : present property colorFields = []
    · rw [if_neg (not_not.mpr color), color]
      exact downlinkGroup_run (.inr non)
    · rw [if_pos color, bind_downlinkGroup]
      intro d' ran
      rcases color_controlType ran with ⟨-, none⟩ | control
      · exact absurd none color
      · rw [control]
        decide
  · rw [if_pos white]
    have after : ∀ d', runFields (present property whiteFields) d = .ok d' →
        d'.controlType = whiteControl := fun d' ran =>
      (white_controlType ran).resolve_left fun h => white h.2
    exact bind_downlinkGroups_white after

/-- With a work mode its group is read, if it has one. -/
theorem downlinkGroups_mode (property : CJson) {d : Downlink} {mode : UInt8}
    (control : d.controlType = mode.toNat + 1) :
    downlinkGroups property d = runFields (present property (modeFields mode)) d := by
  have not_non : d.controlType ≠ nonControl := by
    rw [control]
    exact Nat.succ_ne_zero _
  have number (m : UInt8) : d.controlType = m.toNat + 1 ↔ mode = m := by
    rw [control, Nat.add_right_cancel_iff, UInt8.toNat_inj]
  have white : d.controlType = whiteControl ↔ mode = wControl := number wControl
  have color : d.controlType = colorControl ↔ mode = cControl := number cControl
  have scene : d.controlType = sceneControl ↔ mode = sControl := number sControl
  rw [downlinkGroups, modeFields]
  by_cases isWhite : mode = wControl
  · rw [if_pos isWhite, downlinkGroup_run (.inl (white.mpr isWhite))]
    have after : ∀ d', runFields (present property whiteFields) d = .ok d' →
        d'.controlType = whiteControl := by
      intro d' ran
      rcases white_controlType ran with ⟨same, -⟩ | control
      · rw [same, white]
        exact isWhite
      · exact control
    exact bind_downlinkGroups_white after
  · rw [if_neg isWhite, downlinkGroup_skip (fun h => isWhite (white.mp h)) not_non]
    change (downlinkGroup property colorControl colorFields d >>= _) = _
    by_cases isColor : mode = cControl
    · rw [if_pos isColor, downlinkGroup_run (.inl (color.mpr isColor)), bind_downlinkGroup]
      intro d' ran
      rcases color_controlType ran with ⟨same, -⟩ | control
      · rw [same, color.mpr isColor]
        decide
      · rw [control]
        decide
    · rw [if_neg isColor, downlinkGroup_skip (fun h => isColor (color.mp h)) not_non]
      change downlinkGroup property sceneControl sceneFields d = _
      by_cases isScene : mode = sControl
      · rw [if_pos isScene]
        exact downlinkGroup_run (.inl (scene.mpr isScene))
      · rw [if_neg isScene]
        exact downlinkGroup_skip (fun h => isScene (scene.mp h)) not_non

/-- The code stores the members that count, in their order. -/
theorem downlinkFields_eq (property : CJson) (light : CloudLightData) :
    downlinkFields property light = runFields (fieldsOf property) (.start light) := by
  have groups (d : Downlink) (non : d.controlType = nonControl) :
      (downlinkField property .workMode d >>= downlinkGroups property) =
        runFields (present property [.workMode] ++ groupOf property) d := by
    rw [runFields_append, downlinkField_eq, groupOf, present, List.filterMap_cons,
      List.filterMap_nil]
    cases property.getObjectItem Field.workMode.key with
    | none => exact downlinkGroups_first property non
    | some item =>
      simp only [Option.map_some, runFields]
      cases item.valuestring with
      | none => rfl
      | some text => exact downlinkGroups_mode property rfl
  have code : downlinkFields property light =
      downlinkField property .switch (.start light) >>= fun d =>
        if d.getSwitchOff then .ok d
        else downlinkField property .workMode d >>= downlinkGroups property := by
    have nested : downlinkGroups property = fun d =>
        downlinkGroup property whiteControl whiteFields d >>= fun d =>
          downlinkGroup property colorControl colorFields d >>=
            downlinkGroup property sceneControl sceneFields :=
      funext fun d => bind_assoc ..
    rw [nested]
    rfl
  rw [code, fieldsOf, downlinkField_eq, runFields_append, present, List.filterMap_cons,
    List.filterMap_nil]
  cases there : property.getObjectItem Field.switch.key with
  | none =>
    rw [if_neg]
    · exact groups _ rfl
    · simp [SwitchOff, there]
  | some item =>
    simp only [Option.map_some, runFields]
    cases string : item.valuestring with
    | none => rfl
    | some text =>
      have off : SwitchOff property ↔ toU32 (atoi text) = 0 := by
        simp [SwitchOff, there, string]
      simp only [off, Downlink.take, ne_eq]
      by_cases zero : toU32 (atoi text) = 0
      · simp only [zero, not_true_eq_false, if_true, if_false]
        rfl
      · simp only [zero, not_false_eq_true, if_true, if_false]
        exact groups _ rfl

/-! ## What is stored -/

theorem stored_cons (x : Field × Int) (values : List (Field × Int)) (light : CloudLightData) :
    stored (x :: values) light = stored values (x.1.store x.2 light) :=
  rfl

theorem take_light (d : Downlink) (f : Field) (value : Int) :
    (d.take f value).light = f.store value d.light := by
  cases f with
  | switch =>
    rw [Downlink.take, Field.store]
    split <;> rfl
  | _ => rfl

theorem take_enableSend (d : Downlink) (f : Field) (value : Int) :
    (d.take f value).enableSend = true := by
  cases f with
  | switch =>
    rw [Downlink.take]
    split <;> rfl
  | _ => rfl

/-- Out at the first member that is not a string, with the numbers in front of it stored. -/
theorem runFields_refused {items : List (Field × CJson)} (refused : Refused items)
    (d : Downlink) : runFields items d = .error (stored (numbers items) d.light) := by
  induction items generalizing d with
  | nil =>
    obtain ⟨_, mem, _⟩ := refused
    cases mem
  | cons item items ih =>
    rw [runFields, numbers]
    cases string : item.2.valuestring with
    | none => rfl
    | some text =>
      have rest : Refused items := by
        obtain ⟨other, mem, none_⟩ := refused
        rcases List.mem_cons.mp mem with same | mem
        · rw [same, string] at none_
          cases none_
        · exact ⟨other, mem, none_⟩
      dsimp only
      rw [ih rest, take_light, stored_cons]

/-- Through to the end when all members are strings. -/
theorem runFields_ok {items : List (Field × CJson)} (strings : ¬Refused items) (d : Downlink) :
    ∃ d', runFields items d = .ok d' ∧ d'.light = stored (numbers items) d.light ∧
      d'.enableSend = (d.enableSend || !items.isEmpty) := by
  induction items generalizing d with
  | nil => exact ⟨d, rfl, rfl, (Bool.or_false _).symm⟩
  | cons item items ih =>
    rw [runFields, numbers]
    cases string : item.2.valuestring with
    | none => exact absurd ⟨item, List.mem_cons_self, string⟩ strings
    | some text =>
      have rest : ¬Refused items := fun ⟨other, mem, none_⟩ =>
        strings ⟨other, List.mem_cons_of_mem item mem, none_⟩
      obtain ⟨d', ran, light, send⟩ := ih rest (d.take item.1 (atoi text))
      refine ⟨d', ran, ?_, ?_⟩
      · rw [light, take_light, stored_cons]
      · rw [send, take_enableSend, Bool.true_or, List.isEmpty_cons, Bool.not_false, Bool.or_true]

/-! ## Numbers that are there already -/

/-- The mode a number goes with. -/
def modeOf : Field × Int → Option UInt8
  | (.switch, _) => none
  | (.workMode, value) => some (toU8 value)
  | (.luminance, _) => some wControl
  | (.colorTemperature, _) => some wControl
  | (.hue, _) => some cControl
  | (.saturation, _) => some cControl
  | (.brightness, _) => some cControl
  | (.lightScene, _) => some sControl

/-- What a number switches the light to. -/
def onoffOf : Field × Int → Option UInt8
  | (.switch, value) => some (if toU32 value ≠ 0 then 1 else 0)
  | (.workMode, _) => none
  | _ => some 1

/-- Two numbers for different members, of which neither undoes the mode or the switch of the
other. -/
structure Together (x y : Field × Int) : Prop where
  field : x.1 ≠ y.1
  mode : ∀ m ∈ modeOf x, ∀ m' ∈ modeOf y, m = m'
  onoff : ∀ o ∈ onoffOf x, ∀ o' ∈ onoffOf y, o = o'

theorem store_store (f : Field) (value : Int) (light : CloudLightData) :
    f.store value (f.store value light) = f.store value light := by
  cases f <;> rfl

attribute [ext] CloudLightData

theorem store_mode (x : Field × Int) (light : CloudLightData) :
    (x.1.store x.2 light).mode = (modeOf x).getD light.mode := by
  obtain ⟨f, value⟩ := x
  cases f <;> rfl

theorem store_onoff (x : Field × Int) (light : CloudLightData) :
    (x.1.store x.2 light).onoff = (onoffOf x).getD light.onoff := by
  obtain ⟨f, value⟩ := x
  cases f <;> rfl

theorem getD_swap {α : Type} {o o' : Option α} (agree : ∀ a ∈ o, ∀ a' ∈ o', a = a') (d : α) :
    o.getD (o'.getD d) = o'.getD (o.getD d) := by
  cases o with
  | none => rfl
  | some a =>
    cases o' with
    | none => rfl
    | some a' => exact agree a rfl a' rfl

/-- What one member alone writes does not depend on the order of two different ones. -/
theorem commute_of_owned {α : Type} {shown : CloudLightData → α} (owner : Field)
    (others : ∀ f ≠ owner, ∀ value light, shown (f.store value light) = shown light)
    (own : ∀ value light light', shown (owner.store value light) = shown (owner.store value light'))
    {x y : Field × Int} (field : x.1 ≠ y.1) (light : CloudLightData) :
    shown (x.1.store x.2 (y.1.store y.2 light)) = shown (y.1.store y.2 (x.1.store x.2 light)) := by
  by_cases first : x.1 = owner
  · have second : y.1 ≠ owner := fun same => field (first.trans same.symm)
    rw [others y.1 second, first]
    exact own x.2 _ _
  · rw [others x.1 first]
    by_cases second : y.1 = owner
    · rw [second]
      exact own y.2 _ _
    · rw [others y.1 second, others y.1 second, others x.1 first]

theorem store_commute {x y : Field × Int} (together : Together x y) :
    Function.Commute (x.1.store x.2) (y.1.store y.2) := by
  obtain ⟨field, mode, onoff⟩ := together
  intro light
  ext1
  case mode =>
    rw [store_mode, store_mode, store_mode, store_mode]
    exact getD_swap mode light.mode
  case onoff =>
    rw [store_onoff, store_onoff, store_onoff, store_onoff]
    exact getD_swap onoff light.onoff
  case wL =>
    refine commute_of_owned .luminance (fun f other _ _ => ?_) (fun _ _ _ => rfl) field light
    cases f <;> first | rfl | exact absurd rfl other
  case wColor =>
    refine commute_of_owned .colorTemperature (fun f other _ _ => ?_) (fun _ _ _ => rfl) field light
    cases f <;> first | rfl | exact absurd rfl other
  case cH =>
    refine commute_of_owned .hue (fun f other _ _ => ?_) (fun _ _ _ => rfl) field light
    cases f <;> first | rfl | exact absurd rfl other
  case cS =>
    refine commute_of_owned .saturation (fun f other _ _ => ?_) (fun _ _ _ => rfl) field light
    cases f <;> first | rfl | exact absurd rfl other
  case cB =>
    refine commute_of_owned .brightness (fun f other _ _ => ?_) (fun _ _ _ => rfl) field light
    cases f <;> first | rfl | exact absurd rfl other
  case scene =>
    refine commute_of_owned .lightScene (fun f other _ _ => ?_) (fun _ _ _ => rfl) field light
    cases f <;> first | rfl | exact absurd rfl other

theorem mem_numbers {items : List (Field × CJson)} {x : Field × Int} (mem : x ∈ numbers items) :
    ∃ item text, (x.1, item) ∈ items ∧ item.valuestring = some text ∧ x.2 = atoi text := by
  induction items with
  | nil => cases mem
  | cons item items ih =>
    rw [numbers] at mem
    cases string : item.2.valuestring with
    | none =>
      rw [string] at mem
      cases mem
    | some text =>
      rw [string] at mem
      rcases List.mem_cons.mp mem with same | mem
      · rw [same]
        exact ⟨item.2, text, List.mem_cons_self, string, rfl⟩
      · obtain ⟨item', text', mem, rest⟩ := ih mem
        exact ⟨item', text', List.mem_cons_of_mem item mem, rest⟩

theorem numbers_fields (items : List (Field × CJson)) :
    ((numbers items).map Prod.fst).Sublist (items.map Prod.fst) := by
  induction items with
  | nil => exact .slnil
  | cons item items ih =>
    rw [numbers]
    cases item.2.valuestring with
    | none => exact List.nil_sublist _
    | some text => exact ih.cons_cons item.1

theorem present_fields (property : CJson) (fields : List Field) :
    ((present property fields).map Prod.fst).Sublist fields := by
  induction fields with
  | nil => exact .slnil
  | cons f fields ih =>
    rw [present, List.filterMap_cons]
    cases property.getObjectItem f.key with
    | none => exact ih.cons f
    | some item => exact ih.cons_cons f

/-- The members of the groups, in the order of the code. -/
def groupFields : List Field := whiteFields ++ colorFields ++ sceneFields

theorem white_sublist : whiteFields.Sublist groupFields :=
  (List.sublist_append_left _ _).trans (List.sublist_append_left _ _)

theorem color_sublist : colorFields.Sublist groupFields :=
  (List.sublist_append_right _ _).trans (List.sublist_append_left _ _)

theorem scene_sublist : sceneFields.Sublist groupFields := List.sublist_append_right _ _

theorem modeFields_sublist (mode : UInt8) : (modeFields mode).Sublist groupFields := by
  rw [modeFields]
  split
  · exact white_sublist
  · split
    · exact color_sublist
    · split
      · exact scene_sublist
      · exact List.nil_sublist _

theorem group_fields (property : CJson) :
    ((groupOf property).map Prod.fst).Sublist groupFields := by
  rw [groupOf]
  cases property.getObjectItem Field.workMode.key with
  | none =>
    dsimp only
    rw [firstGroup]
    split
    · exact (present_fields property _).trans white_sublist
    · split
      · exact (present_fields property _).trans color_sublist
      · exact (present_fields property _).trans scene_sublist
  | some item =>
    dsimp only
    cases item.valuestring with
    | none => exact List.nil_sublist _
    | some text => exact (present_fields property _).trans (modeFields_sublist _)

/-- The members that count are different ones. -/
theorem fields_nodup (property : CJson) : ((numbers (fieldsOf property)).map Prod.fst).Nodup := by
  have counted : ((fieldsOf property).map Prod.fst).Sublist
      ([.switch] ++ ([.workMode] ++ groupFields)) := by
    rw [fieldsOf, List.map_append]
    apply (present_fields property _).append
    split
    · exact List.nil_sublist _
    · rw [List.map_append]
      exact (present_fields property _).append (group_fields property)
  apply ((numbers_fields _).trans counted).nodup
  decide

theorem modeOf_white {x : Field × Int} (mem : x.1 ∈ whiteFields) : modeOf x = some wControl := by
  obtain ⟨f, value⟩ := x
  simp only [whiteFields, List.mem_cons, List.not_mem_nil, or_false] at mem
  rcases mem with rfl | rfl <;> rfl

theorem modeOf_color {x : Field × Int} (mem : x.1 ∈ colorFields) : modeOf x = some cControl := by
  obtain ⟨f, value⟩ := x
  simp only [colorFields, List.mem_cons, List.not_mem_nil, or_false] at mem
  rcases mem with rfl | rfl | rfl <;> rfl

theorem modeOf_scene {x : Field × Int} (mem : x.1 ∈ sceneFields) : modeOf x = some sControl := by
  obtain ⟨f, value⟩ := x
  simp only [sceneFields, List.mem_cons, List.not_mem_nil, or_false] at mem
  rw [mem]
  rfl

theorem modeOf_modeFields {mode : UInt8} {x : Field × Int} (mem : x.1 ∈ modeFields mode) :
    modeOf x = some mode := by
  rw [modeFields] at mem
  split at mem
  · next white => rw [white, modeOf_white mem]
  · split at mem
    · next color => rw [color, modeOf_color mem]
    · split at mem
      · next scene => rw [scene, modeOf_scene mem]
      · cases mem

theorem modeOf_group (property : CJson) : ∃ mode, ∀ x : Field × Int, ∀ item,
    (x.1, item) ∈ firstGroup property → modeOf x = some mode := by
  rw [firstGroup]
  split
  · exact ⟨wControl, fun x item mem => modeOf_white (mem_fields_of_present mem)⟩
  · split
    · exact ⟨cControl, fun x item mem => modeOf_color (mem_fields_of_present mem)⟩
    · exact ⟨sControl, fun x item mem => modeOf_scene (mem_fields_of_present mem)⟩

theorem present_one {property : CJson} {f g : Field} {item : CJson}
    (mem : (g, item) ∈ present property [f]) :
    g = f ∧ property.getObjectItem f.key = some item := by
  obtain ⟨f', mem, there⟩ := List.mem_filterMap.mp mem
  rw [List.mem_singleton] at mem
  obtain ⟨item', there, same⟩ := Option.map_eq_some_iff.mp there
  cases same
  rw [← mem]
  exact ⟨rfl, there⟩

/-- The three kinds of members that count. -/
theorem mem_fieldsOf {property : CJson} {f : Field} {item : CJson}
    (mem : (f, item) ∈ fieldsOf property) :
    f = .switch ∧ property.getObjectItem Field.switch.key = some item ∨
      ¬SwitchOff property ∧
        (f = .workMode ∧ property.getObjectItem Field.workMode.key = some item ∨
          (f, item) ∈ groupOf property) := by
  rw [fieldsOf] at mem
  rcases List.mem_append.mp mem with switch | mem
  · exact .inl (present_one switch)
  · split at mem
    · cases mem
    · next on =>
      rcases List.mem_append.mp mem with workMode | group
      · exact .inr ⟨on, .inl (present_one workMode)⟩
      · exact .inr ⟨on, .inr group⟩

/-- They go with one mode when the number of `WorkMode` and those of the group do. -/
theorem modeOf_counted {property : CJson} {mode : UInt8}
    (work : ∀ item text, property.getObjectItem Field.workMode.key = some item →
      item.valuestring = some text → toU8 (atoi text) = mode)
    (group : ∀ x : Field × Int, ∀ item, (x.1, item) ∈ groupOf property → modeOf x = some mode) :
    ∀ x ∈ numbers (fieldsOf property), ∀ m ∈ modeOf x, m = mode := by
  intro x mem m there
  obtain ⟨f, v⟩ := x
  obtain ⟨item, text, mem, string, value⟩ := mem_numbers mem
  cases value
  rcases mem_fieldsOf mem with ⟨switch, -⟩ | ⟨-, ⟨workMode, found⟩ | mem⟩
  · cases switch
    cases there
  · cases workMode
    rw [← work item text found string]
    exact (Option.some.inj there).symm
  · rw [group (f, _) item mem] at there
    exact (Option.some.inj there).symm

/-- All numbers of a message go with one mode. -/
theorem modeOf_numbers (property : CJson) :
    ∃ mode, ∀ x ∈ numbers (fieldsOf property), ∀ m ∈ modeOf x, m = mode := by
  cases found : property.getObjectItem Field.workMode.key with
  | none =>
    obtain ⟨mode, first⟩ := modeOf_group property
    refine ⟨mode, modeOf_counted ?_ ?_⟩
    · intro item _ there
      rw [found] at there
      cases there
    · intro x item mem
      rw [groupOf, found] at mem
      exact first x item mem
  | some item =>
    cases string : item.valuestring with
    | none =>
      refine ⟨wControl, modeOf_counted ?_ ?_⟩
      · intro item' text there string'
        rw [found] at there
        cases there
        rw [string] at string'
        cases string'
      · intro x item' mem
        simp only [groupOf, found, string] at mem
        cases mem
    | some text =>
      refine ⟨toU8 (atoi text), modeOf_counted ?_ ?_⟩
      · intro item' text' there string'
        rw [found] at there
        cases there
        rw [string] at string'
        cases string'
        rfl
      · intro x item' mem
        simp only [groupOf, found, string] at mem
        exact modeOf_modeFields (mem_fields_of_present mem)

/-- All numbers of a message switch the light the same way. -/
theorem onoffOf_numbers (property : CJson) :
    ∃ onoff, ∀ x ∈ numbers (fieldsOf property), ∀ o ∈ onoffOf x, o = onoff := by
  refine ⟨if SwitchOff property then 0 else 1, ?_⟩
  intro x mem o there
  obtain ⟨f, v⟩ := x
  obtain ⟨item, text, mem, string, value⟩ := mem_numbers mem
  cases value
  rcases mem_fieldsOf mem with ⟨switch, found⟩ | ⟨on, ⟨workMode, -⟩ | mem⟩
  · cases switch
    have off : SwitchOff property ↔ toU32 (atoi text) = 0 := by
      simp [SwitchOff, found, string]
    simp only [onoffOf, ne_eq, ite_not, Option.mem_some_iff] at there
    rw [← there]
    exact if_congr off.symm rfl rfl
  · cases workMode
    cases there
  · rw [if_neg on]
    have group := (group_fields property).subset (List.mem_map_of_mem mem)
    simp only [groupFields, whiteFields, colorFields, sceneFields, List.cons_append,
      List.nil_append, List.mem_cons, List.not_mem_nil, or_false] at group
    rcases group with rfl | rfl | rfl | rfl | rfl | rfl <;> exact (Option.some.inj there).symm

theorem numbers_together (property : CJson) : (numbers (fieldsOf property)).Pairwise Together := by
  obtain ⟨mode, same_mode⟩ := modeOf_numbers property
  obtain ⟨onoff, same_onoff⟩ := onoffOf_numbers property
  apply (List.pairwise_map.mp (fields_nodup property)).imp_of_mem
  intro x y memx memy field
  refine ⟨field, ?_, ?_⟩
  · intro m there m' there'
    exact (same_mode x memx m there).trans (same_mode y memy m' there').symm
  · intro o there o' there'
    exact (same_onoff x memx o there).trans (same_onoff y memy o' there').symm

/-- The numbers of a message change nothing only when each of them is there already. -/
theorem stored_eq_self_iff (property : CJson) (light : CloudLightData) :
    stored (numbers (fieldsOf property)) light = light ↔
      ∀ x ∈ numbers (fieldsOf property), x.1.store x.2 light = light := by
  have updates : stored (numbers (fieldsOf property)) light =
      ((numbers (fieldsOf property)).map fun x => x.1.store x.2).foldl (fun s u => u s) light := by
    rw [List.foldl_map]
    rfl
  rw [updates, foldl_updates_eq_self_iff, List.forall_mem_map]
  · exact List.pairwise_map.mpr ((numbers_together property).imp store_commute)
  · intro u mem
    obtain ⟨x, -, same⟩ := List.mem_map.mp mem
    rw [← same]
    exact store_store x.1 x.2

/-! ## All or nothing -/

/-- The report of a state. -/
def reportOf (light : CloudLightData) : List UInt8 := CJson.printObject (wholeKeyValue light)

/-- The new state is stored, queued and reported. -/
structure Done (property : CJson) (s s' : LightApp) : Prop where
  new : s'.new = stored (numbers (fieldsOf property)) s.new
  lightQueue : s'.lightQueue = s.lightQueue ++ [s'.new]
  reports : s'.reports = s.reports ++ [reportOf s'.new]

/-- A message is done as a whole, or nothing happens, because one of its members is not a string or
because none of them counts. -/
structure AllOrNothing (property : CJson) (s s' : LightApp) : Prop where
  refused : Refused (fieldsOf property) → s' = s
  nothing : fieldsOf property = [] → s' = s
  done : ¬Refused (fieldsOf property) → fieldsOf property ≠ [] → Done property s s'

/-- What is queued and reported is the state there is. -/
structure Agree (s : LightApp) : Prop where
  lightQueue : ∀ light ∈ s.lightQueue.getLast?, light = s.new
  reports : ∀ report ∈ s.reports.getLast?, report = reportOf s.new

/-- There is memory for the copy and for the report of a state, and the queue takes the copy. -/
def Answers.Send (a : Answers) (light : CloudLightData) : Prop :=
  a.block ∧ a.queueSend ∧ a.printUnformatted (wholeKeyValue light) = some (reportOf light)

/-- Numbers in front of a member that is not a string are there already, and a message without such
a member can be sent on. -/
structure Whole (a : Answers) (property : CJson) (light : CloudLightData) : Prop where
  refused : Refused (fieldsOf property) →
    ∀ x ∈ numbers (fieldsOf property), x.1.store x.2 light = light
  answered : ¬Refused (fieldsOf property) → fieldsOf property ≠ [] →
    a.Send (stored (numbers (fieldsOf property)) light)

theorem downlink_refused {property : CJson} (refused : Refused (fieldsOf property)) (a : Answers)
    (s : LightApp) : s.yaThingHandleDownlinkData a (some property) =
      { s with new := stored (numbers (fieldsOf property)) s.new } := by
  rw [LightApp.yaThingHandleDownlinkData, downlinkFields_eq, runFields_refused refused]
  rfl

/-- The end of a message whose members are strings. -/
def LightApp.send (a : Answers) (light : CloudLightData) (s : LightApp) : LightApp :=
  (LightApp.yaSetLightParaToQueue a { s with new := light }).yaReportWholeKeyValueFormulate a

theorem downlink_ok {property : CJson} (strings : ¬Refused (fieldsOf property)) (a : Answers)
    (s : LightApp) : s.yaThingHandleDownlinkData a (some property) =
      if fieldsOf property = [] then s
      else s.send a (stored (numbers (fieldsOf property)) s.new) := by
  obtain ⟨d, ran, light, send⟩ := runFields_ok strings (.start s.new)
  rw [LightApp.yaThingHandleDownlinkData, downlinkFields_eq, ran]
  dsimp only
  rw [send, light]
  by_cases none_ : fieldsOf property = []
  · rw [if_pos none_, none_]
    rfl
  · rw [if_neg none_, if_pos]
    · rfl
    · simpa [Downlink.start] using none_

theorem send_new (a : Answers) (light : CloudLightData) (s : LightApp) :
    (s.send a light).new = light := by
  rw [LightApp.send, LightApp.yaReportWholeKeyValueFormulate, LightApp.yaSetLightParaToQueue]
  split <;> split <;> rfl

theorem send_lightQueue (a : Answers) (light : CloudLightData) (s : LightApp) :
    (s.send a light).lightQueue = s.lightQueue ++ [light] ↔ a.block ∧ a.queueSend := by
  have queue : (s.send a light).lightQueue =
      if a.block ∧ a.queueSend then s.lightQueue ++ [light] else s.lightQueue := by
    rw [LightApp.send, LightApp.yaReportWholeKeyValueFormulate, LightApp.yaSetLightParaToQueue]
    split <;> split <;> rfl
  rw [queue]
  split
  · next answers => exact iff_of_true rfl answers
  · next answers =>
    exact iff_of_false (fun same => nomatch List.self_eq_append_right.mp same) answers

theorem send_reports (a : Answers) (light : CloudLightData) (s : LightApp) :
    (s.send a light).reports = s.reports ++ [reportOf light] ↔
      a.printUnformatted (wholeKeyValue light) = some (reportOf light) := by
  have queued : (LightApp.yaSetLightParaToQueue a { s with new := light }).new = light ∧
      (LightApp.yaSetLightParaToQueue a { s with new := light }).reports = s.reports := by
    rw [LightApp.yaSetLightParaToQueue]
    split <;> exact ⟨rfl, rfl⟩
  rw [LightApp.send, LightApp.yaReportWholeKeyValueFormulate, queued.1]
  cases a.printUnformatted (wholeKeyValue light) with
  | none =>
    dsimp only
    rw [queued.2]
    exact iff_of_false (fun same => nomatch List.self_eq_append_right.mp same) nofun
  | some buf =>
    dsimp only
    rw [queued.2, List.append_right_inj, List.singleton_inj, Option.some_inj]

theorem done_send_iff (a : Answers) (property : CJson) (s : LightApp) :
    Done property s (s.send a (stored (numbers (fieldsOf property)) s.new)) ↔
      a.Send (stored (numbers (fieldsOf property)) s.new) := by
  constructor
  · intro done
    have queue := done.lightQueue
    have reports := done.reports
    rw [send_new] at queue reports
    obtain ⟨block, queueSend⟩ := (send_lightQueue ..).mp queue
    exact ⟨block, queueSend, (send_reports ..).mp reports⟩
  · rintro ⟨block, queueSend, print⟩
    refine ⟨send_new .., ?_, ?_⟩ <;> rw [send_new]
    · exact (send_lightQueue ..).mpr ⟨block, queueSend⟩
    · exact (send_reports ..).mpr print

/-- One message. -/
theorem wholeOrNothing_iff (a : Answers) (property : CJson) (s : LightApp) :
    AllOrNothing property s (s.yaThingHandleDownlinkData a (some property)) ↔
      Whole a property s.new := by
  by_cases refused : Refused (fieldsOf property)
  · have same : s.yaThingHandleDownlinkData a (some property) = s ↔
        ∀ x ∈ numbers (fieldsOf property), x.1.store x.2 s.new = s.new := by
      rw [← stored_eq_self_iff, downlink_refused refused]
      constructor
      · intro same
        exact congrArg LightApp.new same
      · intro same
        rw [same]
    constructor
    · intro right
      exact ⟨fun _ => same.mp (right.refused refused), fun strings => absurd refused strings⟩
    · intro whole
      have same := same.mpr (whole.refused refused)
      exact ⟨fun _ => same, fun _ => same, fun strings => absurd refused strings⟩
  · rw [downlink_ok refused]
    by_cases none_ : fieldsOf property = []
    · rw [if_pos none_]
      apply iff_of_true
      · exact ⟨fun _ => rfl, fun _ => rfl, fun _ some_ => absurd none_ some_⟩
      · exact ⟨fun h => absurd h refused, fun _ some_ => absurd none_ some_⟩
    · rw [if_neg none_]
      constructor
      · intro right
        exact ⟨fun h => absurd h refused, fun _ _ =>
          (done_send_iff ..).mp (right.done refused none_)⟩
      · intro whole
        exact ⟨fun h => absurd h refused, fun h => absurd h none_, fun _ _ =>
          (done_send_iff ..).mpr (whole.answered refused none_)⟩

/-! ## Any number of messages -/

/-- A message, and what the surroundings answer. -/
abbrev Message := Option CJson × Answers

/-- A message is handled. -/
def LightApp.handle (s : LightApp) (message : Message) : LightApp :=
  s.yaThingHandleDownlinkData message.2 message.1

/-- Each message meets the condition in the state it comes to. -/
def AllWhole : LightApp → List Message → Prop
  | _, [] => True
  | s, message :: messages =>
    (∀ property ∈ message.1, Whole message.2 property s.new) ∧ AllWhole (s.handle message) messages

theorem Agree.step {property : CJson} {s s' : LightApp} (agree : Agree s)
    (right : AllOrNothing property s s') : Agree s' := by
  by_cases refused : Refused (fieldsOf property)
  · rw [right.refused refused]
    exact agree
  · by_cases none_ : fieldsOf property = []
    · rw [right.nothing none_]
      exact agree
    · have done := right.done refused none_
      constructor
      · intro light last
        rw [done.lightQueue, List.getLast?_concat] at last
        exact (Option.some.inj last).symm
      · intro report last
        rw [done.reports, List.getLast?_concat] at last
        exact (Option.some.inj last).symm

theorem Agree.run {s : LightApp} (agree : Agree s) {messages : List Message}
    (whole : AllWhole s messages) : Agree (messages.foldl LightApp.handle s) := by
  induction messages generalizing s with
  | nil => exact agree
  | cons message messages ih =>
    obtain ⟨first, rest⟩ := whole
    apply ih _ rest
    obtain ⟨property, a⟩ := message
    cases property with
    | none => exact agree
    | some property => exact agree.step ((wholeOrNothing_iff a property s).mpr (first property rfl))

/-- A message is all or nothing if and only if it meets the condition, and when all messages do, the
last copy in the queue and the last report are those of the state. -/
theorem yaThingHandleDownlinkData_allOrNothing_iff (a : Answers) (property : CJson) (s : LightApp) :
    (AllOrNothing property s (s.yaThingHandleDownlinkData a (some property)) ↔
      Whole a property s.new) ∧
    ∀ messages : List Message, Agree s → AllWhole s messages →
      Agree (messages.foldl LightApp.handle s) :=
  ⟨wholeOrNothing_iff a property s, fun _ agree whole => agree.run whole⟩

/-- A light that is off. -/
def lightOff : LightApp := ⟨⟨0, 0, 0, 0, 0, 0, 0, 0⟩, [], []⟩

/-- Surroundings with enough memory. -/
def enough : Answers := ⟨true, true, fun members => some (CJson.printObject members)⟩

/-- A text. -/
def text (cs : List Char) : CJson := .string (lit cs)

/-- The light is switched on with half the luminance. -/
def wholeMessage : CJson :=
  .object [(lit ['S', 'w', 'i', 't', 'c', 'h'], text ['1']),
    (lit ['L', 'u', 'm', 'i', 'n', 'a', 'n', 'c', 'e'], text ['5', '0'])]

/-- A luminance, and a colour temperature that is not a string. -/
def halfMessage : CJson :=
  .object [(lit ['L', 'u', 'm', 'i', 'n', 'a', 'n', 'c', 'e'], text ['8', '0']),
    (lit ['C', 'o', 'l', 'o', 'r', 'T', 'e', 'm', 'p', 'e', 'r', 'a', 't', 'u', 'r', 'e'],
      .number (ascii ['5']))]

theorem wholeMessage_whole (light : CloudLightData) : Whole enough wholeMessage light :=
  ⟨fun refused => absurd refused (by decide), fun _ _ => ⟨rfl, rfl, rfl⟩⟩

theorem yaThingHandleDownlinkData_allOrNothing_on :
    AllOrNothing wholeMessage lightOff
        (lightOff.yaThingHandleDownlinkData enough (some wholeMessage)) ∧
      Agree ([(some wholeMessage, enough)].foldl LightApp.handle lightOff) := by
  obtain ⟨one, run⟩ := yaThingHandleDownlinkData_allOrNothing_iff enough wholeMessage lightOff
  constructor
  · exact one.mpr (wholeMessage_whole _)
  · apply run
    · exact ⟨nofun, nofun⟩
    · refine ⟨?_, trivial⟩
      intro property there
      rw [← Option.some.inj there]
      exact wholeMessage_whole _

/-- The luminance is stored, but neither queued nor reported. -/
theorem yaThingHandleDownlinkData_half :
    ¬AllOrNothing halfMessage lightOff
        (lightOff.yaThingHandleDownlinkData enough (some halfMessage)) ∧
      ¬Agree ([(some wholeMessage, enough), (some halfMessage, enough)].foldl
        LightApp.handle lightOff) := by
  constructor
  · intro right
    have same := congrArg LightApp.new (right.refused (by decide))
    exact absurd same (by decide)
  · intro agree
    have last := agree.lightQueue ⟨0, 1, 50, 0, 0, 0, 0, 0⟩ rfl
    exact absurd last (by decide)

end LightExample

end Tr6260
