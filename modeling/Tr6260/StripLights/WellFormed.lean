import Mathlib.Data.FinEnum
import Tr6260.StripLights.Model

/-!
# What messages leave of the strip light

A number is stored when it is small, and a colour is converted where it is kept: a text with a
character that is no digit leaves its first digits behind. For a scene the -1 of the converter
becomes a length of 255. Messages without such texts keep the model well formed.
-/

namespace Tr6260

open CString

namespace StripLights

/-! ## What is wanted -/

/-- The numbers and the length of the scene are within their limits. -/
structure ThingModel.WellFormed (s : ThingModel) : Prop where
  whiteTemp : s.whiteTemp.toNat ≤ 100
  whiteBright : s.whiteBright.toNat ≤ 100
  micSensitivity : s.micSensitivity.toNat ≤ 100
  micRate : s.micRate.toNat ≤ 100
  scene : s.scene.len.toNat ≤ sceneMaxLen

/-- A text of hexadecimal digits only. -/
def IsHex (text : CString) : Prop := ∀ c ∈ text.1, (hexDigit c).isSome

/-- A message whose color or scene text is not entirely hex digits. -/
def HasBadText (root : CJson) : Prop :=
  (∃ text, member root colorName = some text ∧ ¬ IsHex text) ∨
    ∃ text, member root sceneName = some text ∧ ¬ IsHex text

/-- Messages handled one after the other from the zeroed model, as far as the calls come to their
end. -/
inductive Run (meets : Option CJson → Prop) : Handled → Prop
  | zeroed : Run meets ⟨.zeroed, true, false⟩
  | message {h h' : Handled} {root : Option CJson} (run : Run meets h) (ended : h.returned = true)
      (met : meets root) (handled : yaStripLightsAppCloudScenehandle h.model root = some h') :
      Run meets h'

/-- The model is well formed, its report fits `temp_string`, and a message with a bad text leaves
color and scene. -/
structure Kept (meets : Option CJson → Prop) (h : Handled) : Prop where
  formed : h.model.WellFormed
  report : (yaStripLightsCloudAttriReport h.model).isSome
  unchanged : h.returned = true → ∀ (root : CJson) (h' : Handled), meets (some root) →
    HasBadText root → yaStripLightsAppCloudScenehandle h.model (some root) = some h' →
    h'.model.color = h.model.color ∧ h'.model.scene = h.model.scene

/-! ## When it is so -/

/-- A text of a scene that is converted. -/
def SceneLength (text : CString) : Prop := 4 ≤ text.strlen ∧ text.strlen ≤ sceneMaxLen * 2

/-- A number up to `max` under a name. -/
def HasNumber (root : CJson) (name : List UInt8) (max : Nat) : Prop :=
  ∃ text, member root name = some text ∧ toU32 (atoi text) ≤ max

/-- A message that selects the music mode behind its scene. -/
def SelectsMusic (root : CJson) : Prop :=
  HasNumber root musicName (musicmodeMax - 1) ∨ HasNumber root micSensitivityName 100 ∨
    HasNumber root micRateName 100

/-- A color that is converted consists of digits or does not begin with one, a scene that is
converted consists of digits, and a bad text of the one does not come with a good one of the other,
up to a scene that is not stored. -/
structure Clean (root : CJson) : Prop where
  color : ∀ text, member root colorName = some text → text.strlen = 6 →
    IsHex text ∨ hexDigit (text.1.headD 0) = none
  scene : ∀ text, member root sceneName = some text → SceneLength text → IsHex text
  colorAlone : ∀ text, member root colorName = some text → ¬ IsHex text →
    ∀ scene, member root sceneName = some scene → SceneLength scene → SelectsMusic root
  sceneAlone : ∀ text, member root sceneName = some text → ¬ IsHex text →
    ∀ color, member root colorName = some color → color.strlen = 6 →
      hexDigit (color.1.headD 0) = none

/-- A message for the switch, or a clean one. -/
def CleanMessage (root : Option CJson) : Prop :=
  ∀ tree, root = some tree → member tree switchName = none → Clean tree

/-! ## The converter -/

section Convert

variable {n : Nat}

/-- The loop comes to the end of a text of digits, or gives up. -/
theorem stringToHexLoop_run (rest : List UInt8) {index arrayIndex : Nat} (hexarray : Vector UInt8 n)
    (half : arrayIndex = index / 2) (room : index + rest.length ≤ 2 * n) :
    ∃ hexarray', stringToHexLoop rest index arrayIndex hexarray =
      some (hexarray',
        if ∀ c ∈ rest, (hexDigit c).isSome then (((index + rest.length) / 2 : Nat) : Int)
        else -1) := by
  induction rest generalizing index arrayIndex hexarray with
  | nil => exact ⟨hexarray, by simp [stringToHexLoop, half]⟩
  | cons c rest ih =>
    rw [List.length_cons] at room
    rw [stringToHexLoop]
    cases digit : hexDigit c with
    | none => exact ⟨hexarray, by simp [digit]⟩
    | some value =>
      have inside : arrayIndex < n := by omega
      have length : index + 1 + rest.length = index + (c :: rest).length := by
        rw [List.length_cons]
        omega
      have all : (∀ d ∈ c :: rest, (hexDigit d).isSome) ↔ ∀ d ∈ rest, (hexDigit d).isSome := by
        simp [digit]
      dsimp only
      rw [dif_pos inside]
      simp only [all, ← length]
      split
      · exact ih _ (by omega) (by omega)
      · exact ih _ (by omega) (by omega)

/-- A text that fits is converted inside the array, in whole if it consists of digits. -/
theorem stringToHexArray_run (hexarray : Vector UInt8 n) (length : UInt16) (string : CString)
    (size : length.toNat = n) (fits : string.strlen ≤ 2 * n) (short : string.strlen < 65536) :
    ∃ hexarray' ret, stringToHexArray hexarray length string = some (hexarray', ret) ∧
      (IsHex string → ret = (string.strlen / 2 : Nat)) := by
  rcases stringToHexLoop_run string.1 hexarray (Nat.zero_div 2).symm
    (by rw [Nat.zero_add]; exact fits) with
    ⟨hexarray', converted⟩
  rw [Nat.zero_add] at converted
  have whole : stringToHexArray hexarray length string = stringToHexLoop string.1 0 0 hexarray := by
    rw [stringToHexArray, Nat.mod_eq_of_lt short, if_neg (by omega), CString.strlen,
      List.take_length]
  exact ⟨hexarray', _, whole.trans converted, fun digits => if_pos digits⟩

/-- A text that does not begin with a digit leaves the array. -/
theorem stringToHexArray_head (hexarray : Vector UInt8 n) {length : UInt16} {string : CString}
    (nonempty : string.strlen ≠ 0) (short : string.strlen < 65536)
    (head : hexDigit (string.1.headD 0) = none) :
    stringToHexArray hexarray length string = some (hexarray, -1) := by
  rw [stringToHexArray, Nat.mod_eq_of_lt short, CString.strlen, List.take_length]
  split
  · rfl
  · rcases string with ⟨_ | ⟨c, rest⟩, zero⟩
    · exact absurd rfl nonempty
    · rw [stringToHexLoop]
      rw [List.headD_cons] at head
      rw [head]

end Convert

/-! ## The branches of a message -/

section Branches

variable {root : CJson} {s : ThingModel}

theorem toU8_le_of_toU32_le {n : Int} {max : Nat} (small : max < 256) (value : toU32 n ≤ max) :
    (toU8 n).toNat ≤ max := by
  unfold toU32 at value
  rw [toU8, UInt8.toNat_ofNat']
  omega

/-- A number is stored as it was checked. -/
theorem takeNumber_cases (name : List UInt8) (max : Nat) (put : UInt8 → ThingModel → ThingModel)
    (root : CJson) (s : ThingModel) (small : max < 256) :
    (¬ HasNumber root name max ∧ takeNumber name max put root s = s) ∨
    (HasNumber root name max ∧ ∃ value : UInt8, value.toNat ≤ max ∧
      takeNumber name max put root s = put value s) := by
  unfold takeNumber
  split
  · next missing =>
    refine .inl ⟨?_, rfl⟩
    rintro ⟨text, there, -⟩
    cases missing.symm.trans there
  · next text there =>
    split
    · next value => exact .inr ⟨⟨text, there, value⟩, _, toU8_le_of_toU32_le small value, rfl⟩
    · next large =>
      refine .inl ⟨?_, rfl⟩
      rintro ⟨text', there', value⟩
      cases there.symm.trans there'
      exact large value

/-- What the numbers leave alone, and how they keep the model. -/
structure Keeps (s s' : ThingModel) : Prop where
  color : s'.color = s.color
  scene : s'.scene = s.scene
  formed : s.WellFormed → s'.WellFormed

theorem Keeps.refl (s : ThingModel) : Keeps s s := ⟨rfl, rfl, id⟩

theorem Keeps.trans {s s' s'' : ThingModel} (one : Keeps s s') (other : Keeps s' s'') :
    Keeps s s'' :=
  ⟨other.color.trans one.color, other.scene.trans one.scene, other.formed ∘ one.formed⟩

theorem takeNumber_keeps (name : List UInt8) {max : Nat} {put : UInt8 → ThingModel → ThingModel}
    (root : CJson) (s : ThingModel) (small : max < 256)
    (keeps : ∀ value : UInt8, value.toNat ≤ max → Keeps s (put value s)) :
    Keeps s (takeNumber name max put root s) := by
  rcases takeNumber_cases name max put root s small with ⟨-, same⟩ | ⟨-, value, bound, stored⟩
  · rw [same]
    exact .refl s
  · rw [stored]
    exact keeps value bound

theorem takeWorkMode_keeps (root : CJson) (s : ThingModel) : Keeps s (takeWorkMode root s) := by
  unfold takeWorkMode
  split
  · exact .refl s
  · dsimp only
    split
    · exact ⟨rfl, rfl, fun ok => ⟨ok.1, ok.2, ok.3, ok.4, ok.5⟩⟩
    · exact ⟨rfl, rfl, fun ok => ⟨ok.1, ok.2, ok.3, ok.4, ok.5⟩⟩

/-- The numbers in front of the color. -/
theorem takeWhite_keeps (root : CJson) (s : ThingModel) :
    Keeps s (takeWhiteBright root (takeWhiteTemp root (takeWorkMode root s))) := by
  have temp : Keeps (takeWorkMode root s) (takeWhiteTemp root (takeWorkMode root s)) :=
    takeNumber_keeps _ root _ (by decide) fun value bound =>
      ⟨rfl, rfl, fun ok => ⟨bound, ok.2, ok.3, ok.4, ok.5⟩⟩
  apply (takeWorkMode_keeps root s).trans (temp.trans _)
  exact takeNumber_keeps _ root _ (by decide) fun value bound =>
    ⟨rfl, rfl, fun ok => ⟨ok.1, bound, ok.3, ok.4, ok.5⟩⟩

/-- The numbers behind the scene. -/
theorem takeMusic_keeps (root : CJson) (s : ThingModel) :
    Keeps s (takeMicRate root (takeMicSensitivity root (takeMusic root s))) := by
  have music : Keeps s (takeMusic root s) :=
    takeNumber_keeps _ root _ (by decide) fun value bound =>
      ⟨rfl, rfl, fun ok => ⟨ok.1, ok.2, ok.3, ok.4, ok.5⟩⟩
  have sensitivity : Keeps (takeMusic root s) (takeMicSensitivity root (takeMusic root s)) :=
    takeNumber_keeps _ root _ (by decide) fun value bound =>
      ⟨rfl, rfl, fun ok => ⟨ok.1, ok.2, bound, ok.4, ok.5⟩⟩
  apply music.trans (sensitivity.trans _)
  exact takeNumber_keeps _ root _ (by decide) fun value bound =>
    ⟨rfl, rfl, fun ok => ⟨ok.1, ok.2, ok.3, bound, ok.5⟩⟩

/-- The music mode is selected, or stays. -/
theorem takeNumber_music (name : List UInt8) {max : Nat} {put : UInt8 → ThingModel → ThingModel}
    (small : max < 256) (sets : ∀ value, (put value s).workMode = workmodeMusic)
    (music : HasNumber root name max ∨ s.workMode = workmodeMusic) :
    (takeNumber name max put root s).workMode = workmodeMusic := by
  rcases takeNumber_cases name max put root s small with ⟨missing, same⟩ | ⟨-, value, -, stored⟩
  · rw [same]
    exact music.resolve_left missing
  · rw [stored]
    exact sets value

/-- A number of the music mode ends in it. -/
theorem takeMusic_selects (root : CJson) (s : ThingModel) (selects : SelectsMusic root) :
    (takeMicRate root (takeMicSensitivity root (takeMusic root s))).workMode = workmodeMusic := by
  apply takeNumber_music _ (by decide) fun _ => rfl
  rcases selects with music | sensitivity | rate
  · right
    apply takeNumber_music _ (by decide) fun _ => rfl
    right
    exact takeNumber_music _ (by decide) (fun _ => rfl) (.inl music)
  · right
    exact takeNumber_music _ (by decide) (fun _ => rfl) (.inl sensitivity)
  · exact .inl rate

/-- The color is written for a text of six characters that begins with a digit. -/
theorem takeColor_run (root : CJson) (s : ThingModel) :
    ∃ s', takeColor root s = some s' ∧ s'.scene = s.scene ∧ (s.WellFormed → s'.WellFormed) ∧
      (s'.color = s.color ∨ ∃ text, member root colorName = some text ∧ text.strlen = 6 ∧
        hexDigit (text.1.headD 0) ≠ none) := by
  unfold takeColor
  split
  · exact ⟨s, rfl, rfl, id, .inl rfl⟩
  · next text there =>
    split
    · next six =>
      rcases stringToHexArray_run s.color 3 text rfl (by omega) (by omega) with
        ⟨color, ret, converted, -⟩
      refine ⟨{ s with color, workMode := workmodeColor, switchstate := true }, ?_, rfl,
        fun ok => ⟨ok.1, ok.2, ok.3, ok.4, ok.5⟩, ?_⟩
      · rw [converted]
        rfl
      · by_cases head : hexDigit (text.1.headD 0) = none
        · rw [stringToHexArray_head s.color (by omega) (by omega) head] at converted
          cases converted
          exact .inl rfl
        · exact .inr ⟨text, there, six, head⟩
    · exact ⟨s, rfl, rfl, id, .inl rfl⟩

/-- `scene_data` is filled for a text of the right length, and well formed if it is of digits. -/
theorem takeScene_run (root : CJson) (s : ThingModel) :
    ∃ s' data, takeScene root s = some (s', data) ∧ Keeps s s' ∧
      (data = none ∨ ∃ text scene, member root sceneName = some text ∧ SceneLength text ∧
        data = some scene ∧ (IsHex text → scene.len.toNat ≤ sceneMaxLen)) := by
  unfold takeScene
  split
  · exact ⟨s, none, rfl, .refl s, .inl rfl⟩
  · next text there =>
    split
    · next length =>
      have max : sceneMaxLen = 48 := rfl
      rcases stringToHexArray_run (.replicate sceneMaxLen 0) 48 text rfl (by omega) (by omega) with
        ⟨bytes, ret, converted, whole⟩
      refine ⟨{ s with workMode := workmodeScene, switchstate := true }, some ⟨toU8 ret, bytes⟩, ?_,
        ⟨rfl, rfl, fun ok => ⟨ok.1, ok.2, ok.3, ok.4, ok.5⟩⟩,
        .inr ⟨text, _, there, ⟨length.2, length.1⟩, rfl, fun digits => ?_⟩⟩
      · rw [converted]
        rfl
      · dsimp only
        rw [whole digits, toNat_toU8 (by omega)]
        omega
    · exact ⟨s, none, rfl, .refl s, .inl rfl⟩

end Branches

/-! ## A message -/

section Message

variable {root : CJson} {s : ThingModel}

theorem storeScene_color (s : ThingModel) (data : Option Scene) :
    (storeScene s data).model.color = s.color := by
  cases data with
  | none => rfl
  | some scene =>
    dsimp only [storeScene]
    split <;> rfl

theorem storeScene_formed {data : Option Scene} (formed : s.WellFormed)
    (short : ∀ scene, data = some scene → scene.len.toNat ≤ sceneMaxLen) :
    (storeScene s data).model.WellFormed := by
  cases data with
  | none => exact formed
  | some scene =>
    dsimp only [storeScene]
    split
    · exact ⟨formed.1, formed.2, formed.3, formed.4, short scene rfl⟩
    · exact formed

/-- A clean message is handled inside its arrays, and as it should be. -/
theorem Clean.handled (clean : Clean root) (plain : member root switchName = none)
    (formed : s.WellFormed) :
    ∃ h, yaStripLightsAppCloudScenehandle s (some root) = some h ∧ h.model.WellFormed ∧
      (HasBadText root → h.model.color = s.color ∧ h.model.scene = s.scene) := by
  have white := takeWhite_keeps root s
  rcases takeColor_run root (takeWhiteBright root (takeWhiteTemp root (takeWorkMode root s))) with
    ⟨s1, color, scene1, formed1, color1⟩
  rcases takeScene_run root s1 with ⟨s2, data, scene, keeps2, data2⟩
  have music := takeMusic_keeps root s2
  have short : ∀ scene, data = some scene → scene.len.toNat ≤ sceneMaxLen := by
    rintro _ rfl
    rcases data2 with none | ⟨text, scene, there, length, same, bound⟩
    · cases none
    · cases same
      exact bound (clean.scene text there length)
  refine ⟨storeScene (takeMicRate root (takeMicSensitivity root (takeMusic root s2))) data, ?_,
    storeScene_formed (music.formed (keeps2.formed (formed1 (white.formed formed)))) short, ?_⟩
  · rw [yaStripLightsAppCloudScenehandle, plain]
    dsimp only
    rw [color, Option.bind_eq_bind, Option.bind_some, scene]
    rfl
  · intro bad
    have noColor : s1.color = s.color := by
      rcases color1 with same | ⟨text, there, six, head⟩
      · exact same.trans white.color
      · rcases bad with ⟨text', there', digits⟩ | ⟨text', there', digits⟩
        · cases there.symm.trans there'
          exact absurd ((clean.color text there six).resolve_left digits) head
        · exact absurd (clean.sceneAlone text' there' digits text there six) head
    refine ⟨?_, ?_⟩
    · rw [storeScene_color, music.color, keeps2.color, noColor]
    · have kept : (takeMicRate root (takeMicSensitivity root (takeMusic root s2))).scene =
          s.scene := by
        rw [music.scene, keeps2.scene, scene1, white.scene]
      rcases data2 with rfl | ⟨text, scene, there, length, rfl, -⟩
      · exact kept
      · have selects : SelectsMusic root := by
          rcases bad with ⟨text', there', digits⟩ | ⟨text', there', digits⟩
          · exact clean.colorAlone text' there' digits text there length
          · cases there.symm.trans there'
            exact absurd (clean.scene text there length) digits
        have mode := takeMusic_selects root s2 selects
        dsimp only [storeScene]
        rw [mode, if_neg (by decide)]
        exact kept

end Message

/-! ## The report -/

theorem length_hexBytes (bytes : List UInt8) :
    (bytes.map hexByte).flatten.length = 2 * bytes.length := by
  induction bytes with
  | nil => rfl
  | cons b bytes ih =>
    rw [List.map_cons, List.flatten_cons, List.length_append, ih, List.length_cons, hexByte,
      List.length_cons, List.length_singleton]
    omega

theorem hexArrayToString_fits {hexarray string : List UInt8} {length : Nat}
    (inside : length ≤ hexarray.length) (room : 2 * length + 1 ≤ string.length) :
    (hexArrayToString hexarray length string).isSome := by
  have read : Block.read hexarray 0 length = some (hexarray.take length) := by
    rw [Block.read_of_le (by omega), List.drop_zero]
  have fits : 0 + (((hexarray.take length).map hexByte).flatten ++ [0]).length ≤ string.length := by
    rw [List.length_append, length_hexBytes, List.length_take, List.length_singleton]
    omega
  rcases Block.exists_write fits with ⟨block, written, -⟩
  rw [hexArrayToString, read, Option.bind_eq_bind, Option.bind_some, written]
  rfl

/-- The report of a well-formed model fits. -/
theorem ThingModel.WellFormed.report {s : ThingModel} (formed : s.WellFormed) :
    (yaStripLightsCloudAttriReport s).isSome := by
  have max : sceneMaxLen = 48 := rfl
  have size : (List.replicate tempStringSize (0 : UInt8)).length = 100 := List.length_replicate
  have fields : (modeFields s).isSome := by
    unfold modeFields
    dsimp only
    split
    · rfl
    split
    · have fits : (hexArrayToString s.color.toList 3 (List.replicate tempStringSize 0)).isSome :=
        hexArrayToString_fits (by rw [Vector.length_toList]) (by omega)
      rcases Option.isSome_iff_exists.mp fits with ⟨text, converted⟩
      rw [converted]
      rfl
    split
    · have fits : (hexArrayToString s.scene.bytes.toList s.scene.len.toNat
          (List.replicate tempStringSize 0)).isSome :=
        hexArrayToString_fits (by rw [Vector.length_toList]; exact formed.scene)
          (by have := formed.scene; omega)
      rcases Option.isSome_iff_exists.mp fits with ⟨text, converted⟩
      rw [converted]
      rfl
    split <;> rfl
  rcases Option.isSome_iff_exists.mp fields with ⟨list, made⟩
  unfold yaStripLightsCloudAttriReport
  dsimp only
  split
  · rw [made]
    rfl
  · rfl

/-! ## Runs -/

theorem zeroed_wellFormed : ThingModel.zeroed.WellFormed := by
  constructor <;> decide

theorem Run.formed {h : Handled} (run : Run CleanMessage h) : h.model.WellFormed := by
  induction run with
  | zeroed => exact zeroed_wellFormed
  | @message h h' root run ended met handled ih =>
    cases root with
    | none =>
      cases handled
      exact ih
    | some tree =>
      cases switch : member tree switchName with
      | some text =>
        rw [yaStripLightsAppCloudScenehandle, switch] at handled
        cases handled
        exact ⟨ih.1, ih.2, ih.3, ih.4, ih.5⟩
      | none =>
        rcases (met tree rfl switch).handled switch ih with ⟨h'', made, formed, -⟩
        cases handled.symm.trans made
        exact formed

/-- Clean messages keep the strip light model. -/
theorem stripLights_kept {h : Handled} (run : Run CleanMessage h) : Kept CleanMessage h := by
  refine ⟨run.formed, run.formed.report, fun ended root h' met bad handled => ?_⟩
  cases switch : member root switchName with
  | some text =>
    rw [yaStripLightsAppCloudScenehandle, switch] at handled
    cases handled
    exact ⟨rfl, rfl⟩
  | none =>
    rcases (met root rfl switch).handled switch run.formed with ⟨h'', made, -, unchanged⟩
    cases handled.symm.trans made
    exact unchanged bad

/-- A message with one scene text. -/
def sceneMessage (text : CString) : CJson := .object [(ofBytes sceneName, .string text)]

/-- A scene of three bytes. -/
theorem stripLights_kept_scene : ∃ h : Handled,
    yaStripLightsAppCloudScenehandle .zeroed
      (some (sceneMessage (lit ['0', '1', '0', '2', 'f', 'f']))) = some h ∧
      Kept CleanMessage h := by
  have other : member (sceneMessage (lit ['0', '1', '0', '2', 'f', 'f'])) colorName = none := rfl
  have digits : ∀ text, member (sceneMessage (lit ['0', '1', '0', '2', 'f', 'f'])) sceneName =
      some text → IsHex text := by
    intro text there
    have same : lit ['0', '1', '0', '2', 'f', 'f'] = text := Option.some.inj there
    rw [← same, IsHex]
    decide +kernel
  have some_ : (yaStripLightsAppCloudScenehandle .zeroed
      (some (sceneMessage (lit ['0', '1', '0', '2', 'f', 'f'])))).isSome := by
    decide +kernel
  rcases Option.isSome_iff_exists.mp some_ with ⟨h, handled⟩
  refine ⟨h, handled, stripLights_kept (.message .zeroed rfl ?_ handled)⟩
  intro tree same _
  cases Option.some.inj same
  refine ⟨?_, fun text there _ => digits text there, ?_, fun text there bad => ?_⟩
  · intro text there
    cases other.symm.trans there
  · intro text there
    cases other.symm.trans there
  · exact absurd (digits text there) bad

/-- A scene text without digits becomes a scene of 255 bytes. -/
theorem stripLights_broken : ¬ ∀ h : Handled, Run (fun _ => True) h → Kept (fun _ => True) h := by
  intro all
  have long : (yaStripLightsAppCloudScenehandle .zeroed
      (some (sceneMessage (lit ['z', 'z', 'z', 'z'])))).map (fun h => h.model.scene.len) =
      some 255 := by
    decide +kernel
  rcases Option.map_eq_some_iff.mp long with ⟨h, handled, len⟩
  have formed := (all h (.message .zeroed rfl trivial handled)).formed
  have short := formed.scene
  rw [len] at short
  exact absurd short (by decide)

end StripLights

end Tr6260
