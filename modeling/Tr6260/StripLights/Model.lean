import Tr6260.Block
import Tr6260.Ota.Request
import Tr6260.Smartconfig.Session

/-!
# The strip light

`ya_stripLights_app.c`: the model of the light, what a message of the cloud makes of it, and the
report to the cloud, with the two conversions of `ya_common_func.c` they use. A call that leaves an
array has no result. `scene[0]` is kept apart from the bytes behind it.

A message is what `cJSON_Parse` returns for it. The tree of a report is taken to be allocated.
-/

namespace Tr6260

open CString

namespace StripLights

/-! ## Conversions -/

/-- The loop of `StringToHexArray`. -/
def stringToHexLoop {n : Nat} :
    List UInt8 → (index arrayIndex : Nat) → Vector UInt8 n → Option (Vector UInt8 n × Int)
  | [], _, arrayIndex, hexarray => some (hexarray, arrayIndex)
  | c :: rest, index, arrayIndex, hexarray =>
    match hexDigit c with
    | none => some (hexarray, -1)
    | some value =>
      if inside : arrayIndex < n then
        if index % 2 = 0 then
          stringToHexLoop rest (index + 1) arrayIndex (hexarray.set arrayIndex (value <<< 4))
        else
          stringToHexLoop rest (index + 1) (arrayIndex + 1)
            (hexarray.set arrayIndex (hexarray[arrayIndex] + value))
      else
        none

/-- `StringToHexArray`: the array, which may have been written in part, and the result. -/
def stringToHexArray {n : Nat} (hexarray : Vector UInt8 n) (length : UInt16) (string : CString) :
    Option (Vector UInt8 n × Int) :=
  let totalLen := string.strlen % 65536
  if 2 * length.toNat < totalLen then
    some (hexarray, -1)
  else
    stringToHexLoop (string.1.take totalLen) 0 0 hexarray

/-- `HexArrayToString` into a block. -/
def hexArrayToString (hexarray : List UInt8) (length : Nat) (string : List UInt8) :
    Option (List UInt8) := do
  let bytes ← Block.read hexarray 0 length
  Block.write string 0 ((bytes.map hexByte).flatten ++ [0])

/-- `ya_int_to_string` of a byte. -/
def yaIntToString (value : UInt8) : CString :=
  ofBytes ((Nat.toDigits 10 value.toNat).map fun c => UInt8.ofNat c.toNat)

/-! ## The model of the light -/

/-- `SCENE_MAX_LEN`. -/
def sceneMaxLen : Nat := 48

/-- `scene`: the length in `scene[0]`, and what is behind it. -/
structure Scene where
  len : UInt8
  bytes : Vector UInt8 sceneMaxLen
  deriving DecidableEq

/-- `st_stripLigths_thingModel`. -/
structure ThingModel where
  switchstate : Bool
  workMode : UInt8
  whiteTemp : UInt8
  whiteBright : UInt8
  color : Vector UInt8 3
  scene : Scene
  music : UInt8
  micSensitivity : UInt8
  micRate : UInt8
  deriving DecidableEq

/-- `ya_stripLights_thing_mode` at the start. -/
def ThingModel.zeroed : ThingModel :=
  ⟨false, 0, 0, 0, .replicate 3 0, ⟨0, .replicate sceneMaxLen 0⟩, 0, 0, 0⟩

/-- `en_stripLigths_work_mode`. -/
def workmodeWhite : UInt8 := 0
def workmodeColor : UInt8 := 1
def workmodeScene : UInt8 := 2
def workmodeMusic : UInt8 := 3
def workmodeMax : Nat := 4

/-- `MUSICMODE_MAX`. -/
def musicmodeMax : Nat := 4

/-! ## The names of a message -/

def switchName : List UInt8 := ascii ['s', 'w', 'i', 't', 'c', 'h']
def workModeName : List UInt8 := ascii ['w', 'o', 'r', 'k', '_', 'm', 'o', 'd', 'e']
def whiteTempName : List UInt8 := ascii ['w', 'h', 'i', 't', 'e', '_', 't', 'e', 'm', 'p']
def whiteBrightName : List UInt8 :=
  ascii ['w', 'h', 'i', 't', 'e', '_', 'b', 'r', 'i', 'g', 'h', 't']
def colorName : List UInt8 := ascii ['c', 'o', 'l', 'o', 'r']
def sceneName : List UInt8 := ascii ['s', 'c', 'e', 'n', 'e']
def musicName : List UInt8 := ascii ['m', 'u', 's', 'i', 'c']
def micSensitivityName : List UInt8 :=
  ascii ['m', 'i', 'c', '_', 's', 'e', 'n', 's', 'i', 't', 'i', 'v', 'i', 't', 'y']
def micRateName : List UInt8 := ascii ['m', 'i', 'c', '_', 'r', 'a', 't', 'e']

/-- A member of a message that is a string. -/
def member (root : CJson) (name : List UInt8) : Option CString :=
  (root.getObjectItem name).bind CJson.valuestring

/-! ## A message -/

/-- The branch for `switch`. -/
def takeSwitch (text : CString) (s : ThingModel) : ThingModel :=
  { s with switchstate := decide (toU32 (atoi text) > 0) }

/-- The branch for `work_mode`. -/
def takeWorkMode (root : CJson) (s : ThingModel) : ThingModel :=
  match member root workModeName with
  | none => s
  | some text =>
    let s := { s with switchstate := true }
    if toU32 (atoi text) < workmodeMax then { s with workMode := toU8 (atoi text) } else s

/-- A branch for a number up to `max`, which `put` stores. -/
def takeNumber (name : List UInt8) (max : Nat) (put : UInt8 → ThingModel → ThingModel)
    (root : CJson) (s : ThingModel) : ThingModel :=
  match member root name with
  | none => s
  | some text => if toU32 (atoi text) ≤ max then put (toU8 (atoi text)) s else s

/-- The branch for `white_temp`. -/
def takeWhiteTemp : CJson → ThingModel → ThingModel :=
  takeNumber whiteTempName 100 fun value s =>
    { s with whiteTemp := value, workMode := workmodeWhite, switchstate := true }

/-- The branch for `white_bright`. -/
def takeWhiteBright : CJson → ThingModel → ThingModel :=
  takeNumber whiteBrightName 100 fun value s =>
    { s with whiteBright := value, workMode := workmodeWhite, switchstate := true }

/-- The branch for `color`. What `StringToHexArray` returns is not looked at. -/
def takeColor (root : CJson) (s : ThingModel) : Option ThingModel :=
  match member root colorName with
  | none => some s
  | some text =>
    if text.strlen = 6 then do
      let (color, _) ← stringToHexArray s.color 3 text
      some { s with color, workMode := workmodeColor, switchstate := true }
    else
      some s

/-- The branch for `scene`, with `scene_data` when it gets one. -/
def takeScene (root : CJson) (s : ThingModel) : Option (ThingModel × Option Scene) :=
  match member root sceneName with
  | none => some (s, none)
  | some text =>
    if text.strlen ≤ sceneMaxLen * 2 ∧ 4 ≤ text.strlen then do
      let (bytes, ret) ← stringToHexArray (.replicate sceneMaxLen 0) 48 text
      some ({ s with workMode := workmodeScene, switchstate := true }, some ⟨toU8 ret, bytes⟩)
    else
      some (s, none)

/-- The branch for `music`. -/
def takeMusic : CJson → ThingModel → ThingModel :=
  takeNumber musicName (musicmodeMax - 1) fun value s =>
    { s with music := value, workMode := workmodeMusic, switchstate := true }

/-- The branch for `mic_sensitivity`. -/
def takeMicSensitivity : CJson → ThingModel → ThingModel :=
  takeNumber micSensitivityName 100 fun value s =>
    { s with micSensitivity := value, workMode := workmodeMusic, switchstate := true }

/-- The branch for `mic_rate`. -/
def takeMicRate : CJson → ThingModel → ThingModel :=
  takeNumber micRateName 100 fun value s =>
    { s with micRate := value, workMode := workmodeMusic, switchstate := true }

/-- The bytes of `scene_data` the last loop prints, if it stays inside. For a length of 255 it does
not end either, since its index is a `uint8_t`. -/
def sceneLog (scene : Scene) : Option (List UInt8) :=
  Block.read scene.bytes.toList 0 scene.len.toNat

/-- What a call comes to: the model, whether it came to its end, and whether it set
`ya_update_stripLights_data_to_cloud_enable` there. -/
structure Handled where
  model : ThingModel
  returned : Bool
  update : Bool

/-- The end of a message, with what is in `scene_data`. -/
def storeScene (s : ThingModel) : Option Scene → Handled
  | none => ⟨s, true, true⟩
  | some scene =>
    let ended := (sceneLog scene).isSome
    ⟨if s.workMode = workmodeScene then { s with scene } else s, ended, ended⟩

/-- `ya_stripLights_app_cloudScenehandle`. -/
def yaStripLightsAppCloudScenehandle (s : ThingModel) : Option CJson → Option Handled
  | none => some ⟨s, true, false⟩
  | some root =>
    match member root switchName with
    | some text => some ⟨takeSwitch text s, true, true⟩
    | none => do
      let s := takeWhiteBright root (takeWhiteTemp root (takeWorkMode root s))
      let s ← takeColor root s
      let (s, scene) ← takeScene root s
      let s := takeMicRate root (takeMicSensitivity root (takeMusic root s))
      some (storeScene s scene)

/-! ## The report -/

/-- The size of `temp_string`. -/
def tempStringSize : Nat := 100

/-- A member of a report. -/
def field (name : List UInt8) (text : CString) : CString × CJson := (ofBytes name, .string text)

/-- The members for a work mode. -/
def modeFields (s : ThingModel) : Option (List (CString × CJson)) :=
  let tempString := List.replicate tempStringSize (0 : UInt8)
  if s.workMode = workmodeWhite then
    some [field whiteTempName (yaIntToString s.whiteTemp),
      field whiteBrightName (yaIntToString s.whiteBright)]
  else if s.workMode = workmodeColor then do
    let tempString ← hexArrayToString s.color.toList 3 tempString
    some [field colorName (ofBytes tempString)]
  else if s.workMode = workmodeScene then do
    let tempString ← hexArrayToString s.scene.bytes.toList s.scene.len.toNat tempString
    some [field sceneName (ofBytes tempString)]
  else if s.workMode = workmodeMusic then
    some [field musicName (yaIntToString s.music),
      field micSensitivityName (yaIntToString s.micSensitivity),
      field micRateName (yaIntToString s.micRate)]
  else
    some []

/-- The tree that `ya_stripLights_cloud_attriReport` prints and hands on. -/
def yaStripLightsCloudAttriReport (s : ThingModel) : Option CJson := do
  let switch := field switchName (yaIntToString (if s.switchstate then 1 else 0))
  if s.switchstate then
    let fields ← modeFields s
    some (.object (switch :: field workModeName (yaIntToString s.workMode) :: fields))
  else
    some (.object [switch])

end StripLights

end Tr6260
