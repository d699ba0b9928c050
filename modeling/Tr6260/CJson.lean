import Tr6260.CString

/-!
# JSON trees as `cJSON.c` presents them

A parsed message. Children of arrays carry no name; children of objects carry
one, and `cJSON_GetObjectItem` finds the first whose name matches up to case.
`valuestring` is `NULL` for everything but a string. Numbers are kept as the
text that prints them, since nothing here computes with them.
-/

/-- A JSON value. -/
inductive CJson
  | null
  | bool (b : Bool)
  | number (text : List UInt8)
  | string (s : CString)
  | array (items : List CJson)
  | object (fields : List (CString × CJson))

namespace CJson

/-- `valuestring`. -/
def valuestring : CJson → Option CString
  | string s => some s
  | _ => none

/-- The children that `cJSON_GetArraySize` counts and `cJSON_GetArrayItem` returns. -/
def children : CJson → List CJson
  | array items => items
  | object fields => fields.map Prod.snd
  | _ => []

/-- `cJSON_GetObjectItem`. -/
def getObjectItem (object : CJson) (name : List UInt8) : Option CJson :=
  match object with
  | .object fields => (fields.find? fun f => CString.eqIgnoreCase f.1.1 name).map Prod.snd
  | _ => none

end CJson
