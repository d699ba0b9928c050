import Tr6260.CJson
import Tr6260.License.Aws
import Tr6260.Uart.Handler

/-!
# The licence command of the AT interface

`ya_atcmd.c`, for lines whose first word is `wrcert`. `mystrtok` puts zero bytes into the
command buffer, and the JSON text is looked for where it is if the words before it are
one space apart. No answer stands for a line that is not answered, and for one whose
handling leaves a block, takes text that is not there or does not end.

Log lines are left out.
-/

namespace Tr6260

open CString FlashProg

namespace AtCmd

/-! ## Words -/

/-- `pcmd_buffer` and the `last` of `mystrtok`. -/
structure Strtok where
  buf : List UInt8
  last : Option Nat

/-- The delimiters in front of a word. -/
def skipDelim (delim : List UInt8) : List UInt8 → Option Nat
  | [] => none
  | c :: rest => if c ∈ delim then (skipDelim delim rest).map (· + 1) else some 0

/-- The rest of a word, and whether a delimiter ends it. -/
def wordEnd (delim : List UInt8) : List UInt8 → Option (Nat × Bool)
  | [] => none
  | c :: rest =>
    if c = 0 then some (0, false)
    else if c ∈ delim then some (0, true)
    else (wordEnd delim rest).map fun (n, found) => (n + 1, found)

/-- A word ends at a zero or at a delimiter. -/
theorem wordEnd_append {delim word : List UInt8} {c : UInt8} (plain : ∀ c ∈ word, c ∉ delim)
    (text : 0 ∉ word) (stop : c = 0 ∨ c ∈ delim) (rest : List UInt8) :
    wordEnd delim (word ++ c :: rest) = some (word.length, decide (c ≠ 0)) := by
  induction word with
  | nil =>
    rw [List.nil_append, wordEnd]
    by_cases zero : c = 0
    · rw [if_pos zero, zero]
      rfl
    · rw [if_neg zero, if_pos (stop.resolve_left zero)]
      simp [zero]
  | cons a word ih =>
    have nonzero : a ≠ 0 := fun zero => text (zero ▸ List.mem_cons_self)
    rw [List.cons_append, wordEnd, if_neg nonzero,
      if_neg (plain a List.mem_cons_self),
      ih (fun c mem => plain c (List.mem_cons_of_mem _ mem))
        (fun mem => text (List.mem_cons_of_mem _ mem))]
    rfl

/-- `mystrtok`. A last word of one byte leaves `last` as it was. -/
def mystrtok (delim : List UInt8) (st : Strtok) (s : Option Nat) : Option (Option Nat × Strtok) :=
  match s.or st.last with
  | none => some (none, st)
  | some s => do
    let skipped ← skipDelim delim (st.buf.drop s)
    let tok := s + skipped
    if st.buf.getD tok 0 = 0 then
      some (none, { st with last := none })
    else do
      let (n, found) ← wordEnd delim (st.buf.drop (tok + 1))
      let e := tok + 1 + n
      if found then
        some (some tok, ⟨st.buf.set e 0, some (e + 1)⟩)
      else if n > 0 then
        some (some tok, { st with last := none })
      else
        some (some tok, st)

/-! ## Numbers -/

/-- `at_cmd_hex2num`. -/
def atCmdHex2num (c : UInt8) : Int :=
  if 0x30 ≤ c ∧ c ≤ 0x39 then c.toNat - 0x30
  else if 0x61 ≤ c ∧ c ≤ 0x66 then c.toNat - 0x61 + 10
  else if 0x41 ≤ c ∧ c ≤ 0x46 then c.toNat - 0x41 + 10
  else -1

/-- The loop for `json_len`, a `uint16_t`. -/
def jsonLenLoop : List UInt8 → UInt16 → UInt16
  | [], len => len
  | c :: rest, len => jsonLenLoop rest (len + toU16 (atCmdHex2num c * 2 ^ (4 * rest.length)))

/-- `json_len`. From nine digits on an `int` is shifted by more than its width, and from 256 on the
loop does not end. -/
def jsonLen (token : CString) : Option UInt16 :=
  if token.strlen > 8 then none else some (jsonLenLoop token.1 0)

def isHexDigit (c : UInt8) : Bool := 0 ≤ atCmdHex2num c

/-- The number written by a string of hexadecimal digits. -/
def hexNumber (digits : List UInt8) : Nat :=
  digits.foldl (fun n c => 16 * n + (atCmdHex2num c).toNat) 0

/-- A text without `0x` in front. -/
def dropHexPrefix : List UInt8 → List UInt8
  | 0x30 :: 0x78 :: rest => if (rest.headD 0 |> isHexDigit) then rest else 0x30 :: 0x78 :: rest
  | 0x30 :: 0x58 :: rest => if (rest.headD 0 |> isHexDigit) then rest else 0x30 :: 0x58 :: rest
  | rest => rest

/-- `sscanf (s, "%x", ..)`: an `unsigned int`, if there is a number. -/
def sscanfHex (s : CString) : Option Nat :=
  let unsigned (s : List UInt8) : Option Nat :=
    match (dropHexPrefix s).takeWhile isHexDigit with
    | [] => none
    | digits => some (min (hexNumber digits) (2 ^ 32 - 1))
  match s.1.dropWhile isSpace with
  | 0x2D :: rest => (unsigned rest).map fun n => (2 ^ 32 - n) % 2 ^ 32
  | 0x2B :: rest => unsigned rest
  | rest => unsigned rest

/-! ## The command buffer -/

/-- `CMD_BUFFER_SIZE`. -/
def cmdBufferSize : Nat := 8 * 1024

/-- A command line in `pcmd_buffer`, with what is left in the block behind it. -/
structure CmdBuffer where
  line : CString
  behind : List UInt8
  size : line.strlen + 1 + behind.length = cmdBufferSize

def CmdBuffer.bytes (b : CmdBuffer) : List UInt8 := b.line.1 ++ 0 :: b.behind

/-- What the handler takes from its surroundings: `cJSON_Parse`, whose strings are not longer than
the text they come from, the certificate parser, and whether `enter_get_rssi_mode` is set. -/
structure Env where
  parse : CString → Option CJson
  parse_short : ∀ {text root object item name name' value}, parse text = some root →
    root.getObjectItem name = some object → object.getObjectItem name' = some item →
    item.valuestring = some value → value.strlen ≤ text.strlen
  cert : CertEnv
  rssiMode : Bool

/-- `RESP_OK` and `RESP_ERR`. -/
inductive Answer
  | ok
  | err
  deriving DecidableEq

def wrcert : List UInt8 := ascii ['w', 'r', 'c', 'e', 'r', 't']

/-! ## Length and checksum -/

/-- What length and CRC field lead to: the buffer then, the length and the text. -/
inductive Framing
  | refused
  | text (buf : List UInt8) (len : Nat) (json : CString)
  deriving DecidableEq

/-- The text at a position of a block, if it ends in it. -/
def textAt (buf : List UInt8) (pos : Nat) : Option CString :=
  if 0 ∈ buf.drop pos then some (ofBytes (buf.drop pos)) else none

/-- The `wrcert` branch up to `cJSON_Parse`, behind the first word. -/
def wrcertFraming (st : Strtok) : Option Framing := do
  let (token, st) ← mystrtok [0x20] st none
  match token with
  | none => some .refused
  | some token => do
    let arg2 ← textAt st.buf token
    let len ← jsonLen arg2
    if len = 0 then
      some .refused
    else do
      let (token, st) ← mystrtok [0x20] st none
      let token ← token
      let arg3 ← textAt st.buf token
      let crc16Arg := (sscanfHex arg3).getD 0
      if crc16Arg = 0 then
        some .refused
      else do
        let pos := wrcert.length + arg2.strlen + arg3.strlen + 3
        let msg ← Block.read st.buf pos len.toNat
        if (crcCheck msg).toNat ≠ crc16Arg then
          some .refused
        else do
          let json ← textAt st.buf pos
          some (.text st.buf len.toNat json)

/-! ## The licence -/

def serverName : List UInt8 := ascii ['s', 'e', 'r', 'v', 'e', 'r']
def licenseName : List UInt8 := ascii ['l', 'i', 'c', 'e', 'n', 's', 'e']
def cn : List UInt8 := ascii ['C', 'N']
def us : List UInt8 := ascii ['U', 'S']

/-- The names the loop for `ALI_CERT` looks up. -/
def aliyunNames : List (List UInt8) :=
  [ascii ['p', 'r', 'o', 'd', 'u', 'c', 't', '_', 'k', 'e', 'y'],
    ascii ['d', 'e', 'v', 'i', 'c', 'e', '_', 'i', 'd'],
    ascii ['d', 'e', 'v', 'i', 'c', 'e', '_', 's', 'e', 'c', 'r', 'e', 't']]

/-- The loop for `ALI_CERT`, with the names to come: the buffer and `pos`, or nothing when a name
is missing. -/
def aliyunLoop (license : CJson) :
    List (List UInt8) → List UInt8 → Nat → Option (Option (List UInt8 × Nat))
  | [], buf, pos => some (some (buf, pos))
  | name :: names, buf, pos =>
    match license.getObjectItem name with
    | none => some none
    | some item => do
      let value ← item.valuestring
      let buf ← Block.write buf pos [UInt8.ofNat value.strlen]
      let buf ← Block.write buf (pos + 1) value.1
      aliyunLoop license names buf (pos + 1 + value.strlen)

/-- The branch for `ALI_CERT`. What `ya_write_aliyun_cert` returns is not looked at again. -/
def writeAliyunParts (heap : Heap) (license : CJson) (buf : List UInt8) :
    FlashProg (Option Answer) :=
  match aliyunLoop license aliyunNames buf 0 with
  | none => return none
  | some none => return some .err
  | some (some (buf, pos)) => do
    match ← yaWriteAliyunCert (heap 0) buf pos with
    | none => return none
    | some _ => return some .ok

/-- The names and writers of the branch for `AWS_CERT`, in its order. -/
def awsParts : List (List UInt8 × AwsField) :=
  [(ascii ['c', 'l', 'i', 'e', 'n', 't', '_', 'c', 'e', 'r', 't'], .deviceCert),
    (ascii ['c', 'l', 'i', 'e', 'n', 't', '_', 'i', 'd'], .deviceId),
    (ascii ['p', 'r', 'i', 'v', 'a', 't', 'e', '_', 'k', 'e', 'y'], .rsaPrivateKey),
    (ascii ['t', 'h', 'i', 'n', 'g', '_', 't', 'y', 'p', 'e'], .thingType)]

/-- The branch for `AWS_CERT`, with the parts to come. -/
def writeAwsParts (cert : CertEnv) (license : CJson) :
    Heap → List (List UInt8 × AwsField) → FlashProg (Option Answer)
  | _, [] => return some .ok
  | heap, (name, field) :: parts =>
    match license.getObjectItem name with
    | none => return some .err
    | some item =>
      match item.valuestring with
      | none => return none
      | some value => do
        let dataLen := UInt16.ofNat value.strlen
        match ← field.write cert (heap 0) (value.1 ++ [0]) dataLen field.addr with
        | none => return none
        | some (ret, _) =>
          if ret ≠ 0 then
            return some .err
          else
            writeAwsParts cert license (heap.skip 1) parts

/-- The `wrcert` branch from `cJSON_Parse` on. -/
def wrcertLicense (env : Env) (heap : Heap) (buf : List UInt8) (len : Nat) (json : CString) :
    FlashProg (Option Answer) :=
  match env.parse json with
  | none => return some .err
  | some root =>
    match root.getObjectItem serverName with
    | none => return some .err
    | some server =>
      match server.valuestring with
      | none => return none
      | some server =>
        if server.1 = cn then
          match root.getObjectItem licenseName with
          | none => return some .err
          | some license =>
            match Block.write buf 0 (List.replicate (len + 1) 0) with
            | none => return none
            | some buf => writeAliyunParts heap license buf
        else if server.1 = us then
          match root.getObjectItem licenseName with
          | none => return some .err
          | some license => writeAwsParts env.cert license heap awsParts
        else
          return some .err

/-! ## The handler -/

def getrssi : List UInt8 := ascii ['g', 'e', 't', 'r', 's', 's', 'i', ' ']

/-- The branch for `getrssi`. -/
def getrssiAnswer (rssiMode : Bool) (line : CString) : Option Answer :=
  let len := (line.strlen - getrssi.length) % 256
  if rssiMode ∨ len = 0 ∨ len > 32 then some .err else none

/-- `ya_data_atcmd_handler`, for lines whose first word is `wrcert`. -/
def yaDataAtcmdHandler (env : Env) (heap : Heap) (last : Option Nat) (b : CmdBuffer) :
    FlashProg (Option Answer) :=
  if (strstr b.line.1 getrssi).isSome then
    return getrssiAnswer env.rssiMode b.line
  else
    match mystrtok [0x20] ⟨b.bytes, last⟩ (some 0) with
    | some (some _, st) =>
      match wrcertFraming st with
      | none => return none
      | some .refused => return some .err
      | some (.text buf len json) => wrcertLicense env heap buf len json
    | _ => return none

/-- A line whose first word is `wrcert`. -/
def IsWrcert (last : Option Nat) (b : CmdBuffer) : Prop :=
  ∃ token st, mystrtok [0x20] ⟨b.bytes, last⟩ (some 0) = some (some token, st) ∧
    (ofBytes (st.buf.drop token)).1 = wrcert

end AtCmd

end Tr6260
