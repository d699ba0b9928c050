import Mathlib.Data.List.TakeWhile
import Tr6260.ByteMem
import Tr6260.CString
import Tr6260.LittleEndian

/-!
# Reading the HTTP response header

`ya_parse_http_header_response` and `ya_http_header_handle` of `ya_ota.c`. The
parser works on a buffer with `response_len` received bytes; it looks up to
three bytes further ahead, and it copies the last 32 bytes in front of the end
of the buffer, which for a short first read begin before the buffer. The model
therefore keeps the buffer as a window of a memory: `otaBuf` is its first
address, with 32 bytes of other memory below it.

A `Content-Length` text that fills `len_buf` or runs over it has no defined
value; the functions return `none` there.
-/

namespace Tr6260

open ByteMem

/-- The address of the download buffer in the memory around it. -/
def otaBuf : Nat := 32

/-- `HTTP_BUF_SIZE`. -/
def httpBufSize : Nat := 4096

/-- `HTTP_HEADER_BAK_LEN`. -/
def httpHeaderBakLen : Nat := 32

/-- `ya_http_response_result_t`. -/
structure HttpResponseResult where
  statusCode : Nat
  headerLen : Nat
  bodyLen : Nat
  bodyReadLen : Nat
  headerBak : List UInt8
  parseStatus : Nat
  deriving DecidableEq

/-- The result after `memset`. -/
def HttpResponseResult.zero : HttpResponseResult :=
  ⟨0, 0, 0, 0, List.replicate httpHeaderBakLen 0, 0⟩

/-! ## The parser -/

section Parser

variable (mem : ByteMem)

/-- `response[i]`. -/
def resp (i : Nat) : UInt8 := mem (otaBuf + i)

/-- The line end `"\r\n"` stands at `i`. -/
def crlfAt (i : Nat) : Bool := resp mem i = 0x0D ∧ resp mem (i + 1) = 0x0A

/-- The end of the header stands at `i`. -/
def headerEndAt (i : Nat) : Bool := crlfAt mem i && crlfAt mem (i + 2)

/-- The loop for the first two blanks: their positions `p` and `q`, zero when missing. -/
def statusBlanks : (left i seen p : Nat) → Nat × Nat
  | 0, _, _, p => (p, 0)
  | left + 1, i, seen, p =>
    if resp mem i = 0x20 then
      if seen = 0 then statusBlanks left (i + 1) 1 i else (p, i)
    else
      statusBlanks left (i + 1) seen p

/-- The status code, when there is one. -/
def statusCode (responseLen : Nat) : Option Nat :=
  let (p, q) := statusBlanks mem responseLen 0 0 0
  if p = 0 ∨ q = 0 ∨ q - p ≠ 4 then
    none
  else
    some (toU32 (CString.ofBytes (mem.load (otaBuf + p + 1) 3)).atoi)

/-- The loop for the end of the header. -/
def findHeaderEnd : (left i : Nat) → Option Nat
  | 0, _ => none
  | left + 1, i => if headerEndAt mem i then some i else findHeaderEnd left (i + 1)

def contentLengthUpper : List UInt8 :=
  CString.ascii ['C', 'O', 'N', 'T', 'E', 'N', 'T', '-', 'L', 'E', 'N', 'G', 'T', 'H']

def contentLengthMixed : List UInt8 :=
  CString.ascii ['C', 'o', 'n', 't', 'e', 'n', 't', '-', 'L', 'e', 'n', 'g', 't', 'h']

/-- The two `memcmp` tests on the line that starts at `p`. -/
def isContentLength (p : Nat) : Bool :=
  mem.load (otaBuf + p) 14 = contentLengthUpper ∨ mem.load (otaBuf + p) 14 = contentLengthMixed

/-- `while (j1 < q && (c == ':' || c == ' ')) ++j1`. -/
def skipColons (q : Nat) : (left j1 : Nat) → Nat
  | 0, j1 => j1
  | left + 1, j1 =>
    if j1 < q ∧ (resp mem j1 = 0x3A ∨ resp mem j1 = 0x20) then skipColons q left (j1 + 1) else j1

/-- `while (j2 > j1 && c == ' ') --j2`. -/
def trimBlanks (j1 : Nat) : Nat → Nat
  | 0 => 0
  | j2 + 1 => if j2 + 1 > j1 ∧ resp mem (j2 + 1) = 0x20 then trimBlanks j1 j2 else j2 + 1

/-- The number on the line from `p` to `q`; `none` when it does not fit `len_buf`. -/
def contentLengthValue (p q : Nat) : Option Nat :=
  let j1 := skipColons mem q (q - (p + 14)) (p + 14)
  let j2 := trimBlanks mem j1 (q - 1)
  if j2 + 1 - j1 ≥ 12 then
    none
  else
    some (toU32 (CString.ofBytes (mem.load (otaBuf + j1) (j2 + 1 - j1))).atoi)

/-- What the loop over the header lines ends with. -/
inductive HeaderLines
  | overrun
  | noLength
  | ended (result : HttpResponseResult)

/-- The result with the end of the header found at `i`. -/
def HttpResponseResult.complete (result : HttpResponseResult) (responseLen i : Nat) :
    HttpResponseResult :=
  { result with
    parseStatus := 4
    headerLen := i + 4
    bodyReadLen := (responseLen + 2 ^ 32 - (i + 4)) % 2 ^ 32 }

/-- The loop over the header lines; `p` is the start of the current line. -/
def headerLines (responseLen : Nat) :
    (left i p : Nat) → HttpResponseResult → HeaderLines
  | 0, _, _, result => .ended result
  | left + 1, i, p, result =>
    let line : Option HttpResponseResult :=
      if crlfAt mem i ∧ isContentLength mem p then
        (contentLengthValue mem p i).map fun n => { result with bodyLen := n, parseStatus := 2 }
      else
        some result
    match line with
    | none => .overrun
    | some result =>
      if headerEndAt mem i then
        if result.parseStatus = 2 then .ended (result.complete responseLen i) else .noLength
      else
        headerLines responseLen left (i + 1) (if crlfAt mem i then i + 2 else p) result

/-- The bytes kept for the next read. -/
def HttpResponseResult.keepTail (result : HttpResponseResult) (responseLen : Nat) :
    HttpResponseResult :=
  { result with headerBak := mem.load (otaBuf + responseLen - httpHeaderBakLen) httpHeaderBakLen }

/-- `memset(header_bak, 0, strlen(header_bak))`: without a zero among these bytes the length runs on
into `parse_status`, which lies behind them. -/
def HttpResponseResult.eraseTail (result : HttpResponseResult) : HttpResponseResult :=
  let bytes := result.headerBak ++ leBytes 4 result.parseStatus
  let len := (bytes.takeWhile (· ≠ 0)).length
  let bytes := List.replicate len 0 ++ bytes.drop len
  { result with
    headerBak := bytes.take result.headerBak.length
    parseStatus := leNat (bytes.drop result.headerBak.length) }

/-- Erasing the kept bytes erases the status behind them, unless one of them is zero. -/
theorem eraseTail_parseStatus {result : HttpResponseResult} (three : result.parseStatus = 3) :
    result.eraseTail.parseStatus = if 0 ∈ result.headerBak then 3 else 0 := by
  have status : leBytes 4 3 = [3, 0, 0, 0] := by decide
  unfold HttpResponseResult.eraseTail
  dsimp only
  rw [three, status, List.takeWhile_append]
  by_cases zero : 0 ∈ result.headerBak
  · have prefixed := List.takeWhile_prefix (l := result.headerBak) (fun b => decide (b ≠ 0))
    have early : (result.headerBak.takeWhile (· ≠ 0)).length ≠ result.headerBak.length := by
      intro all
      rw [← prefixed.eq_of_length all] at zero
      simpa using List.mem_takeWhile_imp zero
    have low := prefixed.length_le
    rw [if_pos zero, if_neg early, List.drop_append_of_le_length low, ← List.append_assoc,
      List.drop_left']
    · rfl
    · rw [List.length_append, List.length_replicate, List.length_drop]
      omega
  · have all : result.headerBak.takeWhile (· ≠ 0) = result.headerBak := by
      refine List.takeWhile_eq_self_iff.mpr fun b kept => decide_eq_true ?_
      rintro rfl
      exact zero kept
    have first : [(3 : UInt8), 0, 0, 0].takeWhile (· ≠ 0) = [3] := by decide
    rw [if_neg zero, if_pos (congrArg List.length all), first, List.length_append,
      List.drop_length_add_append, List.replicate_add, List.append_assoc,
      List.drop_left' List.length_replicate]
    rfl

/-- The first part of `ya_parse_http_header_response`; `false` is `return -1`. -/
def parseStatusLine (responseLen : Nat) (result : HttpResponseResult) :
    Bool × HttpResponseResult :=
  if result.parseStatus = 0 then
    match statusCode mem responseLen with
    | none => (false, result)
    | some code =>
      let result := { result with statusCode := code }
      if code = 200 then (true, { result with parseStatus := 1 }) else (false, result)
  else
    (true, result)

/-- `ya_parse_http_header_response`: result code and result. -/
def yaParseHttpHeaderResponse (responseLen : Nat) (result : HttpResponseResult) :
    Option (Int × HttpResponseResult) :=
  match parseStatusLine mem responseLen result with
  | (false, result) => some (-1, result)
  | (true, result) =>
    if result.parseStatus = 3 then
      match findHeaderEnd mem responseLen 0 with
      | some i => some (4, result.complete responseLen i)
      | none =>
        let result := result.eraseTail.keepTail mem responseLen
        some (result.parseStatus, result)
    else if result.parseStatus = 1 then
      match headerLines mem responseLen responseLen 0 0 result with
      | .overrun => none
      | .noLength => some (-1, result)
      | .ended result =>
        if result.parseStatus = 1 then
          some (1, result.keepTail mem responseLen)
        else if result.parseStatus = 2 then
          some (3, { result.keepTail mem responseLen with parseStatus := 3 })
        else
          some (4, result)
    else
      some (result.parseStatus, result)

end Parser

/-! ## Reading -/

/-- `ya_http_header_handle`. `read n` is a read of at most `n` bytes from the socket:
`none` for an error, no bytes for a closed connection. -/
def yaHttpHeaderHandle (result : HttpResponseResult) (read : Nat → Option (List UInt8))
    (mem : ByteMem) : Option (Int × HttpResponseResult × ByteMem) :=
  if result.parseStatus ≤ 3 then
    let backupLen := if result.parseStatus = 1 ∨ result.parseStatus = 3 then httpHeaderBakLen else 0
    match read (httpBufSize - backupLen) with
    | none => some (-1, result, mem)
    | some [] => some (-1, result, mem)
    | some bytes =>
      let mem := mem.store (otaBuf + backupLen) bytes
      let mem := if backupLen ≠ 0 then mem.store otaBuf result.headerBak else mem
      match yaParseHttpHeaderResponse mem (bytes.length + backupLen) result with
      | none => none
      | some (ret, result) =>
        if ret = -1 then some (-1, result, mem)
        else if result.parseStatus > 3 then some (1, result, mem)
        else some (0, result, mem)
  else
    some (1, result, mem)

end Tr6260
