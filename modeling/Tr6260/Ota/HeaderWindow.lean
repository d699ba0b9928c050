import Tr6260.Ota.OkResponse

/-!
# Windows on a response header

`ya_parse_http_header_response` sees a part of the response in its buffer, and
looks up to three bytes further. A `HeaderWindow` is such a part when these
bytes do not pretend that the header ends. A scan of its lines may start within
a line. It finds the end of the header where the response has it, and the
announced length when no line but the right one is taken for it last.
-/

namespace Tr6260

open ByteMem CrlfText

/-! ## Windows -/

/-- The buffer shows `len` bytes of the response from `s` on, and what lies behind them does
not end the header too early. -/
structure HeaderWindow (r : OkResponse) (mem : ByteMem) (s len : Nat) : Prop where
  shows : ∀ i < len, resp mem i = r.bytes.getD (s + i) 0
  inside : s + len ≤ r.bytes.length
  back : s + 4 ≤ r.header.length
  clear : s + len < r.header.length → ∀ i < len, len < i + 4 → headerEndAt mem i = false

namespace OkResponse

variable (r : OkResponse)

/-- In a scan from `s` on, the line that ends at `q` begins with the name. -/
def Claims (s q : Nat) : Prop :=
  r.bytes.getD q 0 = 0x0D ∧ scanStart r.bytes s q + 14 ≤ q ∧
    Spelled (r.bytes.drop (scanStart r.bytes s q))

/-- What stands behind the name on the line that ends at `q`. -/
def claimField (s q : Nat) : List UInt8 :=
  (r.bytes.drop (scanStart r.bytes s q + 14)).take (q - (scanStart r.bytes s q + 14))

/-- How far the parser sees line ends with `b` bytes received and `next` behind them. -/
def reach (b : Nat) (next : UInt8) : Nat :=
  if b < r.header.length then (if next = 0x0A then b + 1 else b) else r.header.length

/-- A scan from `s` to `reach` takes another line for the `Content-Length` line only in front of
it, and its numbers fit `len_buf`. -/
def Scanned (s reach : Nat) : Prop :=
  ∀ q < reach - 1, s ≤ q → r.Claims s q →
    q ≤ r.lengthEnd ∧ r.lengthEnd + 1 < reach ∧ (lengthText (r.claimField s q)).length < 12

/-- A scan from `s` finds the start of the `Content-Length` line. -/
def InFront (s : Nat) : Prop := s ≤ r.lengthStart ∧ s + 1 ≠ r.lengthStart

instance (s q : Nat) : Decidable (r.Claims s q) := inferInstanceAs (Decidable (_ ∧ _ ∧ _))

instance (s reach : Nat) : Decidable (r.Scanned s reach) :=
  inferInstanceAs (Decidable (∀ q < reach - 1, s ≤ q → r.Claims s q → _ ∧ _ ∧ _))

instance (s : Nat) : Decidable (r.InFront s) := inferInstanceAs (Decidable (_ ∧ _))

variable {r}

theorem lt_of_lt_reach {q b : Nat} {next : UInt8} (early : b < r.header.length)
    (seen : q + 1 < r.reach b next) : q < b := by
  unfold reach at seen
  rw [if_pos early] at seen
  split at seen <;> omega

theorem Plain.scanStart_lengthEnd (plain : r.Plain) {s : Nat} (front : r.InFront s) :
    scanStart r.bytes s r.lengthEnd = r.lengthStart := by
  obtain ⟨low, apart⟩ := front
  have near := lineStart_le r.bytes s
  unfold scanStart
  rw [plain.lineStart_lengthEnd]
  split
  next same => omega
  · rfl

/-- A scan from in front of it takes the `Content-Length` line for what it is. -/
theorem Plain.claims_lengthEnd (plain : r.Plain) {s : Nat} (front : r.InFront s) :
    r.Claims s r.lengthEnd := by
  have ends := plain.lengthEnd_eq
  unfold Claims
  rw [plain.scanStart_lengthEnd front, r.drop_lengthStart, List.append_assoc]
  exact ⟨r.getD_lengthEnd, by omega, plain.spelled_length _⟩

theorem Plain.claimField_lengthEnd (plain : r.Plain) {s : Nat} (front : r.InFront s) :
    r.claimField s r.lengthEnd = r.field := by
  have ends := plain.lengthEnd_eq
  unfold claimField
  rw [plain.scanStart_lengthEnd front, ← List.drop_drop, r.drop_lengthStart, List.append_assoc,
    ← plain.name_length, List.drop_left, plain.name_length,
    show r.lengthEnd - (r.lengthStart + 14) = r.field.length by omega, List.take_left]

end OkResponse

namespace HeaderWindow

variable {r : OkResponse} {mem : ByteMem} {s len i p : Nat}

theorem load (window : HeaderWindow r mem s len) {n : Nat} (inside : p + n ≤ len) :
    mem.load (otaBuf + p) n = (r.bytes.drop (s + p)).take n := by
  have room := window.inside
  refine List.ext_getElem? fun k => ?_
  rw [getElem?_load, List.getElem?_take, List.getElem?_drop]
  split
  next low =>
    have byte := window.shows (p + k) (by omega)
    rw [resp, List.getD_eq_getElem _ _ (by omega)] at byte
    rw [Nat.add_assoc, byte, List.getElem?_eq_getElem (by omega)]
    congr 2
    omega
  · rfl

/-- What the parser takes for a line end at `i` is one, within its reach. -/
theorem crlfAt_iff (plain : r.Plain) (window : HeaderWindow r mem s len) (inside : i < len)
    (header : s + len < r.header.length ∨ s + i + 4 ≤ r.header.length) :
    crlfAt mem i = true ↔
      r.bytes.getD (s + i) 0 = 0x0D ∧ s + i + 1 < r.reach (s + len) (resp mem len) := by
  have next (cr : r.bytes.getD (s + i) 0 = 0x0D) (shown : i + 1 < len) :
      resp mem (i + 1) = 0x0A := by
    rw [window.shows (i + 1) shown]
    exact plain.cr_next (q := s + i) (by omega) cr
  unfold crlfAt OkResponse.reach
  rw [decide_eq_true_iff, window.shows i inside]
  refine and_congr_right fun cr => ?_
  by_cases shown : i + 1 < len
  · refine iff_of_true (next cr shown) ?_
    split
    · split <;> omega
    · omega
  · obtain rfl : i + 1 = len := by omega
    split
    next early =>
      split
      next lf => exact iff_of_true lf (by omega)
      next other => exact iff_of_false other (by omega)
    next late => omega

/-- Where all four bytes are shown, the end of the header is that of the response. -/
theorem headerEndAt_shown (plain : r.Plain) (window : HeaderWindow r mem s len) (inside : i + 4 ≤ len)
    (header : s + i + 4 ≤ r.header.length) :
    headerEndAt mem i = decide (s + i + 4 = r.header.length) := by
  rw [Bool.eq_iff_iff, decide_eq_true_iff, ← plain.end_iff header]
  unfold headerEndAt crlfAt
  rw [Bool.and_eq_true, decide_eq_true_iff, decide_eq_true_iff, window.shows i (by omega),
    window.shows (i + 1) (by omega), window.shows (i + 2) (by omega),
    window.shows (i + 2 + 1) (by omega)]
  rfl

/-- A window in front of the end of the header shows no end. -/
theorem headerEndAt_early (plain : r.Plain) (window : HeaderWindow r mem s len)
    (early : s + len < r.header.length) (inside : i < len) : headerEndAt mem i = false := by
  by_cases shown : i + 4 ≤ len
  · rw [window.headerEndAt_shown plain shown (by omega)]
    exact decide_eq_false (by omega)
  · exact window.clear early i inside (by omega)

theorem isContentLength_iff (window : HeaderWindow r mem s len) (inside : i < len)
    (ends : crlfAt mem i = true) (order : p ≤ i) :
    isContentLength mem p = true ↔ p + 14 ≤ i ∧ Spelled (r.bytes.drop (s + p)) := by
  unfold isContentLength
  rw [decide_eq_true_iff]
  by_cases long : p + 14 ≤ i
  · rw [window.load (by omega)]
    exact ⟨fun spelled => ⟨long, spelled⟩, And.right⟩
  · refine ⟨fun spelled => ?_, fun both => absurd both.1 long⟩
    have cr : 0x0D ∈ mem.load (otaBuf + p) 14 := by
      refine List.mem_of_getElem? (i := i - p) ?_
      rw [getElem?_load, if_pos (by omega), Nat.add_assoc, Nat.add_sub_cancel' order]
      exact congrArg some (of_decide_eq_true ends).1
    rcases spelled with same | same <;> rw [same] at cr <;> exact absurd cr (by decide)

/-! ### Lines in a window -/

/-- At the end of a line the scan takes it for the `Content-Length` line if it begins so. -/
theorem claims_iff (plain : r.Plain) (window : HeaderWindow r mem s len)
    (scan : s + p = scanStart r.bytes s (s + i)) (inside : i < len)
    (header : s + i < r.header.length) (ends : crlfAt mem i = true) :
    isContentLength mem p = true ↔ r.Claims s (s + i) := by
  have cr : r.bytes.getD (s + i) 0 = 0x0D := by
    rw [← window.shows i inside]
    exact (of_decide_eq_true ends).1
  have order : p ≤ i := by
    have below := plain.lineStart_le_cr header cr
    unfold scanStart at scan
    split at scan <;> omega
  unfold OkResponse.Claims
  rw [window.isContentLength_iff inside ends order, ← scan]
  exact ⟨fun ⟨long, spelled⟩ => ⟨cr, by omega, spelled⟩, fun ⟨_, long, spelled⟩ => ⟨by omega, spelled⟩⟩

/-- The number the parser reads on a line. -/
theorem value_eq (window : HeaderWindow r mem s len) (inside : i < len) (long : p + 14 ≤ i)
    (scan : s + p = scanStart r.bytes s (s + i))
    (fits : (lengthText (r.claimField s (s + i))).length < 12) :
    contentLengthValue mem p i =
      some (toU32 (CString.ofBytes (lengthText (r.claimField s (s + i)))).atoi) := by
  have room := window.inside
  have shown : r.claimField s (s + i) = mem.load (otaBuf + (p + 14)) (i - (p + 14)) := by
    rw [OkResponse.claimField, ← scan, window.load (by omega), Nat.add_assoc,
      show s + i - (s + (p + 14)) = i - (p + 14) by omega]
  have count : (r.claimField s (s + i)).length = i - (p + 14) := by
    rw [shown, length_load]
  refine contentLengthValue_eq ?_ (by omega) fits
  unfold ByteMem.Holds
  rw [count, shown]

/-- What the loop over the lines knows at `i`: whether the `Content-Length` line has ended within
reach, and behind its end the announced length. -/
structure Knows (r : OkResponse) (s reach i : Nat) (result : HttpResponseResult) : Prop where
  seen : result.parseStatus = 1 ∨ result.parseStatus = 2 ∧ r.lengthEnd + 1 < reach
  length : r.lengthEnd + 1 < reach → r.lengthEnd < s + i →
    result.parseStatus = 2 ∧ result.bodyLen = r.announced

theorem Knows.zero (plain : r.Plain) (front : r.InFront s) {reach : Nat}
    {result : HttpResponseResult} (one : result.parseStatus = 1) : Knows r s reach 0 result := by
  have low := front.1
  have ends := plain.lengthEnd_eq
  exact ⟨.inl one, fun _ passed => by omega⟩

/-- The end of a line. -/
theorem line_eq (plain : r.Plain) (window : HeaderWindow r mem s len) (front : r.InFront s)
    (scanned : r.Scanned s (r.reach (s + len) (resp mem len)))
    (scan : s + p = scanStart r.bytes s (s + i)) (inside : i < len)
    (header : s + len < r.header.length ∨ s + i + 4 ≤ r.header.length)
    {result : HttpResponseResult} (knows : Knows r s (r.reach (s + len) (resp mem len)) i result) :
    ∃ result', (if crlfAt mem i ∧ isContentLength mem p then
        (contentLengthValue mem p i).map fun n => { result with bodyLen := n, parseStatus := 2 }
      else some result) = some result' ∧
      Knows r s (r.reach (s + len) (resp mem len)) (i + 1) result' := by
  have ends := window.crlfAt_iff plain inside header
  have claimed := window.claims_iff plain scan inside (by omega)
  by_cases claims : crlfAt mem i = true ∧ isContentLength mem p = true
  · have claim := (claimed claims.1).mp claims.2
    have near := (ends.mp claims.1).2
    obtain ⟨before, seen, fits⟩ := scanned (s + i) (by omega) (Nat.le_add_right _ _) claim
    have long : p + 14 ≤ i := by
      have := claim.2.1
      omega
    rw [if_pos claims, window.value_eq inside long scan fits]
    refine ⟨_, rfl, .inr ⟨rfl, seen⟩, fun _ passed => ⟨rfl, ?_⟩⟩
    rw [show s + i = r.lengthEnd by omega, plain.claimField_lengthEnd front]
    exact lengthText_announced r
  · rw [if_neg claims]
    refine ⟨result, rfl, knows.seen, fun seen passed => ?_⟩
    by_cases last : s + i = r.lengthEnd
    · have here : crlfAt mem i = true := ends.mpr ⟨last ▸ r.getD_lengthEnd, by omega⟩
      exact absurd ⟨here, (claimed here).mpr (last ▸ plain.claims_lengthEnd front)⟩ claims
    · exact knows.length seen (by omega)

/-- The scan goes on. -/
theorem scan_succ (plain : r.Plain) (window : HeaderWindow r mem s len)
    (scan : s + p = scanStart r.bytes s (s + i)) (more : i + 1 < len)
    (header : s + len < r.header.length ∨ s + i + 4 ≤ r.header.length) :
    s + (if crlfAt mem i then i + 2 else p) = scanStart r.bytes s (s + (i + 1)) := by
  have near : s + i + 1 < r.reach (s + len) (resp mem len) := by
    unfold OkResponse.reach
    split
    · split <;> omega
    · omega
  have ends := window.crlfAt_iff plain (by omega) header
  rw [← Nat.add_assoc, scanStart_succ _ (Nat.le_add_right _ _)]
  by_cases cr : r.bytes.getD (s + i) 0 = 0x0D
  · rw [if_pos cr, if_pos (ends.mpr ⟨cr, near⟩)]
    rfl
  · rw [if_neg cr, if_neg fun found => cr (ends.mp found).1]
    exact scan

/-! ### The loops -/

/-- A window with the end of the header: the loop over the lines stops there. -/
theorem headerLines_late (plain : r.Plain) (window : HeaderWindow r mem s len)
    (front : r.InFront s) (scanned : r.Scanned s (r.reach (s + len) (resp mem len)))
    (late : r.header.length ≤ s + len) {left : Nat} {result : HttpResponseResult}
    (room : i + left = len) (before : s + i + 4 ≤ r.header.length)
    (scan : s + p = scanStart r.bytes s (s + i))
    (knows : Knows r s (r.reach (s + len) (resp mem len)) i result) :
    ∃ result' : HttpResponseResult, headerLines mem len left i p result =
        .ended (result'.complete len (r.header.length - 4 - s)) ∧ result'.bodyLen = r.announced := by
  induction left generalizing i p result with
  | zero => omega
  | succ left ih =>
    have bound := r.lengthEnd_le
    obtain ⟨result', line, next⟩ :=
      window.line_eq plain front scanned scan (by omega) (.inr before) knows
    rw [headerLines, line, window.headerEndAt_shown plain (by omega) before]
    dsimp only
    by_cases ends : s + i + 4 = r.header.length
    · have reach : r.reach (s + len) (resp mem len) = r.header.length := if_neg (by omega)
      obtain ⟨two, length⟩ := next.length (by omega) (by omega)
      rw [if_pos (decide_eq_true ends), if_pos two,
        show r.header.length - 4 - s = i by omega]
      exact ⟨_, rfl, length⟩
    · rw [if_neg (by simpa using ends)]
      exact ih (by omega) (by omega) (window.scan_succ plain scan (by omega) (.inr before)) next

/-- A window without the end of the header. -/
theorem headerLines_early (plain : r.Plain) (window : HeaderWindow r mem s len)
    (front : r.InFront s) (scanned : r.Scanned s (r.reach (s + len) (resp mem len)))
    (early : s + len < r.header.length) {left : Nat} {result : HttpResponseResult}
    (room : i + left = len) (scan : i < len → s + p = scanStart r.bytes s (s + i))
    (knows : Knows r s (r.reach (s + len) (resp mem len)) i result) :
    ∃ result', headerLines mem len left i p result = .ended result' ∧
      Knows r s (r.reach (s + len) (resp mem len)) len result' := by
  induction left generalizing i p result with
  | zero =>
    rw [Nat.add_zero] at room
    exact ⟨result, rfl, room ▸ knows⟩
  | succ left ih =>
    obtain ⟨result', line, next⟩ :=
      window.line_eq plain front scanned (scan (by omega)) (by omega) (.inl early) knows
    rw [headerLines, line, window.headerEndAt_early plain early (by omega)]
    exact ih (by omega)
      (fun more => window.scan_succ plain (scan (by omega)) more (.inl early)) next

/-- The search for the end of the header alone. -/
theorem findHeaderEnd_late (plain : r.Plain) (window : HeaderWindow r mem s len)
    (late : r.header.length ≤ s + len) {left : Nat} (room : i + left = len)
    (before : s + i + 4 ≤ r.header.length) :
    findHeaderEnd mem left i = some (r.header.length - 4 - s) := by
  induction left generalizing i with
  | zero => omega
  | succ left ih =>
    rw [findHeaderEnd, window.headerEndAt_shown plain (by omega) before]
    by_cases ends : s + i + 4 = r.header.length
    · rw [if_pos (decide_eq_true ends), show r.header.length - 4 - s = i by omega]
    · rw [if_neg (by simpa using ends)]
      exact ih (by omega) (by omega)

theorem findHeaderEnd_early (plain : r.Plain) (window : HeaderWindow r mem s len)
    (early : s + len < r.header.length) {left : Nat} (room : i + left = len) :
    findHeaderEnd mem left i = none := by
  induction left generalizing i with
  | zero => rfl
  | succ left ih =>
    rw [findHeaderEnd, window.headerEndAt_early plain early (by omega)]
    exact ih (by omega)

/-! ### The status line -/

theorem statusBlanks_skip {n left seen : Nat} (solid : ∀ j < n, resp mem (i + j) ≠ 0x20) :
    statusBlanks mem (left + n) i seen p = statusBlanks mem left (i + n) seen p := by
  induction n generalizing i with
  | zero => rfl
  | succ n ih =>
    have here := solid 0 (by omega)
    rw [Nat.add_zero] at here
    rw [← Nat.add_assoc, statusBlanks, if_neg here, ih, Nat.add_right_comm i 1 n, Nat.add_assoc]
    intro j low
    rw [Nat.add_assoc, Nat.add_comm 1 j]
    exact solid (j + 1) (by omega)

theorem version_solid (r : OkResponse) {j : Nat} (low : j < 8) : r.bytes.getD j 0 ≠ 0x20 := by
  obtain ⟨major, minor⟩ := r.version
  have digit {b : UInt8} (isDigit : CString.isDigit b = true) : b ≠ 0x20 := by
    rintro rfl
    cases isDigit
  match j, low with
  | 0, _ | 1, _ | 2, _ | 3, _ | 4, _ | 6, _ => exact fun same => by cases same
  | 5, _ => exact digit major
  | 7, _ => exact digit minor

/-- A window on the start of the response shows status 200. -/
theorem statusCode_eq (window : HeaderWindow r mem 0 len) (long : 13 ≤ len) :
    statusCode mem len = some 200 := by
  have byte {j : Nat} (low : j < 13) : resp mem j = r.bytes.getD j 0 := by
    rw [window.shows j (by omega), Nat.zero_add]
  have blanks : statusBlanks mem len 0 0 0 = (8, 12) := by
    obtain ⟨k, rfl⟩ : ∃ k, len = k + 1 + 3 + 1 + 8 := ⟨len - 13, by omega⟩
    have first : resp mem (0 + 8) = 0x20 := byte (by decide)
    have second : resp mem (0 + 8 + 1 + 3) = 0x20 := byte (by decide)
    have version : ∀ j < 8, resp mem (0 + j) ≠ 0x20 := by
      intro j low
      rw [Nat.zero_add, byte (by omega)]
      exact version_solid r low
    have code : ∀ j < 3, resp mem (0 + 8 + 1 + j) ≠ 0x20 := by
      intro j low
      rw [byte (by omega)]
      match j, low with
      | 0, _ | 1, _ | 2, _ => exact fun same => by cases same
    rw [statusBlanks_skip version, statusBlanks, if_pos first, if_pos rfl]
    change statusBlanks mem (k + 1 + 3) (0 + 8 + 1) 1 8 = (8, 12)
    rw [statusBlanks_skip code, statusBlanks, if_pos second, if_neg (by decide)]
  have code : mem.load (otaBuf + 8 + 1) 3 = CString.ascii ['2', '0', '0'] := by
    rw [Nat.add_assoc, window.load (by omega)]
    rfl
  unfold statusCode
  rw [blanks]
  dsimp only
  rw [if_neg (by decide), code]
  rfl

end HeaderWindow

/-! ## The parser -/

/-- The result with the whole header in a window of `len` bytes from `s` on. -/
structure HeaderFound (r : OkResponse) (s len : Nat) (result : HttpResponseResult) : Prop where
  status : result.parseStatus = 4
  bodyLen : result.bodyLen = r.announced
  headerLen : result.headerLen = r.header.length - s
  bodyReadLen : result.bodyReadLen = s + len - r.header.length

/-- The result with the header not complete; `known` when the `Content-Length` line is. -/
def HeaderWaiting (r : OkResponse) (known : Bool) (result : HttpResponseResult) : Prop :=
  if known then result.parseStatus = 3 ∧ result.bodyLen = r.announced else result.parseStatus = 1

/-- A window from `s` to `reach` that the parser can go on with: it has the length, or finds it. -/
def HeaderReady (r : OkResponse) (known : Bool) (s reach : Nat) (result : HttpResponseResult) :
    Prop :=
  HeaderWaiting r known result ∧ (known = false → r.InFront s ∧ r.Scanned s reach)

/-- The `Content-Length` line has ended in front of `b`, or earlier. -/
def OkResponse.lengthSeen (r : OkResponse) (known : Bool) (b : Nat) (next : UInt8) : Bool :=
  known || decide (r.lengthEnd + 1 < r.reach b next)

section Parse

variable {r : OkResponse} {mem : ByteMem} {s len : Nat} {result : HttpResponseResult}

theorem parseStatusLine_later (later : result.parseStatus ≠ 0) :
    parseStatusLine mem len result = (true, result) := by
  rw [parseStatusLine, if_neg later]

theorem yaParseHttpHeaderResponse_one (one : result.parseStatus = 1) {result' : HttpResponseResult}
    (ended : headerLines mem len len 0 0 result = .ended result') :
    yaParseHttpHeaderResponse mem len result =
      if result'.parseStatus = 1 then
        some (1, result'.keepTail mem len)
      else if result'.parseStatus = 2 then
        some (3, { result'.keepTail mem len with parseStatus := 3 })
      else
        some (4, result') := by
  rw [yaParseHttpHeaderResponse, parseStatusLine_later (by omega)]
  dsimp only
  rw [if_neg (by omega), if_pos one, ended]

theorem yaParseHttpHeaderResponse_three (three : result.parseStatus = 3) :
    yaParseHttpHeaderResponse mem len result =
      match findHeaderEnd mem len 0 with
      | some i => some (4, result.complete len i)
      | none => some (result.eraseTail.parseStatus, result.eraseTail.keepTail mem len) := by
  rw [yaParseHttpHeaderResponse, parseStatusLine_later (by omega)]
  exact if_pos three

/-- At the start of the response the status line comes first. -/
theorem yaParseHttpHeaderResponse_zero (window : HeaderWindow r mem 0 len) (long : 13 ≤ len)
    (zero : result.parseStatus = 0) :
    yaParseHttpHeaderResponse mem len result =
      yaParseHttpHeaderResponse mem len { result with statusCode := 200, parseStatus := 1 } := by
  have status : parseStatusLine mem len result =
      (true, { result with statusCode := 200, parseStatus := 1 }) := by
    rw [parseStatusLine, if_pos zero, window.statusCode_eq long]
    rfl
  have status' : parseStatusLine mem len { result with statusCode := 200, parseStatus := 1 } =
      (true, { result with statusCode := 200, parseStatus := 1 }) := rfl
  rw [yaParseHttpHeaderResponse, yaParseHttpHeaderResponse, status, status']

theorem found_complete (late : r.header.length ≤ s + len) (back : s + 4 ≤ r.header.length)
    (small : len < 2 ^ 32) (length : result.bodyLen = r.announced) :
    HeaderFound r s len (result.complete len (r.header.length - 4 - s)) := by
  refine ⟨rfl, length, ?_, ?_⟩
  · change r.header.length - 4 - s + 4 = _
    omega
  · change (len + 2 ^ 32 - (r.header.length - 4 - s + 4)) % 2 ^ 32 = _
    omega

/-- A window with the end of the header. -/
theorem parse_late (plain : r.Plain) (window : HeaderWindow r mem s len) {known : Bool}
    (ready : HeaderReady r known s (r.reach (s + len) (resp mem len)) result)
    (late : r.header.length ≤ s + len) (small : len < 2 ^ 32) :
    ∃ result', yaParseHttpHeaderResponse mem len result = some (4, result') ∧
      HeaderFound r s len result' := by
  have back := window.back
  obtain ⟨waiting, finds⟩ := ready
  cases known with
  | true =>
    obtain ⟨three, length⟩ := waiting
    rw [yaParseHttpHeaderResponse_three three,
      window.findHeaderEnd_late plain late (Nat.zero_add _) back]
    exact ⟨_, rfl, found_complete late back small length⟩
  | false =>
    have one : result.parseStatus = 1 := waiting
    obtain ⟨front, scanned⟩ := finds rfl
    obtain ⟨result', ended, length⟩ := window.headerLines_late plain front scanned late
      (Nat.zero_add _) back (scanStart_self _ _).symm (.zero plain front one)
    rw [yaParseHttpHeaderResponse_one one ended]
    exact ⟨_, rfl, found_complete late back small length⟩

/-- A window without it. -/
theorem parse_early (plain : r.Plain) (window : HeaderWindow r mem s len) {known : Bool}
    (ready : HeaderReady r known s (r.reach (s + len) (resp mem len)) result)
    (early : s + len < r.header.length)
    (status : known = true → 0 ∈ result.headerBak) :
    ∃ ret result', yaParseHttpHeaderResponse mem len result = some (ret, result') ∧ 0 ≤ ret ∧
      HeaderWaiting r (r.lengthSeen known (s + len) (resp mem len)) result' ∧
      result'.headerBak = mem.load (otaBuf + len - httpHeaderBakLen) httpHeaderBakLen := by
  obtain ⟨waiting, finds⟩ := ready
  cases known with
  | true =>
    obtain ⟨three, length⟩ := waiting
    have kept := eraseTail_parseStatus three
    rw [if_pos (status rfl)] at kept
    rw [yaParseHttpHeaderResponse_three three,
      window.findHeaderEnd_early plain early (Nat.zero_add _), kept]
    exact ⟨3, _, rfl, by decide, ⟨kept, length⟩, rfl⟩
  | false =>
    have one : result.parseStatus = 1 := waiting
    obtain ⟨front, scanned⟩ := finds rfl
    obtain ⟨result', ended, knows⟩ := window.headerLines_early plain front scanned early
      (Nat.zero_add _) (fun _ => (scanStart_self _ _).symm) (.zero plain front one)
    rw [yaParseHttpHeaderResponse_one one ended, OkResponse.lengthSeen, Bool.false_or]
    by_cases seen : r.lengthEnd + 1 < r.reach (s + len) (resp mem len)
    · obtain ⟨two, length⟩ := knows.length seen (OkResponse.lt_of_lt_reach early seen)
      rw [if_neg (by omega), if_pos two, decide_eq_true seen]
      exact ⟨3, _, rfl, by decide, ⟨rfl, length⟩, rfl⟩
    · have one' : result'.parseStatus = 1 := by
        have := knows.seen
        omega
      rw [if_pos one', decide_eq_false seen]
      exact ⟨1, _, rfl, by decide, one', rfl⟩

end Parse

end Tr6260
