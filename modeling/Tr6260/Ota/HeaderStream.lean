import Tr6260.Ota.HeaderWindow

/-!
# The response header in pieces

`ya_http_header_handle` sees a response through windows: the 32 bytes in front
of a read and the read. As long as the reads cut the header well, and what is
left in the buffer from earlier reads does not complete it, the parser finds the
end of the header and the announced length however the response is split. Behind
the read that ends the `Content-Length` line there is one more read: the next
incomplete one erases the status.
-/

namespace Tr6260

open ByteMem CrlfText

/-! ## Reads -/

/-- `ya_http_header_handle` on one read after the other, as long as it returns 0: return code,
result, buffer, and the bytes received. -/
def headerRun : List UInt8 → HttpResponseResult → ByteMem → List (List UInt8) →
    Option (Int × HttpResponseResult × ByteMem × List UInt8)
  | got, result, mem, [] => some (0, result, mem, got)
  | got, result, mem, chunk :: chunks =>
    match yaHttpHeaderHandle result (fun _ => some chunk) mem with
    | none => none
    | some (ret, result, mem) =>
      if ret = 0 then headerRun (got ++ chunk) result mem chunks
      else some (ret, result, mem, got ++ chunk)

/-- Reads that are not empty and not larger than requested. -/
def ReadSizes : List (List UInt8) → Prop
  | [] => True
  | chunk :: chunks => (chunk ≠ [] ∧ chunk.length ≤ httpBufSize) ∧
    ∀ chunk ∈ chunks, chunk ≠ [] ∧ chunk.length ≤ httpBufSize - httpHeaderBakLen

instance (chunks : List (List UInt8)) : Decidable (ReadSizes chunks) :=
  match chunks with
  | [] => inferInstanceAs (Decidable True)
  | _ :: _ => inferInstanceAs (Decidable (_ ∧ _))

/-- Where a read goes. -/
def readOffset (got : List UInt8) : Nat := if got = [] then 0 else httpHeaderBakLen

def headerEnd : List UInt8 := [0x0D, 0x0A, 0x0D, 0x0A]

/-- What lies behind the received bytes completes an end of the header that these begin. -/
def CompletesEnd (received behind : List UInt8) : Prop :=
  ∃ n ∈ [1, 2, 3], headerEnd.take n <:+ received ∧ headerEnd.drop n <+: behind

instance (received behind : List UInt8) : Decidable (CompletesEnd received behind) :=
  inferInstanceAs (Decidable (∃ n ∈ [1, 2, 3], _))

namespace OkResponse

/-- The read `chunk` behind `got` may end in the header: 32 bytes are there to be kept, what is in
the buffer `behind` it does not complete the header, the status is not erased with the bytes that
were kept, and the next window does not miss the `Content-Length` line. -/
structure Cut (r : OkResponse) (known : Bool) (got chunk behind : List UInt8) : Prop where
  kept : httpHeaderBakLen ≤ (got ++ chunk).length
  clear : ¬ CompletesEnd (got ++ chunk) behind
  status : known = true → 0 ∈ got.drop (got.length - httpHeaderBakLen)
  front : r.lengthSeen known (got ++ chunk).length (behind.getD 0 0) = false →
    r.InFront ((got ++ chunk).length - httpHeaderBakLen)

/-- Every read that does not complete the header may end there, and no read in which the length is
looked for takes another line for the last one that announces it. -/
def Clear (r : OkResponse) : Bool → List UInt8 → ByteMem → List (List UInt8) → Prop
  | _, _, _, [] => True
  | known, got, mem, chunk :: chunks =>
    let behind := mem.load (otaBuf + readOffset got + chunk.length) 3
    let b := (got ++ chunk).length
    (known = false →
      r.Scanned (got.length - httpHeaderBakLen) (r.reach b (behind.getD 0 0))) ∧
    (b < r.header.length →
      r.Cut known got chunk behind ∧
      r.Clear (r.lengthSeen known b (behind.getD 0 0)) (got ++ chunk)
        (mem.store (otaBuf + readOffset got) chunk) chunks)

instance (r : OkResponse) (known : Bool) (got chunk behind : List UInt8) :
    Decidable (r.Cut known got chunk behind) :=
  decidable_of_iff (httpHeaderBakLen ≤ (got ++ chunk).length ∧
      ¬ CompletesEnd (got ++ chunk) behind ∧
      (known = true → 0 ∈ got.drop (got.length - httpHeaderBakLen)) ∧
      (r.lengthSeen known (got ++ chunk).length (behind.getD 0 0) = false →
        r.InFront ((got ++ chunk).length - httpHeaderBakLen)))
    ⟨fun ⟨kept, clear, status, front⟩ => ⟨kept, clear, status, front⟩,
      fun cut => ⟨cut.kept, cut.clear, cut.status, cut.front⟩⟩

instance decidableClear (r : OkResponse) : (known : Bool) → (got : List UInt8) → (mem : ByteMem) →
    (chunks : List (List UInt8)) → Decidable (r.Clear known got mem chunks)
  | _, _, _, [] => inferInstanceAs (Decidable True)
  | known, got, mem, chunk :: chunks =>
    have := decidableClear r
      (r.lengthSeen known (got ++ chunk).length
        ((mem.load (otaBuf + readOffset got + chunk.length) 3).getD 0 0))
      (got ++ chunk) (mem.store (otaBuf + readOffset got) chunk) chunks
    inferInstanceAs (Decidable ((_ → r.Scanned _ _) ∧
      (_ < _ → r.Cut _ _ _ _ ∧ r.Clear _ _ _ chunks)))

end OkResponse

/-- The result and the buffer with the whole header in the bytes `got`: the announced length, and
the body bytes among them. -/
structure HeaderDelivered (r : OkResponse) (got : List UInt8) (result : HttpResponseResult)
    (mem : ByteMem) : Prop where
  status : result.parseStatus = 4
  bodyLen : result.bodyLen = r.announced
  whole : r.header.length ≤ got.length
  body : mem.load (otaBuf + result.headerLen) result.bodyReadLen = got.drop r.header.length

/-- Reads of `got` end as they should: with the header complete it has been delivered, and before
that the parser waits. -/
def HeaderParsed (r : OkResponse) (got : List UInt8)
    (outcome : Option (Int × HttpResponseResult × ByteMem × List UInt8)) : Prop :=
  ∃ ret result mem received, outcome = some (ret, result, mem, received) ∧
    if r.header.length ≤ got.length then
      ret = 1 ∧ received <+: got ∧ HeaderDelivered r received result mem
    else
      ret = 0 ∧ received = got ∧ result.parseStatus < 4

/-- The reads are parsed as the response is. -/
def OkResponse.Streams (r : OkResponse) (mem : ByteMem) (chunks : List (List UInt8)) : Prop :=
  HeaderParsed r chunks.flatten (headerRun [] .zero mem chunks)

section Reads

variable {r : OkResponse}

theorem inFront_zero (r : OkResponse) : r.InFront 0 := by
  have long : 2 ≤ r.lengthStart := by
    rw [OkResponse.lengthStart, OkResponse.front, text_cons, List.length_append, List.length_cons,
      List.length_cons]
    omega
  exact ⟨Nat.zero_le _, by omega⟩

theorem OkResponse.header_long (r : OkResponse) : 13 ≤ r.header.length := by
  rw [length_header, lines, front, List.cons_append, text_cons, statusLine]
  simp only [List.length_append, List.length_cons]
  change 13 ≤ 5 + 3 + 5 + _ + _ + _
  omega

/-- An end of the header that reaches behind the received bytes is one that these begin. -/
theorem headerEndAt_completes {mem : ByteMem} {len i : Nat} {received : List UInt8}
    (shown : mem.load otaBuf len <:+ received) (inside : i < len) (beyond : len < i + 4)
    (ends : headerEndAt mem i = true) : CompletesEnd received (mem.load (otaBuf + len) 3) := by
  have four : mem.load (otaBuf + i) 4 = headerEnd := by
    unfold headerEndAt crlfAt at ends
    rw [Bool.and_eq_true, decide_eq_true_iff, decide_eq_true_iff] at ends
    obtain ⟨⟨b0, b1⟩, b2, b3⟩ := ends
    change [resp mem i, resp mem (i + 1), resp mem (i + 2), resp mem (i + 2 + 1)] = headerEnd
    rw [b0, b1, b2, b3]
    rfl
  obtain ⟨n, rfl⟩ : ∃ n, len = i + n := ⟨len - i, by omega⟩
  have parts : mem.load (otaBuf + i) n ++ mem.load (otaBuf + (i + n)) (4 - n) = headerEnd := by
    rw [← four, ← Nat.add_assoc, ← load_add]
    congr 1
    omega
  have count : (mem.load (otaBuf + i) n).length = n := length_load _ _ _
  refine ⟨n, ?_, ?_, ?_⟩
  · obtain h | h | h : n = 1 ∨ n = 2 ∨ n = 3 := by omega
    all_goals simp [h]
  · rw [← parts, List.take_left' count]
    refine List.IsSuffix.trans ?_ shown
    rw [load_add]
    exact List.suffix_append _ _
  · rw [← parts, List.drop_left' count]
    have split : (3 : Nat) = (4 - n) + (n - 1) := by omega
    rw [split, load_add]
    exact List.prefix_append _ _

/-- The last bytes received, in the buffer, are a window. -/
theorem window_of_holds {mem : ByteMem} {got tail : List UInt8} {s : Nat}
    (whole : got <+: r.bytes) (held : mem.Holds otaBuf tail) (cut : tail = got.drop s)
    (back : s + 4 ≤ r.header.length) (low : s ≤ got.length)
    (clear : got.length < r.header.length →
      ¬ CompletesEnd got (mem.load (otaBuf + tail.length) 3)) :
    HeaderWindow r mem s tail.length := by
  have count : tail.length = got.length - s := by rw [cut, List.length_drop]
  obtain ⟨rest, bytes⟩ := whole
  refine ⟨fun i inside => ?_, ?_, back, fun early i inside beyond => ?_⟩
  · rw [resp, held.apply inside, ← bytes, List.getD_append _ _ _ _ (by omega), cut,
      List.getD_eq_getElem?_getD, List.getD_eq_getElem?_getD, List.getElem?_drop]
  · rw [← bytes, List.length_append]
    omega
  · by_contra ends
    rw [Bool.not_eq_false] at ends
    refine clear (by omega) (headerEndAt_completes ?_ inside beyond ends)
    rw [held.load, cut]
    exact List.drop_suffix _ _

/-- A read for which the parser has something to say. -/
theorem yaHttpHeaderHandle_eq {result result' : HttpResponseResult} {chunk : List UInt8}
    {mem mem' : ByteMem} {ret : Int} {backup : Nat} (early : result.parseStatus ≤ 3)
    (nonempty : chunk ≠ [])
    (kept : backup = if result.parseStatus = 1 ∨ result.parseStatus = 3 then httpHeaderBakLen else 0)
    (buffer : mem' = if backup ≠ 0 then
      (mem.store (otaBuf + backup) chunk).store otaBuf result.headerBak
      else mem.store (otaBuf + backup) chunk)
    (parsed : yaParseHttpHeaderResponse mem' (chunk.length + backup) result = some (ret, result'))
    (passed : 0 ≤ ret) :
    yaHttpHeaderHandle result (fun _ => some chunk) mem =
      some (if result'.parseStatus > 3 then 1 else 0, result', mem') := by
  obtain ⟨b, bs, rfl⟩ := List.exists_cons_of_ne_nil nonempty
  unfold yaHttpHeaderHandle
  rw [if_pos early, ← kept]
  dsimp only
  rw [← buffer, parsed]
  dsimp only
  rw [if_neg (by omega)]
  split <;> rfl

theorem drop_eq_take_drop {got bytes : List UInt8} (got_le : got <+: bytes) (n : Nat) :
    got.drop n = (bytes.drop n).take (got.length - n) := by
  obtain ⟨rest, rfl⟩ := got_le
  rw [← List.drop_take, List.take_left]

theorem delivered_of_found {mem : ByteMem} {got : List UInt8} {s len : Nat}
    {result : HttpResponseResult} (window : HeaderWindow r mem s len) (got_le : got <+: r.bytes)
    (reach : s + len = got.length) (late : r.header.length ≤ got.length)
    (found : HeaderFound r s len result) : HeaderDelivered r got result mem := by
  have back := window.back
  refine ⟨found.status, found.bodyLen, late, ?_⟩
  rw [found.headerLen, found.bodyReadLen, window.load (by omega),
    show s + (r.header.length - s) = r.header.length by omega, reach, drop_eq_take_drop got_le]

/-- The state between two reads: `view` is the buffer without the kept bytes. -/
structure BetweenReads (r : OkResponse) (known : Bool) (got : List UInt8)
    (result : HttpResponseResult) (mem view : ByteMem) : Prop where
  kept : httpHeaderBakLen ≤ got.length
  waiting : HeaderWaiting r known result
  front : known = false → r.InFront (got.length - httpHeaderBakLen)
  tail : result.headerBak = got.drop (got.length - httpHeaderBakLen)
  frame : ∀ a, otaBuf + httpHeaderBakLen ≤ a → mem a = view a

theorem HeaderWaiting.state {known : Bool} {result : HttpResponseResult}
    (waiting : HeaderWaiting r known result) :
    result.parseStatus = 1 ∨ result.parseStatus = 3 := by
  cases known with
  | true => exact .inr waiting.1
  | false => exact .inl waiting

/-- What a read leads to: the next one, or the end. -/
def ReadLeads (r : OkResponse) (known : Bool) (got : List UInt8) (view : ByteMem)
    (outcome : Option (Int × HttpResponseResult × ByteMem)) : Prop :=
  ∃ ret result mem, outcome = some (ret, result, mem) ∧
    if r.header.length ≤ got.length then ret = 1 ∧ HeaderDelivered r got result mem
    else ret = 0 ∧ BetweenReads r known got result mem view

/-- A read whose window the parser is ready for. -/
theorem leads_of_window (plain : r.Plain) {known : Bool} {got chunk behind : List UInt8}
    {result asked : HttpResponseResult} {mem mem' view : ByteMem} {s backup : Nat}
    (window : HeaderWindow r mem' s (chunk.length + backup))
    (next : resp mem' (chunk.length + backup) = behind.getD 0 0)
    (ready : HeaderReady r known s (r.reach (got ++ chunk).length (behind.getD 0 0)) asked)
    (got_le : got ++ chunk <+: r.bytes)
    (reach : s + (chunk.length + backup) = (got ++ chunk).length)
    (small : chunk.length + backup ≤ httpBufSize) (early : result.parseStatus ≤ 3)
    (nonempty : chunk ≠ [])
    (kept : backup = if result.parseStatus = 1 ∨ result.parseStatus = 3 then httpHeaderBakLen else 0)
    (start : backup = 0 → s = 0)
    (buffer : mem' = if backup ≠ 0 then
      (mem.store (otaBuf + backup) chunk).store otaBuf result.headerBak
      else mem.store (otaBuf + backup) chunk)
    (same : yaParseHttpHeaderResponse mem' (chunk.length + backup) result =
      yaParseHttpHeaderResponse mem' (chunk.length + backup) asked)
    (bak : known = true → asked.headerBak = got.drop (got.length - httpHeaderBakLen))
    (cut : (got ++ chunk).length < r.header.length → r.Cut known got chunk behind)
    (frame : ∀ a, otaBuf + httpHeaderBakLen ≤ a → mem' a = view a) :
    ReadLeads r (r.lengthSeen known (got ++ chunk).length (behind.getD 0 0)) (got ++ chunk) view
      (yaHttpHeaderHandle result (fun _ => some chunk) mem) := by
  unfold httpBufSize at small
  rw [← reach, ← next] at ready
  by_cases late : r.header.length ≤ (got ++ chunk).length
  · obtain ⟨result', parsed, found⟩ := parse_late plain window ready (by omega) (by omega)
    rw [← same] at parsed
    refine ⟨_, _, _, yaHttpHeaderHandle_eq early nonempty kept buffer parsed (by decide), ?_⟩
    rw [if_pos late, if_pos (by have := found.status; omega)]
    exact ⟨rfl, delivered_of_found window got_le reach late found⟩
  · have cut := cut (by omega)
    have long := cut.kept
    have status (isKnown : known = true) : 0 ∈ asked.headerBak := by
      rw [bak isKnown]
      exact cut.status isKnown
    obtain ⟨ret, result', parsed, passed, waiting, tail⟩ :=
      parse_early plain window ready (by omega) status
    rw [← same] at parsed
    rw [reach, next] at waiting
    have state := waiting.state
    refine ⟨_, _, _, yaHttpHeaderHandle_eq early nonempty kept buffer parsed passed, ?_⟩
    rw [if_neg late, if_neg (by omega)]
    refine ⟨rfl, long, waiting, cut.front, ?_, frame⟩
    have room : httpHeaderBakLen ≤ chunk.length + backup := by
      split at kept
      · omega
      · have := start kept
        omega
    rw [tail, Nat.add_sub_assoc room, window.load (by omega),
      show s + (chunk.length + backup - httpHeaderBakLen) =
        (got ++ chunk).length - httpHeaderBakLen by omega,
      drop_eq_take_drop got_le, Nat.sub_sub_self long]

/-- The first read. -/
theorem leads_first (plain : r.Plain) {chunk behind : List UInt8} (got_le : chunk <+: r.bytes)
    (nonempty : chunk ≠ []) (small : chunk.length ≤ httpBufSize) (mem : ByteMem)
    (stale : behind = mem.load (otaBuf + chunk.length) 3)
    (scanned : r.Scanned 0 (r.reach chunk.length (behind.getD 0 0)))
    (cut : chunk.length < r.header.length → r.Cut false [] chunk behind) :
    ReadLeads r (r.lengthSeen false chunk.length (behind.getD 0 0)) chunk (mem.store otaBuf chunk)
      (yaHttpHeaderHandle .zero (fun _ => some chunk) mem) := by
  have long := r.header_long
  have same : (mem.store otaBuf chunk).load (otaBuf + chunk.length) 3 = behind := by
    rw [stale]
    exact (load_congr (store_frame mem otaBuf chunk (.inr (Nat.le_refl _)))).symm
  have window : HeaderWindow r (mem.store otaBuf chunk) 0 (chunk.length + 0) :=
    window_of_holds got_le (store_holds mem otaBuf chunk) rfl (by omega) (Nat.zero_le _)
      (fun early => by rw [same]; exact (cut early).clear)
  have thirteen : 13 ≤ chunk.length + 0 := by
    by_cases early : chunk.length < r.header.length
    · have := (cut early).kept
      rw [List.nil_append] at this
      unfold httpHeaderBakLen at this
      omega
    · omega
  have next : resp (mem.store otaBuf chunk) (chunk.length + 0) = behind.getD 0 0 := by
    rw [← same]
    rfl
  have waiting : HeaderWaiting r false
      { HttpResponseResult.zero with statusCode := 200, parseStatus := 1 } := rfl
  change ReadLeads r _ ([] ++ chunk) _ _
  refine leads_of_window plain window next
    ⟨waiting, fun _ => ⟨inFront_zero r, scanned⟩⟩ got_le (Nat.zero_add _) small (Nat.zero_le _)
    nonempty rfl (fun _ => rfl) rfl (yaParseHttpHeaderResponse_zero window thirteen rfl) ?_ cut
    (fun _ _ => rfl)
  exact fun known => absurd known Bool.false_ne_true

/-- A later read. -/
theorem leads_next (plain : r.Plain) {known : Bool} {got chunk behind : List UInt8}
    {result : HttpResponseResult} {mem view : ByteMem}
    (between : BetweenReads r known got result mem view)
    (early : got.length < r.header.length) (got_le : got ++ chunk <+: r.bytes)
    (nonempty : chunk ≠ []) (small : chunk.length ≤ httpBufSize - httpHeaderBakLen)
    (stale : behind = view.load (otaBuf + httpHeaderBakLen + chunk.length) 3)
    (scanned : known = false → r.Scanned (got.length - httpHeaderBakLen)
      (r.reach (got ++ chunk).length (behind.getD 0 0)))
    (cut : (got ++ chunk).length < r.header.length → r.Cut known got chunk behind) :
    ReadLeads r (r.lengthSeen known (got ++ chunk).length (behind.getD 0 0)) (got ++ chunk)
      (view.store (otaBuf + httpHeaderBakLen) chunk)
      (yaHttpHeaderHandle result (fun _ => some chunk) mem) := by
  have long := between.kept
  have size : httpHeaderBakLen = 32 := rfl
  have bak : result.headerBak.length = httpHeaderBakLen := by
    rw [between.tail, List.length_drop]
    omega
  have state := between.waiting.state
  generalize buffer :
    (mem.store (otaBuf + httpHeaderBakLen) chunk).store otaBuf result.headerBak = mem'
  have held : mem'.Holds otaBuf (result.headerBak ++ chunk) := by
    rw [← buffer, holds_append, bak]
    refine ⟨store_holds _ _ _, Holds.congr (store_frame _ _ _ ?_) (store_holds _ _ _)⟩
    exact .inr (by rw [bak])
  have frame : ∀ a, otaBuf + httpHeaderBakLen ≤ a →
      mem' a = view.store (otaBuf + httpHeaderBakLen) chunk a := by
    intro a low
    rw [← buffer, ByteMem.store, if_neg (by rw [bak]; omega), ByteMem.store, ByteMem.store,
      between.frame a low]
  have same : mem'.load (otaBuf + (chunk.length + httpHeaderBakLen)) 3 = behind := by
    rw [stale, Nat.add_comm chunk.length, ← Nat.add_assoc]
    refine load_congr fun a low high => ?_
    rw [frame a (by omega), ByteMem.store, if_neg (by omega)]
  have count : (result.headerBak ++ chunk).length = chunk.length + httpHeaderBakLen := by
    rw [List.length_append, bak, Nat.add_comm]
  have shown : result.headerBak ++ chunk = (got ++ chunk).drop (got.length - httpHeaderBakLen) := by
    rw [between.tail, List.drop_append_of_le_length (Nat.sub_le _ _)]
  have window := window_of_holds got_le held shown (by omega)
    (by rw [List.length_append]; omega) (fun less => by
      rw [count, same]
      exact (cut less).clear)
  rw [count] at window
  have next : resp mem' (chunk.length + httpHeaderBakLen) = behind.getD 0 0 := by
    rw [← same]
    rfl
  unfold httpBufSize at small
  exact leads_of_window plain window next
    ⟨between.waiting, fun unknown => ⟨between.front unknown, scanned unknown⟩⟩ got_le
    (by rw [List.length_append]; omega) (by unfold httpBufSize; omega) (by omega) nonempty
    (if_pos state).symm (fun zero => absurd zero (by decide)) buffer.symm rfl
    (fun _ => between.tail) cut frame

/-- A read and those behind it. -/
theorem parsed_cons {known : Bool} {got chunk : List UInt8} {chunks : List (List UInt8)}
    {result : HttpResponseResult} {mem view : ByteMem}
    (leads : ReadLeads r known (got ++ chunk) view
      (yaHttpHeaderHandle result (fun _ => some chunk) mem))
    (rest : ∀ result mem, (got ++ chunk).length < r.header.length →
      BetweenReads r known (got ++ chunk) result mem view →
      HeaderParsed r (got ++ chunk ++ chunks.flatten) (headerRun (got ++ chunk) result mem chunks)) :
    HeaderParsed r (got ++ (chunk :: chunks).flatten)
      (headerRun got result mem (chunk :: chunks)) := by
  obtain ⟨ret, result', mem', handled, outcome⟩ := leads
  rw [List.flatten_cons, ← List.append_assoc, headerRun, handled]
  dsimp only
  split at outcome
  next late =>
    obtain ⟨rfl, delivered⟩ := outcome
    refine ⟨1, result', mem', got ++ chunk, if_neg (by decide), ?_⟩
    rw [if_pos (by rw [List.length_append]; omega)]
    exact ⟨rfl, List.prefix_append _ _, delivered⟩
  next early =>
    obtain ⟨rfl, between⟩ := outcome
    rw [if_pos rfl]
    exact rest result' mem' (by omega) between

theorem parsed_next (plain : r.Plain) {chunks : List (List UInt8)} {known : Bool}
    {got : List UInt8} {result : HttpResponseResult} {mem view : ByteMem}
    (between : BetweenReads r known got result mem view)
    (early : got.length < r.header.length) (got_le : got ++ chunks.flatten <+: r.bytes)
    (sizes : ∀ chunk ∈ chunks, chunk ≠ [] ∧ chunk.length ≤ httpBufSize - httpHeaderBakLen)
    (clear : r.Clear known got view chunks) :
    HeaderParsed r (got ++ chunks.flatten) (headerRun got result mem chunks) := by
  induction chunks generalizing known got result mem view with
  | nil =>
    rw [List.flatten_nil, List.append_nil]
    refine ⟨0, result, mem, got, rfl, ?_⟩
    have state := between.waiting.state
    rw [if_neg (by omega)]
    exact ⟨rfl, rfl, by omega⟩
  | cons chunk chunks ih =>
    obtain ⟨nonempty, small⟩ := sizes chunk List.mem_cons_self
    rw [List.flatten_cons, ← List.append_assoc] at got_le
    have offset : readOffset got = httpHeaderBakLen := by
      refine if_neg ?_
      rintro rfl
      exact absurd between.kept (by decide)
    rw [OkResponse.Clear, offset] at clear
    obtain ⟨scanned, cut⟩ := clear
    refine parsed_cons (leads_next plain between early ((List.prefix_append _ _).trans got_le)
      nonempty small rfl scanned (fun less => (cut less).1)) ?_
    intro result' mem' less between'
    exact ih between' less got_le (fun chunk mem => sizes chunk (List.mem_cons_of_mem _ mem))
      (cut less).2

end Reads

/-- In every run of reads that cut the header well, from a buffer that does not complete it, the
response is parsed as it is: it never matters how it was split. -/
theorem headerStream {r : OkResponse} (plain : r.Plain) {mem : ByteMem}
    {chunks : List (List UInt8)} (got_le : chunks.flatten <+: r.bytes) (sizes : ReadSizes chunks)
    (clear : r.Clear false [] mem chunks) : r.Streams mem chunks := by
  unfold OkResponse.Streams
  cases chunks with
  | nil =>
    refine ⟨0, .zero, mem, [], rfl, ?_⟩
    rw [if_neg (by have := r.header_long; rw [List.flatten_nil, List.length_nil]; omega)]
    exact ⟨rfl, rfl, by decide⟩
  | cons chunk chunks =>
    obtain ⟨⟨nonempty, small⟩, sizes⟩ := sizes
    rw [List.flatten_cons] at got_le
    obtain ⟨scanned, cut⟩ := clear
    change HeaderParsed r ([] ++ (chunk :: chunks).flatten) _
    refine parsed_cons (leads_first plain ((List.prefix_append _ _).trans got_le)
      nonempty small mem rfl (scanned rfl) (fun less => (cut less).1)) ?_
    intro result' mem' less between
    exact parsed_next plain between less got_le sizes (cut less).2

/-! ## A response in two and in three reads -/

/-- A response with five bytes. -/
def helloResponse : OkResponse where
  major := 0x31
  minor := 0x31
  reason := CString.ascii ['O', 'K']
  before := [CString.ascii ['S', 'e', 'r', 'v', 'e', 'r', ':', ' ', 'n', 'g', 'i', 'n', 'x', '/',
      '1', '.', '1', '8', '.', '0'],
    CString.ascii ['C', 'o', 'n', 'n', 'e', 'c', 't', 'i', 'o', 'n', ':', ' ', 'c', 'l', 'o', 's', 'e']]
  name := contentLengthMixed
  opening := [0x20]
  digits := [0x35]
  closing := []
  after := []
  body := CString.ascii ['h', 'e', 'l', 'l', 'o']
  version := by decide +kernel
  phrase := by decide +kernel
  isLine := by decide +kernel
  named := by decide +kernel
  single := by decide +kernel
  blank := by decide +kernel
  number := by decide +kernel

/-- A response in reads of `n`, `m` and the other bytes. -/
def OkResponse.inThree (r : OkResponse) (n m : Nat) : List (List UInt8) :=
  [r.bytes.take n, (r.bytes.drop n).take m, r.bytes.drop (n + m)]

/-- The same with a line behind the length that begins with its name. -/
def unitResponse : OkResponse :=
  { helloResponse with
    after := [CString.ascii ['C', 'o', 'n', 't', 'e', 'n', 't', '-', 'L', 'e', 'n', 'g', 't', 'h',
      '-', 'U', 'n', 'i', 't', ':', ' ', 'b', 'y', 't', 'e', 's']]
    isLine := by decide +kernel
    single := by decide +kernel }

theorem headerStream_unit : (unitResponse.inThree 40 50).flatten = unitResponse.bytes ∧
    unitResponse.Streams (fun _ => 0) (unitResponse.inThree 40 50) :=
  ⟨by decide +kernel,
    headerStream ⟨by decide +kernel⟩ (by decide +kernel) (by decide +kernel) (by decide +kernel)⟩

/-- The second read ends with the line `Connection`, and at this place of the buffer the first
read has left the end of the line `Server`. -/
theorem headerStream_stale : (helloResponse.inThree 53 5).flatten = helloResponse.bytes ∧
    ¬ helloResponse.Streams (fun _ => 0) (helloResponse.inThree 53 5) := by
  have ran : (headerRun [] .zero (fun _ => 0) (helloResponse.inThree 53 5)).map Prod.fst =
      some (-1) := by
    decide +kernel
  have whole : helloResponse.header.length ≤ (helloResponse.inThree 53 5).flatten.length := by
    decide +kernel
  refine ⟨by decide +kernel, ?_⟩
  rintro ⟨ret, result, mem, received, outcome, ends⟩
  rw [if_pos whole] at ends
  rw [outcome, Option.map_some, Option.some.injEq] at ran
  rw [ends.1] at ran
  cases ran

/-- The second read comes behind the length and does not end the header: the status is erased, and
the third read is searched for a status line. -/
example : (headerRun [] .zero (fun _ => 0) (unitResponse.inThree 80 10)).map Prod.fst =
    some (-1) := by
  decide +kernel

end Tr6260
