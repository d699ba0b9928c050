import Tr6260.Ota.Request

/-!
# The parts of an address

What `ya_parser_url` makes of an address. It looks for `http://` and for the colon of a port in the
whole text that is left, so that it also finds those of the path.
-/

namespace Tr6260

open CString

/-- `"http://"`, and the bytes that part an address. -/
def httpScheme : List UInt8 := CString.ascii ['h', 't', 't', 'p', ':', '/', '/']
def colon : UInt8 := 0x3A
def slash : UInt8 := 0x2F

/-- An address `[http://]host[:port]/path`. -/
structure UrlParts where
  scheme : Bool
  host : List UInt8
  port : Option (List UInt8)
  path : List UInt8

namespace UrlParts

/-- A host has neither of the bytes that part an address, and a port is a number. -/
structure Valid (u : UrlParts) : Prop where
  hostColon : colon ∉ u.host
  hostSlash : slash ∉ u.host
  digits : ∀ port, u.port = some port → port ≠ [] ∧ ∀ b ∈ port, isDigit b = true

/-- Host and port, as they are written. -/
def server (u : UrlParts) : List UInt8 :=
  match u.port with
  | none => u.host
  | some port => u.host ++ colon :: port

/-- The address without its scheme. -/
def rest (u : UrlParts) : List UInt8 := u.server ++ slash :: u.path

def text (u : UrlParts) : List UInt8 := if u.scheme then httpScheme ++ u.rest else u.rest

def portNumber (u : UrlParts) : Nat :=
  match u.port with
  | none => 80
  | some port => decimal port

/-- The parts are found. -/
def Parsed (u : UrlParts) : Prop :=
  let r := yaParserUrl u.text
  r.1 = u.host ∧ r.2.1.toNat = u.portNumber ∧ r.2.2 = u.path

/-- Without a scheme there is none in the path; without a port there is no colon in it, and a port
fits 16 bits. -/
structure Apart (u : UrlParts) : Prop where
  scheme : u.scheme = false → ¬ httpScheme <:+: u.path
  colon : u.port = none → colon ∉ u.path
  port : ∀ port, u.port = some port → decimal port < 65536

end UrlParts

/-! ## Behind the scheme -/

/-- `ya_parser_url` behind the test for `http://`. -/
def parseRest (url : List UInt8) : List UInt8 × UInt16 × List UInt8 :=
  let resource (url : List UInt8) : List UInt8 :=
    match strstr url [slash] with
    | some pos => url.drop (pos + 1)
    | none => []
  match strstr url [colon] with
  | some pos => (url.take pos, toU16 (CString.ofBytes (url.drop (pos + 1))).atoi, resource url)
  | none =>
    match strstr url [slash] with
    | some pos => (url.take pos, 80, resource (url.drop pos))
    | none => ([], 80, [])

theorem yaParserUrl_eq (url : List UInt8) :
    yaParserUrl url = parseRest (if (strstr url httpScheme).isSome then url.drop 7 else url) := by
  have same : yaParserUrl url = parseRest (match strstr url httpScheme with
    | some _ => url.drop 7
    | none => url) := rfl
  rw [same]
  cases strstr url httpScheme <;> rfl

section Rest

variable {host port path : List UInt8}

theorem parseRest_host (hostColon : colon ∉ host) (hostSlash : slash ∉ host)
    (pathColon : colon ∉ path) : parseRest (host ++ slash :: path) = (host, 80, path) := by
  have none_ : colon ∉ host ++ slash :: path := by
    rw [List.mem_append, List.mem_cons]
    rintro (inHost | same | inPath)
    · exact hostColon inHost
    · exact absurd same (by decide)
    · exact pathColon inPath
  rw [parseRest, strstr_byte_none none_]
  dsimp only
  rw [strstr_byte hostSlash]
  dsimp only
  have start : strstr (slash :: path) [slash] = some 0 := strstr_isPrefix ⟨path, rfl⟩
  rw [List.take_left' rfl, List.drop_left' rfl, start]
  rfl

theorem parseRest_port (hostColon : colon ∉ host) (hostSlash : slash ∉ host)
    (some_ : port ≠ []) (digits : ∀ b ∈ port, isDigit b = true) :
    parseRest (host ++ colon :: port ++ slash :: path) =
      (host, toU16 (clampLong (decimal port)), path) := by
  have before : slash ∉ host ++ colon :: port := by
    rw [List.mem_append, List.mem_cons]
    rintro (inHost | same | inPort)
    · exact hostSlash inHost
    · exact absurd same (by decide)
    · exact absurd (digits slash inPort) (by decide)
  have shape : host ++ colon :: port ++ slash :: path =
      host ++ colon :: (port ++ slash :: path) := by
    rw [List.append_assoc, List.cons_append]
  have resource := strstr_byte before path
  have number : (CString.ofBytes (port ++ slash :: path)).atoi = clampLong (decimal port) := by
    refine atoi_decimal some_ digits fun b first => ?_
    cases first
    rfl
  have behind (front text : List UInt8) (b : UInt8) :
      (front ++ b :: text).drop (front.length + 1) = text := by
    rw [List.append_cons, List.drop_left' (by rw [List.length_append, List.length_singleton])]
  have server : strstr (host ++ colon :: port ++ slash :: path) [colon] = some host.length := by
    rw [shape]
    exact strstr_byte hostColon _
  rw [parseRest, server]
  dsimp only
  rw [resource]
  dsimp only
  rw [behind]
  rw [shape, List.take_left' rfl, behind, number]

/-- The host ends at the first colon. -/
theorem parseRest_colon {url : List UInt8} (some_ : colon ∈ url) :
    ∃ front behind, url = front ++ colon :: behind ∧ colon ∉ front ∧ (parseRest url).1 = front := by
  rcases List.eq_append_cons_of_mem some_ with ⟨front, behind, rfl, first⟩
  refine ⟨front, behind, rfl, first, ?_⟩
  rw [parseRest, strstr_byte first]
  exact List.take_left' rfl

/-- What is found behind a slash is shorter than the text. -/
theorem parseRest_resource (url : List UInt8) :
    (parseRest url).2.2 = [] ∨ (parseRest url).2.2.length < url.length := by
  have resource (text : List UInt8) (short : text.length ≤ url.length) :
      (match strstr text [slash] with
        | some pos => text.drop (pos + 1)
        | none => []) = [] ∨
      (match strstr text [slash] with
        | some pos => text.drop (pos + 1)
        | none => []).length < url.length := by
    cases strstr text [slash] with
    | none => exact .inl rfl
    | some pos =>
      dsimp only
      cases text with
      | nil => exact .inl List.drop_nil
      | cons b text =>
        refine .inr (Nat.lt_of_lt_of_le ?_ short)
        rw [List.length_drop, List.length_cons]
        omega
  unfold parseRest
  dsimp only
  split
  · exact resource url (Nat.le_refl _)
  · split
    case h_1 pos _ => exact resource (url.drop pos) (by rw [List.length_drop]; omega)
    case h_2 => exact .inl rfl

/-- A scheme behind a text without slashes that does not end in a colon is behind the first slash. -/
theorem httpScheme_behind {server : List UInt8} (noSlash : slash ∉ server)
    (last : colon ∉ server.getLast?) (inside : httpScheme <:+: server ++ slash :: path) :
    httpScheme <:+: path := by
  have scheme : httpScheme = [0x68, 0x74, 0x74, 0x70, colon, slash, slash] := rfl
  induction server with
  | nil =>
    rw [List.nil_append, List.infix_cons_iff] at inside
    rcases inside with starts | behind
    · rw [scheme, List.cons_prefix_cons] at starts
      exact absurd starts.1 (by decide)
    · exact behind
  | cons b server ih =>
    rw [List.cons_append, List.infix_cons_iff] at inside
    rcases inside with starts | behind
    · exfalso
      -- the first slash of the scheme would be in the server, or the colon before it at its end
      rcases server with _ | ⟨b1, _ | ⟨b2, _ | ⟨b3, _ | ⟨b4, _ | ⟨b5, server⟩⟩⟩⟩⟩ <;>
        simp only [scheme, List.nil_append, List.cons_append, List.cons_prefix_cons] at starts
      · exact absurd starts.2.1 (by decide)
      · exact absurd starts.2.2.1 (by decide)
      · exact absurd starts.2.2.2.1 (by decide)
      · exact absurd starts.2.2.2.2.1 (by decide)
      · exact last (starts.2.2.2.2.1 ▸ rfl)
      · exact noSlash (starts.2.2.2.2.2.1 ▸ by simp)
    · refine ih (List.not_mem_of_not_mem_cons noSlash) ?_ behind
      cases server with
      | nil => exact fun none_ => nomatch none_
      | cons b' server =>
        rw [List.getLast?_cons_cons] at last
        exact last

end Rest

namespace UrlParts

variable {u : UrlParts}

theorem Valid.server_slash (valid : u.Valid) : slash ∉ u.server := by
  unfold server
  split
  · exact valid.hostSlash
  case h_2 port same =>
    rw [List.mem_append, List.mem_cons]
    rintro (inHost | same' | inPort)
    · exact valid.hostSlash inHost
    · exact absurd same' (by decide)
    · exact absurd ((valid.digits port same).2 slash inPort) (by decide)

theorem Valid.server_last (valid : u.Valid) : colon ∉ u.server.getLast? := by
  unfold server
  split
  · exact fun last => valid.hostColon (List.mem_of_getLast? last)
  case h_2 port same =>
    rcases valid.digits port same with ⟨some_, digits⟩
    rcases List.eq_nil_or_concat port with none_ | ⟨front, b, rfl⟩
    · exact absurd none_ some_
    · rw [List.concat_eq_append, ← List.cons_append, ← List.append_assoc,
        List.getLast?_concat]
      rintro ⟨⟩
      exact absurd (digits colon (by simp)) (by decide)

theorem decimal_port (port : List UInt8) (number : decimal port < 65536) :
    (toU16 (clampLong (decimal port))).toNat = decimal port := by
  unfold toU16 clampLong
  rw [UInt16.toNat_ofNat']
  omega

/-- Behind the scheme the parts are found if and only if a colon is that of the port. -/
theorem parseRest_iff (valid : u.Valid) :
    ((parseRest u.rest).1 = u.host ∧ (parseRest u.rest).2.1.toNat = u.portNumber ∧
      (parseRest u.rest).2.2 = u.path) ↔
    (u.port = none → colon ∉ u.path) ∧ ∀ port, u.port = some port → decimal port < 65536 := by
  unfold rest server portNumber
  cases same : u.port with
  | none =>
    dsimp only
    constructor
    · rintro ⟨host, -, -⟩
      refine ⟨fun _ inPath => ?_, fun _ other => (nomatch other)⟩
      rcases parseRest_colon (List.mem_append_right u.host (List.mem_cons_of_mem slash inPath))
        with ⟨front, behind, split, -, found⟩
      rw [found] at host
      rw [host, List.append_cancel_left_eq, List.cons.injEq] at split
      exact absurd split.1 (by decide)
    · rintro ⟨without, -⟩
      rw [parseRest_host valid.hostColon valid.hostSlash (without rfl)]
      exact ⟨rfl, rfl, rfl⟩
  | some port =>
    rcases valid.digits port same with ⟨some_, digits⟩
    dsimp only
    rw [parseRest_port valid.hostColon valid.hostSlash some_ digits]
    dsimp only
    constructor
    · rintro ⟨-, number, -⟩
      refine ⟨fun other => (nomatch other), ?_⟩
      rintro _ ⟨⟩
      rw [← number]
      exact UInt16.toNat_lt _
    · rintro ⟨-, small⟩
      exact ⟨rfl, decimal_port port (small port rfl), rfl⟩

/-- The colon of a server does not move when bytes are left out in front of it. -/
theorem Valid.server_drop (valid : u.Valid) (behind : List UInt8) :
    u.server.drop 7 ≠ u.host ++ colon :: behind := by
  intro same
  have found : strstr (u.server.drop 7) [colon] = some u.host.length := by
    rw [same]
    exact strstr_byte valid.hostColon behind
  have none_ (without : colon ∉ u.server.drop 7) : False := by
    rw [strstr_byte_none without] at found
    cases found
  unfold server at found none_
  cases port : u.port with
  | none =>
    rw [port] at none_
    exact none_ fun inHost => valid.hostColon (List.mem_of_mem_drop inHost)
  | some port' =>
    rw [port] at found none_
    dsimp only at found none_
    rcases Nat.lt_or_ge u.host.length 7 with short | long
    · refine none_ fun inPort => ?_
      rw [List.append_cons, List.drop_append, List.mem_append] at inPort
      rcases inPort with front | digits
      · rw [List.drop_eq_nil_of_le (by rw [List.length_append, List.length_singleton]; omega)] at front
        cases front
      · have digit := (valid.digits port' port).2 colon (List.mem_of_mem_drop digits)
        exact absurd digit (by decide)
    · have before : colon ∉ u.host.drop 7 := fun inHost =>
        valid.hostColon (List.mem_of_mem_drop inHost)
      rw [List.drop_append_of_le_length long, strstr_byte before, Option.some.injEq,
        List.length_drop] at found
      omega

/-- Seven bytes too many are left out: the parts are not found. -/
theorem parseRest_drop (valid : u.Valid) (inPath : httpScheme <:+: u.path) :
    ¬ ((parseRest (u.rest.drop 7)).1 = u.host ∧ (parseRest (u.rest.drop 7)).2.2 = u.path) := by
  rintro ⟨host, path⟩
  have colonThere : colon ∈ u.path := inPath.subset (by decide)
  rcases Nat.lt_or_ge u.server.length 7 with short | long
  · -- the resource is shorter than the path
    have length : (u.rest.drop 7).length ≤ u.path.length := by
      rw [rest, List.length_drop, List.length_append, List.length_cons]
      omega
    rcases parseRest_resource (u.rest.drop 7) with none_ | less
    · rw [← path, none_] at colonThere
      cases colonThere
    · rw [path] at less
      omega
  · -- the first colon is behind the first slash, or seven bytes before its place
    have left : u.rest.drop 7 = u.server.drop 7 ++ slash :: u.path := List.drop_append_of_le_length long
    rw [left] at host
    rcases parseRest_colon (List.mem_append_right (u.server.drop 7)
      (List.mem_cons_of_mem slash colonThere)) with ⟨front, behind, split, first, found⟩
    rw [found] at host
    rw [host] at split
    rcases List.append_eq_append_iff.mp split with ⟨more, inHost, same⟩ | ⟨more, inServer, same⟩
    · cases more with
      | nil => exact absurd (List.cons.inj same).1 (by decide)
      | cons b more =>
        have slash_ : slash = b := (List.cons.inj same).1
        exact valid.hostSlash (by rw [inHost, ← slash_]; simp)
    · cases more with
      | nil => exact absurd (List.cons.inj same).1 (by decide)
      | cons b more =>
        have colon_ : colon = b := (List.cons.inj same).1
        rw [← colon_] at inServer
        exact valid.server_drop more inServer

end UrlParts

/-- An address is taken apart into its parts if and only if a scheme and a colon that are found are
those in front of the path, and the port fits its 16 bits. -/
theorem parserUrl_parsed_iff {u : UrlParts} (valid : u.Valid) : u.Parsed ↔ u.Apart := by
  have behind := UrlParts.parseRest_iff valid
  have split : u.Apart ↔ (u.scheme = false → ¬ httpScheme <:+: u.path) ∧
      (u.port = none → colon ∉ u.path) ∧ ∀ port, u.port = some port → decimal port < 65536 :=
    ⟨fun apart => ⟨apart.scheme, apart.colon, apart.port⟩,
      fun parts => ⟨parts.1, parts.2.1, parts.2.2⟩⟩
  rw [split, UrlParts.Parsed, yaParserUrl_eq, UrlParts.text]
  cases scheme : u.scheme with
  | true =>
    have starts : strstr (httpScheme ++ u.rest) httpScheme = some 0 := strstr_isPrefix ⟨u.rest, rfl⟩
    rw [if_pos rfl, if_pos (by rw [starts]; rfl)]
    have left : (httpScheme ++ u.rest).drop 7 = u.rest := List.drop_left' rfl
    rw [left, behind]
    exact ⟨fun parts => ⟨fun other => (nomatch other), parts⟩, fun parts => parts.2⟩
  | false =>
    rw [if_neg Bool.false_ne_true]
    by_cases inPath : httpScheme <:+: u.path
    · have found : (strstr u.rest httpScheme).isSome = true := by
        refine strstr_isSome.mpr (inPath.trans (List.IsSuffix.isInfix ?_))
        exact ⟨u.server ++ [slash], by simp [UrlParts.rest]⟩
      rw [if_pos found]
      constructor
      · rintro ⟨host, -, path⟩
        exact absurd ⟨host, path⟩ (UrlParts.parseRest_drop valid inPath)
      · exact fun parts => absurd inPath (parts.1 rfl)
    · have missing : ¬ (strstr u.rest httpScheme).isSome = true := fun found =>
        inPath (httpScheme_behind valid.server_slash valid.server_last (strstr_isSome.mp found))
      rw [if_neg missing, behind]
      exact ⟨fun parts => ⟨fun _ => inPath, parts⟩, fun parts => parts.2⟩

/-- `http://h/a`. -/
def plainUrl : UrlParts := ⟨true, [0x68], none, [0x61]⟩

theorem parserUrl_parsed_plain : plainUrl.Parsed := by
  have valid : plainUrl.Valid := ⟨by decide, by decide, fun _ none_ => (nomatch none_)⟩
  exact (parserUrl_parsed_iff valid).mpr
    ⟨fun other => (nomatch other), fun _ => by decide, fun _ none_ => (nomatch none_)⟩

/-- `http://h/a:b`: the host that is found is `h/a`. -/
theorem parserUrl_colon : ¬ ∀ u : UrlParts, u.Valid → u.Parsed := by
  intro all
  have parsed := all ⟨true, [0x68], none, [0x61, 0x3A, 0x62]⟩
    ⟨by decide, by decide, fun _ none_ => (nomatch none_)⟩
  exact absurd parsed.1 (by decide)

end Tr6260
