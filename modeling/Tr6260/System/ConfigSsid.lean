import Tr6260.CString
import Tr6260.HexText

/-!
# The name of a network

`wifi_config_ssid` sends the name as hexadecimal text behind `set_network 0 ssid`, and the control
interface reads it back with `hexstr2bin`. The bytes are printed with `%2X`: a width pads with
blanks, and a blank is no digit. So a name is read back exactly when none of its bytes is below 16.
-/

namespace Tr6260

namespace ConfigSsid

open HexText

/-! ## The command -/

/-- `WIFI_CMD_LEN`. -/
def wifiCmdLen : Nat := 100

/-- `WIFI_SSID_MAX_LEN`. -/
def wifiSsidMaxLen : Nat := 32 + 1

/-- What stands in front of the name. -/
def setNetwork : CString := .lit "set_network 0 ssid ".toList

/-- `sprintf` of a text to a place in the buffer; a text that does not fit has no result. -/
def sprintf (buf : List UInt8) (pos : Nat) (text : CString) : Option (List UInt8) :=
  (CString.strcpy (buf.drop pos) text).map (buf.take pos ++ ·)

/-- A byte under `%2X`. -/
def hex2 (c : UInt8) : CString := ⟨padded 2 c.toNat, zero_notMem_padded c.toNat_lt⟩

/-- The loop of `wifi_config_ssid`, with the memory from `ssid[i]` on. -/
def ssidLoop (ssid buf : List UInt8) (pos i : Nat) : Option (List UInt8) :=
  if pos = wifiCmdLen - 1 then some buf
  else
    match ssid with
    | [] => none
    | c :: rest =>
      if c ≠ 0 ∧ i < wifiSsidMaxLen then do
        let buf ← sprintf buf pos (hex2 c)
        ssidLoop rest buf (pos + 2) (i + 1)
      else
        some buf

/-- `wifi_config_ssid` on a pointer and the memory behind it: the command that it hands to
`wifi_ctrl_iface`, or -1. An access outside of the memory has no result. -/
def wifiConfigSsid : Option (List UInt8) → Option (Option CString)
  | none => some none
  | some [] => none
  | some (c :: rest) =>
    if c = 0 then some none
    else do
      let buf ← sprintf (List.replicate wifiCmdLen 0) 0 setNetwork
      let buf ← ssidLoop (c :: rest) buf (CString.ofBytes buf).strlen 0
      some (some (.ofBytes buf))

/-! ## The reader -/

/-- `hex2num`; nothing is -1. -/
def hex2num (c : UInt8) : Option Nat :=
  if 0x30 ≤ c ∧ c ≤ 0x39 then some (c.toNat - 0x30)
  else if 0x61 ≤ c ∧ c ≤ 0x66 then some (c.toNat - 0x61 + 10)
  else if 0x41 ≤ c ∧ c ≤ 0x46 then some (c.toNat - 0x41 + 10)
  else none

/-- `hex2byte`. -/
def hex2byte (high low : UInt8) : Option Nat := do
  let a ← hex2num high
  let b ← hex2num low
  some (a <<< 4 ||| b)

/-- `hexstr2bin`. -/
def hexstr2bin : List UInt8 → Nat → Option (List UInt8)
  | _, 0 => some []
  | high :: low :: rest, len + 1 => do
    let a ← hex2byte high low
    let bin ← hexstr2bin rest len
    some (.ofNat a :: bin)
  | _, _ + 1 => none

/-- `wpa_config_parse_string` of a value that does not start with a quotation mark or `P"`. -/
def wpaConfigParseString (value : List UInt8) : Option (List UInt8) :=
  if value.length % 2 = 1 then none else hexstr2bin value (value.length / 2)

/-! ## What the loop writes -/

/-- The text behind `set_network 0 ssid`. -/
def argument (ssid : List UInt8) : List UInt8 := ssid.flatMap fun c => (hex2 c).1

@[simp]
theorem argument_cons (c : UInt8) (ssid : List UInt8) :
    argument (c :: ssid) = (hex2 c).1 ++ argument ssid := rfl

theorem strlen_hex2 (c : UInt8) : (hex2 c).strlen = 2 := length_padded c.toNat_lt

theorem length_argument (ssid : List UInt8) : (argument ssid).length = 2 * ssid.length := by
  induction ssid with
  | nil => rfl
  | cons c ssid ih =>
    have two : (hex2 c).1.length = 2 := strlen_hex2 c
    rw [argument_cons, List.length_append, two, ih, List.length_cons]
    omega

theorem zero_notMem_argument (ssid : List UInt8) : 0 ∉ argument ssid := by
  intro zero
  obtain ⟨c, _, inside⟩ := List.mem_flatMap.mp zero
  exact (hex2 c).2 inside

/-- A print at the end of what the buffer holds so far. -/
theorem sprintf_behind {front : List UInt8} {text : CString} {room : Nat}
    (fits : text.strlen < room) :
    sprintf (front ++ List.replicate room 0) front.length text =
      some ((front ++ text.1) ++ List.replicate (room - text.strlen) 0) := by
  have enough : text.strlen + 1 ≤ (List.replicate room (0 : UInt8)).length := by
    rw [List.length_replicate]
    exact fits
  have left : room - text.strlen = (room - (text.strlen + 1)) + 1 := by omega
  rw [sprintf, List.drop_left, List.take_left, CString.strcpy, if_pos enough, Option.map_some,
    List.drop_replicate, left, List.replicate_succ, List.append_assoc]

/-- The loop ends at the end of the name: the buffer has room for all of it. -/
theorem ssidLoop_eq {ssid : List UInt8} (text : 0 ∉ ssid) (behind : List UInt8)
    {front : List UInt8} {room i : Nat} (whole : front.length + room = wifiCmdLen)
    (fits : 2 * ssid.length + 1 < room) (short : i + ssid.length < wifiSsidMaxLen) :
    ssidLoop (ssid ++ 0 :: behind) (front ++ List.replicate room 0) front.length i =
      some (front ++ argument ssid ++ List.replicate (room - 2 * ssid.length) 0) := by
  induction ssid generalizing front room i with
  | nil =>
    have inside : front.length ≠ wifiCmdLen - 1 := by
      simp only [List.length_nil] at fits
      omega
    rw [List.nil_append, ssidLoop, if_neg inside]
    simp [argument]
  | cons c ssid ih =>
    simp only [List.length_cons] at fits short
    have inside : front.length ≠ wifiCmdLen - 1 := by omega
    have goOn : c ≠ 0 ∧ i < wifiSsidMaxLen :=
      ⟨fun zero => text (zero ▸ List.mem_cons_self), by omega⟩
    have two : (hex2 c).1.length = 2 := strlen_hex2 c
    have written : sprintf (front ++ List.replicate room 0) front.length (hex2 c) =
        some ((front ++ (hex2 c).1) ++ List.replicate (room - 2) 0) := by
      have print := @sprintf_behind front (hex2 c) room (by rw [strlen_hex2]; omega)
      rwa [strlen_hex2] at print
    have rest := @ih (fun mem => text (List.mem_cons_of_mem c mem)) (front ++ (hex2 c).1)
      (room - 2) (i + 1) (by rw [List.length_append, two]; omega) (by omega) (by omega)
    have next : (front ++ (hex2 c).1).length = front.length + 2 := by
      rw [List.length_append, two]
    have left : room - 2 - 2 * ssid.length = room - 2 * (ssid.length + 1) := by omega
    rw [next, left] at rest
    rw [List.cons_append, ssidLoop, if_neg inside, if_pos goOn, written]
    refine rest.trans ?_
    rw [argument_cons, List.length_cons, List.append_assoc, List.append_assoc, List.append_assoc,
      List.append_assoc]

/-- The command for a name of up to 32 bytes: the name is printed whole, inside the buffer. -/
theorem wifiConfigSsid_eq {ssid : CString} (some_ : 0 < ssid.strlen) (short : ssid.strlen ≤ 32)
    (behind : List UInt8) :
    ∃ command : CString, wifiConfigSsid (some (ssid.1 ++ 0 :: behind)) = some (some command) ∧
      command.1 = setNetwork.1 ++ argument ssid.1 := by
  obtain ⟨bytes, text⟩ := ssid
  simp only [CString.strlen] at some_ short
  have start : setNetwork.1.length = 19 := by decide
  have opening : sprintf (List.replicate wifiCmdLen 0) 0 setNetwork =
      some (setNetwork.1 ++ List.replicate 81 0) := by
    have print := @sprintf_behind [] setNetwork wifiCmdLen (by decide)
    rwa [CString.strlen, start] at print
  have place : (CString.ofBytes (setNetwork.1 ++ List.replicate 81 0)).strlen =
      setNetwork.1.length := by decide
  have loop := @ssidLoop_eq bytes text behind setNetwork.1 81 0 (by rw [start]; rfl) (by omega)
    (by unfold wifiSsidMaxLen; omega)
  have ends : List.replicate (81 - 2 * bytes.length) (0 : UInt8) =
      0 :: List.replicate (80 - 2 * bytes.length) 0 := by
    have more : 81 - 2 * bytes.length = 80 - 2 * bytes.length + 1 := by omega
    rw [more, List.replicate_succ]
  have plain : 0 ∉ setNetwork.1 ++ argument bytes := by
    rw [List.mem_append, not_or]
    exact ⟨setNetwork.2, zero_notMem_argument bytes⟩
  refine ⟨⟨setNetwork.1 ++ argument bytes, plain⟩, ?_, rfl⟩
  cases bytes with
  | nil => cases some_
  | cons c rest =>
    have first : c ≠ 0 := fun zero => text (zero ▸ List.mem_cons_self)
    rw [List.cons_append] at loop ⊢
    rw [wifiConfigSsid, if_neg first, opening]
    refine Eq.trans (congrArg (fun n => (ssidLoop _ _ n 0).bind _) place) ?_
    rw [loop, ends]
    exact congrArg (fun c => some (some c)) (CString.ofBytes_append ⟨_, plain⟩ _)

/-! ## What is read back -/

theorem hex2num_digit {d : Nat} (low : d < 16) : hex2num (digit d) = some d := by
  have all : ∀ d < 16, hex2num (digit d) = some d := by decide
  exact all d low

theorem hex2byte_digits {a b : Nat} (high : a < 16) (low : b < 16) :
    hex2byte (digit a) (digit b) = some (16 * a + b) := by
  have joined : a <<< 4 ||| b = 16 * a + b := by
    rw [← Nat.shiftLeft_add_eq_or_of_lt (by omega), Nat.shiftLeft_eq]
    omega
  rw [hex2byte, hex2num_digit high, hex2num_digit low, ← joined]
  rfl

/-- A blank is no digit. -/
theorem hex2byte_blank (low : UInt8) : hex2byte 0x20 low = none := rfl

theorem hex2_high {c : UInt8} (high : 16 ≤ c.toNat) :
    (hex2 c).1 = [digit (c.toNat / 16), digit (c.toNat % 16)] :=
  padded_high high c.toNat_lt

theorem hex2_low {c : UInt8} (low : c.toNat < 16) : (hex2 c).1 = [0x20, digit c.toNat] :=
  padded_low low

theorem hexstr2bin_argument {ssid : List UInt8} (high : ∀ c ∈ ssid, 16 ≤ c.toNat) :
    hexstr2bin (argument ssid) ssid.length = some ssid := by
  induction ssid with
  | nil => rfl
  | cons c ssid ih =>
    have first : hex2byte (digit (c.toNat / 16)) (digit (c.toNat % 16)) = some c.toNat := by
      have byte := c.toNat_lt
      rw [hex2byte_digits (by omega) (Nat.mod_lt _ (by decide)), Nat.div_add_mod]
    have rest := ih fun d later => high d (List.mem_cons_of_mem c later)
    rw [argument_cons, hex2_high (high c List.mem_cons_self)]
    simp [hexstr2bin, first, rest]

/-- One byte below 16, and the value is refused as a whole. -/
theorem hexstr2bin_blank {ssid : List UInt8} (low : ∃ c ∈ ssid, c.toNat < 16) :
    hexstr2bin (argument ssid) ssid.length = none := by
  induction ssid with
  | nil =>
    obtain ⟨c, inside, _⟩ := low
    cases inside
  | cons c ssid ih =>
    rw [argument_cons, List.length_cons]
    by_cases first : c.toNat < 16
    · rw [hex2_low first]
      simp [hexstr2bin, hex2byte_blank]
    · have later : ∃ d ∈ ssid, d.toNat < 16 := by
        obtain ⟨d, inside, small⟩ := low
        cases List.mem_cons.mp inside with
        | inl here => exact absurd (here ▸ small) first
        | inr there => exact ⟨d, there, small⟩
      rw [hex2_high (by omega)]
      simp [hexstr2bin, ih later]

theorem wpaConfigParseString_argument (ssid : List UInt8) :
    wpaConfigParseString (argument ssid) = hexstr2bin (argument ssid) ssid.length := by
  have even : (argument ssid).length % 2 ≠ 1 := by
    rw [length_argument]
    omega
  have half : (argument ssid).length / 2 = ssid.length := by
    rw [length_argument]
    omega
  rw [wpaConfigParseString, if_neg even, half]

theorem isDigit_argument {ssid : List UInt8} (high : ∀ c ∈ ssid, 16 ≤ c.toNat) :
    ∀ d ∈ argument ssid, IsDigit d := by
  intro d printed
  obtain ⟨c, inside, digitOf⟩ := List.mem_flatMap.mp printed
  have byte := c.toNat_lt
  rw [hex2_high (high c inside)] at digitOf
  simp only [List.mem_cons, List.not_mem_nil, or_false] at digitOf
  cases digitOf with
  | inl left =>
    rw [left]
    apply isDigit_digit
    omega
  | inr right =>
    rw [right]
    apply isDigit_digit
    omega

/-! ## Whether the name arrives -/

/-- The name is passed on faithfully, in a command that fits its buffer. -/
structure PassedOn (ssid : CString) (command : CString) : Prop where
  fits : command.strlen + 1 ≤ wifiCmdLen
  digits : ∃ value : List UInt8, command.1 = setNetwork.1 ++ value ∧
    value.length = 2 * ssid.strlen ∧ (∀ d ∈ value, IsDigit d) ∧
    wpaConfigParseString value = some ssid.1

theorem passedOn_iff {ssid command : CString} (short : ssid.strlen ≤ 32)
    (printed : command.1 = setNetwork.1 ++ argument ssid.1) :
    PassedOn ssid command ↔ ∀ c ∈ ssid.1, 16 ≤ c.toNat := by
  constructor
  · intro passed c inside
    obtain ⟨value, same, _, _, read⟩ := passed.digits
    have joined : setNetwork.1 ++ value = setNetwork.1 ++ argument ssid.1 := by
      rw [← same, printed]
    have value_eq : value = argument ssid.1 := List.append_cancel_left joined
    by_contra low
    rw [value_eq, wpaConfigParseString_argument,
      hexstr2bin_blank ⟨c, inside, by omega⟩] at read
    cases read
  · intro high
    have start : setNetwork.1.length = 19 := by decide
    have size : ssid.1.length ≤ 32 := short
    refine ⟨?_, argument ssid.1, printed, length_argument _, isDigit_argument high, ?_⟩
    · rw [CString.strlen, printed, List.length_append, start, length_argument, wifiCmdLen]
      omega
    · rw [wpaConfigParseString_argument, hexstr2bin_argument high]

/-- A name of 1 to 32 bytes is passed on faithfully exactly when no byte of it is below 16. -/
theorem wifiConfigSsid_passedOn_iff (ssid : CString) (some_ : 0 < ssid.strlen)
    (short : ssid.strlen ≤ 32) (behind : List UInt8) :
    (∃ command, wifiConfigSsid (some (ssid.1 ++ 0 :: behind)) = some (some command) ∧
        PassedOn ssid command) ↔
      ∀ c ∈ ssid.1, 16 ≤ c.toNat := by
  obtain ⟨command, sent, printed⟩ := wifiConfigSsid_eq some_ short behind
  rw [← passedOn_iff short printed]
  constructor
  · intro ⟨other, sent', passed⟩
    rw [sent] at sent'
    cases sent'
    exact passed
  · intro passed
    exact ⟨command, sent, passed⟩

/-- A name of 32 bytes, from the lowest to the highest that are passed on. -/
def longName : CString := ⟨0x10 :: 0x41 :: List.replicate 30 0xFF, by decide⟩

theorem wifiConfigSsid_long :
    ∃ command, wifiConfigSsid (some (longName.1 ++ 0 :: [0x41])) = some (some command) ∧
      PassedOn longName command :=
  (wifiConfigSsid_passedOn_iff longName (by decide) (by decide) [0x41]).mpr (by decide +kernel)

/-- A name with a tab in it. -/
def tabbed : CString := ⟨[0x41, 0x09], by decide⟩

theorem wifiConfigSsid_tab :
    ¬ ∀ (ssid : CString), 0 < ssid.strlen → ssid.strlen ≤ 32 → ∀ behind : List UInt8,
      ∃ command, wifiConfigSsid (some (ssid.1 ++ 0 :: behind)) = some (some command) ∧
        PassedOn ssid command := by
  intro all
  obtain ⟨command, sent, passed⟩ := all tabbed (by decide) (by decide) []
  obtain ⟨own, sent', printed⟩ := @wifiConfigSsid_eq tabbed (by decide) (by decide) []
  rw [sent] at sent'
  cases sent'
  have high := (passedOn_iff (by decide) printed).mp passed 0x09 (by decide)
  revert high
  decide

end ConfigSsid

end Tr6260
