import Tr6260.WifiDrv.Interface

/-!
# Packet numbers

The headers `nrc_add_sec_hdr` puts in front of an encrypted frame, and `wpa_driver_nrc_set_key`.
The counter of a key is one field for all ciphers; each of them lays it out in its own way. What
`set_key` tells the hardware is left out, and a key longer than the array for it has no result.
-/

namespace Tr6260

namespace WifiDrv

/-! ## Headers -/

/-- `nrc_add_ccmp_hdr`. -/
def nrcAddCcmpHdr (key : WpaKey) : List UInt8 × WpaKey :=
  let pn := key.tsc
  ([.ofNat pn, .ofNat (pn >>> 8), 0, .ofNat (0x20 ||| key.ix <<< 6), .ofNat (pn >>> 16),
    .ofNat (pn >>> 24), .ofNat (pn >>> 32), .ofNat (pn >>> 40)],
    { key with tsc := (pn + 1) % 2 ^ 64 })

/-- `nrc_add_tkip_hdr`. -/
def nrcAddTkipHdr (key : WpaKey) : List UInt8 × WpaKey :=
  let iv16 := ((key.tsc &&& 0xFFFF) + 1) % 2 ^ 16
  let iv32 := (key.tsc >>> 32) % 2 ^ 32
  let iv32 := if iv16 = 0 then (iv32 + 1) % 2 ^ 32 else iv32
  ([.ofNat (iv16 >>> 8), .ofNat ((iv16 >>> 8 ||| 0x20) &&& 0x7f), .ofNat (iv16 &&& 0xFF),
    .ofNat (key.ix <<< 6 ||| 1 <<< 5), .ofNat iv32, .ofNat (iv32 >>> 8), .ofNat (iv32 >>> 16),
    .ofNat (iv32 >>> 24)],
    { key with tsc := iv32 <<< 32 ||| iv16 })

/-- `is_weak_wep`. -/
def isWeakWep (key : WpaKey) (iv : Nat) : Bool :=
  if iv &&& 0xff00 = 0xff00 then
    let t := (iv >>> 16) &&& 0xff
    t ≥ 3 ∧ t < 3 + key.keyLen
  else
    false

/-- `nrc_add_wep_hdr`. -/
def nrcAddWepHdr (key : WpaKey) : List UInt8 × WpaKey :=
  let iv := (key.tsc % 2 ^ 32 + 1) % 2 ^ 32
  let iv := if isWeakWep key iv then (iv + 0x100) % 2 ^ 32 else iv
  ([.ofNat ((iv >>> 16) &&& 0xff), .ofNat ((iv >>> 8) &&& 0xff), .ofNat (iv &&& 0xff),
    .ofNat (key.ix <<< 6)],
    { key with tsc := iv })

/-- `nrc_add_sec_hdr`. -/
def nrcAddSecHdr (key : WpaKey) : List UInt8 × WpaKey :=
  match key.cipher with
  | .ccmp => nrcAddCcmpHdr key
  | .tkip => nrcAddTkipHdr key
  | .wep40 | .wep104 => nrcAddWepHdr key
  | .none | .wapi | .invalid => ([], key)

/-! ## Installing a key -/

/-- `enum wpa_alg`, with the algorithms this driver does not know as one. -/
inductive WpaAlg
  | none
  | wep
  | tkip
  | ccmp
  | other
  deriving DecidableEq

/-- `nrc_to_wim_cipher_type`. -/
def nrcToWimCipherType (alg : WpaAlg) (keyLen : Nat) : Cipher :=
  match alg with
  | .none => .none
  | .wep => if keyLen = 5 then .wep40 else .wep104
  | .tkip => .tkip
  | .ccmp => .ccmp
  | .other => .invalid

/-- `wpa_driver_nrc_get_bssid`. -/
def wpaDriverNrcGetBssid (intf : WpaIf) : Mac :=
  if intf.associated then intf.bss.bssid else .replicate 6 0

/-- The key that `wpa_driver_nrc_set_key` changes. -/
def setKeyRef (intf : WpaIf) (alg : WpaAlg) (addr : Option Mac) : Option KeyRef :=
  if intf.isAp = false ∧ alg = .wep ∧ addr = none then some (.of .sta)
  else if intf.isAp = false ∧ alg = .none ∧ addr = none ∧ isWep intf.sta.key.cipher then
    some (.of .sta)
  else nrcWpaGetKey intf addr

/-- `wpa_driver_nrc_set_key`, once the key to change is found. `is_wep` is asked of an algorithm
here, and `WPA_ALG_NONE` and `WPA_ALG_WEP` have the numbers of the two WEP ciphers. -/
def setKeyAt (intf : WpaIf) (ref : KeyRef) (bssid : Mac) (alg : WpaAlg) (addr : Option Mac)
    (keyIdx : Nat) (key : List UInt8) : Option WpaIf :=
  let isRemove := alg = .none ∨ (¬ (alg = .none ∨ alg = .wep) ∧ addr = none)
  if isRemove ∧ (intf.keyAt ref).any (·.isSet = false) then some intf
  else if key.length > 32 then none
  else some (intf.modifyKey (fun wk =>
    { wk with
      cipher := nrcToWimCipherType alg key.length
      ix := keyIdx % 2 ^ 16
      keyLen := key.length
      addr := if alg = .wep ∧ intf.isAp then bssid else addr.getD wk.addr
      key := key ++ wk.key.drop key.length
      isSet := true }) ref)

/-- `wpa_driver_nrc_set_key`. -/
def wpaDriverNrcSetKey (intf : WpaIf) (alg : WpaAlg) (addr : Option Mac) (keyIdx : Nat)
    (key : List UInt8) : Option WpaIf :=
  let bssid := wpaDriverNrcGetBssid intf
  match setKeyRef intf alg addr with
  | none => some intf
  | some ref =>
    let intf := if intf.isAp = false ∧ alg = .wep ∧ addr = none then
        intf.modifyKey (fun wk => { wk with addr := bssid }) ref
      else intf
    setKeyAt intf ref bssid alg addr keyIdx key

/-! ## Runs -/

/-- What happens to a key. -/
inductive KeyOp
  | addSecHdr
  | setKey (alg : WpaAlg) (addr : Option Mac) (keyIdx : Nat) (key : List UInt8)

/-- A header that was produced, with what the key was then. -/
structure SecHdr where
  cipher : Cipher
  keyLen : Nat
  bytes : List UInt8

/-- The calls on the key at `ref`, with the headers that are produced. -/
def keyRun (ref : KeyRef) : WpaIf → List KeyOp → Option (WpaIf × List SecHdr)
  | intf, [] => some (intf, [])
  | intf, .addSecHdr :: ops => do
    let key ← intf.keyAt ref
    let hdr := nrcAddSecHdr key
    let later ← keyRun ref (intf.modifyKey (fun _ => hdr.2) ref) ops
    some (later.1,
      if hdr.1 = [] then later.2 else ⟨key.cipher, key.keyLen, hdr.1⟩ :: later.2)
  | intf, .setKey alg addr keyIdx key :: ops => do
    let intf ← wpaDriverNrcSetKey intf alg addr keyIdx key
    keyRun ref intf ops

/-! ## Packet numbers -/

/-- The ciphers by the way they count. -/
inductive Counting
  | ccmp
  | tkip
  | wep
  deriving DecidableEq

def Cipher.counting : Cipher → Option Counting
  | .ccmp => some .ccmp
  | .tkip => some .tkip
  | .wep40 | .wep104 => some .wep
  | .none | .wapi | .invalid => Option.none

/-- The number a receiver reads out of a header. -/
def packetNumber (counting : Counting) (bytes : List UInt8) : Nat :=
  let b (i : Nat) : Nat := (bytes.getD i 0).toNat
  match counting with
  | .ccmp => b 0 + 2 ^ 8 * b 1 + 2 ^ 16 * b 4 + 2 ^ 24 * b 5 + 2 ^ 32 * b 6 + 2 ^ 40 * b 7
  | .tkip => b 2 + 2 ^ 8 * b 0 + 2 ^ 16 * b 4 + 2 ^ 24 * b 5 + 2 ^ 32 * b 6 + 2 ^ 40 * b 7
  | .wep => b 2 + 2 ^ 8 * b 1 + 2 ^ 16 * b 0

/-- A weak IV for a key of this length. -/
def WeakIv (keyLen : Nat) (bytes : List UInt8) : Prop :=
  bytes.getD 1 0 = 0xff ∧ 3 ≤ (bytes.getD 0 0).toNat ∧ (bytes.getD 0 0).toNat ≤ 2 + keyLen

/-- The number of frames within which no number comes again. -/
def Counting.frames : Counting → Nat
  | .ccmp | .tkip => 2 ^ 47
  | .wep => 2 ^ 23

/-! ## One header -/

/-- The least number the next header can have. -/
def Counting.next (counting : Counting) (tsc : Nat) : Nat :=
  match counting with
  | .ccmp => tsc
  | .tkip => tsc / 2 ^ 32 * 2 ^ 16 + tsc % 2 ^ 16 + 1
  | .wep => tsc + 1

/-- The counter behind `n` headers. A WEP counter is ahead of them by the skips, at most one of 256
for each value of its high byte. -/
def Counting.At (counting : Counting) (n tsc : Nat) : Prop :=
  match counting with
  | .ccmp => tsc = n
  | .tkip => tsc % 2 ^ 32 < 2 ^ 16 ∧ tsc / 2 ^ 32 * 2 ^ 16 + tsc % 2 ^ 16 = n
  | .wep => tsc ≤ n + 256 * (tsc / 2 ^ 16)

/-- What a header does to the counter. -/
structure Counts (counting : Counting) (n : Nat) (key key' : WpaKey) (bytes : List UInt8) : Prop where
  produced : bytes ≠ []
  after : counting.next key.tsc ≤ packetNumber counting bytes
  before : packetNumber counting bytes < counting.next key'.tsc
  counter : counting.At (n + 1) key'.tsc

theorem nrcAddCcmpHdr_counts {n : Nat} {key : WpaKey} (few : n < 2 ^ 47)
    (at_ : Counting.ccmp.At n key.tsc) :
    Counts .ccmp n key (nrcAddCcmpHdr key).2 (nrcAddCcmpHdr key).1 := by
  have tsc : key.tsc = n := at_
  have number : packetNumber .ccmp (nrcAddCcmpHdr key).1 = n := by
    simp only [packetNumber, nrcAddCcmpHdr, tsc, List.getD_cons_zero, List.getD_cons_succ,
      UInt8.toNat_ofNat', Nat.shiftRight_eq_div_pow]
    omega
  have next : (nrcAddCcmpHdr key).2.tsc = n + 1 := by
    change (key.tsc + 1) % 2 ^ 64 = n + 1
    omega
  refine ⟨List.cons_ne_nil _ _, ?_, ?_, next⟩
  · rw [number]
    exact Nat.le_of_eq tsc
  · rw [number, next]
    exact Nat.lt_succ_self n

/-- A TKIP header with the two halves of its number. -/
theorem packetNumber_tkip {iv16 iv32 ix : Nat} (low : iv16 < 2 ^ 16) (high : iv32 < 2 ^ 32) :
    packetNumber .tkip [.ofNat (iv16 >>> 8), .ofNat ((iv16 >>> 8 ||| 0x20) &&& 0x7f),
      .ofNat (iv16 &&& 0xFF), .ofNat (ix <<< 6 ||| 1 <<< 5), .ofNat iv32, .ofNat (iv32 >>> 8),
      .ofNat (iv32 >>> 16), .ofNat (iv32 >>> 24)] = iv32 * 2 ^ 16 + iv16 := by
  have byte : iv16 &&& 0xFF = iv16 % 256 := Nat.and_two_pow_sub_one_eq_mod iv16 8
  simp only [packetNumber, List.getD_cons_zero, List.getD_cons_succ, UInt8.toNat_ofNat',
    Nat.shiftRight_eq_div_pow, byte]
  omega

/-- The halves of the next number. -/
theorem tkip_halves {n tsc : Nat} (few : n < 2 ^ 47)
    (at_ : tsc / 2 ^ 32 * 2 ^ 16 + tsc % 2 ^ 16 = n) :
    ∃ iv16 iv32, iv16 = (tsc % 2 ^ 16 + 1) % 2 ^ 16 ∧
      iv32 = (if iv16 = 0 then (tsc / 2 ^ 32 % 2 ^ 32 + 1) % 2 ^ 32 else tsc / 2 ^ 32 % 2 ^ 32) ∧
      iv16 < 2 ^ 16 ∧ iv32 < 2 ^ 32 ∧ iv32 * 2 ^ 16 + iv16 = n + 1 := by
  have low : tsc % 2 ^ 16 < 2 ^ 16 := Nat.mod_lt _ (by decide)
  generalize tsc / 2 ^ 32 = high at at_
  generalize tsc % 2 ^ 16 = iv at at_ low
  have small : high < 2 ^ 31 := by omega
  have whole : high % 2 ^ 32 = high := Nat.mod_eq_of_lt (by omega)
  rw [whole]
  refine ⟨(iv + 1) % 2 ^ 16, _, rfl, rfl, by omega, ?_, ?_⟩
  · split
    · omega
    · omega
  · split
    · next carry =>
      have full : (high + 1) % 2 ^ 32 = high + 1 := Nat.mod_eq_of_lt (by omega)
      have last : iv + 1 = 2 ^ 16 := by omega
      rw [carry, full, ← at_, Nat.add_one_mul, Nat.add_assoc _ iv 1, last, Nat.add_zero]
    · next stays =>
      have next : (iv + 1) % 2 ^ 16 = iv + 1 := Nat.mod_eq_of_lt (by omega)
      rw [next]
      omega

theorem nrcAddTkipHdr_counts {n : Nat} {key : WpaKey} (few : n < 2 ^ 47)
    (at_ : Counting.tkip.At n key.tsc) :
    Counts .tkip n key (nrcAddTkipHdr key).2 (nrcAddTkipHdr key).1 := by
  have tsc := at_.2
  rcases tkip_halves few tsc with ⟨iv16, iv32, low, high, small, fits, value⟩
  have mask : key.tsc &&& 0xFFFF = key.tsc % 2 ^ 16 := Nat.and_two_pow_sub_one_eq_mod key.tsc 16
  have header : nrcAddTkipHdr key = ([.ofNat (iv16 >>> 8),
      .ofNat ((iv16 >>> 8 ||| 0x20) &&& 0x7f), .ofNat (iv16 &&& 0xFF),
      .ofNat (key.ix <<< 6 ||| 1 <<< 5), .ofNat iv32, .ofNat (iv32 >>> 8), .ofNat (iv32 >>> 16),
      .ofNat (iv32 >>> 24)], { key with tsc := iv32 <<< 32 ||| iv16 }) := by
    unfold nrcAddTkipHdr
    rw [mask, Nat.shiftRight_eq_div_pow key.tsc 32, ← low]
    dsimp only
    rw [← high]
  have number : packetNumber .tkip (nrcAddTkipHdr key).1 = n + 1 := by
    rw [header, packetNumber_tkip small fits, value]
  have counter : (nrcAddTkipHdr key).2.tsc = iv32 * 2 ^ 32 + iv16 := by
    rw [header]
    change iv32 <<< 32 ||| iv16 = _
    rw [← Nat.shiftLeft_add_eq_or_of_lt (Nat.lt_trans small (by decide)), Nat.shiftLeft_eq]
  have high : (iv32 * 2 ^ 32 + iv16) / 2 ^ 32 = iv32 := by omega
  have low : (iv32 * 2 ^ 32 + iv16) % 2 ^ 16 = iv16 := by omega
  refine ⟨?_, ?_, ?_, ?_⟩
  · rw [header]
    exact List.cons_ne_nil _ _
  · rw [number]
    change key.tsc / 2 ^ 32 * 2 ^ 16 + key.tsc % 2 ^ 16 + 1 ≤ n + 1
    omega
  · rw [number, counter]
    change n + 1 < (iv32 * 2 ^ 32 + iv16) / 2 ^ 32 * 2 ^ 16 + (iv32 * 2 ^ 32 + iv16) % 2 ^ 16 + 1
    rw [high, low, value]
    exact Nat.lt_succ_self _
  · rw [counter]
    refine ⟨by omega, ?_⟩
    rw [high, low, value]

/-- The weak values, as numbers. -/
theorem isWeakWep_iff (key : WpaKey) (iv : Nat) : isWeakWep key iv = true ↔
    iv / 2 ^ 8 % 256 = 255 ∧ 3 ≤ iv / 2 ^ 16 % 256 ∧ iv / 2 ^ 16 % 256 < 3 + key.keyLen := by
  have byte : (iv >>> 16) &&& 0xff = iv / 2 ^ 16 % 256 := by
    rw [Nat.shiftRight_eq_div_pow]
    exact Nat.and_two_pow_sub_one_eq_mod _ 8
  have mask : iv &&& 0xff00 = iv / 2 ^ 8 % 256 * 2 ^ 8 := by
    have shifted : (iv &&& 0xff00) >>> 8 = iv / 2 ^ 8 % 256 := by
      rw [Nat.shiftRight_and_distrib, Nat.shiftRight_eq_div_pow]
      exact Nat.and_two_pow_sub_one_eq_mod _ 8
    have low : (iv &&& 0xff00) % 2 ^ 8 = 0 := by
      rw [Nat.and_mod_two_pow]
      exact Nat.and_zero _
    rw [Nat.shiftRight_eq_div_pow] at shifted
    omega
  rw [isWeakWep, mask]
  simp only [byte]
  split
  · simp only [decide_eq_true_eq]
    omega
  · simp only [Bool.false_eq_true, false_iff]
    omega

theorem nrcAddWepHdr_counts {n : Nat} {key : WpaKey} (few : n < 2 ^ 23)
    (at_ : Counting.wep.At n key.tsc) :
    Counts .wep n key (nrcAddWepHdr key).2 (nrcAddWepHdr key).1 ∧
      ¬ WeakIv key.keyLen (nrcAddWepHdr key).1 := by
  have ahead : key.tsc ≤ n + 256 * (key.tsc / 2 ^ 16) := at_
  let iv := (nrcAddWepHdr key).2.tsc
  have first : (key.tsc % 2 ^ 32 + 1) % 2 ^ 32 = key.tsc + 1 := by omega
  have value : iv = if isWeakWep key (key.tsc + 1) then key.tsc + 1 + 0x100 else key.tsc + 1 := by
    change (if isWeakWep key ((key.tsc % 2 ^ 32 + 1) % 2 ^ 32) then _ else _) = _
    rw [first]
    split
    · omega
    · rfl
  -- what the skip leads to is not weak itself
  have facts : key.tsc + 1 ≤ iv ∧ iv < 2 ^ 24 ∧ iv ≤ n + 1 + 256 * (iv / 2 ^ 16) ∧
      ¬ isWeakWep key iv = true := by
    rw [value]
    split
    · next weak =>
      rw [isWeakWep_iff] at weak ⊢
      omega
    · next strong => exact ⟨Nat.le_refl _, by omega, by omega, strong⟩
  have bytes : (nrcAddWepHdr key).1 = [.ofNat ((iv >>> 16) &&& 0xff), .ofNat ((iv >>> 8) &&& 0xff),
      .ofNat (iv &&& 0xff), .ofNat (key.ix <<< 6)] := rfl
  have mask (x : Nat) : x &&& 0xff = x % 256 := Nat.and_two_pow_sub_one_eq_mod x 8
  have number : packetNumber .wep (nrcAddWepHdr key).1 = iv := by
    rw [bytes]
    simp only [packetNumber, List.getD_cons_zero, List.getD_cons_succ, UInt8.toNat_ofNat',
      Nat.shiftRight_eq_div_pow, mask]
    omega
  refine ⟨⟨List.cons_ne_nil _ _, ?_, ?_, facts.2.2.1⟩, ?_⟩
  · rw [number]
    exact facts.1
  · rw [number]
    exact Nat.lt_succ_self iv
  · rintro ⟨second, least, most⟩
    apply facts.2.2.2
    rw [isWeakWep_iff]
    rw [bytes] at second least most
    simp only [List.getD_cons_zero, List.getD_cons_succ, mask, Nat.shiftRight_eq_div_pow,
      UInt8.toNat_ofNat'] at second least most
    have value := congrArg UInt8.toNat second
    rw [UInt8.toNat_ofNat'] at value
    change _ = 255 at value
    omega

/-- A header of a cipher that counts. -/
theorem nrcAddSecHdr_counts {counting : Counting} {n : Nat} {key : WpaKey}
    (cipher : key.cipher.counting = some counting) (few : n < counting.frames)
    (at_ : counting.At n key.tsc) :
    Counts counting n key (nrcAddSecHdr key).2 (nrcAddSecHdr key).1 ∧
      (counting = .wep → ¬ WeakIv key.keyLen (nrcAddSecHdr key).1) := by
  unfold nrcAddSecHdr
  cases same : key.cipher with
  | ccmp =>
    rw [same] at cipher
    cases cipher
    exact ⟨nrcAddCcmpHdr_counts few at_, fun other => nomatch other⟩
  | tkip =>
    rw [same] at cipher
    cases cipher
    exact ⟨nrcAddTkipHdr_counts few at_, fun other => nomatch other⟩
  | wep40 =>
    rw [same] at cipher
    cases cipher
    exact ⟨(nrcAddWepHdr_counts few at_).1, fun _ => (nrcAddWepHdr_counts few at_).2⟩
  | wep104 =>
    rw [same] at cipher
    cases cipher
    exact ⟨(nrcAddWepHdr_counts few at_).1, fun _ => (nrcAddWepHdr_counts few at_).2⟩
  | none =>
    rw [same] at cipher
    cases cipher
  | wapi =>
    rw [same] at cipher
    cases cipher
  | invalid =>
    rw [same] at cipher
    cases cipher

theorem nrcAddSecHdr_ne_nil {key : WpaKey} {counting : Counting}
    (cipher : key.cipher.counting = some counting) : (nrcAddSecHdr key).1 ≠ [] := by
  unfold nrcAddSecHdr
  cases same : key.cipher with
  | none =>
    rw [same] at cipher
    cases cipher
  | wapi =>
    rw [same] at cipher
    cases cipher
  | invalid =>
    rw [same] at cipher
    cases cipher
  | _ => exact List.cons_ne_nil _ _

/-- A cipher that does not count leaves the key. -/
theorem nrcAddSecHdr_plain {key : WpaKey} (cipher : key.cipher.counting = none) :
    nrcAddSecHdr key = ([], key) := by
  unfold nrcAddSecHdr
  cases same : key.cipher with
  | none => rfl
  | wapi => rfl
  | invalid => rfl
  | _ =>
    rw [same] at cipher
    cases cipher

/-! ## Every run -/

/-- The counter of the key at `ref`. -/
def WpaIf.tscAt (s : WpaIf) (ref : KeyRef) : Option Nat := (s.keyAt ref).map (·.tsc)

theorem tscAt_modifyKey {f : WpaKey → WpaKey} (keeps : ∀ key, (f key).tsc = key.tsc) (s : WpaIf)
    (ref other : KeyRef) : (s.modifyKey f ref).tscAt other = s.tscAt other := by
  unfold WpaIf.tscAt
  by_cases same : other = ref
  · rw [same, s.keyAt_modifyKey_self, Option.map_map]
    congr 1
    funext key
    exact keeps key
  · rw [s.keyAt_modifyKey_of_ne f same]

theorem tscAt_setKeyAt {intf intf' : WpaIf} {wk : KeyRef} {bssid : Mac} {alg : WpaAlg}
    {addr : Option Mac} {keyIdx : Nat} {key : List UInt8}
    (set_ : setKeyAt intf wk bssid alg addr keyIdx key = some intf') (ref : KeyRef) :
    intf'.tscAt ref = intf.tscAt ref := by
  unfold setKeyAt at set_
  dsimp only at set_
  split at set_
  · cases set_
    rfl
  · split at set_
    · cases set_
    · cases set_
      rw [tscAt_modifyKey]
      exact fun _ => rfl

/-- Installing a key leaves every counter. -/
theorem tscAt_setKey {intf intf' : WpaIf} {alg : WpaAlg} {addr : Option Mac} {keyIdx : Nat}
    {key : List UInt8} (set_ : wpaDriverNrcSetKey intf alg addr keyIdx key = some intf')
    (ref : KeyRef) : intf'.tscAt ref = intf.tscAt ref := by
  unfold wpaDriverNrcSetKey at set_
  dsimp only at set_
  split at set_
  · cases set_
    rfl
  · rw [tscAt_setKeyAt set_]
    split
    · rw [tscAt_modifyKey]
      exact fun _ => rfl
    · rfl

/-- The headers of a run that starts behind `n` headers. -/
theorem keyRun_numbers {ref : KeyRef} {counting : Counting} {ops : List KeyOp} {s s' : WpaIf}
    {sent : List SecHdr} {n tsc : Nat} (counter : s.tscAt ref = some tsc)
    (at_ : counting.At n tsc) (run : keyRun ref s ops = some (s', sent))
    (one : ∀ hdr ∈ sent, hdr.cipher.counting = some counting)
    (few : n + sent.length ≤ counting.frames) :
    (∀ hdr ∈ sent, counting.next tsc ≤ packetNumber counting hdr.bytes) ∧
      (sent.map fun hdr => packetNumber counting hdr.bytes).Pairwise (· < ·) ∧
      (counting = .wep → ∀ hdr ∈ sent, ¬ WeakIv hdr.keyLen hdr.bytes) := by
  induction ops generalizing s sent n tsc with
  | nil =>
    cases run
    simp
  | cons op ops ih =>
    cases op with
    | setKey alg addr keyIdx key =>
      rw [keyRun] at run
      rcases Option.bind_eq_some_iff.mp run with ⟨s1, set_, run⟩
      exact ih ((tscAt_setKey set_ ref).trans counter) at_ run one few
    | addSecHdr =>
      rw [keyRun] at run
      rcases Option.bind_eq_some_iff.mp run with ⟨key, there, run⟩
      rcases Option.bind_eq_some_iff.mp run with ⟨⟨s1, rest⟩, after, out⟩
      have tsc_ : key.tsc = tsc := by
        rw [WpaIf.tscAt, there] at counter
        exact Option.some_inj.mp counter
      have counter1 : (s.modifyKey (fun _ => (nrcAddSecHdr key).2) ref).tscAt ref =
          some (nrcAddSecHdr key).2.tsc := by
        rw [WpaIf.tscAt, s.keyAt_modifyKey_self, there]
        rfl
      dsimp only at out
      cases kind : key.cipher.counting with
      | none =>
        rw [nrcAddSecHdr_plain kind] at out counter1 after
        cases out
        rw [tsc_] at counter1
        exact ih counter1 at_ after one few
      | some kind' =>
        -- a header comes out, whatever the cipher; it must be the one of the run
        have produced : (nrcAddSecHdr key).1 ≠ [] := nrcAddSecHdr_ne_nil kind
        rw [if_neg produced] at out
        cases out
        have same : kind' = counting := by
          have here := one _ List.mem_cons_self
          exact Option.some_inj.mp (kind.symm.trans here)
        subst same
        rw [List.length_cons] at few
        rw [← tsc_] at at_ ⊢
        rcases nrcAddSecHdr_counts kind (Nat.lt_of_lt_of_le (by omega) few) at_ with ⟨counts, weak⟩
        rcases ih counter1 counts.counter after
          (fun hdr inside => one hdr (List.mem_cons_of_mem _ inside)) (by omega) with ⟨later, sorted, strong⟩
        have below : ∀ hdr ∈ rest, packetNumber kind' (nrcAddSecHdr key).1 <
            packetNumber kind' hdr.bytes :=
          fun hdr inside => Nat.lt_of_lt_of_le counts.before (later hdr inside)
        refine ⟨?_, ?_, ?_⟩
        · intro hdr inside
          rcases List.mem_cons.mp inside with rfl | inside
          · exact counts.after
          · exact Nat.le_of_lt (Nat.lt_of_le_of_lt counts.after (below hdr inside))
        · rw [List.map_cons]
          refine List.pairwise_cons.mpr ⟨?_, sorted⟩
          intro number inside
          rcases List.mem_map.mp inside with ⟨hdr, there, rfl⟩
          exact below hdr there
        · intro wep hdr inside
          rcases List.mem_cons.mp inside with rfl | inside
          · exact weak wep
          · exact strong wep hdr inside

/-- The packet numbers of a key that was cleared and then used with one cipher increase, whatever
keys are installed in between, and no WEP IV is weak. -/
theorem packetNumbers_increase {ref : KeyRef} {counting : Counting} {ops : List KeyOp}
    {s s' : WpaIf} {sent : List SecHdr} (cleared : s.keyAt ref = some wpaClearKey)
    (run : keyRun ref s ops = some (s', sent))
    (one : ∀ hdr ∈ sent, hdr.cipher.counting = some counting)
    (few : sent.length < counting.frames) :
    (sent.map fun hdr => packetNumber counting hdr.bytes).Pairwise (· < ·) ∧
      (counting = .wep → ∀ hdr ∈ sent, ¬ WeakIv hdr.keyLen hdr.bytes) := by
  have counter : s.tscAt ref = some 0 := by
    rw [WpaIf.tscAt, cleared]
    rfl
  have at_ : counting.At 0 0 := by
    cases counting with
    | ccmp => rfl
    | tkip => exact ⟨by decide, rfl⟩
    | wep => exact Nat.le_refl 0
  exact (keyRun_numbers counter at_ run one (by omega)).2

/-- A station that is not connected. -/
def idleStation : WpaIf :=
  ⟨false, false, ⟨wpaClearKey, .replicate 6 0, false, fun _ => false⟩,
    ⟨.replicate 6 0, wpaClearKey⟩, fun _ => none, 0⟩

/-- A key that is installed twice, with a frame behind each. -/
def reinstall (alg : WpaAlg) (keyLen : Nat) : List KeyOp :=
  let install := .setKey alg (some (.replicate 6 2)) 0 (.replicate keyLen 7)
  [install, .addSecHdr, install, .addSecHdr]

/-- The two headers of such a run, and the order of their numbers. -/
def Reinstalled (alg : WpaAlg) (counting : Counting) (keyLen : Nat) (hdrs : List SecHdr) : Prop :=
  (keyRun (.of .sta) idleStation (reinstall alg keyLen)).map (·.2) = some hdrs ∧
    (hdrs.map fun hdr => packetNumber counting hdr.bytes).Pairwise (· < ·)

theorem packetNumbers_increase_reinstall :
    Reinstalled .ccmp .ccmp 16
        [⟨.ccmp, 16, [0, 0, 0, 0x20, 0, 0, 0, 0]⟩, ⟨.ccmp, 16, [1, 0, 0, 0x20, 0, 0, 0, 0]⟩] ∧
      Reinstalled .tkip .tkip 32
        [⟨.tkip, 32, [0, 0x20, 1, 0x20, 0, 0, 0, 0]⟩, ⟨.tkip, 32, [0, 0x20, 2, 0x20, 0, 0, 0, 0]⟩] ∧
      Reinstalled .wep .wep 5 [⟨.wep40, 5, [0, 0, 1, 0]⟩, ⟨.wep40, 5, [0, 0, 2, 0]⟩] := by
  have increase {alg : WpaAlg} {counting : Counting} {keyLen : Nat} {hdrs : List SecHdr}
      (run : (keyRun (.of .sta) idleStation (reinstall alg keyLen)).map (·.2) = some hdrs)
      (one : ∀ hdr ∈ hdrs, hdr.cipher.counting = some counting)
      (few : hdrs.length < counting.frames) : Reinstalled alg counting keyLen hdrs := by
    obtain ⟨⟨s', sent⟩, ran, rfl⟩ := Option.map_eq_some_iff.mp run
    exact ⟨run, (packetNumbers_increase rfl ran one few).1⟩
  exact ⟨increase rfl (by decide) (by decide), increase rfl (by decide) (by decide),
    increase rfl (by decide) (by decide)⟩

end WifiDrv

end Tr6260
