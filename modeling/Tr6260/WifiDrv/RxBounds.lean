import Tr6260.Traced
import Tr6260.WifiDrv.Convert

/-!
# Where the receiver looks

`nrc_mac_rx` takes frames of 24 bytes and more, the length of the header alone. `nrc_wpa_to_8023`
steps over the QoS field and the security header and reads an LLC header of 8 bytes behind them,
whatever the length is. Here each of its accesses is told.
-/

namespace Tr6260

/-- Bytes of the frame buffer that are read or written. -/
structure FrameAccess where
  start : Nat
  size : Nat
  deriving DecidableEq

/-- The access stays in the first `len` bytes. -/
def FrameAccess.Inside (len : Nat) (access : FrameAccess) : Prop := access.start + access.size ≤ len

/-- A computation on the buffer, with its accesses. -/
abbrev OnFrame := Traced FrameAccess

namespace WifiDrv

/-- An address of the header is read. -/
def readMac (frame : List UInt8) (offset : Nat) : OnFrame Mac := do
  Traced.touch ⟨offset, 6⟩
  return macAt frame offset

/-- Bytes are read, as many as the buffer shows there. -/
def readBytes (frame : List UInt8) (offset size : Nat) : OnFrame (List UInt8) := do
  Traced.touch ⟨offset, size⟩
  return (frame.drop offset).take size

/-- The length of the security header, with the key of the sender. -/
def tracedSecHdrLen (intf : WpaIf) (frame : List UInt8) : OnFrame Nat :=
  if frameControl frame &&& wlanFcIswep ≠ 0 then do
    let addr2 ← readMac frame 10
    return nrcGetSecHdrLen ((nrcWpaGetKey intf (some addr2)).bind intf.keyAt)
  else
    return 0

/-- The second half of `nrc_wpa_to_8023`: the Ethernet header is made and written. -/
def tracedConvert (rx : RxData) (payload : Nat) : OnFrame (Int × RxData) := do
  let toDs := frameControl rx.frame &&& wlanFcTods ≠ 0
  let dest ← readMac rx.frame (if toDs then 16 else 4)
  let src ← readMac rx.frame (if toDs then 10 else 16)
  let type ← readBytes rx.frame (payload + 6) 2
  let llc ← readBytes rx.frame payload 6
  let host := (type.getD 0 0).toNat <<< 8 ||| (type.getD 1 0).toNat
  let known := (llc = rfc1042Header ∧ (host ≠ ethPAarp ∨ host ≠ ethPIpx)) ∨
    llc = bridgeTunnelHeader
  let offset := if known then payload - hlen8023 + 8 else payload - hlen8023
  let type := if known then type else [0, 0]
  Traced.touch ⟨offset, hlen8023⟩
  return (0,
    { frame := rx.frame.take offset ++ (dest.toList ++ src.toList ++ type) ++
        rx.frame.drop (offset + hlen8023)
      len := (rx.len + 2 ^ 16 - offset) % 2 ^ 16
      is8023 := true
      offset8023 := offset })

/-- `nrc_wpa_to_8023` with its accesses. The frame is the buffer, with what lies behind its first
`rx.len` bytes. -/
def tracedTo8023 (intf : WpaIf) (rx : RxData) : OnFrame (Int × RxData) := do
  Traced.touch ⟨0, 2⟩
  let fc := frameControl rx.frame
  let sec ← tracedSecHdrLen intf rx.frame
  let payload := 24 + (if fc &&& (8 <<< 4) ≠ 0 then 2 else 0) + sec
  let toDs := fc &&& wlanFcTods ≠ 0
  let fromDs := fc &&& wlanFcFromds ≠ 0
  if toDs ∧ fromDs then
    return (-1, rx)
  else if toDs ∧ ¬ fromDs ∧ intf.isAp = false then
    return (-1, rx)
  else
    tracedConvert rx payload

/-- The frames that are rejected for their DS bits. -/
def DsRejected (intf : WpaIf) (frame : List UInt8) : Prop :=
  frameControl frame &&& wlanFcTods ≠ 0 ∧
    (frameControl frame &&& wlanFcFromds ≠ 0 ∨ intf.isAp = false)

instance (intf : WpaIf) (frame : List UInt8) : Decidable (DsRejected intf frame) :=
  inferInstanceAs (Decidable (_ ∧ _))

/-- Rejected, or converted with all accesses in the first `len` bytes, at least an Ethernet header
left and no length taken off that was not there. -/
def ConvertedInside (intf : WpaIf) (rx : RxData) : Prop :=
  ∃ ret rx', (tracedTo8023 intf rx).value = some (ret, rx') ∧
    (ret ≠ 0 ∨ Traced.Only (FrameAccess.Inside rx.len) (tracedTo8023 intf rx) ∧
      rx'.offset8023 ≤ rx.len ∧ rx'.len = rx.len - rx'.offset8023 ∧ hlen8023 ≤ rx'.len)

section Accesses

variable {intf : WpaIf} {rx : RxData} {payload : Nat}

theorem tracedSecHdrLen_value (intf : WpaIf) (frame : List UInt8) :
    (tracedSecHdrLen intf frame).value = some (
      if frameControl frame &&& wlanFcIswep ≠ 0 then
        nrcGetSecHdrLen ((nrcWpaGetKey intf (some (macAt frame 10))).bind intf.keyAt) else 0) := by
  unfold tracedSecHdrLen readMac
  split
  · rfl
  · rfl

theorem tracedSecHdrLen_only (intf : WpaIf) (frame : List UInt8) {len : Nat} (long : 24 ≤ len) :
    Traced.Only (FrameAccess.Inside len) (tracedSecHdrLen intf frame) := by
  have inside : FrameAccess.Inside len ⟨10, 6⟩ := Nat.le_trans (show 16 ≤ 24 by decide) long
  unfold tracedSecHdrLen readMac
  split
  · exact (Traced.only_touch_bind inside (Traced.only_pure _)).bind fun _ _ => Traced.only_pure _
  · exact Traced.only_pure _

theorem tracedTo8023_value (intf : WpaIf) (rx : RxData) : (tracedTo8023 intf rx).value =
    if DsRejected intf rx.frame then some (-1, rx)
    else (tracedConvert rx (rxPayload intf rx.frame)).value := by
  unfold tracedTo8023
  rw [Traced.value_bind, Traced.value_touch, Option.bind_some, Traced.value_bind,
    tracedSecHdrLen_value, Option.bind_some]
  dsimp only
  by_cases toDs : frameControl rx.frame &&& wlanFcTods ≠ 0
  · by_cases fromDs : frameControl rx.frame &&& wlanFcFromds ≠ 0
    · rw [if_pos ⟨toDs, fromDs⟩, if_pos ⟨toDs, .inl fromDs⟩]
      rfl
    · by_cases station : intf.isAp = false
      · rw [if_neg fun both => fromDs both.2, if_pos ⟨toDs, fromDs, station⟩,
          if_pos ⟨toDs, .inr station⟩]
        rfl
      · rw [if_neg fun both => fromDs both.2, if_neg fun all => station all.2.2,
          if_neg fun rejected : DsRejected intf rx.frame => rejected.2.elim fromDs station]
        rfl
  · rw [if_neg fun both => toDs both.1, if_neg fun all => toDs all.1,
      if_neg fun rejected : DsRejected intf rx.frame => toDs rejected.1]
    rfl

/-- It is `nrc_wpa_to_8023` while the buffer goes on behind the frame. -/
theorem tracedTo8023_eq (intf : WpaIf) (rx : RxData)
    (buffer : rxPayload intf rx.frame + 8 ≤ rx.frame.length) :
    (tracedTo8023 intf rx).value = nrcWpaTo8023 intf rx := by
  rw [tracedTo8023_value, nrcWpaTo8023]
  dsimp only
  by_cases toDs : frameControl rx.frame &&& wlanFcTods ≠ 0
  · by_cases fromDs : frameControl rx.frame &&& wlanFcFromds ≠ 0
    · rw [if_pos (show DsRejected intf rx.frame from ⟨toDs, .inl fromDs⟩), if_pos ⟨toDs, fromDs⟩]
    · by_cases station : intf.isAp = false
      · rw [if_pos (show DsRejected intf rx.frame from ⟨toDs, .inr station⟩),
          if_neg fun both => fromDs both.2, if_pos ⟨toDs, fromDs, station⟩]
      · rw [if_neg fun rejected : DsRejected intf rx.frame => rejected.2.elim fromDs station,
          if_neg fun both => fromDs both.2, if_neg fun all => station all.2.2,
          if_neg (Nat.not_lt_of_le buffer), ← apply_ite (macAt rx.frame),
          ← apply_ite (macAt rx.frame)]
        rfl
  · rw [if_neg fun rejected : DsRejected intf rx.frame => toDs rejected.1,
      if_neg fun both => toDs both.1, if_neg fun all => toDs all.1,
      if_neg (Nat.not_lt_of_le buffer), ← apply_ite (macAt rx.frame),
      ← apply_ite (macAt rx.frame)]
    rfl

/-- What a frame that is not rejected has read before it is converted. -/
theorem tracedTo8023_log (accepted : ¬ DsRejected intf rx.frame) : (tracedTo8023 intf rx).log =
    ⟨0, 2⟩ :: ((tracedSecHdrLen intf rx.frame).log ++
      (tracedConvert rx (rxPayload intf rx.frame)).log) := by
  have both : ¬ (frameControl rx.frame &&& wlanFcTods ≠ 0 ∧
      frameControl rx.frame &&& wlanFcFromds ≠ 0) := fun is => accepted ⟨is.1, .inl is.2⟩
  have station : ¬ (frameControl rx.frame &&& wlanFcTods ≠ 0 ∧
      ¬ frameControl rx.frame &&& wlanFcFromds ≠ 0 ∧ intf.isAp = false) :=
    fun is => accepted ⟨is.1, .inr is.2.2⟩
  unfold tracedTo8023
  rw [Traced.log_bind, Traced.value_touch]
  dsimp only
  rw [Traced.log_bind, tracedSecHdrLen_value]
  dsimp only
  rw [if_neg both, if_neg station]
  rfl

/-- What is converted, and where. -/
theorem tracedConvert_spec (rx : RxData) (payload : Nat) :
    ∃ dest src offset rx', (tracedConvert rx payload).value = some (0, rx') ∧
      (tracedConvert rx payload).log =
        [⟨dest, 6⟩, ⟨src, 6⟩, ⟨payload + 6, 2⟩, ⟨payload, 6⟩, ⟨offset, 14⟩] ∧
      dest ≤ 16 ∧ src ≤ 16 ∧ (offset = payload - 14 + 8 ∨ offset = payload - 14) ∧
      rx'.offset8023 = offset ∧ rx'.len = (rx.len + 2 ^ 16 - offset) % 2 ^ 16 := by
  refine ⟨_, _, _, _, rfl, rfl, ?_, ?_, ?_, rfl, rfl⟩
  · split <;> decide
  · split <;> decide
  · split
    · exact .inl rfl
    · exact .inr rfl

theorem rxPayload_ge (intf : WpaIf) (frame : List UInt8) : 24 ≤ rxPayload intf frame := by
  unfold rxPayload
  dsimp only
  rw [Nat.add_assoc]
  exact Nat.le_add_right _ _

/-- Frames are converted inside their bytes if they hold an LLC header behind all the others. -/
theorem convertedInside_iff (intf : WpaIf) (rx : RxData) (long : 24 ≤ rx.len)
    (small : rx.len < 2 ^ 16) : ConvertedInside intf rx ↔
      DsRejected intf rx.frame ∨ rxPayload intf rx.frame + 8 ≤ rx.len := by
  have value := tracedTo8023_value intf rx
  by_cases rejected : DsRejected intf rx.frame
  · rw [if_pos rejected] at value
    exact iff_of_true ⟨-1, rx, value, .inl (by decide)⟩ (.inl rejected)
  · obtain ⟨dest, src, offset, rx', converted, log, destIn, srcIn, place, is, len⟩ :=
      tracedConvert_spec rx (rxPayload intf rx.frame)
    have log_ := @tracedTo8023_log intf rx rejected
    have payload := rxPayload_ge intf rx.frame
    rw [if_neg rejected, converted] at value
    rw [log] at log_
    constructor
    · intro ⟨ret, rx'', returns, right⟩
      rw [value] at returns
      cases returns
      rcases right with wrong | ⟨inside, -⟩
      · exact absurd rfl wrong
      · -- the type behind the LLC header is read in any case
        have type : (⟨rxPayload intf rx.frame + 6, 2⟩ : FrameAccess) ∈
            (tracedTo8023 intf rx).log := by
          rw [log_]
          simp
        exact .inr (inside _ type)
    · intro holds
      have room := holds.resolve_left rejected
      refine ⟨0, rx', value, .inr ⟨?_, ?_, ?_, ?_⟩⟩
      · intro access mem
        rw [log_] at mem
        rcases List.mem_cons.mp mem with rfl | mem
        · exact Nat.le_trans (show 2 ≤ 24 by decide) long
        rcases List.mem_append.mp mem with mem | mem
        · exact tracedSecHdrLen_only intf rx.frame long access mem
        · simp only [List.mem_cons, List.not_mem_nil, or_false] at mem
          unfold FrameAccess.Inside
          rcases mem with rfl | rfl | rfl | rfl | rfl <;> dsimp only <;> omega
      · omega
      · rw [len, is]
        omega
      · rw [len]
        change 14 ≤ _
        omega

end Accesses

/-- A frame for a station, QoS data that is encrypted with CCMP, and what is in the buffer behind
the first `len` bytes. -/
def ccmpFrame (len : Nat) : RxData :=
  ⟨[0x88, 0x42] ++ .replicate 32 0 ++ rfc1042Header ++ [8, 0], len, false, 0⟩

/-- With the whole LLC header nothing behind is touched. -/
theorem ccmpFrame_inside : ConvertedInside (ccmpIf false) (ccmpFrame 42) :=
  (convertedInside_iff (ccmpIf false) (ccmpFrame 42) (by decide) (by decide)).mpr (by decide)

/-- Of the header alone 4 bytes more are taken off than there are. -/
theorem ccmpFrame_wraps : 24 ≤ (ccmpFrame 24).len ∧
    ¬ ConvertedInside (ccmpIf false) (ccmpFrame 24) ∧
    (nrcWpaTo8023 (ccmpIf false) (ccmpFrame 24)).map (fun out => (out.1, out.2.len)) =
      some (0, 65532) := by
  refine ⟨by decide, ?_, by decide⟩
  intro ⟨ret, rx', returns, right⟩
  have converted : (tracedTo8023 (ccmpIf false) (ccmpFrame 24)).value.map
      (fun out => (out.1, out.2.offset8023)) = some (0, 28) := by decide
  rw [returns] at converted
  obtain ⟨zero, offset⟩ := Prod.mk.inj (Option.some_inj.mp converted)
  rcases right with wrong | ⟨-, before, -⟩
  · exact wrong zero
  · change rx'.offset8023 ≤ 24 at before
    change rx'.offset8023 = 28 at offset
    omega

end WifiDrv

end Tr6260
