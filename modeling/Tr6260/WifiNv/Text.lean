import Tr6260.WifiNv.Model

/-!
# Texts of the record

A record whose name and password end inside their fields is read back from the NV as it was saved.
-/

namespace Tr6260

namespace WifiNv

/-! ## Blocks -/

namespace Bytes

variable {n : Nat}

theorem write_short (b : Bytes n) {src : List UInt8} (fits : src.length ≤ n) :
    (b.write src).1 = src ++ b.1.drop src.length := by
  apply List.take_of_length_le
  rw [List.length_append, List.length_drop, b.2]
  omega

/-- A block that is written whole. -/
theorem write_full (b src : Bytes n) : b.write src.1 = src := by
  apply Subtype.ext
  have whole : b.1.length ≤ src.1.length := Nat.le_of_eq (b.2.trans src.2.symm)
  rw [write_short b (Nat.le_of_eq src.2), List.drop_of_length_le whole, List.append_nil]

theorem text_eq {b : Bytes n} {s : CString} {rest : List UInt8} (shape : b.1 = s.1 ++ 0 :: rest)
    (behind : List UInt8) : b.text behind = s := by
  rw [text, shape, List.append_assoc]
  exact CString.ofBytes_append s _

/-- The text ends inside the block. -/
def Ended (b : Bytes n) : Prop := 0 ∈ b.1

theorem Ended.shape {b : Bytes n} (ended : b.Ended) :
    ∃ rest, b.1 = (b.text []).1 ++ 0 :: rest := by
  rw [text, List.append_nil]
  exact CString.ofBytes_shape ended

/-- What lies behind the block is not read. -/
theorem Ended.text {b : Bytes n} (ended : b.Ended) (behind : List UInt8) :
    b.text behind = b.text [] := by
  rcases ended.shape with ⟨rest, shape⟩
  exact text_eq shape behind

theorem Ended.strlen_lt {b : Bytes n} (ended : b.Ended) : (b.text []).strlen < n := by
  rcases ended.shape with ⟨rest, shape⟩
  have len := congrArg List.length shape
  rw [b.2, List.length_append, List.length_cons] at len
  change (b.text []).1.length < n
  omega

theorem ended_of_shape {b : Bytes n} {front rest : List UInt8} (shape : b.1 = front ++ 0 :: rest) :
    b.Ended := by
  rw [Ended, shape]
  exact List.mem_append_right _ List.mem_cons_self

/-- A text copied with its end. -/
theorem write_text (b : Bytes n) {s : CString} (fits : s.strlen < n) :
    (b.write (s.1 ++ [0])).text [] = s ∧ (b.write (s.1 ++ [0])).Ended := by
  have len : (s.1 ++ [0]).length ≤ n := by
    rw [List.length_append]
    exact fits
  have shape := write_short b len
  rw [List.append_assoc, List.singleton_append] at shape
  exact ⟨text_eq shape [], ended_of_shape shape⟩

/-- A text copied without its end into a block of zeros. -/
theorem zero_write_shape {src : List UInt8} (fits : src.length < n) :
    ∃ rest, ((zero n).write src).1 = src ++ 0 :: rest := by
  have zeros : n - src.length = n - src.length - 1 + 1 := by omega
  refine ⟨.replicate (n - src.length - 1) 0, ?_⟩
  rw [write_short _ (Nat.le_of_lt fits), zero, List.drop_replicate, zeros, List.replicate_succ]
  rfl

theorem zero_write_ended {src : List UInt8} (fits : src.length < n) :
    ((zero n).write src).Ended := by
  rcases zero_write_shape fits with ⟨rest, shape⟩
  exact ended_of_shape shape

theorem zero_write_text {s : CString} (fits : s.strlen < n) :
    ((zero n).write s.1).text [] = s := by
  rcases zero_write_shape fits with ⟨rest, shape⟩
  exact text_eq shape []

end Bytes

/-! ## Records -/

namespace WifiNvInfo

/-- Name and password end inside their fields. -/
structure Ended (info : WifiNvInfo) : Prop where
  ssid : info.staSsid.Ended
  pwd : info.staPwd.Ended

theorem Ended.pwd_eq {info : WifiNvInfo} (ended : info.Ended) : info.pwd = info.staPwd.text [] :=
  ended.pwd.text _

/-- Two records have the same name, password and PMK. -/
structure Same (a b : WifiNvInfo) : Prop where
  ssid : a.ssid = b.ssid
  pwd : a.pwd = b.pwd
  pmk : a.staPmk = b.staPmk

theorem Same.refl (a : WifiNvInfo) : a.Same a := ⟨rfl, rfl, rfl⟩

theorem Same.symm {a b : WifiNvInfo} (same : a.Same b) : b.Same a :=
  ⟨same.ssid.symm, same.pwd.symm, same.pmk.symm⟩

theorem Same.trans {a b c : WifiNvInfo} (first : a.Same b) (second : b.Same c) : a.Same c :=
  ⟨first.ssid.trans second.ssid, first.pwd.trans second.pwd, first.pmk.trans second.pmk⟩

/-- The fields behind the texts do not matter. -/
theorem Ended.texts {a b : WifiNvInfo} (ended : a.Ended) (ssid : b.staSsid = a.staSsid)
    (pwd : b.staPwd = a.staPwd) : b.Ended ∧ b.ssid = a.ssid ∧ b.pwd = a.pwd := by
  have ended' : b.Ended := ⟨ssid ▸ ended.ssid, pwd ▸ ended.pwd⟩
  refine ⟨ended', ?_, ?_⟩
  · rw [WifiNvInfo.ssid, ssid]
    rfl
  · rw [ended'.pwd_eq, ended.pwd_eq, pwd]

theorem zero_ended : zero.Ended := by
  constructor <;> exact List.mem_replicate.mpr ⟨by decide, rfl⟩

theorem zero_not_hasPmk : ¬ zero.HasPmk := by
  decide

theorem hasPmk_congr {a b : WifiNvInfo} (pmk : a.staPmk = b.staPmk) : a.HasPmk ↔ b.HasPmk := by
  rw [HasPmk, pmk]
  rfl

end WifiNvInfo

/-! ## Load -/

theorem length_efGetEnvBlob (nv : Nv) (key : NvKey) (size : Nat) :
    (efGetEnvBlob nv key size).length ≤ size := by
  rw [efGetEnvBlob, List.length_take]
  exact Nat.min_le_left _ _

theorem readInfo_ended (nv : Nv) : (readInfo nv).Ended where
  ssid := Bytes.zero_write_ended (Nat.lt_of_le_of_lt (length_efGetEnvBlob _ _ _) (by decide))
  pwd := Bytes.zero_write_ended (Nat.lt_of_le_of_lt (length_efGetEnvBlob _ _ _) (by decide))

theorem wifiLoadNvInfo_ended (nv : Nv) : (wifiLoadNvInfo nv).Ended := by
  rw [wifiLoadNvInfo]
  split
  · exact WifiNvInfo.zero_ended
  · exact readInfo_ended nv

theorem readInfo_ssid {nv : Nv} {s : CString} (held : nv .staSsid = some s.1)
    (fits : s.strlen < wifiSsidMaxLen) : (readInfo nv).ssid = s := by
  have whole : efGetEnvBlob nv .staSsid (wifiSsidMaxLen - 1) = s.1 := by
    rw [efGetEnvBlob, held]
    exact List.take_of_length_le (Nat.le_sub_one_of_lt fits)
  rw [WifiNvInfo.ssid, readInfo, whole]
  exact Bytes.zero_write_text fits

theorem readInfo_pwd {nv : Nv} {s : CString} (held : nv .staPwd = some s.1)
    (fits : s.strlen < wifiPwdMaxLen) : (readInfo nv).pwd = s := by
  have whole : efGetEnvBlob nv .staPwd (wifiPwdMaxLen - 1) = s.1 := by
    rw [efGetEnvBlob, held]
    exact List.take_of_length_le (Nat.le_sub_one_of_lt fits)
  rw [(readInfo_ended nv).pwd_eq, readInfo, whole]
  exact Bytes.zero_write_text fits

theorem readInfo_pmk {nv : Nv} {pmk : Bytes 32} (held : nv .staPmk = some pmk.1) :
    (readInfo nv).staPmk = pmk := by
  have whole : efGetEnvBlob nv .staPmk 32 = pmk.1 := by
    rw [efGetEnvBlob, held]
    exact List.take_of_length_le (Nat.le_of_eq pmk.2)
  rw [readInfo, whole]
  exact Bytes.write_full _ _

/-- A NV with a name is read. -/
theorem wifiLoadNvInfo_of_ssid {nv : Nv} {name : List UInt8} (held : nv .staSsid = some name)
    (filled : name ≠ []) : wifiLoadNvInfo nv = readInfo nv := by
  rw [wifiLoadNvInfo, if_neg]
  rw [efGetEnvBlob, held, Option.getD_some, List.length_take]
  have := List.length_pos_iff.mpr filled
  change ¬ min 32 name.length ≤ 0
  omega

end WifiNv

end Tr6260
