import Tr6260.WifiNv.Text

/-!
# The PMK and its credentials

The record's PMK came with the record's name and password, and so did the NV's, as long as no power
loss leaves the keys of two networks in the NV.
-/

namespace Tr6260

namespace WifiNv

/-- The empty text, which an absent password stands for. -/
def noText : CString := ⟨[], List.not_mem_nil⟩

theorem strlen_eq_zero {s : CString} : s.strlen = 0 ↔ s = noText := by
  rw [CString.strlen, List.length_eq_zero_iff]
  exact ⟨fun empty => Subtype.ext empty, fun same => congrArg Subtype.val same⟩

/-! ## What `start` does -/

theorem updateSsid_spec {info : WifiNvInfo} (ended : info.Ended) {ssid : CString}
    (fits : ssid.strlen < wifiSsidMaxLen) :
    (updateSsid info ssid).Ended ∧ (updateSsid info ssid).ssid = ssid ∧
      (updateSsid info ssid).pwd = info.pwd ∧
      ((updateSsid info ssid).sync = false ∨ updateSsid info ssid = info) := by
  rw [updateSsid]
  split
  case isTrue differs =>
    have whole : ssid.1.take (wifiSsidMaxLen - 1) = ssid.1 :=
      List.take_of_length_le (Nat.le_sub_one_of_lt fits)
    rw [whole]
    have written := info.staSsid.write_text fits
    have ended' : WifiNvInfo.Ended
        { info with sync := false, staSsid := info.staSsid.write (ssid.1 ++ [0]) } :=
      ⟨written.2, ended.pwd⟩
    exact ⟨ended', written.1, ended'.pwd_eq.trans ended.pwd_eq.symm, .inl rfl⟩
  case isFalse same => exact ⟨ended, not_not.mp same, rfl, .inr rfl⟩

theorem updatePwd_spec {info : WifiNvInfo} (ended : info.Ended) {pwd : Option CString}
    (fits : (pwd.getD noText).strlen < wifiPwdMaxLen) :
    (updatePwd info pwd).Ended ∧ (updatePwd info pwd).ssid = info.ssid ∧
      (updatePwd info pwd).pwd = pwd.getD noText ∧
      ((updatePwd info pwd).sync = false ∨ updatePwd info pwd = info) := by
  cases pwd with
  | none =>
    rw [updatePwd]
    split
    case isTrue =>
      have zeros : (Bytes.zero wifiPwdMaxLen).text [] = noText := by decide
      have ended' : WifiNvInfo.Ended { info with sync := false, staPwd := .zero _ } :=
        ⟨ended.ssid, WifiNvInfo.zero_ended.pwd⟩
      exact ⟨ended', rfl, ended'.pwd_eq.trans zeros, .inl rfl⟩
    case isFalse empty => exact ⟨ended, rfl, strlen_eq_zero.mp (not_not.mp empty), .inr rfl⟩
  | some pwd =>
    rw [updatePwd]
    split
    case isTrue =>
      have short : (pwd.1 ++ [0]).length ≤ wifiPwdMaxLen := by
        rw [List.length_append]
        exact fits
      -- nothing goes on into the address
      rw [List.drop_of_length_le short]
      have written := info.staPwd.write_text fits
      have ended' : WifiNvInfo.Ended
          { info with
            sync := false
            staPwd := info.staPwd.write (pwd.1 ++ [0])
            staBssid := info.staBssid.write [] } :=
        ⟨ended.ssid, written.2⟩
      exact ⟨ended', rfl, ended'.pwd_eq.trans written.1, .inl rfl⟩
    case isFalse same => exact ⟨ended, rfl, not_not.mp same, .inr rfl⟩

/-- After `start` the record has the credentials, and when it is not in the NV, their PMK. -/
theorem wifiUpdateNvStaStart_spec {info : WifiNvInfo} (ended : info.Ended) (ssid : CString)
    (pwd : Option CString) (pmk : Option (Bytes 32)) (name : ssid.strlen < wifiSsidMaxLen)
    (fits : (pwd.getD noText).strlen < wifiPwdMaxLen) :
    let info' := wifiUpdateNvStaStart info (some ssid) pwd pmk
    info'.Ended ∧ info'.ssid = ssid ∧ info'.pwd = pwd.getD noText ∧
      (info'.sync = false ∧ info'.staPmk = pmk.getD (.zero _) ∨ info'.sync = true ∧ info' = info) := by
  rcases updateSsid_spec ended name with ⟨ended₁, ssid₁, -, kept₁⟩
  rcases updatePwd_spec ended₁ fits with ⟨ended₂, ssid₂, pwd₂, kept₂⟩
  dsimp only
  rw [wifiUpdateNvStaStart, updatePmk]
  split
  case isTrue synced =>
    -- in the NV still: nothing differed
    rcases kept₂ with changed | same₂
    · rw [changed] at synced
      cases synced
    · rw [same₂] at synced ⊢
      rcases kept₁ with changed | same₁
      · rw [changed] at synced
        cases synced
      · exact ⟨ended₁, ssid₁, by rw [← same₂, pwd₂], .inr ⟨synced, same₁⟩⟩
  case isFalse changed =>
    generalize updatePwd (updateSsid info ssid) pwd = info₂ at ended₂ ssid₂ pwd₂ changed ⊢
    rcases ended₂.texts (b := { info₂ with staPmk := pmk.getD (.zero _) }) rfl rfl with
      ⟨ended', ssid', pwd'⟩
    exact ⟨ended', ssid'.trans (ssid₂.trans ssid₁), pwd'.trans pwd₂,
      .inl ⟨eq_false_of_ne_true changed, rfl⟩⟩

/-! ## What `connected` does -/

/-- A record that `connected` leaves: the credentials and the PMK are kept, and the record is saved
whole or not at all. -/
theorem wifiUpdateNvStaConnected_cases {info : WifiNvInfo} (ended : info.Ended) (ssid : CString)
    (bssid : Bytes 6) (channel : UInt8) :
    ∃ info' : WifiNvInfo, info'.Ended ∧ info'.Same info ∧ (info'.sync = true → info' = info) ∧
      (wifiUpdateNvStaConnected info ssid bssid channel = (info', []) ∨
        info'.ssid ≠ noText ∧ wifiUpdateNvStaConnected info ssid bssid channel =
          ({ info' with sync := true }, saveWrites info')) := by
  rw [wifiUpdateNvStaConnected]
  split
  · exact ⟨info, ended, .refl _, fun _ => rfl, .inl rfl⟩
  have bssid_same : (updateBssid info bssid).staSsid = info.staSsid ∧
      (updateBssid info bssid).staPwd = info.staPwd ∧
      (updateBssid info bssid).staPmk = info.staPmk ∧
      ((updateBssid info bssid).sync = true → updateBssid info bssid = info) := by
    rw [updateBssid]
    split
    · exact ⟨rfl, rfl, rfl, fun synced => (nomatch synced)⟩
    · exact ⟨rfl, rfl, rfl, fun _ => rfl⟩
  have channel_same (i : WifiNvInfo) : (updateChannel i channel).staSsid = i.staSsid ∧
      (updateChannel i channel).staPwd = i.staPwd ∧ (updateChannel i channel).staPmk = i.staPmk ∧
      ((updateChannel i channel).sync = true → updateChannel i channel = i) := by
    rw [updateChannel]
    split
    · exact ⟨rfl, rfl, rfl, fun synced => (nomatch synced)⟩
    · exact ⟨rfl, rfl, rfl, fun _ => rfl⟩
  rcases bssid_same with ⟨ssid₁, pwd₁, pmk₁, kept₁⟩
  rcases channel_same (updateBssid info bssid) with ⟨ssid₂, pwd₂, pmk₂, kept₂⟩
  rcases ended.texts (ssid₂.trans ssid₁) (pwd₂.trans pwd₁) with ⟨ended', ssid', pwd'⟩
  refine ⟨_, ended', ⟨ssid', pwd', pmk₂.trans pmk₁⟩, fun synced => ?_, ?_⟩
  · have first := kept₂ synced
    rw [first] at synced ⊢
    exact kept₁ synced
  dsimp only
  split
  · exact .inl rfl
  rw [wifiSaveNvInfo]
  split
  · exact .inl rfl
  case isFalse named =>
    refine .inr ⟨fun empty => named ?_, rfl⟩
    rcases ended'.ssid.shape with ⟨rest, shape⟩
    rw [shape]
    change (((updateChannel (updateBssid info bssid) channel).ssid).1 ++ 0 :: rest).headD 0 = 0
    rw [empty]
    rfl

end WifiNv

end Tr6260
