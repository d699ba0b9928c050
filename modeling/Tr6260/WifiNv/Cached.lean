import Mathlib.Data.List.Induction
import Tr6260.WifiNv.Pmk

/-!
# Runs with power losses

A save goes through its five keys one after the other. When it is cut off between two of them, the
NV holds the new name with the old PMK, and nothing tells the next start.
-/

namespace Tr6260

namespace WifiNv

/-! ## A save that is cut off -/

/-- The NV when some writes of a save are done. -/
def savedNv (nv : Nv) (info : WifiNvInfo) (done : Nat) : Nv :=
  ((saveWrites info).take done).foldl efSetEnvBlob nv

theorem savedNv_all (nv : Nv) (info : WifiNvInfo) {done : Nat} (all : 5 ≤ done) :
    savedNv nv info done = (saveWrites info).foldl efSetEnvBlob nv := by
  rw [savedNv, List.take_of_length_le all]

theorem savedNv_keys (nv : Nv) (info : WifiNvInfo) (done : Nat) :
    savedNv nv info done .staSsid = (if 1 ≤ done then some info.ssid.1 else nv .staSsid) ∧
      savedNv nv info done .staPwd = (if 2 ≤ done then some info.pwd.1 else nv .staPwd) ∧
      savedNv nv info done .staPmk = (if 5 ≤ done then some info.staPmk.1 else nv .staPmk) :=
  match done with
  | 0 | 1 | 2 | 3 | 4 => ⟨rfl, rfl, rfl⟩
  | done + 5 => by
    rw [if_pos (by omega), if_pos (by omega), if_pos (by omega), savedNv_all nv info (by omega)]
    exact ⟨rfl, rfl, rfl⟩

theorem named_ne_nil {s : CString} (named : s ≠ noText) : s.1 ≠ [] :=
  fun empty => named (Subtype.ext empty)

/-- A whole save is read back. -/
theorem load_saved {info : WifiNvInfo} (ended : info.Ended) (named : info.ssid ≠ noText) (nv : Nv)
    {done : Nat} (all : 5 ≤ done) : (wifiLoadNvInfo (savedNv nv info done)).Same info := by
  rcases savedNv_keys nv info done with ⟨ssid, pwd, pmk⟩
  rw [if_pos (by omega)] at ssid pwd pmk
  rw [wifiLoadNvInfo_of_ssid ssid (named_ne_nil named)]
  have short := ended.pwd.strlen_lt
  rw [← ended.pwd_eq] at short
  exact ⟨readInfo_ssid ssid ended.ssid.strlen_lt, readInfo_pwd pwd short, readInfo_pmk pmk⟩

theorem zero_ssid : WifiNvInfo.zero.ssid = noText := by
  decide

/-- What the keys give does not depend on other keys. -/
theorem readInfo_congr {nv nv' : Nv} :
    (nv' .staSsid = nv .staSsid → (readInfo nv').ssid = (readInfo nv).ssid) ∧
      (nv' .staPwd = nv .staPwd → (readInfo nv').pwd = (readInfo nv).pwd) ∧
      (nv' .staPmk = nv .staPmk → (readInfo nv').staPmk = (readInfo nv).staPmk) := by
  refine ⟨fun same => ?_, fun same => ?_, fun same => ?_⟩
  · rw [WifiNvInfo.ssid, WifiNvInfo.ssid, readInfo, efGetEnvBlob, same]
    rfl
  · rw [(readInfo_ended nv').pwd_eq, (readInfo_ended nv).pwd_eq, readInfo, efGetEnvBlob,
      efGetEnvBlob, same]
    rfl
  · rw [readInfo, efGetEnvBlob, efGetEnvBlob, efGetEnvBlob, efGetEnvBlob, efGetEnvBlob, same]
    rfl

/-- A save that is cut off leaves the credentials when those it wrote were the same. -/
theorem load_cut {info : WifiNvInfo} (ended : info.Ended) (named : info.ssid ≠ noText) {nv : Nv}
    {done : Nat} (cut : done < 5) (ssid : done = 0 ∨ (wifiLoadNvInfo nv).ssid = info.ssid)
    (pwd : done ≤ 1 ∨ (wifiLoadNvInfo nv).pwd = info.pwd) :
    (wifiLoadNvInfo (savedNv nv info done)).Same (wifiLoadNvInfo nv) := by
  rcases Nat.eq_zero_or_pos done with none_ | (begun : 1 ≤ done)
  · subst none_
    exact .refl _
  have ssid := ssid.resolve_left (by omega)
  rcases savedNv_keys nv info done with ⟨ssid', pwd', pmk'⟩
  rw [if_pos begun] at ssid'
  rw [if_neg (by omega)] at pmk'
  rw [wifiLoadNvInfo_of_ssid ssid' (named_ne_nil named)]
  -- the name was in the NV already
  have read : wifiLoadNvInfo nv = readInfo nv := by
    by_cases missing : (efGetEnvBlob nv .staSsid (wifiSsidMaxLen - 1)).length ≤ 0
    · rw [wifiLoadNvInfo, if_pos missing, zero_ssid] at ssid
      exact absurd ssid.symm named
    · rw [wifiLoadNvInfo, if_neg missing]
  rw [read] at ssid pwd ⊢
  refine ⟨(readInfo_ssid ssid' ended.ssid.strlen_lt).trans ssid.symm, ?_, readInfo_congr.2.2 pmk'⟩
  by_cases second : 2 ≤ done
  · rw [if_pos second] at pwd'
    have short := ended.pwd.strlen_lt
    rw [← ended.pwd_eq] at short
    exact (readInfo_pwd pwd' short).trans (pwd.resolve_left (by omega)).symm
  · rw [if_neg second] at pwd'
    exact readInfo_congr.2.1 pwd'

/-! ## Conditions on a run -/

/-- The texts of a start are within bounds. -/
def Event.Fits (most : Nat) : Event → Prop
  | .start ssid pwd _ => (ssid.getD noText).strlen ≤ 32 ∧ (pwd.getD noText).strlen ≤ most
  | _ => True

instance (most : Nat) : (e : Event) → Decidable (e.Fits most)
  | .start _ _ _ => inferInstanceAs (Decidable (_ ∧ _))
  | .connected _ _ _ => isTrue trivial
  | .powerLoss _ _ _ _ => isTrue trivial
  | .use _ _ => isTrue trivial
  | .restart => isTrue trivial

/-- A power loss does not leave the NV's PMK to other credentials: all writes were done, there is
no PMK in the NV, or its credentials stay the same. -/
def Harmless (d : Device) : Event → Prop
  | .powerLoss ssid bssid channel done =>
    (wifiUpdateNvStaConnected d.info ssid bssid channel).2.length ≤ done ∨
      ¬ (readInfo d.nv).HasPmk ∨
      (done = 0 ∨ (wifiLoadNvInfo d.nv).ssid = d.info.ssid) ∧
        (done ≤ 1 ∨ (wifiLoadNvInfo d.nv).pwd = d.info.pwd)
  | _ => True

/-- A restart finds in the NV what the record holds. -/
def Kept (d : Device) : Event → Prop
  | .powerLoss ssid bssid channel done =>
    d.info.sync = true ∨
      (wifiLoadNvInfo (d.step (.powerLoss ssid bssid channel done)).nv).Same d.info
  | .restart => d.info.sync = true ∨ (wifiLoadNvInfo d.nv).Same d.info
  | _ => True

/-- Every event after `before` meets a condition. -/
def Along (P : Device → Event → Prop) (before events : List Event) : Prop :=
  ∀ front e rest, events = front ++ e :: rest → P (run (before ++ front)) e

theorem Along.init {P : Device → Event → Prop} {before events : List Event} {e : Event}
    (along : Along P before (events ++ [e])) :
    Along P before events ∧ P (run (before ++ events)) e := by
  refine ⟨fun front e' rest eq => along front e' (rest ++ [e]) ?_, along events e [] rfl⟩
  rw [eq, List.append_assoc, List.cons_append]

/-! ## What is kept -/

/-- A record that counts as saved is in the NV. -/
structure Synced (d : Device) : Prop where
  ended : d.info.Ended
  saved : d.info.sync = true → (wifiLoadNvInfo d.nv).Same d.info

theorem boot_synced (nv : Nv) : Synced (.boot nv) := ⟨wifiLoadNvInfo_ended nv, fun _ => .refl _⟩

/-- The NV behind a power loss: untouched, or the first writes of a save were done. -/
theorem powerLoss_cases {d : Device} (ended : d.info.Ended) (ssid : CString) (bssid : Bytes 6)
    (channel : UInt8) (done : Nat) :
    d.step (.powerLoss ssid bssid channel done) = .boot d.nv ∨
      ∃ info : WifiNvInfo, info.Ended ∧ info.ssid ≠ noText ∧ info.Same d.info ∧
        (wifiUpdateNvStaConnected d.info ssid bssid channel).2.length = 5 ∧
        d.step (.powerLoss ssid bssid channel done) = .boot (savedNv d.nv info done) := by
  rcases wifiUpdateNvStaConnected_cases ended ssid bssid channel with
    ⟨info, ended', same, -, none_ | ⟨named, saves⟩⟩
  · refine .inl ?_
    rw [Device.step, none_]
    change Device.boot (List.foldl efSetEnvBlob d.nv (List.take done [])) = _
    rw [List.take_nil]
    rfl
  · refine .inr ⟨info, ended', named, same, ?_, ?_⟩
    · rw [saves]
      rfl
    · rw [Device.step, saves]
      rfl

theorem step_synced {d : Device} (inv : Synced d) {e : Event} (fits : e.Fits 63) :
    Synced (d.step e) := by
  cases e with
  | start ssid pwd pmk =>
    cases ssid with
    | none => exact inv
    | some name =>
      rcases wifiUpdateNvStaStart_spec inv.ended name pwd pmk (Nat.lt_succ_of_le (fits.1))
        (Nat.lt_succ_of_le fits.2) with ⟨ended, -, -, ⟨changed, -⟩ | ⟨-, same⟩⟩
      · exact ⟨ended, fun synced => (nomatch changed.symm.trans synced)⟩
      · change Synced ⟨d.nv, _⟩
        rw [same]
        exact inv
  | connected ssid bssid channel =>
    rcases wifiUpdateNvStaConnected_cases inv.ended ssid bssid channel with
      ⟨info, ended, same, kept, none_ | ⟨named, saves⟩⟩
    · rw [Device.step, none_]
      refine ⟨ended, fun synced => ?_⟩
      have unchanged := kept synced
      subst unchanged
      exact inv.saved synced
    · rw [Device.step, saves]
      rcases ended.texts (b := { info with sync := true }) rfl rfl with ⟨ended', ssid', pwd'⟩
      have whole := load_saved ended named d.nv (Nat.le_refl 5)
      exact ⟨ended', fun _ => whole.trans ⟨ssid'.symm, pwd'.symm, rfl⟩⟩
  | powerLoss ssid bssid channel done => exact boot_synced _
  | use ssid pwd => exact inv
  | restart => exact boot_synced _

theorem run_synced {events : List Event} (fits : ∀ e ∈ events, e.Fits 63) : Synced (run events) := by
  induction events using List.reverseRecOn with
  | nil => exact boot_synced _
  | append_singleton events e ih =>
    rw [run_append]
    exact step_synced (ih fun e' inside => fits e' (List.mem_append_left _ inside))
      (fits e (List.mem_append_right _ List.mem_cons_self))

/-! ## Where the PMK comes from -/

/-- The PMK of a record, if any, was received with its credentials. -/
def Received (events : List Event) (info : WifiNvInfo) : Prop :=
  info.HasPmk → ∃ pwd, Event.start (some info.ssid) pwd (some info.staPmk) ∈ events ∧
    pwd.getD noText = info.pwd

theorem Received.mono {events : List Event} {info : WifiNvInfo} (received : Received events info)
    (e : Event) : Received (events ++ [e]) info := fun held => by
  rcases received held with ⟨pwd, inside, same⟩
  exact ⟨pwd, List.mem_append_left _ inside, same⟩

theorem Received.congr {events : List Event} {a b : WifiNvInfo} (received : Received events a)
    (same : b.Same a) : Received events b := fun held => by
  rcases received ((WifiNvInfo.hasPmk_congr same.pmk).mp held) with ⟨pwd, inside, eq⟩
  refine ⟨pwd, ?_, eq.trans same.pwd.symm⟩
  rw [same.ssid, same.pmk]
  exact inside

theorem received_of_not {events : List Event} {info : WifiNvInfo} (none_ : ¬ info.HasPmk) :
    Received events info := fun held => absurd held none_

/-- The record and the NV hold PMKs with their credentials. -/
structure Paired (events : List Event) (d : Device) : Prop where
  info : Received events d.info
  nv : Received events (wifiLoadNvInfo d.nv)

/-- A record that is loaded has no PMK when the key has none. -/
theorem load_not_hasPmk {nv : Nv} (none_ : ¬ (readInfo nv).HasPmk) :
    ¬ (wifiLoadNvInfo nv).HasPmk := by
  rw [wifiLoadNvInfo]
  split
  · exact WifiNvInfo.zero_not_hasPmk
  · exact none_

theorem boot_paired {events : List Event} {nv : Nv} (received : Received events (wifiLoadNvInfo nv)) :
    Paired events (.boot nv) := ⟨received, received⟩

theorem step_paired {events : List Event} {d : Device} (synced : Synced d) (inv : Paired events d)
    {e : Event} (fits : e.Fits 63) (harmless : Harmless d e) :
    Paired (events ++ [e]) (d.step e) := by
  cases e with
  | start ssid pwd pmk =>
    refine ⟨?_, inv.nv.mono _⟩
    cases ssid with
    | none => exact inv.info.mono _
    | some name =>
      rcases wifiUpdateNvStaStart_spec synced.ended name pwd pmk
        (Nat.lt_succ_of_le (fits.1)) (Nat.lt_succ_of_le fits.2) with
        ⟨-, ssid', pwd', ⟨-, pmk'⟩ | ⟨-, same⟩⟩
      · intro held
        refine ⟨pwd, List.mem_append_right _ ?_, pwd'.symm⟩
        change WifiNvInfo.HasPmk (wifiUpdateNvStaStart d.info (some name) pwd pmk) at held
        cases pmk with
        | none =>
          -- without a PMK zeros are stored
          rw [WifiNvInfo.HasPmk, pmk'] at held
          exact absurd (by decide) held
        | some pmk =>
          change Event.start (some (wifiUpdateNvStaStart d.info (some name) pwd (some pmk)).ssid) pwd
            (some (wifiUpdateNvStaStart d.info (some name) pwd (some pmk)).staPmk) ∈ _
          rw [ssid', pmk']
          exact List.mem_cons_self
      · change Received _ (wifiUpdateNvStaStart d.info (some name) pwd pmk)
        rw [same]
        exact inv.info.mono _
  | connected ssid bssid channel =>
    rcases wifiUpdateNvStaConnected_cases synced.ended ssid bssid channel with
      ⟨info, ended, same, -, none_ | ⟨named, saves⟩⟩
    · rw [Device.step, none_]
      exact ⟨(inv.info.congr same).mono _, inv.nv.mono _⟩
    · rw [Device.step, saves]
      rcases ended.texts (b := { info with sync := true }) rfl rfl with ⟨-, ssid', pwd'⟩
      have whole := load_saved ended named d.nv (Nat.le_refl 5)
      exact ⟨((inv.info.congr same).congr ⟨ssid', pwd', rfl⟩).mono _,
        ((inv.info.congr same).congr whole).mono _⟩
  | powerLoss ssid bssid channel done =>
    rcases powerLoss_cases synced.ended ssid bssid channel done with
      none_ | ⟨info, ended, named, same, five, cut⟩
    · rw [none_]
      exact boot_paired (inv.nv.mono _)
    rw [cut]
    refine boot_paired (Received.mono ?_ _)
    by_cases all : 5 ≤ done
    · exact (inv.info.congr same).congr (load_saved ended named d.nv all)
    rcases harmless with whole | empty | ⟨sameSsid, samePwd⟩
    · rw [five] at whole
      exact absurd whole all
    · have key := (savedNv_keys d.nv info done).2.2
      rw [if_neg all] at key
      have empty' := (WifiNvInfo.hasPmk_congr (readInfo_congr.2.2 key)).not.mpr empty
      exact received_of_not (load_not_hasPmk empty')
    · rw [← same.ssid] at sameSsid
      rw [← same.pwd] at samePwd
      exact inv.nv.congr (load_cut ended named (Nat.lt_of_not_le all) sameSsid samePwd)
  | use ssid pwd => exact ⟨inv.info.mono _, inv.nv.mono _⟩
  | restart => exact boot_paired (inv.nv.mono _)

theorem run_paired {events : List Event} (fits : ∀ e ∈ events, e.Fits 63)
    (harmless : Along Harmless [] events) : Paired events (run events) := by
  induction events using List.reverseRecOn with
  | nil => exact boot_paired (received_of_not (by decide))
  | append_singleton events e ih =>
    rw [run_append]
    have before : ∀ e' ∈ events, e'.Fits 63 := fun e' inside =>
      fits e' (List.mem_append_left _ inside)
    exact step_paired (run_synced before) (ih before harmless.init.1)
      (fits e (List.mem_append_right _ List.mem_cons_self)) harmless.init.2

/-! ## The PMK that is used -/

theorem wifiUseNvPmk_eq_some {info : WifiNvInfo} {ssid pwd : Option CString} {pmk : Bytes 32} :
    wifiUseNvPmk info ssid pwd = some pmk ↔
      ssid = some info.ssid ∧ pwd.getD noText = info.pwd ∧ info.HasPmk ∧ info.staPmk = pmk := by
  have pmkOf : wifiUseNvPmk.pmkOf info = some pmk ↔ info.HasPmk ∧ info.staPmk = pmk := by
    rw [wifiUseNvPmk.pmkOf]
    split
    case isTrue held => exact Option.some_inj.trans (iff_and_self.mpr fun _ => held)
    case isFalse none_ => exact ⟨nofun, fun both => absurd both.1 none_⟩
  cases ssid with
  | none => exact ⟨nofun, fun all => (nomatch all.1)⟩
  | some name =>
    rw [wifiUseNvPmk.eq_def]
    dsimp only
    split
    case isTrue other =>
      exact ⟨nofun, fun all => absurd (Option.some_inj.mp all.1).symm other⟩
    case isFalse same =>
      have named : some name = some info.ssid := congrArg some (not_not.mp same).symm
      cases pwd with
      | none =>
        dsimp only
        split
        case isTrue filled =>
          exact ⟨nofun, fun all => absurd (strlen_eq_zero.mpr all.2.1.symm) filled⟩
        case isFalse empty =>
          have none_ := (strlen_eq_zero.mp (not_not.mp empty)).symm
          exact pmkOf.trans ⟨fun held => ⟨named, none_, held⟩, fun all => all.2.2⟩
      | some pwd =>
        dsimp only
        split
        case isTrue other => exact ⟨nofun, fun all => absurd all.2.1.symm other⟩
        case isFalse equal =>
          exact pmkOf.trans ⟨fun held => ⟨named, (not_not.mp equal).symm, held⟩, fun all => all.2.2⟩

/-- A PMK that is used came in a start with the same name and password. -/
def PmkReceived (events : List Event) : Prop :=
  ∀ ssid pwd pmk, wifiUseNvPmk (run events).info ssid pwd = some pmk →
    ∃ pwd', .start ssid pwd' (some pmk) ∈ events ∧ pwd'.getD noText = pwd.getD noText

/-- The start behind `before` leaves the record unsaved, and is the last one. -/
structure LastStart (before : List Event) (ssid : CString) (pwd : Option CString) (pmk : Bytes 32)
    (after : List Event) : Prop where
  changed : (run (before ++ [.start (some ssid) pwd (some pmk)])).info.sync = false
  last : ∀ ssid' pwd' pmk', .start ssid' pwd' pmk' ∉ after

/-- What the record holds behind its last start. -/
structure Holds (d : Device) (ssid : CString) (pwd : Option CString) (pmk : Bytes 32) : Prop where
  ssid : d.info.ssid = ssid
  pwd : d.info.pwd = pwd.getD noText
  pmk : d.info.staPmk = pmk

theorem Holds.congr {d d' : Device} {ssid : CString} {pwd : Option CString} {pmk : Bytes 32}
    (holds : Holds d ssid pwd pmk) (same : d'.info.Same d.info) : Holds d' ssid pwd pmk :=
  ⟨same.ssid.trans holds.ssid, same.pwd.trans holds.pwd, same.pmk.trans holds.pmk⟩

/-- A restart of a record that counts as saved finds it, even behind a save that is cut off. -/
theorem powerLoss_same {d : Device} (synced : Synced d) (insync : d.info.sync = true)
    (ssid : CString) (bssid : Bytes 6) (channel : UInt8) (done : Nat) :
    (d.step (.powerLoss ssid bssid channel done)).info.Same d.info := by
  have found := synced.saved insync
  rcases powerLoss_cases synced.ended ssid bssid channel done with
    none_ | ⟨info, ended, named, same, -, cut⟩
  · rw [none_]
    exact found
  rw [cut]
  by_cases all : 5 ≤ done
  · exact (load_saved ended named d.nv all).trans same
  · have agree := found.trans same.symm
    exact (load_cut ended named (Nat.lt_of_not_le all) (.inr agree.ssid) (.inr agree.pwd)).trans found

theorem step_holds {d : Device} (synced : Synced d) {ssid : CString} {pwd : Option CString}
    {pmk : Bytes 32} (holds : Holds d ssid pwd pmk) {e : Event}
    (other : ∀ ssid' pwd' pmk', .start ssid' pwd' pmk' ≠ e) (kept : Kept d e) :
    Holds (d.step e) ssid pwd pmk := by
  cases e with
  | start ssid' pwd' pmk' => exact absurd rfl (other ssid' pwd' pmk')
  | connected name bssid channel =>
    rcases wifiUpdateNvStaConnected_cases synced.ended name bssid channel with
      ⟨info, ended, same, -, none_ | ⟨-, saves⟩⟩
    · rw [Device.step, none_]
      exact holds.congr same
    · rw [Device.step, saves]
      rcases ended.texts (b := { info with sync := true }) rfl rfl with ⟨-, ssid', pwd'⟩
      have same' : WifiNvInfo.Same { info with sync := true } info := ⟨ssid', pwd', rfl⟩
      exact holds.congr (same'.trans same)
  | powerLoss name bssid channel done =>
    rcases kept with insync | same
    · exact holds.congr (powerLoss_same synced insync name bssid channel done)
    · exact holds.congr same
  | use ssid' pwd' => exact holds
  | restart =>
    rcases kept with insync | same
    · exact holds.congr (synced.saved insync)
    · exact holds.congr same

theorem run_holds {before : List Event} {ssid : CString} {pwd : Option CString} {pmk : Bytes 32}
    {after : List Event} (start : LastStart before ssid pwd pmk after)
    (fits : ∀ e ∈ before ++ .start (some ssid) pwd (some pmk) :: after, e.Fits 63)
    (kept : Along Kept (before ++ [.start (some ssid) pwd (some pmk)]) after) :
    Holds (run (before ++ .start (some ssid) pwd (some pmk) :: after)) ssid pwd pmk := by
  induction after using List.reverseRecOn with
  | nil =>
    have synced := run_synced fun e inside => fits e (List.mem_append_left _ inside)
    have bounds := fits _ (List.mem_append_right _ List.mem_cons_self)
    have changed := start.changed
    rw [run_append] at changed ⊢
    rcases wifiUpdateNvStaStart_spec synced.ended ssid pwd (some pmk)
      (Nat.lt_succ_of_le (bounds.1)) (Nat.lt_succ_of_le bounds.2) with
      ⟨-, ssid', pwd', ⟨-, pmk'⟩ | ⟨insync, -⟩⟩
    · exact ⟨ssid', pwd', pmk'⟩
    · cases changed.symm.trans insync
  | append_singleton after e ih =>
    have whole : before ++ Event.start (some ssid) pwd (some pmk) :: (after ++ [e]) =
        (before ++ .start (some ssid) pwd (some pmk) :: after) ++ [e] := by
      rw [List.append_assoc, List.cons_append]
    have front : before ++ [Event.start (some ssid) pwd (some pmk)] ++ after =
        before ++ .start (some ssid) pwd (some pmk) :: after := by
      rw [List.append_assoc, List.singleton_append]
    rw [whole] at fits ⊢
    have fits' := fun e' inside => fits e' (List.mem_append_left _ inside)
    have kept' := kept.init
    rw [front] at kept'
    rw [run_append]
    refine step_holds (run_synced fits') (ih ⟨start.changed, ?_⟩ fits' kept'.1) ?_ kept'.2
    · exact fun ssid' pwd' pmk' inside =>
        start.last ssid' pwd' pmk' (List.mem_append_left _ inside)
    · rintro ssid' pwd' pmk' rfl
      exact start.last ssid' pwd' pmk' (List.mem_append_right _ List.mem_cons_self)

/-- When no power loss leaves the NV's PMK to other credentials, a PMK that is used was received
with these credentials. The PMK of the last start is used with its credentials, when the start left
the record unsaved and every restart since then found it in the NV. -/
theorem pmk_of_credentials (events : List Event) (fits : ∀ e ∈ events, e.Fits 63) :
    (Along Harmless [] events → PmkReceived events) ∧
      ∀ before ssid pwd pmk after, events = before ++ .start (some ssid) pwd (some pmk) :: after →
        LastStart before ssid pwd pmk after → (pmk.text []).strlen ≠ 0 →
        Along Kept (before ++ [.start (some ssid) pwd (some pmk)]) after →
        wifiUseNvPmk (run events).info (some ssid) pwd = some pmk := by
  constructor
  · intro harmless ssid pwd pmk used
    rcases wifiUseNvPmk_eq_some.mp used with ⟨rfl, same, held, rfl⟩
    rcases (run_paired fits harmless).info held with ⟨pwd', inside, eq⟩
    exact ⟨pwd', inside, eq.trans same.symm⟩
  · rintro before ssid pwd pmk after rfl start filled kept
    have holds := run_holds start fits kept
    rw [wifiUseNvPmk_eq_some, WifiNvInfo.HasPmk, holds.ssid, holds.pwd, holds.pmk]
    exact ⟨rfl, rfl, filled, rfl⟩

/-! ## Runs of two networks -/

def homeSsid : CString := .lit ['h', 'o', 'm', 'e']

def guestSsid : CString := .lit ['g', 'u', 'e', 's', 't']

/-- A password of one character, as often as needed. -/
def pwdOf (c : Char) (n : Nat) : CString := .lit (.replicate n c)

/-- A PMK with a first byte. -/
def pmkOf (first : UInt8) : Bytes 32 := (Bytes.zero 32).write [first, 1]

def apBssid : Bytes 6 := ⟨[2, 1, 1, 1, 1, 1], rfl⟩

def startHome : Event := .start (some homeSsid) (some (pwdOf 'h' 8)) (some (pmkOf 7))

theorem pmk_of_credentials_home :
    wifiUseNvPmk (run [startHome, .connected homeSsid apBssid 6, .restart]).info (some homeSsid)
      (some (pwdOf 'h' 8)) = some (pmkOf 7) := by
  refine (pmk_of_credentials [startHome, .connected homeSsid apBssid 6, .restart] (by decide)).2 []
    homeSsid _ _ [.connected homeSsid apBssid 6, .restart] rfl ⟨by decide, ?_⟩ (by decide) ?_
  · intro ssid' pwd' pmk' inside
    simp at inside
  · rintro (_ | ⟨_, _ | ⟨_, _⟩⟩) e rest eq
    · cases eq
      exact trivial
    · cases eq
      exact .inl (by decide)
    · simp at eq

/-- The PMK of a last start that leaves the record unsaved is used. -/
def PmkServed (events : List Event) : Prop :=
  ∀ before ssid pwd pmk after, events = before ++ .start (some ssid) pwd (some pmk) :: after →
    LastStart before ssid pwd pmk after → (wifiUseNvPmk (run events).info (some ssid) pwd).isSome

/-- The save of a second network is cut off behind its password. -/
def cutOff : List Event :=
  [startHome, .connected homeSsid apBssid 6,
    .start (some guestSsid) (some (pwdOf 'g' 8)) (some (pmkOf 9)), .powerLoss guestSsid apBssid 6 2]

/-- A password of 64 characters is read back without its last one. -/
def longPwd : List Event :=
  [.start (some homeSsid) (some (pwdOf 'h' 64)) (some (pmkOf 7)), .connected homeSsid apBssid 6,
    .restart]

theorem not_received {events : List Event} (ssid pwd : CString) (pmk : Bytes 32)
    (used : wifiUseNvPmk (run events).info (some ssid) (some pwd) = some pmk)
    (other : ∀ e ∈ events, match e with
      | .start ssid' pwd' pmk' => ssid' ≠ some ssid ∨ pmk' ≠ some pmk ∨ pwd'.getD noText ≠ pwd
      | _ => True) : ¬ PmkReceived events := by
  intro received
  rcases received _ _ _ used with ⟨pwd', inside, same⟩
  rcases other _ inside with name | key | word
  · exact name rfl
  · exact key rfl
  · exact word same

theorem not_served {ssid : CString} {pwd : Option CString} {pmk : Bytes 32} {after : List Event}
    (start : LastStart [] ssid pwd pmk after)
    (missing : wifiUseNvPmk (run (.start (some ssid) pwd (some pmk) :: after)).info (some ssid) pwd =
      none) : ¬ PmkServed (.start (some ssid) pwd (some pmk) :: after) := by
  intro served
  have found := served [] ssid pwd pmk after rfl start
  rw [missing] at found
  cases found

/-- A PMK is used with credentials that it was not received with, after a save that is cut off and
with a password that is too long; and the last PMK is not used when it was lost before it was saved,
or starts with a zero. -/
theorem pmk_of_others :
    ((∀ e ∈ cutOff, e.Fits 64) ∧ ¬ PmkReceived cutOff) ∧
      ((∀ e ∈ longPwd, e.Fits 64) ∧ ¬ PmkReceived longPwd) ∧
      ¬ PmkServed [startHome, .restart] ∧
      ¬ PmkServed [.start (some homeSsid) (some (pwdOf 'h' 8)) (some (pmkOf 0))] := by
  refine ⟨⟨by decide, ?_⟩, ⟨by decide, ?_⟩, ?_, ?_⟩
  · apply not_received guestSsid (pwdOf 'g' 8) (pmkOf 7) (by decide)
    rw [cutOff, startHome]
    simp only [List.forall_mem_cons]
    exact ⟨.inl (by decide), trivial, .inr (.inl (by decide)), trivial, nofun⟩
  · apply not_received homeSsid (pwdOf 'h' 63) (pmkOf 7) (by decide)
    rw [longPwd]
    simp only [List.forall_mem_cons]
    exact ⟨.inr (.inr (by decide)), trivial, trivial, nofun⟩
  · refine not_served ⟨by decide, ?_⟩ (by decide)
    simp
  · exact not_served ⟨by decide, fun _ _ _ inside => (nomatch inside)⟩ (by decide)

end WifiNv

end Tr6260
