import Mathlib.Data.List.Induction
import Tr6260.WifiNv.Model

/-!
# The channels of `platform/smartconfig`

The timer of smartconfig moves from channel to channel, and after 20 rounds only to those of the
access points that were seen. The next one is searched upwards in a `uint8_t`: beyond 255 the search
goes on at 0, where access points without a known channel are, and without an access point it does
not end. A channel that the country does not have leaves the radio on none, and the next tick starts
again at the first.
-/

namespace Tr6260

open WifiNv (Bytes)

namespace ScHop

/-! ## The list of access points -/

/-- `MAX_APLIST_NUM`, `ZC_MIN_CHANNEL` and `ZC_MAX_CHANNEL`. -/
def maxAplistNum : Nat := 100
def zcMinChannel : UInt8 := 1
def zcMaxChannel : UInt8 := 14

/-- `ZC_AUTH_TYPE_MAX`, `ZC_AUTH_TYPE_INVALID` and the types of encryption. -/
def zcAuthTypeMax : UInt8 := 6
def zcAuthTypeInvalid : UInt8 := 0xff
def zcEncTypeAes : UInt8 := 3
def zcEncTypeTkipaes : UInt8 := 4
def zcEncTypeMax : UInt8 := 4
def zcEncTypeInvalid : UInt8 := 0xff

/-- `struct ap_info`. -/
structure ApInfo where
  auth : UInt8
  channel : UInt8
  encry0 : UInt8
  encry1 : UInt8
  mac : Vector UInt8 6
  ssid : Bytes 33
  rssi : Int

/-- An entry that was never written. -/
def ApInfo.zero : ApInfo := ⟨0, 0, 0, 0, .replicate 6 0, .zero 33, 0⟩

/-- `zconfig_aplist`: the first entry apart from those up to `zconfig_aplist_num`. -/
structure ApList where
  temp : ApInfo
  entries : List ApInfo
  room : entries.length < maxAplistNum
  known : ∀ ap ∈ entries, ap.channel ≤ zcMaxChannel

/-- The list after `awss_init_ieee80211_aplist`. -/
def ApList.empty : ApList := ⟨.zero, [], by decide, nofun⟩

/-- `zconfig_check_ap_channel`. -/
def zconfigCheckApChannel (aps : ApList) (channel : Nat) : Bool :=
  aps.entries.any fun ap => ap.channel.toNat = channel

/-- The channel as `awss_save_apinfo` keeps it. -/
def keptChannel (channel : UInt8) : UInt8 :=
  if channel > zcMaxChannel ∨ channel < zcMinChannel then 0 else channel

theorem keptChannel_le (channel : UInt8) : keptChannel channel ≤ zcMaxChannel := by
  rw [keptChannel]
  split
  · decide
  · next inside => exact UInt8.not_lt.mp (not_or.mp inside).1

/-- What was seen of an access point. The name is a text of at most 32 bytes. -/
structure Seen where
  ssid : CString
  short : ssid.strlen ≤ 32
  bssid : Vector UInt8 6
  channel : UInt8
  auth : UInt8
  pairwiseCipher : UInt8
  groupCipher : UInt8
  rssi : Int

/-- The checks of `awss_save_apinfo`. -/
def Seen.checked (seen : Seen) : Seen :=
  let pairwise :=
    if seen.pairwiseCipher > zcEncTypeMax then zcEncTypeInvalid else seen.pairwiseCipher
  { seen with
    channel := keptChannel seen.channel
    auth := if seen.auth > zcAuthTypeMax then zcAuthTypeInvalid else seen.auth
    pairwiseCipher := if pairwise = zcEncTypeTkipaes then zcEncTypeAes else pairwise
    groupCipher := if seen.groupCipher > zcEncTypeMax then zcEncTypeInvalid else seen.groupCipher }

/-- Name and address are those of the entry. -/
def ApInfo.same (ap : ApInfo) (seen : Seen) : Bool :=
  ap.ssid.text [] = seen.ssid ∧ ap.mac = seen.bssid

/-- An entry that is seen again. -/
def ApInfo.again (ap : ApInfo) (seen : Seen) : ApInfo :=
  { ap with
    channel := if ap.channel = 0 then seen.channel else ap.channel
    auth := if ap.auth = zcAuthTypeInvalid then seen.auth else ap.auth
    encry0 := if ap.encry0 = zcEncTypeInvalid then seen.groupCipher else ap.encry0
    encry1 := if ap.encry1 = zcEncTypeInvalid then seen.pairwiseCipher else ap.encry1 }

/-- An entry that is written. -/
def ApInfo.write (ap : ApInfo) (seen : Seen) : ApInfo where
  auth := seen.auth
  channel := seen.channel
  encry0 := seen.groupCipher
  encry1 := seen.pairwiseCipher
  mac := seen.bssid
  ssid := ap.ssid.write seen.ssid.1
  rssi := seen.rssi

/-- The entries with the first one of the access point brought up to date, if there is one. -/
def updateFirst (seen : Seen) : List ApInfo → Option (List ApInfo)
  | [] => none
  | ap :: more =>
    if ap.same seen then some (ap.again seen :: more) else (updateFirst seen more).map (ap :: ·)

theorem updateFirst_length {seen : Seen} {entries updated : List ApInfo}
    (found : updateFirst seen entries = some updated) : updated.length = entries.length := by
  induction entries generalizing updated with
  | nil => cases found
  | cons ap more ih =>
    rw [updateFirst] at found
    split at found
    · cases found
      rfl
    · obtain ⟨later, found', rfl⟩ := Option.map_eq_some_iff.mp found
      rw [List.length_cons, ih found', List.length_cons]

/-- What holds of all channels, and of the one that was seen, holds of all afterwards. -/
theorem updateFirst_keeps (P : UInt8 → Prop) {seen : Seen} (new : P seen.channel)
    {entries updated : List ApInfo} (all : ∀ ap ∈ entries, P ap.channel)
    (found : updateFirst seen entries = some updated) : ∀ ap ∈ updated, P ap.channel := by
  induction entries generalizing updated with
  | nil => cases found
  | cons ap more ih =>
    obtain ⟨first, rest⟩ := List.forall_mem_cons.mp all
    rw [updateFirst] at found
    split at found
    · cases found
      refine List.forall_mem_cons.mpr ⟨?_, rest⟩
      rw [ApInfo.again]
      dsimp only
      split
      · exact new
      · exact first
    · obtain ⟨later, found', rfl⟩ := Option.map_eq_some_iff.mp found
      exact List.forall_mem_cons.mpr ⟨first, ih rest found'⟩

/-- `awss_save_apinfo`. When the list is full, the first entry is written. -/
def awssSaveApinfo (aps : ApList) (seen : Seen) : ApList :=
  match found : updateFirst seen.checked aps.entries with
  | some entries =>
    { aps with
      entries := entries
      room := by
        rw [updateFirst_length found]
        exact aps.room
      known := updateFirst_keeps (· ≤ zcMaxChannel) (keptChannel_le seen.channel) aps.known found }
  | none =>
    if free : aps.entries.length + 1 < maxAplistNum then
      { aps with
        entries := aps.entries ++ [ApInfo.zero.write seen.checked]
        room := by
          rw [List.length_append, List.length_singleton]
          exact free
        known := by
          intro ap mem
          cases List.mem_append.mp mem with
          | inl old => exact aps.known ap old
          | inr new =>
            rw [List.mem_singleton.mp new]
            exact keptChannel_le seen.channel }
    else { aps with temp := aps.temp.write seen.checked }

/-! ## The radio -/

/-- `ch_freq_table`. -/
def chFreqTable : List Nat :=
  [2412, 2417, 2422, 2427, 2432, 2437, 2442, 2447, 2452, 2457, 2462, 2467, 2472, 2484]

/-- `wifi_country_t`, with the checks of `system_modem_api_set_country_info`. -/
structure Country where
  schan : Nat
  nchan : Nat
  first_pos : 0 < schan
  some_ : 0 < nchan
  last_le : schan + nchan - 1 ≤ 14

/-- The country after a start. -/
def cn : Country := ⟨1, 13, by decide, by decide, by decide⟩

/-- The country has this channel. -/
def Country.Has (country : Country) (channel : Nat) : Prop :=
  country.schan ≤ channel ∧ channel ≤ country.schan + country.nchan - 1

instance (country : Country) (channel : Nat) : Decidable (country.Has channel) := by
  unfold Country.Has
  infer_instance

/-- `system_modem_api_channel_to_mac80211_frequency`; its assertion only prints. -/
def channelToFrequency (country : Country) (channel : Nat) : Nat :=
  if country.Has channel then chFreqTable.getD (channel - 1) 0 else 0

/-- `system_modem_api_mac80211_frequency_to_channel`. -/
def frequencyToChannel (country : Country) (frequency : Nat) : Nat :=
  let channel := ((chFreqTable.findIdx? (· = frequency)).map (· + 1)).getD 0
  if country.Has channel then channel else 0

/-- `current_channel` and `current_channel_number` of `g_sys_info`. -/
structure Radio (country : Country) where
  frequency : Nat
  number : Nat
  tuned : number = frequencyToChannel country frequency

/-- `wifi_rf_set_channel`, by `system_modem_api_set_channel`. -/
def wifiRfSetChannel {country : Country} (radio : Radio country) (channel : Nat) : Radio country :=
  let frequency := channelToFrequency country channel
  if radio.frequency = frequency then radio
  else ⟨frequency, frequencyToChannel country frequency, rfl⟩

/-- The channel after a call: none when the country does not have it. -/
theorem number_wifiRfSetChannel {country : Country} (radio : Radio country) (channel : Nat) :
    (wifiRfSetChannel radio channel).number = if country.Has channel then channel else 0 := by
  have tuned : (wifiRfSetChannel radio channel).number =
      frequencyToChannel country (channelToFrequency country channel) := by
    rw [wifiRfSetChannel]
    split
    · next same => rw [radio.tuned, same]
    · rfl
  rw [tuned, channelToFrequency]
  split
  · next has =>
    have low : 0 < channel := Nat.lt_of_lt_of_le country.first_pos has.1
    have high : channel ≤ 14 := Nat.le_trans has.2 country.last_le
    have back : ∀ channel ≤ 14, 0 < channel → ((chFreqTable.findIdx?
        (· = chFreqTable.getD (channel - 1) 0)).map (· + 1)).getD 0 = channel := by decide
    rw [frequencyToChannel, back channel high low, if_pos has]
  · have missing : ((chFreqTable.findIdx? (· = 0)).map (· + 1)).getD 0 = 0 := by decide
    rw [frequencyToChannel, missing]
    exact ite_self 0

theorem number_le {country : Country} (radio : Radio country) : radio.number ≤ 14 := by
  rw [radio.tuned, frequencyToChannel]
  split
  · next has => exact Nat.le_trans has.2 country.last_le
  · exact Nat.zero_le 14

/-! ## The tick -/

/-- `MAX_CHANNELS`. -/
def maxChannels : Nat := 14

/-- `g_round`, which as an `int` lasts for years of ticks, `g_current_channel`, the radio, and the
period of the timer in milliseconds. -/
structure HopState (country : Country) where
  round : Nat
  currentChannel : Nat
  radio : Radio country
  period : Nat

/-- The channel at which the search starts. -/
def nextChannel (chn : Nat) : Nat :=
  let chn := (chn + 1) % 256
  if chn > maxChannels then 1 else chn

/-- The search, for less than `fuel` channels. -/
def searchChannel (aps : ApList) : Nat → Nat → Option Nat
  | 0, _ => none
  | fuel + 1, chn =>
    if zconfigCheckApChannel aps chn then some chn else searchChannel aps fuel ((chn + 1) % 256)

/-- The tick behind the search, without the records that `sc_change_channel` clears. -/
def HopState.hopTo {country : Country} (s : HopState country) (chn : Nat) : HopState country where
  round := s.round + 1
  currentChannel := chn
  radio := wifiRfSetChannel s.radio chn
  period := if chn = 1 ∨ chn = 6 ∨ chn = 11 then 500 else 200

/-- `sc_channel_switch_func`. -/
def scChannelSwitchFunc {country : Country} (fuel : Nat) (aps : ApList) (s : HopState country) :
    Option (HopState country) := do
  let chn := nextChannel s.radio.number
  let chn ← if s.round ≥ 20 then searchChannel aps fuel chn else some chn
  some (s.hopTo chn)

/-- Ticks of the timer one after the other. -/
def ticks {country : Country} (fuel : Nat) (aps : ApList) :
    Nat → HopState country → Option (HopState country)
  | 0, s => some s
  | n + 1, s => (scChannelSwitchFunc fuel aps s).bind (ticks fuel aps n)

/-! ## What is asked of it -/

/-- An access point of the list is on the channel. -/
def Listed (aps : ApList) (channel : Nat) : Prop := zconfigCheckApChannel aps channel = true

/-- The tick ends with a channel from 1 to 14. -/
def GoesOn {country : Country} (aps : ApList) (s : HopState country) : Prop :=
  ∃ fuel s', scChannelSwitchFunc fuel aps s = some s' ∧ 1 ≤ s'.currentChannel ∧
    s'.currentChannel ≤ 14

/-- The channel is set in one of the next 14 ticks. -/
def VisitedSoon {country : Country} (aps : ApList) (s : HopState country) (channel : Nat) : Prop :=
  ∃ fuel n s', 1 ≤ n ∧ n ≤ 14 ∧ ticks fuel aps n s = some s' ∧ s'.currentChannel = channel

/-- In every run, from 20 rounds on, each channel with an access point is set in any 14 ticks. -/
def KeepsVisiting (country : Country) (aps : ApList) : Prop :=
  ∀ (s s' : HopState country) (fuel n : Nat), ticks fuel aps n s = some s' → 20 ≤ s'.round →
    ∀ channel, 1 ≤ channel → channel ≤ 14 → Listed aps channel → VisitedSoon aps s' channel

/-- The search of this tick meets an access point before it gets to channel 0. -/
def SearchInside {country : Country} (aps : ApList) (s : HopState country) : Prop :=
  s.round < 20 ∨ (∃ channel, Listed aps channel) ∧
    (¬ Listed aps 0 ∨ ∃ channel, nextChannel s.radio.number ≤ channel ∧ Listed aps channel)

/-- The country has each channel that has an access point, unless no higher one has. -/
def Passable (country : Country) (aps : ApList) : Prop :=
  ∀ low high, 1 ≤ low → low < high → Listed aps low → Listed aps high → country.Has low

/-! ## The search -/

section Search

variable {aps : ApList} {fuel chn channel found : Nat}

theorem listed_iff : Listed aps channel ↔ ∃ ap ∈ aps.entries, ap.channel.toNat = channel := by
  unfold Listed zconfigCheckApChannel
  rw [List.any_eq_true]
  simp only [decide_eq_true_eq]

theorem Listed.le (listed : Listed aps channel) : channel ≤ 14 := by
  obtain ⟨ap, mem, same⟩ := listed_iff.mp listed
  rw [← same]
  exact UInt8.le_iff_toNat_le.mp (aps.known ap mem)

theorem searchChannel_listed (search : searchChannel aps fuel chn = some found) :
    Listed aps found := by
  induction fuel generalizing chn with
  | zero => cases search
  | succ fuel ih =>
    rw [searchChannel] at search
    split at search
    · next here =>
      cases search
      exact here
    · exact ih search

theorem searchChannel_skip (missing : ¬ Listed aps chn) (fuel : Nat) :
    searchChannel aps (fuel + 1) chn = searchChannel aps fuel ((chn + 1) % 256) :=
  if_neg missing

/-- More rounds do not change what was found. -/
theorem searchChannel_mono (search : searchChannel aps fuel chn = some found) (more : Nat) :
    searchChannel aps (fuel + more) chn = some found := by
  induction fuel generalizing chn with
  | zero => cases search
  | succ fuel ih =>
    rw [Nat.add_right_comm, searchChannel]
    rw [searchChannel] at search
    split at search
    · next here => rw [if_pos here, search]
    · next other => rw [if_neg other, ih search]

/-- With an access point at or above the start, the search does not pass it. -/
theorem searchChannel_le (listed : Listed aps channel) (above : chn ≤ channel)
    (search : searchChannel aps fuel chn = some found) : chn ≤ found ∧ found ≤ channel := by
  have high := listed.le
  induction fuel generalizing chn with
  | zero => cases search
  | succ fuel ih =>
    rw [searchChannel] at search
    split at search
    · cases search
      exact ⟨Nat.le_refl _, above⟩
    · next other =>
      have below : chn < channel := by
        apply Nat.lt_of_le_of_ne above
        intro same
        exact other (same ▸ listed)
      rw [Nat.mod_eq_of_lt (by omega)] at search
      have next := ih below search
      omega

theorem searchChannel_ends (listed : Listed aps channel) (above : chn ≤ channel) :
    ∃ found, searchChannel aps (channel - chn + 1) chn = some found := by
  have high := listed.le
  obtain ⟨steps, rfl⟩ := Nat.exists_eq_add_of_le above
  rw [Nat.add_sub_cancel_left]
  clear above
  induction steps generalizing chn with
  | zero => exact ⟨chn, if_pos listed⟩
  | succ steps ih =>
    by_cases here : zconfigCheckApChannel aps chn = true
    · exact ⟨chn, if_pos here⟩
    · have shift : chn + (steps + 1) = chn + 1 + steps := by omega
      obtain ⟨found, search⟩ := @ih (chn + 1) (shift ▸ listed) (by omega)
      refine ⟨found, ?_⟩
      rw [searchChannel, if_neg here, Nat.mod_eq_of_lt (by omega), search]

/-- Without one, it goes on at 0. -/
theorem searchChannel_wraps (nothing : ∀ channel, chn ≤ channel → ¬ Listed aps channel)
    (byte : chn < 256) (fuel : Nat) :
    searchChannel aps (256 - chn + fuel) chn = searchChannel aps fuel 0 := by
  obtain ⟨left, whole⟩ : ∃ left, chn + (left + 1) = 256 := ⟨255 - chn, by omega⟩
  have count : 256 - chn = left + 1 := by omega
  rw [count]
  clear count
  induction left generalizing chn with
  | zero =>
    have last : (chn + 1) % 256 = 0 := by omega
    rw [Nat.add_comm, searchChannel_skip (nothing chn (Nat.le_refl _)), last]
  | succ left ih =>
    have inside : (chn + 1) % 256 = chn + 1 := by omega
    rw [Nat.add_right_comm, searchChannel_skip (nothing chn (Nat.le_refl _)), inside]
    exact ih (fun channel above => nothing channel (by omega)) (by omega) (by omega)

theorem searchChannel_empty (nothing : ∀ channel, ¬ Listed aps channel) (fuel chn : Nat) :
    searchChannel aps fuel chn = none := by
  induction fuel generalizing chn with
  | zero => rfl
  | succ fuel ih => rw [searchChannel_skip (nothing chn), ih]

/-- The search ends when there is an access point. -/
theorem searchChannel_total (listed : Listed aps channel) (byte : chn < 256) :
    ∃ found, searchChannel aps 512 chn = some found := by
  have high := listed.le
  by_cases above : ∃ later, chn ≤ later ∧ Listed aps later
  · obtain ⟨later, above, listed'⟩ := above
    have high' := listed'.le
    obtain ⟨found, search⟩ := searchChannel_ends listed' above
    have enough : later - chn + 1 + (511 - (later - chn)) = 512 := by omega
    exact ⟨found, enough ▸ searchChannel_mono search _⟩
  · have nothing : ∀ later, chn ≤ later → ¬ Listed aps later := fun later le listed' =>
      above ⟨later, le, listed'⟩
    obtain ⟨found, search⟩ := searchChannel_ends listed (Nat.zero_le _)
    have wrapped := searchChannel_wraps nothing byte (channel - 0 + 1)
    rw [search] at wrapped
    have enough : 256 - chn + (channel - 0 + 1) + (255 + chn - channel) = 512 := by omega
    exact ⟨found, enough ▸ searchChannel_mono wrapped _⟩

/-- Where the search ends behind the wrap: not above any access point. -/
theorem searchChannel_wrapped (nothing : ∀ channel, chn ≤ channel → ¬ Listed aps channel)
    (byte : chn < 256) (search : searchChannel aps fuel chn = some found)
    (listed : Listed aps channel) : found ≤ channel := by
  have wrapped := searchChannel_wraps nothing byte fuel
  rw [Nat.add_comm, searchChannel_mono search] at wrapped
  exact (searchChannel_le listed (Nat.zero_le _) wrapped.symm).2

end Search

/-! ## One tick -/

theorem nextChannel_eq {chn : Nat} (tuned : chn ≤ 14) :
    nextChannel chn = if chn = 14 then 1 else chn + 1 := by
  rw [nextChannel, maxChannels, Nat.mod_eq_of_lt (by omega)]
  by_cases last : chn = 14
  · rw [if_pos last, if_pos (by omega)]
  · rw [if_neg last, if_neg (by omega)]

theorem nextChannel_inside {chn : Nat} (tuned : chn ≤ 14) :
    1 ≤ nextChannel chn ∧ nextChannel chn ≤ 14 := by
  rw [nextChannel_eq tuned]
  split <;> omega

section Tick

variable {country : Country} {aps : ApList} {s s' : HopState country} {fuel : Nat}

theorem tick_early (early : s.round < 20) (fuel : Nat) (aps : ApList) :
    scChannelSwitchFunc fuel aps s = some (s.hopTo (nextChannel s.radio.number)) := by
  rw [scChannelSwitchFunc, if_neg (Nat.not_le.mpr early)]
  rfl

theorem tick_late (late : 20 ≤ s.round) (fuel : Nat) (aps : ApList) :
    scChannelSwitchFunc fuel aps s =
      (searchChannel aps fuel (nextChannel s.radio.number)).map s.hopTo := by
  rw [scChannelSwitchFunc, if_pos late]
  cases searchChannel aps fuel (nextChannel s.radio.number) <;> rfl

/-- The tick goes on exactly when its search is inside. -/
theorem goesOn_iff (aps : ApList) (s : HopState country) : GoesOn aps s ↔ SearchInside aps s := by
  have start := nextChannel_inside (number_le s.radio)
  by_cases early : s.round < 20
  · refine iff_of_true ⟨0, _, tick_early early 0 aps, ?_⟩ (.inl early)
    exact start
  · have late : 20 ≤ s.round := Nat.not_lt.mp early
    have byte : nextChannel s.radio.number < 256 := by omega
    constructor
    · intro ⟨fuel, s', tick, low, high⟩
      rw [tick_late late] at tick
      obtain ⟨found, search, rfl⟩ := Option.map_eq_some_iff.mp tick
      refine .inr ⟨⟨found, searchChannel_listed search⟩, ?_⟩
      by_contra neither
      obtain ⟨zero, none_⟩ := not_or.mp neither
      have nothing : ∀ channel, nextChannel s.radio.number ≤ channel → ¬ Listed aps channel :=
        fun channel above listed => none_ ⟨channel, above, listed⟩
      have atZero := searchChannel_wrapped nothing byte search (not_not.mp zero)
      have inside : 1 ≤ found := low
      omega
    · intro inside
      obtain ⟨⟨channel, listed⟩, zero⟩ := inside.resolve_left early
      obtain ⟨found, search⟩ := searchChannel_total listed byte
      refine ⟨512, s.hopTo found, ?_, ?_, (searchChannel_listed search).le⟩
      · rw [tick_late late, search]
        rfl
      · change 1 ≤ found
        cases zero with
        | inl missing =>
          apply Nat.one_le_iff_ne_zero.mpr
          intro same
          exact missing (same ▸ searchChannel_listed search)
        | inr above =>
          obtain ⟨later, above, listed'⟩ := above
          have inside := searchChannel_le listed' above search
          omega

end Tick

/-! ## Runs of ticks -/

/-- How many channels upwards the next one is, with the first behind the last. -/
def away (chn channel : Nat) : Nat := if chn < channel then channel - chn else channel + 14 - chn

theorem away_le {chn channel : Nat} (tuned : chn ≤ 14) (high : channel ≤ 14) :
    away chn channel ≤ 14 := by
  unfold away
  split <;> omega

theorem away_pos {chn channel : Nat} (tuned : chn ≤ 14) (low : 1 ≤ channel) :
    1 ≤ away chn channel := by
  unfold away
  split <;> omega

section Runs

variable {country : Country} {aps : ApList} {s s' : HopState country} {channel : Nat}

/-- A tick gets to a channel with an access point or nearer to it. -/
theorem tick_nearer (passable : Passable country aps) (late : 20 ≤ s.round) (low : 1 ≤ channel)
    (listed : Listed aps channel) :
    ∃ found, scChannelSwitchFunc 512 aps s = some (s.hopTo found) ∧
      (found = channel ∨
        away (s.hopTo found).radio.number channel < away s.radio.number channel) := by
  have tuned := number_le s.radio
  have high := listed.le
  have start := nextChannel_inside tuned
  obtain ⟨found, search⟩ :=
    searchChannel_total listed (show nextChannel s.radio.number < 256 by omega)
  have here := searchChannel_listed search
  have foundHigh := here.le
  refine ⟨found, by rw [tick_late late, search]; rfl, ?_⟩
  have radio : (s.hopTo found).radio.number = if country.Has found then found else 0 :=
    number_wifiRfSetChannel s.radio found
  have below : 1 ≤ found → found < channel → country.Has found := fun positive under =>
    passable found channel positive under here listed
  rw [radio, or_iff_not_imp_left]
  intro other
  have first := nextChannel_eq tuned
  by_cases ahead : nextChannel s.radio.number ≤ channel
  · -- The search ends on the way to the channel, which the country has.
    obtain ⟨from_, upTo⟩ := searchChannel_le listed ahead search
    rw [if_pos (below (by omega) (by omega))]
    unfold away
    split at first <;> split <;> split <;> omega
  · have last : s.radio.number ≠ 14 := by
      intro same
      rw [if_pos same] at first
      omega
    rw [if_neg last] at first
    by_cases above : ∃ later, nextChannel s.radio.number ≤ later ∧ Listed aps later
    · -- It ends above the channel, and the radio may be on none then.
      obtain ⟨later, above, listed'⟩ := above
      have from_ := (searchChannel_le listed' above search).1
      unfold away
      split <;> split <;> split <;> omega
    · -- It wraps and does not pass the channel.
      have nothing : ∀ later, nextChannel s.radio.number ≤ later → ¬ Listed aps later :=
        fun later le listed' => above ⟨later, le, listed'⟩
      have upTo := searchChannel_wrapped nothing (by omega) search listed
      by_cases zero : found = 0
      · rw [zero, ite_self]
        unfold away
        split <;> split <;> omega
      · rw [if_pos (below (by omega) (by omega))]
        unfold away
        split <;> split <;> omega

/-- The channel is set within as many ticks as it is away. -/
theorem visited_within (passable : Passable country aps) (low : 1 ≤ channel)
    (listed : Listed aps channel) {bound : Nat} (late : 20 ≤ s.round)
    (near : away s.radio.number channel ≤ bound) :
    ∃ n s', 1 ≤ n ∧ n ≤ bound ∧ ticks 512 aps n s = some s' ∧ s'.currentChannel = channel := by
  induction bound generalizing s with
  | zero =>
    have := away_pos (number_le s.radio) low
    omega
  | succ bound ih =>
    obtain ⟨found, tick, here | nearer⟩ := tick_nearer passable late low listed
    · refine ⟨1, s.hopTo found, Nat.le_refl 1, by omega, ?_, here⟩
      rw [ticks, tick]
      rfl
    · have late' : 20 ≤ (s.hopTo found).round := Nat.le_succ_of_le late
      obtain ⟨n, s', one, le, run, visited⟩ := ih late' (by omega)
      refine ⟨n + 1, s', by omega, by omega, ?_, visited⟩
      rw [ticks, tick, Option.bind_some, run]

/-- Below a channel that the country does not have, the ticks stay there. -/
theorem ticks_stay {low : Nat} (listed : Listed aps low) (missing : ¬ country.Has low)
    {fuel n : Nat} (late : 20 ≤ s.round) (under : s.radio.number < low)
    (run : ticks fuel aps n s = some s') (some_ : 1 ≤ n) : s'.currentChannel ≤ low := by
  induction n generalizing s with
  | zero => cases some_
  | succ n ih =>
    rw [ticks, tick_late late] at run
    obtain ⟨t, tick, rest⟩ := Option.bind_eq_some_iff.mp run
    obtain ⟨found, search, rfl⟩ := Option.map_eq_some_iff.mp tick
    have tuned := number_le s.radio
    have high := listed.le
    have first := nextChannel_eq tuned
    rw [if_neg (by omega)] at first
    have upTo := (searchChannel_le listed (by omega) search).2
    cases n with
    | zero =>
      cases rest
      exact upTo
    | succ n =>
      have radio : (s.hopTo found).radio.number = if country.Has found then found else 0 :=
        number_wifiRfSetChannel s.radio found
      apply ih (Nat.le_succ_of_le late) _ rest (by omega)
      rw [radio]
      split
      · next has =>
        apply Nat.lt_of_le_of_ne upTo
        intro same
        exact missing (same ▸ has)
      · omega

end Runs

/-- The ticks visit every access point exactly when the country has all channels with one, except
the highest. -/
theorem keepsVisiting_iff (country : Country) (aps : ApList) :
    KeepsVisiting country aps ↔ Passable country aps := by
  constructor
  · intro visiting low high positive under listedLow listedHigh
    by_contra missing
    have untuned : 0 = frequencyToChannel country 0 := by
      have none_ : ((chFreqTable.findIdx? (· = 0)).map (· + 1)).getD 0 = 0 := by decide
      rw [frequencyToChannel, none_]
      exact (ite_self 0).symm
    let s : HopState country := ⟨20, 0, ⟨0, 0, untuned⟩, 200⟩
    have late : 20 ≤ s.round := Nat.le_refl 20
    obtain ⟨fuel, n, s', one, _, run, visited⟩ :=
      visiting s s 0 0 rfl late high (by omega) listedHigh.le listedHigh
    have stays := ticks_stay listedLow missing late positive run one
    omega
  · intro passable s s' fuel n _ late channel low high listed
    obtain ⟨n', s'', one, le, run, visited⟩ :=
      visited_within passable low listed late (away_le (number_le s'.radio) high)
    exact ⟨512, n', s'', one, le, run, visited⟩

/-! ## Lists that were built from beacons -/

section Built

variable {aps : ApList} {seen : List Seen}

theorem awssSaveApinfo_positive {last : Seen} (new : keptChannel last.channel ≠ 0)
    (all : ∀ ap ∈ aps.entries, ap.channel ≠ 0) :
    (∀ ap ∈ (awssSaveApinfo aps last).entries, ap.channel ≠ 0) ∧
      (awssSaveApinfo aps last).entries ≠ [] := by
  unfold awssSaveApinfo
  split
  · next found =>
    refine ⟨updateFirst_keeps (· ≠ 0) new all found, fun empty => ?_⟩
    dsimp only at empty
    have size := updateFirst_length found
    rw [empty] at size
    rw [List.eq_nil_of_length_eq_zero size.symm] at found
    cases found
  · split
    · refine ⟨List.forall_mem_append.mpr ⟨all, fun ap inside => ?_⟩,
        List.append_ne_nil_of_right_ne_nil _ (List.cons_ne_nil _ _)⟩
      rw [List.mem_singleton.mp inside]
      exact new
    · next full =>
      refine ⟨all, fun empty => ?_⟩
      dsimp only at empty
      rw [empty] at full
      exact full (by decide)

/-- The list after some access points were seen. -/
def apListOf (seen : List Seen) : ApList := seen.foldl awssSaveApinfo .empty

/-- Access points on the channels of the band are not listed on channel 0. -/
theorem apListOf_positive
    (band : ∀ ap ∈ seen, zcMinChannel ≤ ap.channel ∧ ap.channel ≤ zcMaxChannel) :
    (∀ ap ∈ (apListOf seen).entries, ap.channel ≠ 0) ∧
      (seen ≠ [] → (apListOf seen).entries ≠ []) := by
  induction seen using List.reverseRecOn with
  | nil => exact ⟨nofun, fun some_ => absurd rfl some_⟩
  | append_singleton seen last ih =>
    obtain ⟨before, here⟩ := List.forall_mem_append.mp band
    obtain ⟨low, high⟩ := List.forall_mem_singleton.mp here
    have kept : keptChannel last.channel = last.channel :=
      if_neg (not_or.mpr ⟨UInt8.not_lt.mpr high, UInt8.not_lt.mpr low⟩)
    have new : keptChannel last.channel ≠ 0 := by
      rw [kept]
      intro zero
      rw [zero] at low
      exact absurd low (by decide)
    rw [apListOf, List.foldl_append]
    have saved := awssSaveApinfo_positive new (ih before).1
    exact ⟨saved.1, fun _ => saved.2⟩

/-- After a beacon of the band, and none of another, every tick goes on. -/
theorem goesOn_apListOf (some_ : seen ≠ [])
    (band : ∀ ap ∈ seen, zcMinChannel ≤ ap.channel ∧ ap.channel ≤ zcMaxChannel)
    {country : Country} (s : HopState country) : GoesOn (apListOf seen) s := by
  obtain ⟨positive, filled⟩ := apListOf_positive band
  obtain ⟨ap, inside⟩ := List.exists_mem_of_ne_nil _ (filled some_)
  apply (goesOn_iff _ s).mpr
  refine .inr ⟨⟨_, listed_iff.mpr ⟨ap, inside, rfl⟩⟩, .inl fun zero => ?_⟩
  obtain ⟨ap, inside, same⟩ := listed_iff.mp zero
  exact positive ap inside (UInt8.toNat_inj.mp same)

end Built

/-! ## Every list -/

/-- In the country after a start only the highest channel is missing. -/
theorem passable_cn (aps : ApList) : Passable cn aps := by
  intro low high positive under _ listed
  have := listed.le
  exact ⟨positive, by change low ≤ 13; omega⟩

/-- Every tick sets a channel from 1 to 14 exactly when its search meets an access point before
channel 0, and the runs visit all access points exactly when the country has their channels, except
for the highest. -/
theorem scChannelSwitchFunc_continues_iff (country : Country) (aps : ApList) :
    (∀ s : HopState country, 1 ≤ s.radio.number → s.radio.number ≤ 14 →
      (GoesOn aps s ↔ SearchInside aps s)) ∧
    (KeepsVisiting country aps ↔ Passable country aps) :=
  ⟨fun s _ _ => goesOn_iff aps s, keepsVisiting_iff country aps⟩

/-- A radio on channel 6, after 20 rounds. -/
def onSix : HopState cn := ⟨20, 6, ⟨2437, 6, by decide⟩, 500⟩

theorem scChannelSwitchFunc_noList :
    ¬ ∀ (country : Country) (aps : ApList),
      (∀ s : HopState country, 1 ≤ s.radio.number → s.radio.number ≤ 14 → GoesOn aps s) ∧
      KeepsVisiting country aps := by
  intro all
  have goes := (all cn .empty).1 onSix (by decide) (by decide)
  have nothing : ∀ channel, ¬ Listed .empty channel := fun _ listed => Bool.noConfusion listed
  obtain ⟨fuel, s', tick, _, _⟩ := goes
  rw [tick_late (by decide), searchChannel_empty nothing] at tick
  cases tick

/-- An access point outside of the band is listed on channel 0, to which the search goes on. -/
example : (scChannelSwitchFunc 512 (awssSaveApinfo .empty
    ⟨.lit ['a'], by decide, .replicate 6 2, 36, 0, 0, 0, -40⟩) onSix).map
    HopState.currentChannel = some 0 := by decide +kernel

end ScHop

end Tr6260
