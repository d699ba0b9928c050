import Tr6260.Rtc.ListKept
import Tr6260.Rtc.TimeChange

/-!
# The timers that are due

The interrupt calls the timers that are due one after the other, from the head, and puts each
periodic one back behind the present time, so that it comes to an end with nothing that is due. The
clock shows the same time throughout.
-/

namespace Tr6260

namespace Rtc

/-! ## The calls of the interrupt -/

/-- The loop of `rtc_timer_isr`, with the timers whose callbacks are called. -/
def isrCalls (w : World) (nowdate : Nat) :
    (fuel : Nat) → RtcState → Option (List TimerPtr × RtcState)
  | 0, _ => none
  | fuel + 1, s =>
    match s.timerListHead with
    | none => some ([], s)
    | some head =>
      if nowdate ≥ s.aim head then
        if (s.timers head).timeout then do
          let s ← rtcTimerTimeout w s head
          let (calls, s) ← isrCalls w nowdate fuel s
          some (head :: calls, s)
        else
          none
      else
        some ([], s)

/-- `rtc_timer_isr`, with the timers whose callbacks are called. -/
def rtcTimerIsrCalls (w : World) (fuel : Nat) (s : RtcState) :
    Option (List TimerPtr × RtcState) :=
  match s.timerListHead with
  | none => some ([], s)
  | some _ =>
    let (nowdate, s) := s.read w
    isrCalls w nowdate.date fuel s

theorem isrLoop_calls (w : World) (nowdate fuel : Nat) (s : RtcState) :
    isrLoop w nowdate fuel s = (isrCalls w nowdate fuel s).map Prod.snd := by
  induction fuel generalizing s with
  | zero => rfl
  | succ fuel ih =>
    rw [isrLoop, isrCalls]
    cases s.timerListHead with
    | none => rfl
    | some head =>
      dsimp only
      split
      · split
        · cases rtcTimerTimeout w s head with
          | none => rfl
          | some s' =>
            dsimp only [Option.bind_eq_bind, Option.bind_some]
            rw [ih]
            cases isrCalls w nowdate fuel s' with
            | none => rfl
            | some result => rfl
        · rfl
      · rfl

theorem rtcTimerIsr_calls (w : World) (fuel : Nat) (s : RtcState) :
    rtcTimerIsr w fuel s = (rtcTimerIsrCalls w fuel s).map Prod.snd := by
  rw [rtcTimerIsr, rtcTimerIsrCalls]
  cases s.timerListHead with
  | none => rfl
  | some head => exact isrLoop_calls ..

/-! ## What is wanted -/

/-- A timer is due. -/
def RtcState.Due (now : Reading) (s : RtcState) (timer : TimerPtr) : Prop := s.aim timer ≤ now.date

instance (now : Reading) (s : RtcState) (timer : TimerPtr) : Decidable (s.Due now timer) :=
  inferInstanceAs (Decidable (_ ≤ _))

/-- A timer of the list is released. -/
def RtcState.Released (now : Reading) (s : RtcState) (timer : TimerPtr) : Prop :=
  s.Due now timer ∧ (s.timers timer).flag = .oneShot

/-- The timers that are due have been called in their order, the one-shot ones among them have been
released and the others wait in the list for a time to come. -/
structure Served (now : Reading) (s s' : RtcState) (ring ring' calls : List TimerPtr) : Prop where
  order : calls = ring.filter fun timer => s.Due now timer
  threads : Threads s' ring' noTimer
  members : ∀ timer, timer ∈ ring' ↔ timer ∈ ring ∧ ¬s.Released now timer
  live : ∀ timer, timer ∈ s'.live ↔ timer ∈ s.live ∧ ¬(timer ∈ ring ∧ s.Released now timer)
  later : ∀ timer ∈ ring', now.date < s'.aim timer
  others : ∀ timer, timer ∉ calls → ∃ status, s'.timers timer = { s.timers timer with status }

/-- A countdown lasts at least a second, and ends before the first year that a packed date does not
hold. -/
structure Lasts (now : Reading) (setDate : Nat) : Prop where
  second : 1000 ≤ 1000 * tagSeconds setDate + unpackMs setDate
  month : unpackMonth setDate ≤ 12
  packed : sumCount now setDate ≤ cycleStart (2 ^ 23)

/-- A timer that can be called and, when it is periodic, given its next date. -/
structure Serviceable (now : Reading) (t : RtcTimer) : Prop where
  callback : t.timeout = true
  countdown : t.flag = .periodic → t.type = .countDown → Lasts now t.setDate
  month : t.flag = .periodic → t.type = .targetMonth → unpackDay t.aimDate ≤ 28

/-! ## The next date is to come -/

theorem cycleMonthDays_rising (year : Nat) : Rising (cycleMonthDays year) := by
  rcases cycleMonthDays_either year with leap | noleap
  · rw [leap]
    exact rising_tables.1
  · rw [noleap]
    exact rising_tables.2

theorem CycleDay.months_le {count count' : Nat} {day day' : Day} (cycle : CycleDay count day)
    (cycle' : CycleDay count' day') (later : count ≤ count') (year : day.year = day'.year) :
    day.month ≤ day'.month := by
  by_contra behind
  have here := cycle.count_eq
  have upTo := cycle'.month_end
  have low := cycle'.month_pos
  have high := cycle.month_le
  have first := cycle.mday_pos
  rw [← year] at upTo
  have table := cycleMonthDays_rising day.year (day'.month - 1) (by omega) (day.month - 1)
    (by omega) (by omega)
  rw [Nat.sub_add_cancel low] at table
  omega

/-- Later days of four-year cycles are later in the order of dates. -/
theorem CycleDay.code_lt {count count' : Nat} {day day' : Day} (cycle : CycleDay count day)
    (cycle' : CycleDay count' day') (later : count < count') : day.code < day'.code := by
  have years := cycle'.year_le (Nat.lt_trans cycle.behind later)
  have := cycle.month_le
  have := cycle.mday_le
  rw [Day.code, Day.code]
  rcases Nat.lt_or_eq_of_le years with before | same
  · omega
  · have here := cycle.count_eq
    have here' := cycle'.count_eq
    rw [← same] at here'
    rcases Nat.lt_or_eq_of_le (cycle.months_le cycle' (Nat.le_of_lt later) same) with
      before | same_month
    · omega
    · rw [← same_month] at here'
      omega

/-- A number has one day. -/
theorem CycleDay.unique {count : Nat} {day day' : Day} (cycle : CycleDay count day)
    (cycle' : CycleDay count day') : day = day' := by
  have years : day.year = day'.year :=
    Nat.le_antisymm (cycle'.year_le cycle.behind) (cycle.year_le cycle'.behind)
  have months : day.month = day'.month :=
    Nat.le_antisymm (cycle.months_le cycle' (Nat.le_refl _) years)
      (cycle'.months_le cycle (Nat.le_refl _) years.symm)
  have here := cycle.count_eq
  have here' := cycle'.count_eq
  rw [← years, ← months] at here'
  have days : day.mday = day'.mday := by omega
  cases day
  cases day'
  cases years
  cases months
  cases days
  rfl

/-- A day that agrees with four-year cycles is the one of its number. -/
theorem Day.cycle {day : Day} (valid : day.Valid) (plain : day.Plain) (small : day.year < 2 ^ 20) :
    CycleDay day.count day := by
  have pos : 1 ≤ day.count := Nat.le_trans (Day.ofYear_pos valid) (Nat.le_add_left _ _)
  obtain ⟨day', found, cycle⟩ := rtcDaysToYeardays_spec pos (Day.count_lt valid small) (0, 0, 0)
  rw [rtcDaysToYeardays_count valid plain (Nat.lt_trans small (by decide))] at found
  have same : day = day' := by
    cases day
    cases day'
    cases found
    rfl
  rw [← same] at cycle
  exact cycle

/-- Every fourth year is a leap year from 1970 to 2099. -/
theorem plain_of_year {day : Day} (from_ : 1970 ≤ day.year) (to_ : day.year ≤ 2099) :
    day.Plain := by
  left
  constructor
  · exact leapyear_four
  · intro fourth
    have small : day.year % 65536 = day.year := Nat.mod_eq_of_lt (by omega)
    simp only [leapyear, small]
    by_cases century : day.year % 100 = 0
    · rw [if_neg (not_not.mpr century)]
      exact decide_eq_true (by omega)
    · rw [if_pos century]
      exact decide_eq_true fourth

/-- A time of day in whole seconds is later than one before it with its milliseconds. -/
theorem clock_lt {hour min sec ms hour' min' sec' : Nat} (m : min < 60) (s : sec < 60)
    (c : ms < 1000) (m' : min' < 60) (s' : sec' < 60)
    (later : hour * 3600 + min * 60 + sec < hour' * 3600 + min' * 60 + sec') :
    hour * 2 ^ 27 + min * 2 ^ 21 + sec * 2 ^ 15 + ms <
      hour' * 2 ^ 27 + min' * 2 ^ 21 + sec' * 2 ^ 15 + 0 := by
  have parts : hour < hour' ∨ hour = hour' ∧ (min < min' ∨ min = min' ∧ sec < sec') := by omega
  clear later
  rcases parts with hours | ⟨hours, mins | ⟨mins, secs⟩⟩
  · omega
  · omega
  · omega

theorem second_carries {sec ms : Nat} (ms' : Nat) (second : 1000 ≤ 1000 * sec + ms) :
    0 < sec + (ms' + ms) / 1000 := by
  omega

/-- A countdown of at least a second is due at a time to come. -/
theorem rtcDateAdd_later {now : Reading} {tag : Nat} (from_ : 1970 ≤ now.year)
    (to_ : now.year ≤ 2099) (lasts : Lasts now tag) : now.date < rtcDateAdd now.date tag := by
  obtain ⟨day, hour, min, sec, cycle, fit, m, s, same, seconds⟩ := rtcDateAdd_parts now lasts.packed
  have today := Day.cycle now.today_valid (@plain_of_year now.today from_ to_)
    (Nat.lt_of_le_of_lt to_ (by decide))
  have short := now.fit.time_lt
  rw [same, Reading.date, fit.package_eq, now.fit.package_eq]
  rcases Nat.eq_zero_or_pos (tagDays tag + sumSeconds now tag / 86400) with none_ | some_
  · -- The same day, at least a second later.
    have days : tagDays tag = 0 := by omega
    have count : sumCount now tag = now.today.count := by rw [sumCount, none_, Nat.add_zero]
    rw [count] at cycle
    rw [← today.unique cycle]
    have second := lasts.second
    rw [tagSeconds, days, Nat.mul_zero, Nat.zero_add] at second
    have whole : sumSeconds now tag < 86400 := by omega
    rw [Nat.mod_eq_of_lt whole, sumSeconds, now.secondOfDay_date] at seconds
    apply Nat.add_lt_add_left
    have later : now.hour * 3600 + now.min * 60 + now.sec < hour * 3600 + min * 60 + sec := by
      rw [seconds]
      exact Nat.lt_of_lt_of_le (Nat.lt_add_of_pos_right (second_carries now.ms second))
        (Nat.le_of_eq (Nat.add_assoc ..).symm)
    exact clock_lt now.valid.min_lt now.valid.sec_lt now.valid.ms_lt m s later
  · apply code_lt _ short
    exact today.code_lt cycle (Nat.lt_add_of_pos_right some_)

section Interrupt

variable {w : World} {now : Reading} {s s' : RtcState} {ring rest calls : List TimerPtr}
  {timer head : TimerPtr}

/-- A clock that shows the same time is one that stands still. -/
theorem forecast_standing (clock : ∀ n, w.clock n = now) (s : RtcState) (timer : TimerPtr) :
    rtcTimerAimdateForecast w s timer =
      rtcTimerAimdateForecast (standing now (w.stack (s.reads + 4))) s timer := by
  unfold rtcTimerAimdateForecast
  simp only [RtcState.read, standing, clock]
  rfl

/-- A periodic timer that is due gets a date to come. -/
theorem forecast_later (from_ : 1970 ≤ now.year) (to_ : now.year ≤ 2099) {t : RtcTimer}
    (ready : Serviceable now t) (periodic : t.flag = .periodic) (due : t.aimDate ≤ now.date)
    (stack : Nat × Nat × Nat) : now.date < forecast now stack t := by
  unfold forecast
  cases type : t.type with
  | countDown => exact rtcDateAdd_later from_ to_ (ready.countdown periodic type)
  | targetDay =>
    dsimp only
    rw [if_pos due]
    exact (nextDayAim_right now t.aimDate).2
  | targetMonth =>
    dsimp only
    rw [if_pos due, nextMonthAim]
    split
    · obtain ⟨year, month, next, y, m, later⟩ :=
        rtcNextTimeMonthPeriod_right now stack (ready.month periodic type)
      rw [next]
      have day : unpackDay t.aimDate < 32 := by rw [unpackDay_eq]; omega
      exact lt_packAim y m day later
    · next ahead => exact Nat.lt_of_not_le ahead

/-! ## One timer -/

/-- The head is one-shot. -/
theorem timeout_oneShot (threads : Threads s (head :: rest) noTimer)
    (oneShot : (s.timers head).flag = .oneShot) :
    ∃ s', rtcTimerTimeout w s head = some s' ∧ Threads s' rest noTimer ∧
      s'.live = s.live.erase head ∧ StatusOnly s s' := by
  obtain ⟨removed, timers, live⟩ := threads.headRemove
  have alarmed := removed.free.alarmed
  obtain ⟨only_, alive⟩ := statusOnly_setAlarm (vPortFree (rtcTimerListheadRemove s) head)
  refine ⟨_, ?_, alarmed, ?_, ?_⟩
  · rw [rtcTimerTimeout]
    dsimp only
    rw [timers, oneShot]
    rfl
  · rw [alive]
    exact congrArg (List.erase · head) live
  · intro t
    obtain ⟨status, same⟩ := only_ t
    refine ⟨status, ?_⟩
    rw [same, show (vPortFree (rtcTimerListheadRemove s) head).timers = s.timers from timers]

/-- The head is periodic and gets a date to come. -/
theorem timeout_periodic (clock : ∀ n, w.clock n = now)
    (threads : Threads s (head :: rest) noTimer) (periodic : (s.timers head).flag = .periodic) :
    ∃ s' pre post stack, rtcTimerTimeout w s head = some s' ∧ rest = pre ++ post ∧
      Threads s' (pre ++ head :: post) noTimer ∧ s'.live = s.live ∧
      s'.aim head = forecast now stack (s.timers head) ∧
      ∀ t, t ≠ head → ∃ status, s'.timers t = { s.timers t with status } := by
  obtain ⟨removed, timers, live⟩ := threads.headRemove
  have alive : head ∈ s.live := threads.live List.mem_cons_self
  let s₁ := rtcTimerListheadRemove s
  let s₂ := rtcTimerAimdateForecast w s₁ head
  have dated : Dated s₁ s₂ head := forecast_dated w s₁ head
  obtain ⟨t', reads, run, aimed⟩ := forecast_run now (w.stack (s₁.reads + 4)) s₁ head
  rw [← forecast_standing clock] at run
  have alive₂ : head ∈ s₂.live := by
    rw [dated.live]
    exact live ▸ alive
  obtain ⟨s₃, pre, post, inserted, split, threads₃, live₃, only₃⟩ :=
    (removed.dated dated).inserted alive₂
  obtain ⟨only_, live₄⟩ := statusOnly_setAlarm s₃
  have changed := only₃.trans only_
  refine ⟨_, pre, post, w.stack (s₁.reads + 4), ?_, split, threads₃.alarmed, ?_, ?_, ?_⟩
  · rw [rtcTimerTimeout]
    dsimp only
    rw [timers, periodic]
    dsimp only
    rw [show rtcTimerListInsert (rtcTimerAimdateForecast w (rtcTimerListheadRemove s) head) head =
      some s₃ from inserted]
    rfl
  · rw [live₄, live₃, dated.live]
    exact live
  · obtain ⟨status, same⟩ := changed head
    have here : s₂.timers head = t' := by
      change (rtcTimerAimdateForecast w s₁ head).timers head = t'
      rw [run]
      exact Function.update_self ..
    rw [RtcState.aim, same, here]
    change t'.aimDate = _
    rw [aimed.aimDate, show s₁.timers = s.timers from timers]
  · intro t ne
    obtain ⟨status, same⟩ := changed t
    have other : s₂.timers t = s.timers t := by
      change (rtcTimerAimdateForecast w s₁ head).timers t = _
      rw [run, ← timers]
      exact Function.update_of_ne ne ..
    rw [other] at same
    exact ⟨status, same⟩

/-- The head has been served, and is gone or waits for a time to come. -/
structure HeadServed (now : Reading) (s s' : RtcState) (head : TimerPtr)
    (rest ring : List TimerPtr) : Prop where
  threads : Threads s' ring noTimer
  due : ring.filter (fun t => s'.Due now t) = rest.filter fun t => s.Due now t
  members : ∀ t, t ≠ head → (t ∈ ring ↔ t ∈ rest)
  live : ∀ t, t ≠ head → (t ∈ s'.live ↔ t ∈ s.live)
  others : ∀ t, t ≠ head → ∃ status, s'.timers t = { s.timers t with status }
  head : head ∈ ring ∧ head ∈ s'.live ∧ ¬s'.Due now head ∧ ¬s.Released now head ∨
    head ∉ ring ∧ head ∉ s'.live ∧ s.Released now head

theorem due_of_status {status : TimerStatus}
    (same : s'.timers timer = { s.timers timer with status }) :
    s'.Due now timer ↔ s.Due now timer := by
  rw [RtcState.Due, RtcState.Due, RtcState.aim, RtcState.aim, same]

theorem released_of_status {status : TimerStatus}
    (same : s'.timers timer = { s.timers timer with status }) :
    s'.Released now timer ↔ s.Released now timer := by
  rw [RtcState.Released, RtcState.Released, due_of_status same, same]

theorem Serviceable.status {t : RtcTimer} (ready : Serviceable now t) (status : TimerStatus) :
    Serviceable now { t with status } :=
  ⟨ready.callback, ready.countdown, ready.month⟩

theorem filter_due {ring : List TimerPtr}
    (same : ∀ t ∈ ring, ∃ status, s'.timers t = { s.timers t with status }) :
    ring.filter (fun t => s'.Due now t) = ring.filter fun t => s.Due now t := by
  apply List.filter_congr
  intro t mem
  obtain ⟨status, same⟩ := same t mem
  exact decide_eq_decide.mpr (due_of_status same)

/-- The head expires. -/
theorem headServed (clock : ∀ n, w.clock n = now) (from_ : 1970 ≤ now.year) (to_ : now.year ≤ 2099)
    (threads : Threads s (head :: rest) noTimer) (due : s.Due now head)
    (ready : Serviceable now (s.timers head)) :
    ∃ s' ring, rtcTimerTimeout w s head = some s' ∧ HeadServed now s s' head rest ring := by
  have fresh := (List.nodup_cons.mp threads.distinct).1
  have apart : ∀ t ∈ rest, t ≠ head := fun t mem same => fresh (same ▸ mem)
  cases flag : (s.timers head).flag with
  | oneShot =>
    obtain ⟨s', run, threads', live, only_⟩ := timeout_oneShot (w := w) threads flag
    refine ⟨s', rest, run, threads', filter_due fun t _ => only_ t, fun _ _ => Iff.rfl, ?_,
      fun t _ => only_ t, .inr ⟨fresh, ?_, due, flag⟩⟩
    · intro t ne
      rw [live]
      exact List.mem_erase_of_ne ne
    · rw [live]
      exact threads.blocks.not_mem_erase
  | periodic =>
    obtain ⟨s', pre, post, stack, run, split, threads', live, aim, others⟩ :=
      timeout_periodic clock threads flag
    have later : ¬s'.Due now head := by
      rw [RtcState.Due, aim]
      exact Nat.not_le_of_lt (forecast_later from_ to_ ready flag due stack)
    have stays : ¬s.Released now head := by
      rintro ⟨-, oneShot⟩
      rw [flag] at oneShot
      cases oneShot
    refine ⟨s', pre ++ head :: post, run, threads', ?_, ?_, ?_, others, .inl ⟨?_, ?_, later, stays⟩⟩
    · rw [← filter_due fun t mem => others t (apart t mem), split, List.filter_append,
        List.filter_append, List.filter_cons_of_neg (by simpa using later)]
    · intro t ne
      rw [split, List.mem_append, List.mem_append, List.mem_cons]
      exact or_congr_right (or_iff_right ne)
    · intro t _
      rw [live]
    · exact List.mem_append_right _ List.mem_cons_self
    · rw [live]
      exact threads.live List.mem_cons_self

/-- The rest of the list is served. -/
theorem HeadServed.served {s₁ : RtcState} {ring ring' due : List TimerPtr}
    (first : HeadServed now s s₁ head rest ring) (headDue : s.Due now head)
    (headLive : head ∈ s.live) (served : Served now s₁ s' ring ring' due) :
    Served now s s' (head :: rest) ring' (head :: due) := by
  refine ⟨?_, served.threads, ?_, ?_, served.later, ?_⟩
  · rw [List.filter_cons_of_pos (by simpa using headDue), served.order, first.due]
  · intro t
    rw [served.members, List.mem_cons]
    by_cases same : t = head
    · rw [same]
      rcases first.head with ⟨mem, -, later, stays⟩ | ⟨gone, -, released⟩
      · exact iff_of_true ⟨mem, fun released => later released.1⟩ ⟨.inl rfl, stays⟩
      · exact iff_of_false (fun h => gone h.1) fun h => h.2 released
    · obtain ⟨status, same_⟩ := first.others t same
      rw [first.members t same, released_of_status same_, or_iff_right same]
  · intro t
    rw [served.live, List.mem_cons]
    by_cases same : t = head
    · rw [same]
      rcases first.head with ⟨-, alive, later, stays⟩ | ⟨-, gone, released⟩
      · exact iff_of_true ⟨alive, fun h => later h.2.1⟩ ⟨headLive, fun h => stays h.2⟩
      · exact iff_of_false (fun h => gone h.1) fun h => h.2 ⟨.inl rfl, released⟩
    · obtain ⟨status, same_⟩ := first.others t same
      rw [first.members t same, first.live t same, released_of_status same_, or_iff_right same]
  · intro t outside
    rw [List.mem_cons, not_or] at outside
    obtain ⟨_, one⟩ := first.others t outside.1
    obtain ⟨status, two⟩ := served.others t outside.2
    rw [one] at two
    exact ⟨status, two⟩

/-! ## The loop -/

/-- With nothing due the list is served. -/
theorem served_none (threads : Threads s ring noTimer)
    (none_ : ring.filter (fun t => s.Due now t) = []) : Served now s s ring ring [] := by
  have early : ∀ t ∈ ring, ¬s.Due now t := by
    intro t mem
    have outside := List.filter_eq_nil_iff.mp none_ t mem
    simpa using outside
  refine ⟨none_.symm, threads, ?_, ?_, ?_, fun t _ => ⟨s.status t, rfl⟩⟩
  · intro t
    exact ⟨fun mem => ⟨mem, fun released => early t mem released.1⟩, fun both => both.1⟩
  · intro t
    exact ⟨fun mem => ⟨mem, fun both => early t both.1 both.2.1⟩, fun both => both.1⟩
  · intro t mem
    exact Nat.lt_of_not_le (early t mem)

/-- With nothing due the loop ends at once. -/
theorem isrCalls_none (threads : Threads s ring noTimer)
    (none_ : ring.filter (fun t => s.Due now t) = []) (fuel : Nat) :
    isrCalls w now.date (fuel + 1) s = some ([], s) := by
  rw [isrCalls]
  cases ring with
  | nil => rw [ringIs_nil.mp threads.linked]
  | cons head rest =>
    have later : ¬s.Due now head := by
      intro due
      rw [List.filter_cons_of_pos (by simpa using due)] at none_
      cases none_
    rw [(ringIs_cons.mp threads.linked).1]
    exact if_neg later

/-- The first timer that is due is the head. -/
theorem head_due {due : List TimerPtr} (threads : Threads s ring noTimer)
    (dueIs : ring.filter (fun t => s.Due now t) = timer :: due) :
    ∃ rest, ring = timer :: rest ∧ s.Due now timer ∧
      rest.filter (fun t => s.Due now t) = due := by
  have mem : timer ∈ ring.filter fun t => s.Due now t := dueIs ▸ List.mem_cons_self
  obtain ⟨inside, timerDue⟩ := List.mem_filter.mp mem
  cases ring with
  | nil => cases inside
  | cons head rest =>
    have first : s.Due now head := by
      rcases List.mem_cons.mp inside with same | behind
      · rw [← same]
        exact of_decide_eq_true timerDue
      · have sorted := (List.pairwise_cons.mp threads.sorted).1 timer behind
        exact Nat.le_trans sorted (of_decide_eq_true timerDue)
    rw [List.filter_cons_of_pos (by simpa using first)] at dueIs
    obtain ⟨same, rest_⟩ := List.cons.inj dueIs
    rw [← same]
    exact ⟨rest, rfl, first, rest_⟩

/-- The loop serves the timers that are due, one after the other. -/
theorem isrCalls_served (clock : ∀ n, w.clock n = now) (from_ : 1970 ≤ now.year)
    (to_ : now.year ≤ 2099) {due : List TimerPtr} (threads : Threads s ring noTimer)
    (dueIs : ring.filter (fun t => s.Due now t) = due)
    (ready : ∀ t ∈ ring, s.Due now t → Serviceable now (s.timers t)) :
    ∃ s' ring', (∀ fuel, due.length < fuel → isrCalls w now.date fuel s = some (due, s')) ∧
      Served now s s' ring ring' due := by
  induction due generalizing s ring with
  | nil =>
    refine ⟨s, ring, ?_, served_none threads dueIs⟩
    intro fuel enough
    obtain ⟨fuel, rfl⟩ := Nat.exists_eq_succ_of_ne_zero (Nat.ne_zero_of_lt enough)
    exact isrCalls_none threads dueIs fuel
  | cons head due ih =>
    obtain ⟨rest, rfl, headDue, dueIs⟩ := head_due threads dueIs
    have headReady := ready head List.mem_cons_self headDue
    obtain ⟨s₁, ring₁, run, first⟩ := headServed clock from_ to_ threads headDue headReady
    have ready₁ : ∀ t ∈ ring₁, s₁.Due now t → Serviceable now (s₁.timers t) := by
      intro t mem dueT
      by_cases same : t = head
      · rw [same] at mem dueT
        rcases first.head with ⟨-, -, later, -⟩ | ⟨gone, -⟩
        · exact absurd dueT later
        · exact absurd mem gone
      · obtain ⟨status, timers⟩ := first.others t same
        rw [timers]
        rw [due_of_status timers] at dueT
        have ready_ := ready t (List.mem_cons_of_mem head ((first.members t same).mp mem)) dueT
        exact ready_.status status
    obtain ⟨s', ring', runs, served⟩ := ih first.threads (first.due.trans dueIs) ready₁
    refine ⟨s', ring', ?_, first.served headDue (threads.live List.mem_cons_self) served⟩
    intro fuel enough
    obtain ⟨fuel, rfl⟩ := Nat.exists_eq_succ_of_ne_zero (Nat.ne_zero_of_lt enough)
    rw [isrCalls, (ringIs_cons.mp threads.linked).1]
    dsimp only
    rw [if_pos (show now.date ≥ s.aim head from headDue), if_pos headReady.callback, run]
    dsimp only [Option.bind_eq_bind, Option.bind_some]
    rw [runs fuel (Nat.lt_of_succ_lt_succ enough)]
    rfl

end Interrupt

/-- `rtc_timer_isr` ends, calls each timer that is due once and no other, in the order of the list,
releases those that are one-shot and leaves the others in the list for a time to come. -/
theorem rtcTimerIsr_serves {w : World} {now : Reading} (clock : ∀ n, w.clock n = now)
    (from_ : 1970 ≤ now.year) (to_ : now.year ≤ 2099) {s : RtcState} {ring : List TimerPtr}
    (threads : Threads s ring noTimer)
    (ready : ∀ t ∈ ring, s.Due now t → Serviceable now (s.timers t)) :
    ∃ s' ring' calls, (∀ fuel, ring.length < fuel → rtcTimerIsrCalls w fuel s = some (calls, s') ∧
        rtcTimerIsr w fuel s = some s') ∧
      calls.Nodup ∧ Served now s s' ring ring' calls := by
  cases ring with
  | nil =>
    have empty := ringIs_nil.mp threads.linked
    refine ⟨s, [], [], ?_, List.nodup_nil, served_none threads rfl⟩
    intro fuel _
    rw [rtcTimerIsrCalls, rtcTimerIsr, empty]
    exact ⟨rfl, rfl⟩
  | cons head rest =>
    have first := (ringIs_cons.mp threads.linked).1
    let s₀ : RtcState := { s with reads := s.reads + 1 }
    obtain ⟨s', ring', runs, served⟩ :=
      isrCalls_served clock from_ to_ (threads.reads (s.reads + 1)) rfl ready
    refine ⟨s', ring', (head :: rest).filter fun t => s.Due now t, ?_, ?_, ?_⟩
    · intro fuel enough
      have calls : rtcTimerIsrCalls w fuel s =
          some ((head :: rest).filter fun t => s.Due now t, s') := by
        rw [rtcTimerIsrCalls, first]
        dsimp only [RtcState.read]
        rw [clock]
        exact runs fuel (Nat.lt_of_le_of_lt (List.length_filter_le ..) enough)
      refine ⟨calls, ?_⟩
      rw [rtcTimerIsr_calls, calls]
      rfl
    · exact threads.distinct.filter _
    · exact ⟨served.order, served.threads, served.members, served.live, served.later, served.others⟩

/-- A periodic countdown that was started at the new year, alone in the list. -/
def periodicCountdown (date : Nat) : RtcState :=
  let s := rtcTimerCreate noneListed 5 true date .countDown .periodic
  ((rtcTimerStart stillWorld s 5).getD (false, s)).2

/-- A run keeps the one ring that its state has. -/
theorem Run.threads {w : World} {s : RtcState} (run : Run w s) {ring : List TimerPtr}
    (linked : s.RingIs ring) (distinct : ring.Nodup) : Threads s ring noTimer := by
  obtain ⟨ring', threads⟩ := run.kept.threads
  rw [linked.unique threads.linked distinct threads.distinct]
  exact threads

theorem periodicCountdown_threads {date : Nat} (millis : unpackMs date < 1000)
    {s : RtcState} (run : rtcTimerStart stillWorld
      (rtcTimerCreate noneListed 5 true date .countDown .periodic) 5 = some (true, s))
    (linked : s.RingIs [5]) : Threads s [5] noTimer := by
  have created : Run stillWorld (rtcTimerCreate noneListed 5 true date .countDown .periodic) :=
    .create true .countDown .periodic (.init _) List.not_mem_nil millis
  exact (Run.start created List.mem_cons_self run).threads linked (by decide)

/-- Ten seconds. -/
def tenPeriodic : RtcState := periodicCountdown (rtcDatePackage 0 0 0 0 0 10 0)

/-- A one-shot countdown of five seconds in front of it. -/
def fiveAndTen : RtcState :=
  let s := rtcTimerCreate tenPeriodic 6 true (rtcDatePackage 0 0 0 0 0 5 0) .countDown .oneShot
  ((rtcTimerStart stillWorld s 6).getD (false, s)).2

theorem fiveAndTen_threads : Threads fiveAndTen [6, 5] noTimer := by
  have created : Run stillWorld
      (rtcTimerCreate noneListed 5 true (rtcDatePackage 0 0 0 0 0 10 0) .countDown .periodic) :=
    .create true .countDown .periodic (.init _) List.not_mem_nil (by decide)
  have ten : Run stillWorld tenPeriodic := .start created List.mem_cons_self rfl
  have added : Run stillWorld
      (rtcTimerCreate tenPeriodic 6 true (rtcDatePackage 0 0 0 0 0 5 0) .countDown .oneShot) :=
    .create true .countDown .oneShot ten (by decide) (by decide)
  have both : Run stillWorld fiveAndTen := .start added List.mem_cons_self rfl
  exact both.threads ⟨rfl, ⟨rfl, rfl⟩, rfl, rfl⟩ (by decide)

theorem rtcTimerIsr_serves_both :
    ∃ s' ring',
      (∀ fuel, 2 < fuel →
        rtcTimerIsrCalls (standing tenthSecond.reading (0, 0, 0)) fuel fiveAndTen =
          some ([6, 5], s') ∧
        rtcTimerIsr (standing tenthSecond.reading (0, 0, 0)) fuel fiveAndTen = some s') ∧
      Served tenthSecond.reading fiveAndTen s' [6, 5] ring' [6, 5] := by
  have clock : ∀ n, (standing tenthSecond.reading (0, 0, 0)).clock n = tenthSecond.reading :=
    fun _ => rfl
  obtain ⟨s', ring', calls, runs, -, served⟩ :=
    rtcTimerIsr_serves clock (by decide) (by decide) fiveAndTen_threads (by
      intro t mem _
      simp only [List.mem_cons, List.not_mem_nil, or_false] at mem
      rcases mem with rfl | rfl
      · refine ⟨rfl, fun periodic => ?_, fun periodic => ?_⟩ <;> cases periodic
      · refine ⟨rfl, fun _ _ => ⟨by decide, by decide, by decide⟩, fun _ month => ?_⟩
        cases month)
  have order : calls = [6, 5] := served.order.trans (by decide)
  subst order
  exact ⟨s', ring', runs, served⟩

/-! ## A countdown that a packed date does not hold -/

/-- A periodic countdown, alone in the list, is given its next date. -/
theorem timeout_alone {w : World} {now : Reading} (clock : ∀ n, w.clock n = now) {s : RtcState}
    {timer : TimerPtr} (first : s.timerListHead = some timer) (alone : s.next timer = timer)
    (type : (s.timers timer).type = .countDown) (flag : (s.timers timer).flag = .periodic) :
    ∃ s', rtcTimerTimeout w s timer = some s' ∧ s'.timerListHead = some timer ∧
      s'.next timer = timer ∧ ∃ status, s'.timers timer =
        { s.timers timer with
          aimDate := rtcDateAdd now.date (s.timers timer).setDate
          status } := by
  have removed : rtcTimerListheadRemove s = { s with timerListHead := none } := by
    rw [rtcTimerListheadRemove, first]
    exact if_pos alone
  have forecast_ : rtcTimerAimdateForecast w { s with timerListHead := none } timer =
      { s with timerListHead := none, reads := s.reads + 1 }.setAim timer
        (rtcDateAdd now.date (s.timers timer).setDate) := by
    unfold rtcTimerAimdateForecast
    simp only [RtcState.read, type, clock]
  let s₁ := { s with timerListHead := none, reads := s.reads + 1 }.setAim timer
    (rtcDateAdd now.date (s.timers timer).setDate)
  let s₂ : RtcState :=
    { (s₁.setStatus timer .ready).setStatus timer .running with timerListHead := some timer }
  have inserted : rtcTimerListInsert s₁ timer = some s₂ := rfl
  have only_ : StatusOnly s₁ (rtcTimerSetAlarm s₂ s₂.timerListHead) :=
    ((statusOnly_setStatus s₁ timer .ready).trans (statusOnly_setStatus _ timer .running)).trans
      (statusOnly_setAlarm s₂).1
  obtain ⟨status, same⟩ := only_ timer
  have aimed : s₁.timers timer =
      { s.timers timer with aimDate := rtcDateAdd now.date (s.timers timer).setDate } :=
    RtcState.modify_self ..
  refine ⟨rtcTimerSetAlarm s₂ s₂.timerListHead, ?_, rfl, alone, status, same.trans ?_⟩
  · rw [rtcTimerTimeout, removed]
    dsimp only
    rw [flag]
    dsimp only
    rw [forecast_, inserted]
    rfl
  · rw [aimed]

/-- A periodic countdown whose date comes out in the past is due again at once. -/
theorem isrLoop_endless {w : World} {now : Reading} (clock : ∀ n, w.clock n = now) {date : Nat}
    (past : rtcDateAdd now.date date ≤ now.date) (fuel : Nat) {s : RtcState} {timer : TimerPtr}
    (first : s.timerListHead = some timer) (alone : s.next timer = timer)
    (callback : (s.timers timer).timeout = true) (type : (s.timers timer).type = .countDown)
    (flag : (s.timers timer).flag = .periodic) (setDate : (s.timers timer).setDate = date)
    (due : s.aim timer ≤ now.date) : isrLoop w now.date fuel s = none := by
  induction fuel generalizing s with
  | zero => rfl
  | succ fuel ih =>
    obtain ⟨s', run, first', alone', status, same⟩ := timeout_alone clock first alone type flag
    rw [isrLoop, first]
    dsimp only
    rw [if_pos due, if_pos callback, run]
    dsimp only [Option.bind_eq_bind, Option.bind_some]
    apply ih first' alone'
    · rw [same]
      exact callback
    · rw [same]
      exact type
    · rw [same]
      exact flag
    · rw [same]
      exact setDate
    · rw [RtcState.aim, same, setDate]
      exact past

/-- More years than a packed date holds. -/
def longDate : Nat := rtcDatePackage 8388607 0 0 0 0 0 0

def longPeriodic : RtcState := periodicCountdown longDate

/-- A started countdown of 8388607 years ends in the year 2019 of the packed dates, so that it is
due at once and the interrupt never returns. -/
theorem rtcTimerIsr_endless :
    Threads longPeriodic [5] noTimer ∧ (longPeriodic.timers 5).type = .countDown ∧
      (longPeriodic.timers 5).setDate = longDate ∧
      1000 ≤ 1000 * tagSeconds longDate + unpackMs longDate ∧
      ∀ fuel, rtcTimerIsr stillWorld fuel longPeriodic = none := by
  refine ⟨periodicCountdown_threads (by decide) rfl ⟨rfl, rfl, rfl⟩, rfl, rfl, by decide, ?_⟩
  intro fuel
  exact isrLoop_endless (fun _ => rfl) (by decide) fuel rfl rfl rfl rfl rfl rfl (by decide)

end Rtc

end Tr6260
