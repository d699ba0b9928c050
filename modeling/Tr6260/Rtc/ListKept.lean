import Tr6260.Rtc.ListInvariant

/-!
# The list of the RTC timers, over runs

Every call on a timer that is allocated leaves the list as it should be, whatever the clock shows.
-/

namespace Tr6260

namespace Rtc

section Calls

variable {w : World} {s s' : RtcState} {ring : List TimerPtr} {out : TimerPtr → Prop}
  {timer head : TimerPtr} {rest : List TimerPtr}

/-! ## Dates -/

/-- At most the clock has been read and the dates of a timer have been set. -/
def Dated (s s' : RtcState) (timer : TimerPtr) : Prop :=
  ∃ (f : RtcTimer → RtcTimer) (reads : Nat), s' = { s.modify timer f with reads } ∧
    (f (s.timers timer)).status = s.status timer ∧
      (unpackMs (s.aim timer) < 1000 → unpackMs (f (s.timers timer)).aimDate < 1000)

theorem dated_reads (s : RtcState) (timer : TimerPtr) (reads : Nat) :
    Dated s { s with reads } timer := by
  refine ⟨id, reads, ?_, rfl, id⟩
  have same : s.modify timer id = s := by
    unfold RtcState.modify
    rw [id, Function.update_eq_self]
  rw [same]

/-- A date without milliseconds. -/
theorem dated_setAim (s : RtcState) (timer : TimerPtr) (reads now tag : Nat) :
    Dated s ({ s with reads }.setAim timer (rtcDateAdd now tag)) timer := by
  refine ⟨fun t => { t with aimDate := rtcDateAdd now tag }, reads, rfl, rfl, fun _ => ?_⟩
  change unpackMs (rtcDateAdd now tag) < 1000
  unfold rtcDateAdd
  rw [unpackMs_package]
  decide

/-- A date with the milliseconds of the one before. -/
theorem dated_setDates (s : RtcState) (timer : TimerPtr) (reads year month day hour min sec : Nat) :
    Dated s ({ s with reads }.setDates timer
      (rtcDatePackage year month day hour min sec (unpackMs (s.aim timer)))) timer := by
  let date := rtcDatePackage year month day hour min sec (unpackMs (s.aim timer))
  refine ⟨fun t => { t with setDate := date, aimDate := date }, reads, rfl, rfl, fun millis => ?_⟩
  change unpackMs date < 1000
  rw [unpackMs_package]
  exact Nat.lt_of_le_of_lt (Nat.mod_le _ _) millis

theorem forecast_dated (w : World) (s : RtcState) (timer : TimerPtr) :
    Dated s (rtcTimerAimdateForecast w s timer) timer := by
  unfold rtcTimerAimdateForecast
  dsimp only [RtcState.read]
  split
  · exact dated_setAim s timer ..
  -- of a day, and of a month
  · split
    · split
      · exact dated_setDates s timer ..
      · exact dated_setDates s timer ..
    · exact dated_reads s timer _
  · split
    · split
      · exact dated_setDates s timer ..
      · exact dated_setDates s timer ..
    · exact dated_reads s timer _

theorem init_dated (w : World) (s : RtcState) (timer : TimerPtr) :
    Dated s (rtcTimerAimdateInit w s timer).2 timer := by
  unfold rtcTimerAimdateInit
  dsimp only [RtcState.read]
  split
  · exact dated_setAim s timer ..
  · exact dated_reads s timer _
  · exact forecast_dated w s timer

theorem Dated.modify (dated : Dated s s' timer) {g : RtcTimer → RtcTimer}
    (status : ∀ t, (g t).status = t.status) (aim : ∀ t, (g t).aimDate = t.aimDate) :
    Dated s (s'.modify timer g) timer := by
  rcases dated with ⟨f, reads, rfl, same, millis⟩
  refine ⟨g ∘ f, reads, ?_, (status _).trans same, ?_⟩
  · change { (s.modify timer f).modify timer g with reads } = _
    rw [s.modify_modify]
  · rw [Function.comp_apply, aim]
    exact millis

theorem Dated.live (dated : Dated s s' timer) : s'.live = s.live := by
  rcases dated with ⟨f, reads, rfl, -⟩
  rfl

theorem Dated.status (dated : Dated s s' timer) : s'.status timer = s.status timer := by
  rcases dated with ⟨f, reads, rfl, status, -⟩
  have new : ({ s.modify timer f with reads } : RtcState).timers timer = f (s.timers timer) :=
    s.modify_self timer f
  rw [RtcState.status, new, status]

/-! ## A timer that is out -/

theorem Threads.reads (threads : Threads s ring out) (reads : Nat) :
    Threads { s with reads } ring out :=
  threads.change rfl rfl rfl rfl (fun _ _ => rfl) threads.members threads.apart threads.ready
    threads.millis

theorem Threads.dated (threads : Threads s ring (only timer)) (dated : Dated s s' timer) :
    Threads s' ring (only timer) := by
  rcases dated with ⟨f, reads, rfl, -, millis⟩
  exact (threads.modify fun alive => millis (threads.millis timer alive)).reads reads

/-- A timer that is not active may stay out. -/
theorem Threads.idle (threads : Threads s ring (only timer))
    (idle : ¬ (s.status timer).Active) : Threads s ring noTimer := by
  apply threads.change rfl rfl rfl rfl (fun _ _ => rfl) ?_ (fun _ _ => id) threads.ready
    threads.millis
  intro t _
  by_cases same : t = timer
  · subst same
    exact ⟨fun inside => absurd inside threads.not_mem, fun both => absurd both.2 idle⟩
  · exact threads.members t same

/-- A timer that is out is freed. -/
theorem Threads.free (threads : Threads s ring (only timer)) :
    Threads (vPortFree s timer) ring noTimer := by
  have mem : ∀ t, t ≠ timer → (t ∈ (vPortFree s timer).live ↔ t ∈ s.live) :=
    fun t ne => List.mem_erase_of_ne ne
  have gone : timer ∉ (vPortFree s timer).live := threads.blocks.not_mem_erase
  have old : ∀ t ∈ (vPortFree s timer).live, t ∈ s.live := fun t => List.mem_of_mem_erase
  refine ⟨threads.linked, threads.distinct, ?_, fun _ _ => id, ?_, threads.sorted, threads.ready,
    ?_, threads.blocks.erase timer⟩
  · intro t _
    by_cases same : t = timer
    · subst same
      exact ⟨fun inside => absurd inside threads.not_mem, fun both => absurd both.1 gone⟩
    · rw [mem t same]
      exact threads.members t same
  · exact fun t alive => threads.alone t (old t alive)
  · exact fun t alive => threads.millis t (old t alive)

theorem Kept.modify (kept : Kept s (only timer)) {f : RtcTimer → RtcTimer}
    (millis : unpackMs (s.aim timer) < 1000 → unpackMs (f (s.timers timer)).aimDate < 1000) :
    Kept (s.modify timer f) (only timer) := by
  rcases kept.threads with ⟨ring, threads⟩
  refine ⟨⟨ring, threads.modify fun alive => millis (threads.millis timer alive)⟩, ?_, kept.wakeup⟩
  intro head first
  have ne : head ≠ timer := threads.apart head (threads.head_mem first)
  rw [RtcState.status, RtcState.aim, s.modify_of_ne ne]
  exact kept.head head first

theorem Kept.reads (kept : Kept s out) (reads : Nat) : Kept { s with reads } out := by
  rcases kept.threads with ⟨ring, threads⟩
  exact ⟨⟨ring, threads.reads reads⟩, kept.head, kept.wakeup⟩

theorem Kept.dated (kept : Kept s (only timer)) (dated : Dated s s' timer) :
    Kept s' (only timer) := by
  rcases dated with ⟨f, reads, rfl, -, millis⟩
  exact (kept.modify millis).reads reads

theorem Kept.leave (kept : Kept s noTimer) (idle : ¬ (s.status timer).Active) :
    Kept s (only timer) := by
  rcases kept.threads with ⟨ring, threads⟩
  exact ⟨⟨ring, threads.leave idle⟩, kept.head, kept.wakeup⟩

theorem Kept.idle (kept : Kept s (only timer)) (idle : ¬ (s.status timer).Active) :
    Kept s noTimer := by
  rcases kept.threads with ⟨ring, threads⟩
  exact ⟨⟨ring, threads.idle idle⟩, kept.head, kept.wakeup⟩

/-- A timer that is out gets a status that is not active. -/
theorem Kept.setStatus (kept : Kept s (only timer)) {status : TimerStatus}
    (idle : ¬ status.Active) : Kept (s.setStatus timer status) noTimer := by
  apply (kept.modify id).idle
  rw [← RtcState.setStatus, RtcState.status_setStatus_self]
  exact idle

/-! ## The calls -/

/-- A timer that is allocated leaves the list. -/
theorem removeTimer_kept (kept : Kept s noTimer) (alive : timer ∈ s.live) :
    Kept (removeTimer s timer) (only timer) := by
  rcases kept.threads with ⟨ring, threads⟩
  unfold removeTimer
  split
  · next first =>
    cases ring with
    | nil => exact absurd (threads.head_mem first) List.not_mem_nil
    | cons head rest =>
      have same : head = timer :=
        Option.some_inj.mp ((ringIs_cons.mp threads.linked).1.symm.trans first)
      rw [← same]
      exact threads.headRemove.1.setAlarm
  · next notHead =>
    exact ⟨threads.remove alive notHead, kept.head, kept.wakeup⟩

/-- A timer that is out comes in. -/
theorem insert_kept (threads : Threads s ring (only timer)) (alive : timer ∈ s.live) :
    ∃ s', rtcTimerListInsert s timer = some s' ∧
      Kept (rtcTimerSetAlarm s' s'.timerListHead) noTimer := by
  rcases threads.insert alive with ⟨s', ring', run, inserted⟩
  exact ⟨s', run, inserted.setAlarm⟩

/-- A timer with a new date comes in. -/
theorem insert_dated (kept : Kept s noTimer) (alive : timer ∈ s.live)
    (idle : ¬ (s.status timer).Active) (dated : Dated s s' timer) :
    ∃ s'', rtcTimerListInsert (s'.setStatus timer .ready) timer = some s'' ∧
      Kept (rtcTimerSetAlarm s'' s''.timerListHead) noTimer := by
  rcases ((kept.leave idle).dated dated).threads with ⟨ring, threads⟩
  rw [← dated.live] at alive
  exact insert_kept (threads.modify (threads.millis timer)) alive

theorem rtcTimerStart_kept (kept : Kept s noTimer) (alive : timer ∈ s.live) :
    ∃ ok s', rtcTimerStart w s timer = some (ok, s') ∧ Kept s' noTimer := by
  unfold rtcTimerStart
  dsimp only
  split
  · exact ⟨false, s, rfl, kept⟩
  · next idle =>
    split
    · have dated := init_dated w s timer
      split
      · rcases insert_dated kept alive idle dated with ⟨s', run, done⟩
        rw [run]
        exact ⟨true, _, rfl, done⟩
      · refine ⟨false, _, rfl, ((kept.leave idle).dated dated).idle ?_⟩
        rw [dated.status]
        exact idle
    · rcases insert_dated kept alive idle (forecast_dated w s timer) with ⟨s', run, done⟩
      rw [run]
      exact ⟨true, _, rfl, done⟩

theorem rtcTimerStop_kept (kept : Kept s noTimer) (alive : timer ∈ s.live) :
    Kept (rtcTimerStop s timer) noTimer := by
  unfold rtcTimerStop
  split
  · exact kept
  · exact (removeTimer_kept kept alive).setStatus (by decide)

theorem rtcTimerSuspend_kept (kept : Kept s noTimer) (alive : timer ∈ s.live) :
    Kept (rtcTimerSuspend w s timer) noTimer := by
  unfold rtcTimerSuspend
  split
  · exact kept
  · have suspended : Kept ((removeTimer s timer).setStatus timer .suspend) noTimer :=
      (removeTimer_kept kept alive).setStatus (by decide)
    dsimp only
    split
    · next saves =>
      -- the status is no longer what it was
      rw [RtcState.status_setStatus_self] at saves
      cases saves.2
    · exact suspended

theorem rtcTimerResume_kept (kept : Kept s noTimer) (alive : timer ∈ s.live) :
    ∃ s', rtcTimerResume w s timer = some s' ∧ Kept s' noTimer := by
  unfold rtcTimerResume
  split
  · exact ⟨s, rfl, kept⟩
  · next goes =>
    rw [not_or, not_not] at goes
    have idle : ¬ (s.status timer).Active := by
      rw [goes.2]
      decide
    have finish : ∀ s1, Dated s s1 timer → ∃ s', (do
        let s ← rtcTimerListInsert (s1.setStatus timer .ready) timer
        some (rtcTimerSetAlarm s s.timerListHead)) = some s' ∧ Kept s' noTimer := by
      intro s1 dated
      rcases insert_dated kept alive idle dated with ⟨s', run, done⟩
      rw [run]
      exact ⟨_, rfl, done⟩
    apply finish
    split
    · exact (dated_setAim s timer ..).modify (fun _ => rfl) fun _ => rfl
    · split
      · exact dated_setAim s timer ..
      · exact forecast_dated w s timer

theorem rtcTimerDelete_kept (kept : Kept s noTimer) (alive : timer ∈ s.live) :
    Kept (rtcTimerDelete s timer) noTimer := by
  unfold rtcTimerDelete
  split
  · exact kept
  · have removed := removeTimer_kept kept alive
    rcases removed.threads with ⟨ring, threads⟩
    exact ⟨⟨ring, threads.free⟩, removed.head, removed.wakeup⟩

/-- A timer is created in a block that was free. -/
theorem rtcTimerCreate_kept (kept : Kept s noTimer) (fresh : timer ∉ s.live) {date : Nat}
    (millis : unpackMs date < 1000) (timeout : Bool) (type : TimerType) (flag : TimerFlag) :
    Kept (rtcTimerCreate s timer timeout date type flag) noTimer := by
  rcases kept.threads with ⟨ring, threads⟩
  have outside : timer ∉ ring := fun inside => fresh (threads.live inside)
  have ne : ∀ t ∈ ring, t ≠ timer := fun t inside same => outside (same ▸ inside)
  let s' := rtcTimerCreate s timer timeout date type flag
  have self : s'.timers timer = ⟨timeout, type, flag, .inactive, 0, date, date⟩ :=
    Function.update_self ..
  have other : ∀ t, t ≠ timer → s'.timers t = s.timers t := fun t ne => Function.update_of_ne ne ..
  have next : ∀ t, t ≠ timer → s'.next t = s.next t := fun t ne => Function.update_of_ne ne ..
  have prev : ∀ t, t ≠ timer → s'.prev t = s.prev t := fun t ne => Function.update_of_ne ne ..
  have live : ∀ t, t ≠ timer → (t ∈ s'.live ↔ t ∈ s.live) := by
    intro t ne
    exact ⟨fun inside => List.mem_of_ne_of_mem ne inside, List.mem_cons_of_mem _⟩
  refine ⟨⟨ring, ?_, threads.distinct, ?_, fun _ _ => id, ?_, ?_, ?_, ?_, ?_⟩, ?_, kept.wakeup⟩
  · cases ring with
    | nil =>
      have empty := ringIs_nil.mp threads.linked
      exact ringIs_nil.mpr empty
    | cons x rest =>
      rcases ringIs_cons.mp threads.linked with ⟨first, path⟩
      refine ringIs_cons.mpr ⟨first, path.congr (fun t inside => next t (ne t inside)) ?_⟩
      intro t inside
      apply prev t (ne t _)
      simp only [List.mem_append, List.mem_cons, List.not_mem_nil, or_false] at inside ⊢
      tauto
  · intro t _
    by_cases same : t = timer
    · subst same
      refine ⟨fun inside => absurd inside outside, fun both => ?_⟩
      rw [RtcState.status, self] at both
      rcases both.2 with other | other
      · cases other
      · cases other
    · rw [live t same, RtcState.status, other t same]
      exact threads.members t id
  · intro t alive apart
    by_cases same : t = timer
    · rw [same]
      exact ⟨Function.update_self .., Function.update_self ..⟩
    · rw [next t same, prev t same]
      exact threads.alone t ((live t same).mp alive) apart
  · apply threads.sorted.imp_of_mem
    intro t later inside behind ordered
    rw [RtcState.aim, RtcState.aim, other t (ne t inside), other later (ne later behind)]
    exact ordered
  · intro t inside
    rw [RtcState.status, other t (ne t (List.mem_of_mem_tail inside))]
    exact threads.ready t inside
  · intro t alive
    by_cases same : t = timer
    · rw [same, RtcState.aim, self]
      exact millis
    · rw [RtcState.aim, other t same]
      exact threads.millis t ((live t same).mp alive)
  · exact List.nodup_cons.mpr ⟨fresh, threads.blocks⟩
  · intro head first
    have notNew : head ≠ timer := ne head (threads.head_mem first)
    rw [RtcState.status, RtcState.aim, other head notNew]
    exact kept.head head first

/-! ## The interrupt -/

/-- The head expires. -/
theorem rtcTimerTimeout_kept (threads : Threads s (head :: rest) noTimer) :
    ∃ s', rtcTimerTimeout w s head = some s' ∧ Kept s' noTimer := by
  have alive : head ∈ s.live := threads.live List.mem_cons_self
  rcases threads.headRemove with ⟨removed, timers, live⟩
  rw [← live] at alive
  unfold rtcTimerTimeout
  dsimp only
  split
  · have dated := forecast_dated w (rtcTimerListheadRemove s) head
    rw [← dated.live] at alive
    rcases insert_kept (removed.dated dated) alive with ⟨s', run, done⟩
    rw [run]
    exact ⟨_, rfl, done⟩
  · exact ⟨_, rfl, removed.free.setAlarm⟩

theorem isrLoop_kept {nowdate fuel : Nat} (kept : Kept s noTimer)
    (returns : isrLoop w nowdate fuel s = some s') : Kept s' noTimer := by
  induction fuel generalizing s with
  | zero => cases returns
  | succ fuel ih =>
    rw [isrLoop] at returns
    rcases kept.threads with ⟨ring, threads⟩
    cases ring with
    | nil =>
      rw [ringIs_nil.mp threads.linked] at returns
      cases returns
      exact kept
    | cons head rest =>
      rw [(ringIs_cons.mp threads.linked).1] at returns
      dsimp only at returns
      split at returns
      · split at returns
        · rcases rtcTimerTimeout_kept (w := w) threads with ⟨s1, run, done⟩
          rw [run] at returns
          exact ih done returns
        · cases returns
      · cases returns
        exact kept

theorem rtcTimerIsr_kept {fuel : Nat} (kept : Kept s noTimer)
    (returns : rtcTimerIsr w fuel s = some s') : Kept s' noTimer := by
  unfold rtcTimerIsr at returns
  split at returns
  · cases returns
    exact kept
  · exact isrLoop_kept (kept.reads _) returns

end Calls

/-! ## Runs -/

theorem Kept.right {s : RtcState} (kept : Kept s noTimer) : ListRight s := by
  rcases kept.threads with ⟨ring, threads⟩
  refine ⟨⟨ring, threads.linked, threads.distinct, fun t => threads.members t id, threads.sorted⟩,
    ?_, ?_, kept.wakeup⟩
  · intro timer alive
    refine ⟨fun running => ?_, fun first => (kept.head timer first).1⟩
    have inside := (threads.members timer id).mpr ⟨alive, .inr running⟩
    have behind : timer ∉ ring.tail := by
      intro there
      rw [threads.ready timer there] at running
      cases running
    cases ring with
    | nil => cases inside
    | cons head rest =>
      rcases List.mem_cons.mp inside with rfl | there
      · exact (ringIs_cons.mp threads.linked).1
      · exact absurd there behind
  · intro head first
    rw [(kept.head head first).2]
    exact alarmValue_fields (threads.millis head (threads.live (threads.head_mem first)))

theorem halRtcInit_kept (s : RtcState) : Kept (halRtcInit s) noTimer := by
  refine ⟨⟨[], ringIs_nil.mpr rfl, .nil, ?_, ?_, ?_, .nil, ?_, ?_, .nil⟩, ?_, fun _ => (by decide : 9 &&& 2 = 0)⟩
  · intro t _
    exact ⟨fun inside => absurd inside List.not_mem_nil, fun both => absurd both.1 List.not_mem_nil⟩
  · exact fun t inside => absurd inside List.not_mem_nil
  · exact fun t alive => absurd alive List.not_mem_nil
  · exact fun t inside => absurd inside List.not_mem_nil
  · exact fun t alive => absurd alive List.not_mem_nil
  · intro head first
    cases first

/-- The states that calls on allocated timers and interrupts lead to. Of the fields of a date only
the milliseconds must be in range. -/
inductive Run (w : World) : RtcState → Prop
  | init (s : RtcState) : Run w (halRtcInit s)
  | create {s : RtcState} {timer : TimerPtr} {date : Nat} (timeout : Bool) (type : TimerType)
      (flag : TimerFlag) : Run w s → timer ∉ s.live → unpackMs date < 1000 →
      Run w (rtcTimerCreate s timer timeout date type flag)
  | start {s s' : RtcState} {timer : TimerPtr} {ok : Bool} : Run w s → timer ∈ s.live →
      rtcTimerStart w s timer = some (ok, s') → Run w s'
  | stop {s : RtcState} {timer : TimerPtr} : Run w s → timer ∈ s.live →
      Run w (rtcTimerStop s timer)
  | suspend {s : RtcState} {timer : TimerPtr} : Run w s → timer ∈ s.live →
      Run w (rtcTimerSuspend w s timer)
  | resume {s s' : RtcState} {timer : TimerPtr} : Run w s → timer ∈ s.live →
      rtcTimerResume w s timer = some s' → Run w s'
  | delete {s : RtcState} {timer : TimerPtr} : Run w s → timer ∈ s.live →
      Run w (rtcTimerDelete s timer)
  | isr {s s' : RtcState} {fuel : Nat} : Run w s → rtcTimerIsr w fuel s = some s' → Run w s'

theorem Run.kept {w : World} {s : RtcState} (run : Run w s) : Kept s noTimer := by
  induction run with
  | init s => exact halRtcInit_kept s
  | create timeout type flag _ fresh millis ih =>
    exact rtcTimerCreate_kept ih fresh millis timeout type flag
  | start _ alive returns ih =>
    rcases rtcTimerStart_kept ih alive with ⟨ok, s', same, kept⟩
    cases returns.symm.trans same
    exact kept
  | stop _ alive ih => exact rtcTimerStop_kept ih alive
  | suspend _ alive ih => exact rtcTimerSuspend_kept ih alive
  | resume _ alive returns ih =>
    rcases rtcTimerResume_kept ih alive with ⟨s', same, kept⟩
    cases returns.symm.trans same
    exact kept
  | delete _ alive ih => exact rtcTimerDelete_kept ih alive
  | isr _ returns ih => exact rtcTimerIsr_kept ih returns

/-- In every run the list is as it should be, and a call that puts a timer in returns. -/
theorem timerList_right {w : World} {s : RtcState} (run : Run w s) :
    ListRight s ∧ ∀ timer ∈ s.live,
      (rtcTimerStart w s timer).isSome ∧ (rtcTimerResume w s timer).isSome := by
  refine ⟨run.kept.right, fun timer alive => ?_⟩
  rcases rtcTimerStart_kept (w := w) run.kept alive with ⟨ok, s1, started, -⟩
  rcases rtcTimerResume_kept (w := w) run.kept alive with ⟨s2, resumed, -⟩
  rw [started, resumed]
  exact ⟨rfl, rfl⟩

/-- A clock that stands still. -/
def stillWorld : World :=
  ⟨fun _ => ⟨2020, 1, 1, 0, 0, 0, 0, by constructor <;> decide⟩, fun _ => (0, 0, 0)⟩

/-- A countdown of ten seconds, and an empty list. -/
def oneTimer : RtcState :=
  rtcTimerCreate (halRtcInit ⟨fun _ => ⟨true, .countDown, .oneShot, .inactive, 0, 0, 0⟩, id, id, [],
    none, 0, 0, 0⟩) 5 true (rtcDatePackage 0 0 0 0 0 10 0) .countDown .oneShot

/-- The same with one of five. -/
def tenAndFive : RtcState :=
  rtcTimerCreate oneTimer 6 true (rtcDatePackage 0 0 0 0 0 5 0) .countDown .oneShot

/-- The shorter one is started last and comes first. -/
theorem timerList_right_two : ∃ s s', rtcTimerStart stillWorld tenAndFive 5 = some (true, s) ∧
    rtcTimerStart stillWorld s 6 = some (true, s') ∧ s'.timerListHead = some 6 ∧ s'.next 6 = 5 ∧
    ListRight s' := by
  have run : Run stillWorld tenAndFive :=
    .create true .countDown .oneShot (.create true .countDown .oneShot (.init _) List.not_mem_nil
      (by decide)) (by decide) (by decide)
  have ten : 5 ∈ tenAndFive.live := List.mem_cons_of_mem _ List.mem_cons_self
  obtain ⟨s, started⟩ : ∃ s, rtcTimerStart stillWorld tenAndFive 5 = some (true, s) := ⟨_, rfl⟩
  have live : s.live = tenAndFive.live := by
    cases started
    rfl
  have five : 6 ∈ s.live := live ▸ List.mem_cons_self
  have again : ∃ s', rtcTimerStart stillWorld s 6 = some (true, s') ∧
      s'.timerListHead = some 6 ∧ s'.next 6 = 5 := by
    cases started
    exact ⟨_, rfl, rfl, rfl⟩
  obtain ⟨s', started', first, next⟩ := again
  exact ⟨s, s', started, started', first, next,
    (timerList_right (.start (.start run ten started) five started')).1⟩

end Rtc

end Tr6260
