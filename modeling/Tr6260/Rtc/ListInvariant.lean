import Mathlib.Data.Nat.Bitwise
import Tr6260.RingList
import Tr6260.Rtc.Timer

/-!
# The list of the RTC timers

Whether a timer is in the list is said three times: by the links, by its status and, for the first,
by `TimerListHead`. Between the steps of a call a timer may be `out`: taken from the ring or not yet
put into it, whatever its status says. `Threads` is what holds then; when no timer is out and the
alarm is set, the list is as it should be.
-/

namespace Tr6260

namespace Rtc

/-! ## What is wanted -/

/-- A timer that has been started. -/
def TimerStatus.Active (status : TimerStatus) : Prop := status = .ready ∨ status = .running

instance (status : TimerStatus) : Decidable status.Active :=
  inferInstanceAs (Decidable (status = .ready ∨ status = .running))

/-- The ring from `TimerListHead`, walked along `next`; `prev` leads back. -/
def RtcState.RingIs (s : RtcState) (ring : List TimerPtr) : Prop :=
  match s.timerListHead, ring with
  | none, [] => True
  | some head, timer :: rest => head = timer ∧ LinkPath s.next s.prev timer rest timer
  | _, _ => False

/-- The list is as it should be. -/
structure ListRight (s : RtcState) : Prop where
  ring : ∃ ring, s.RingIs ring ∧ ring.Nodup ∧
    (∀ timer, timer ∈ ring ↔ timer ∈ s.live ∧ (s.status timer).Active) ∧
    ring.Pairwise fun timer later => s.aim timer ≤ s.aim later
  running : ∀ timer ∈ s.live, s.status timer = .running ↔ s.timerListHead = some timer
  alarm : ∀ head, s.timerListHead = some head →
    alarmHour s.alarmReg = unpackHour (s.aim head) ∧
      alarmMin s.alarmReg = unpackMin (s.aim head) ∧
      alarmSec s.alarmReg = unpackSec (s.aim head)
  wakeup : s.timerListHead = none → s.ctrlReg &&& 2 = 0

/-! ## Between the steps of a call -/

/-- The timers `ring` are linked in the order of their dates; all that are active and not `out` are
among them, and those that are not link to themselves. -/
structure Threads (s : RtcState) (ring : List TimerPtr) (out : TimerPtr → Prop) : Prop where
  linked : s.RingIs ring
  distinct : ring.Nodup
  members : ∀ timer, ¬ out timer →
    (timer ∈ ring ↔ timer ∈ s.live ∧ (s.status timer).Active)
  apart : ∀ timer ∈ ring, ¬ out timer
  alone : ∀ timer ∈ s.live, timer ∉ ring → s.next timer = timer ∧ s.prev timer = timer
  sorted : ring.Pairwise fun timer later => s.aim timer ≤ s.aim later
  ready : ∀ timer ∈ ring.tail, s.status timer = .ready
  millis : ∀ timer ∈ s.live, unpackMs (s.aim timer) < 1000
  blocks : s.live.Nodup

/-- The alarm is set to the head, which is running. -/
structure Kept (s : RtcState) (out : TimerPtr → Prop) : Prop where
  threads : ∃ ring, Threads s ring out
  head : ∀ head, s.timerListHead = some head →
    s.status head = .running ∧ s.alarmReg = alarmValue (s.aim head)
  wakeup : s.timerListHead = none → s.ctrlReg &&& 2 = 0

/-- No timer is out. -/
def noTimer : TimerPtr → Prop := fun _ => False

/-- One timer is out. -/
def only (timer : TimerPtr) : TimerPtr → Prop := fun other => other = timer

/-! ## The alarm register -/

/-- The register, as a sum. -/
theorem alarmValue_eq {date : Nat} (millis : unpackMs date < 1000) :
    ∃ cnt, cnt < 32768 ∧ alarmValue date =
      unpackHour date * 2 ^ 27 + unpackMin date * 2 ^ 21 + unpackSec date * 2 ^ 15 + cnt := by
  have step (a i : Nat) {b : Nat} (small : b < 2 ^ i) : a <<< i ||| b = a * 2 ^ i + b := by
    rw [← Nat.shiftLeft_add_eq_or_of_lt small, Nat.shiftLeft_eq]
  have hour : unpackHour date < 32 := by rw [unpackHour_eq]; omega
  have min : unpackMin date < 64 := by rw [unpackMin_eq]; omega
  have sec : unpackSec date < 64 := by rw [unpackSec_eq]; omega
  have cnt : alarm32k (unpackMs date) < 32768 := by rw [alarm32k]; omega
  rw [alarmValue]
  simp only [Nat.or_assoc]
  rw [step _ 15 (by omega), step _ 21 (by omega), step _ 27 (by omega), Nat.mod_eq_of_lt (by omega)]
  have low (x : Nat) : x &&& 0x7fff = x % 32768 := Nat.and_two_pow_sub_one_eq_mod x 15
  rw [low]
  split
  · exact ⟨alarm32k (unpackMs date) + 1, by omega, by omega⟩
  · exact ⟨alarm32k (unpackMs date), cnt, by omega⟩

theorem alarmValue_fields {date : Nat} (millis : unpackMs date < 1000) :
    alarmHour (alarmValue date) = unpackHour date ∧ alarmMin (alarmValue date) = unpackMin date ∧
      alarmSec (alarmValue date) = unpackSec date := by
  rcases alarmValue_eq millis with ⟨cnt, small, value⟩
  have hour : unpackHour date < 32 := by rw [unpackHour_eq]; omega
  have min : unpackMin date < 64 := by rw [unpackMin_eq]; omega
  have sec : unpackSec date < 64 := by rw [unpackSec_eq]; omega
  refine ⟨?_, ?_, ?_⟩
  · rw [alarmHour, Nat.shiftRight_and_distrib, Nat.shiftRight_eq_div_pow, value]
    change _ &&& 2 ^ 5 - 1 = _
    rw [Nat.and_two_pow_sub_one_eq_mod]
    omega
  · rw [alarmMin, Nat.shiftRight_and_distrib, Nat.shiftRight_eq_div_pow, value]
    change _ &&& 2 ^ 6 - 1 = _
    rw [Nat.and_two_pow_sub_one_eq_mod]
    omega
  · rw [alarmSec, Nat.shiftRight_and_distrib, Nat.shiftRight_eq_div_pow, value]
    change _ &&& 2 ^ 6 - 1 = _
    rw [Nat.and_two_pow_sub_one_eq_mod]
    omega

/-! ## Rings -/

section Threads

variable {s s' : RtcState} {ring ring' : List TimerPtr} {out out' : TimerPtr → Prop}
  {timer head : TimerPtr} {rest : List TimerPtr}

theorem ringIs_nil : s.RingIs [] ↔ s.timerListHead = none := by
  unfold RtcState.RingIs
  cases s.timerListHead <;> simp

theorem ringIs_cons : s.RingIs (timer :: rest) ↔
    s.timerListHead = some timer ∧ LinkPath s.next s.prev timer rest timer := by
  unfold RtcState.RingIs
  cases s.timerListHead <;> simp

/-- The first timer of the ring is the head. -/
theorem RtcState.RingIs.head? (linked : s.RingIs ring) : s.timerListHead = ring.head? := by
  cases ring with
  | nil => exact ringIs_nil.mp linked
  | cons timer rest => exact (ringIs_cons.mp linked).1

theorem Threads.head_mem (threads : Threads s ring out) (first : s.timerListHead = some head) :
    head ∈ ring := by
  rw [threads.linked.head?] at first
  exact List.mem_of_head? first

theorem Threads.live (threads : Threads s ring out) (inside : timer ∈ ring) : timer ∈ s.live :=
  ((threads.members timer (threads.apart timer inside)).mp inside).1

/-- The links stay, and so does what the ring says of its timers. -/
theorem Threads.change (threads : Threads s ring out) (next : s'.next = s.next)
    (prev : s'.prev = s.prev) (live : s'.live = s.live) (head : s'.timerListHead = s.timerListHead)
    (aim : ∀ timer ∈ ring, s'.aim timer = s.aim timer)
    (members : ∀ timer, ¬ out' timer →
      (timer ∈ ring ↔ timer ∈ s.live ∧ (s'.status timer).Active))
    (apart : ∀ timer ∈ ring, ¬ out' timer)
    (ready : ∀ timer ∈ ring.tail, s'.status timer = .ready)
    (millis : ∀ timer ∈ s.live, unpackMs (s'.aim timer) < 1000) : Threads s' ring out' := by
  refine ⟨?_, threads.distinct, ?_, apart, ?_, ?_, ready, ?_, ?_⟩
  · have linked := threads.linked
    unfold RtcState.RingIs at linked ⊢
    rw [head, next, prev]
    exact linked
  · rw [live]
    exact members
  · rw [live, next, prev]
    exact threads.alone
  · apply threads.sorted.imp_of_mem
    intro timer later inside behind ordered
    rw [aim timer inside, aim later behind]
    exact ordered
  · rw [live]
    exact millis
  · rw [live]
    exact threads.blocks

/-- A timer that is not active is not in the ring. -/
theorem Threads.leave (threads : Threads s ring noTimer) (idle : ¬ (s.status timer).Active) :
    Threads s ring (only timer) := by
  have outside : timer ∉ ring := fun inside => idle ((threads.members timer id).mp inside).2
  apply threads.change rfl rfl rfl rfl (fun _ _ => rfl) (fun other _ => threads.members other id)
  · rintro other inside rfl
    exact outside inside
  · exact threads.ready
  · exact threads.millis

theorem Threads.not_mem (threads : Threads s ring (only timer)) : timer ∉ ring :=
  fun inside => threads.apart timer inside rfl

/-- What is done to a timer that is out does not concern the ring. -/
theorem Threads.modify (threads : Threads s ring (only timer)) {f : RtcTimer → RtcTimer}
    (millis : timer ∈ s.live → unpackMs (f (s.timers timer)).aimDate < 1000) :
    Threads (s.modify timer f) ring (only timer) := by
  have other : ∀ t, t ≠ timer → (s.modify timer f).timers t = s.timers t :=
    fun t ne => s.modify_of_ne ne f
  have outside : ∀ t ∈ ring, t ≠ timer := fun t inside => threads.apart t inside
  refine threads.change rfl rfl rfl rfl ?_ ?_ threads.apart ?_ ?_
  · intro t inside
    rw [RtcState.aim, other t (outside t inside)]
    rfl
  · intro t notOut
    rw [RtcState.status, other t notOut]
    exact threads.members t notOut
  · intro t inside
    rw [RtcState.status, other t (outside t (List.mem_of_mem_tail inside))]
    exact threads.ready t inside
  · intro t alive
    by_cases same : t = timer
    · subst same
      rw [RtcState.aim, RtcState.modify_self]
      exact millis alive
    · rw [RtcState.aim, other t same]
      exact threads.millis t alive

/-! ## A timer is taken out -/

/-- A timer is taken out of a ring of more than one. -/
theorem rtListRemove_ring {n y : TimerPtr} {ys : List TimerPtr}
    (ring : LinkPath s.next s.prev n (y :: ys) n) (distinct : (n :: y :: ys).Nodup) :
    LinkPath (rtListRemove s n).next (rtListRemove s n).prev y ys y ∧
      (∀ t, t ∉ n :: y :: ys →
        (rtListRemove s n).next t = s.next t ∧ (rtListRemove s n).prev t = s.prev t) ∧
      (rtListRemove s n).next n = n ∧ (rtListRemove s n).prev n = n := by
  have next : s.next n = y := ring.next_start
  have ne : n ≠ y := by
    rintro rfl
    exact (List.nodup_cons.mp distinct).1 List.mem_cons_self
  have nexts : (rtListRemove s n).next =
      Function.update (Function.update s.next (s.prev n) y) n n := by
    change Function.update (Function.update s.next
      (Function.update s.prev (s.next n) (s.prev n) n) (s.next n)) n n = _
    rw [next, Function.update_of_ne ne]
  have prevs : (rtListRemove s n).prev =
      Function.update (Function.update s.prev y (s.prev n)) n n := by
    change Function.update (Function.update s.prev (s.next n) (s.prev n)) n n = _
    rw [next]
  have last : s.prev n ∈ n :: y :: ys := by
    rw [ring.prev_end]
    exact List.getLast_mem _
  rw [nexts, prevs]
  refine ⟨ring.remove distinct, ?_, Function.update_self .., Function.update_self ..⟩
  intro t outside
  have notN : t ≠ n := fun same => outside (same ▸ List.mem_cons_self)
  have notY : t ≠ y := fun same => outside (same ▸ List.mem_cons_of_mem _ List.mem_cons_self)
  have notLast : t ≠ s.prev n := fun same => outside (same ▸ last)
  rw [Function.update_of_ne notN, Function.update_of_ne notN, Function.update_of_ne notLast,
    Function.update_of_ne notY]
  exact ⟨rfl, rfl⟩

/-- A timer leaves the ring: what is left is linked, and it links to itself. -/
theorem Threads.left (threads : Threads s ring noTimer)
    (linked : s'.RingIs ring') (members : ∀ t, t ∈ ring' ↔ t ∈ ring ∧ t ≠ timer)
    (order : ring'.Sublist ring) (timers : s'.timers = s.timers) (live : s'.live = s.live)
    (other : ∀ t, t ∉ ring → s'.next t = s.next t ∧ s'.prev t = s.prev t)
    (self : s'.next timer = timer ∧ s'.prev timer = timer)
    (ready : ∀ t ∈ ring'.tail, t ∈ ring.tail) : Threads s' ring' (only timer) := by
  have aim : ∀ t, s'.aim t = s.aim t := fun t => by rw [RtcState.aim, timers, RtcState.aim]
  have status : ∀ t, s'.status t = s.status t := fun t => by
    rw [RtcState.status, timers, RtcState.status]
  refine ⟨linked, threads.distinct.sublist order, ?_, ?_, ?_, ?_, ?_, ?_, ?_⟩
  · intro t notOut
    rw [members, live, status, ← threads.members t id]
    exact ⟨fun both => both.1, fun one => ⟨one, notOut⟩⟩
  · exact fun t there => ((members t).mp there).2
  · intro t alive outside
    by_cases same : t = timer
    · rw [same]
      exact self
    · rw [members, not_and_or, not_not] at outside
      have apart := outside.resolve_right same
      rw [(other t apart).1, (other t apart).2]
      rw [live] at alive
      exact threads.alone t alive apart
  · have sorted := threads.sorted.sublist order
    simp only [aim]
    exact sorted
  · intro t there
    rw [status]
    exact threads.ready t (ready t there)
  · intro t alive
    rw [live] at alive
    rw [aim]
    exact threads.millis t alive
  · rw [live]
    exact threads.blocks

/-- The head leaves the ring. -/
theorem Threads.headRemove (threads : Threads s (head :: rest) noTimer) :
    Threads (rtcTimerListheadRemove s) rest (only head) ∧
      (rtcTimerListheadRemove s).timers = s.timers ∧ (rtcTimerListheadRemove s).live = s.live := by
  rcases ringIs_cons.mp threads.linked with ⟨first, ring⟩
  have fresh := (List.nodup_cons.mp threads.distinct).1
  have members : ∀ t, t ∈ rest ↔ t ∈ head :: rest ∧ t ≠ head := by
    intro t
    rw [List.mem_cons]
    constructor
    · intro there
      exact ⟨.inr there, fun same => fresh (same ▸ there)⟩
    · rintro ⟨rfl | there, ne⟩
      · exact absurd rfl ne
      · exact there
  unfold rtcTimerListheadRemove
  rw [first]
  dsimp only
  split
  · next alone =>
    have none_ := ring.eq_nil_of_alone threads.distinct alone
    subst none_
    refine ⟨threads.left (ringIs_nil.mpr rfl) members (by simp) rfl rfl
      (fun _ _ => ⟨rfl, rfl⟩) ⟨alone, ring.2⟩ (by simp), rfl, rfl⟩
  · next more =>
    cases rest with
    | nil => exact absurd ring.1 more
    | cons y ys =>
      rcases rtListRemove_ring ring threads.distinct with ⟨closed, other, self⟩
      refine ⟨threads.left (ringIs_cons.mpr ⟨?_, closed⟩) members (by simp) rfl
        rfl other self fun t there => List.mem_of_mem_tail there, rfl, rfl⟩
      rw [ring.next_start]
      rfl

/-- Another timer leaves the ring, or stays out. -/
theorem Threads.remove (threads : Threads s ring noTimer) (alive : timer ∈ s.live)
    (notHead : s.timerListHead ≠ some timer) :
    ∃ ring', Threads (rtListRemove s timer) ring' (only timer) := by
  by_cases inside : timer ∈ ring
  · cases ring with
    | nil => cases inside
    | cons x rest =>
      rcases ringIs_cons.mp threads.linked with ⟨first, ring⟩
      have ne : timer ≠ x := fun same => notHead (same ▸ first)
      rcases List.append_of_mem (List.mem_of_ne_of_mem ne inside) with ⟨pre, post, rfl⟩
      have rotated := ring.rotate
      have perm : (timer :: (post ++ x :: pre)).Nodup := by
        have distinct := threads.distinct
        rw [← List.cons_append] at distinct
        exact List.nodup_append_comm.mp distinct
      have members : ∀ t, t ∈ x :: (pre ++ post) ↔ t ∈ x :: (pre ++ timer :: post) ∧ t ≠ timer := by
        intro t
        have fresh := (List.nodup_cons.mp perm).1
        simp only [List.mem_append, List.mem_cons, not_or] at fresh ⊢
        constructor
        · intro there
          refine ⟨by tauto, ?_⟩
          rintro rfl
          tauto
        · tauto
      have others : ∀ t, t ∉ x :: (pre ++ timer :: post) → t ∉ timer :: (post ++ x :: pre) := by
        intro t outside there
        apply outside
        simp only [List.mem_append, List.mem_cons] at there ⊢
        tauto
      have links :
          LinkPath (rtListRemove s timer).next (rtListRemove s timer).prev x (pre ++ post) x ∧
          (∀ t, t ∉ x :: (pre ++ timer :: post) → (rtListRemove s timer).next t = s.next t ∧
            (rtListRemove s timer).prev t = s.prev t) ∧
          (rtListRemove s timer).next timer = timer ∧
          (rtListRemove s timer).prev timer = timer := by
        cases post with
        | nil =>
          rcases rtListRemove_ring rotated perm with ⟨closed, other, self⟩
          rw [List.append_nil]
          exact ⟨closed, fun t outside => other t (others t outside), self⟩
        | cons z post =>
          rcases rtListRemove_ring rotated perm with ⟨closed, other, self⟩
          exact ⟨closed.rotate, fun t outside => other t (others t outside), self⟩
      refine ⟨x :: (pre ++ post), threads.left (ringIs_cons.mpr ⟨first, links.1⟩) members ?_
        rfl rfl links.2.1 links.2.2 ?_⟩
      · exact ((List.sublist_cons_self timer post).append_left pre).cons_cons x
      · intro t there
        rw [List.tail_cons, List.mem_append] at there ⊢
        exact there.imp id (List.mem_cons_of_mem _)
  · rcases threads.alone timer alive inside with ⟨next, prev⟩
    have same : rtListRemove s timer = s := by
      unfold rtListRemove
      simp only [next, prev]
      have nexts : Function.update s.next timer timer = s.next := by
        conv_rhs => rw [← Function.update_eq_self timer s.next, next]
      have prevs : Function.update s.prev timer timer = s.prev := by
        conv_rhs => rw [← Function.update_eq_self timer s.prev, prev]
      simp only [prevs, prev, nexts]
    rw [same]
    have idle : ¬ (s.status timer).Active := fun active =>
      inside ((threads.members timer id).mpr ⟨alive, active⟩)
    exact ⟨ring, threads.leave idle⟩

/-! ## A timer is put in -/

/-- A new timer at the end of a ring, in front of its start. -/
theorem rtListInsertBefore_ring {l n : TimerPtr} {rest : List TimerPtr}
    (ring : LinkPath s.next s.prev l rest l) (distinct : (l :: rest).Nodup)
    (fresh : n ∉ l :: rest) :
    LinkPath (rtListInsertBefore s l n).next (rtListInsertBefore s l n).prev l (rest ++ [n]) l ∧
      ∀ t, t ≠ n → t ∉ l :: rest →
        (rtListInsertBefore s l n).next t = s.next t ∧
          (rtListInsertBefore s l n).prev t = s.prev t := by
  refine ⟨ring.insert_before distinct fresh, ?_⟩
  intro t notN outside
  have notL : t ≠ l := fun same => outside (same ▸ List.mem_cons_self)
  have notLast : t ≠ s.prev l := by
    rintro rfl
    apply outside
    rw [ring.prev_end]
    exact List.getLast_mem _
  constructor
  · change Function.update (Function.update s.next (s.prev l) n) n l t = s.next t
    rw [Function.update_of_ne notN, Function.update_of_ne notLast]
  · change Function.update (Function.update s.prev n (s.prev l)) l n t = s.prev t
    rw [Function.update_of_ne notL, Function.update_of_ne notN]

/-- A new timer between two others. -/
theorem rtListInsertBefore_middle {x cur n : TimerPtr} {pre post : List TimerPtr}
    (ring : LinkPath s.next s.prev x (pre ++ cur :: post) x)
    (distinct : (x :: (pre ++ cur :: post)).Nodup)
    (fresh : n ∉ x :: (pre ++ cur :: post)) :
    LinkPath (rtListInsertBefore s cur n).next (rtListInsertBefore s cur n).prev x
        (pre ++ n :: cur :: post) x ∧
      ∀ t, t ≠ n → t ∉ x :: (pre ++ cur :: post) →
        (rtListInsertBefore s cur n).next t = s.next t ∧
          (rtListInsertBefore s cur n).prev t = s.prev t := by
  have same : ∀ t, t ∈ cur :: (post ++ x :: pre) ↔ t ∈ x :: (pre ++ cur :: post) := by
    intro t
    simp only [List.mem_append, List.mem_cons]
    tauto
  have distinct' : (cur :: (post ++ x :: pre)).Nodup := by
    rw [← List.cons_append] at distinct
    exact List.nodup_append_comm.mp distinct
  rcases rtListInsertBefore_ring ring.rotate distinct' (fun there => fresh ((same n).mp there)) with
    ⟨closed, other⟩
  rw [List.append_assoc, List.cons_append] at closed
  have turned := closed.rotate
  rw [List.append_assoc] at turned
  exact ⟨turned, fun t notN outside => other t notN fun there => outside ((same t).mp there)⟩

/-- The timer that was out is in the ring. -/
theorem Threads.joined (threads : Threads s ring (only timer)) (alive : timer ∈ s.live)
    (pre post : List TimerPtr) (split : ring = pre ++ post)
    (before : ∀ t ∈ pre, s.aim t ≤ s.aim timer) (behind : ∀ t ∈ post, s.aim timer ≤ s.aim t)
    (linked : s'.RingIs (pre ++ timer :: post)) (live : s'.live = s.live)
    (aim : ∀ t, s'.aim t = s.aim t)
    (other : ∀ t, t ≠ timer → t ∉ ring →
      s'.next t = s.next t ∧ s'.prev t = s.prev t ∧ s'.status t = s.status t)
    (active : ∀ t ∈ pre ++ timer :: post, (s'.status t).Active)
    (ready : ∀ t ∈ (pre ++ timer :: post).tail, s'.status t = .ready) :
    Threads s' (pre ++ timer :: post) noTimer := by
  subst split
  have inside : ∀ t, t ∈ pre ++ timer :: post ↔ t = timer ∨ t ∈ pre ++ post := by
    intro t
    simp only [List.mem_append, List.mem_cons]
    tauto
  have fresh := threads.not_mem
  refine ⟨linked, ?_, ?_, fun _ _ => id, ?_, ?_, ready, ?_, ?_⟩
  · exact List.nodup_middle.mpr (List.nodup_cons.mpr ⟨fresh, threads.distinct⟩)
  · intro t _
    rw [live]
    by_cases same : t = timer
    · subst same
      exact ⟨fun there => ⟨alive, active t there⟩, fun _ => (inside t).mpr (.inl rfl)⟩
    · constructor
      · intro there
        exact ⟨threads.live (((inside t).mp there).resolve_left same), active t there⟩
      · rintro ⟨lives, starts⟩
        by_contra outside
        have apart : t ∉ pre ++ post := fun there => outside ((inside t).mpr (.inr there))
        rw [(other t same apart).2.2] at starts
        exact apart ((threads.members t same).mpr ⟨lives, starts⟩)
  · intro t lives outside
    rw [inside, not_or] at outside
    rw [live] at lives
    rw [(other t outside.1 outside.2).1, (other t outside.1 outside.2).2.1]
    exact threads.alone t lives outside.2
  · simp only [aim]
    rcases List.pairwise_append.mp threads.sorted with ⟨front, back, across⟩
    refine List.pairwise_append.mpr ⟨front, List.pairwise_cons.mpr ⟨behind, back⟩, ?_⟩
    intro t there later next
    rcases List.mem_cons.mp next with rfl | next
    · exact before t there
    · exact across t there later next
  · intro t lives
    rw [live] at lives
    rw [aim]
    exact threads.millis t lives
  · rw [live]
    exact threads.blocks

/-- The loop finds the first timer that is not earlier. -/
theorem insertLoop_run {head : TimerPtr} {todo : List TimerPtr} {fuel : Nat} {cur : TimerPtr}
    (start : cur = todo.headD head) (enough : todo.length < fuel)
    (path : ∀ y ys, todo = y :: ys → LinkPath s.next s.prev y ys head) (apart : head ∉ todo)
    (later : ∃ t ∈ todo, s.aim timer ≤ s.aim t) :
    ∃ pre cur' post, todo = pre ++ cur' :: post ∧ (∀ t ∈ pre, s.aim t < s.aim timer) ∧
      s.aim timer ≤ s.aim cur' ∧
      insertLoop s head timer fuel cur = some (rtListInsertBefore s cur' timer) := by
  induction todo generalizing fuel cur with
  | nil =>
    rcases later with ⟨t, there, -⟩
    cases there
  | cons y ys ih =>
    cases fuel with
    | zero => cases enough
    | succ fuel =>
      have here : cur = y := start
      have ne : cur ≠ head := by
        rw [here]
        rintro rfl
        exact apart List.mem_cons_self
      rw [insertLoop, if_neg ne, here]
      by_cases found : s.aim timer ≤ s.aim y
      · rw [if_pos found]
        exact ⟨[], y, ys, rfl, by simp, found, rfl⟩
      · rw [if_neg found]
        have there : ∃ t ∈ ys, s.aim timer ≤ s.aim t := by
          rcases later with ⟨t, there, small⟩
          rcases List.mem_cons.mp there with rfl | there
          · exact absurd small found
          · exact ⟨t, there, small⟩
        have walk := path y ys rfl
        have deeper : ∀ z zs, ys = z :: zs → LinkPath s.next s.prev z zs head := by
          rintro z zs rfl
          exact walk.2
        rcases ih walk.next_start (Nat.lt_of_succ_lt_succ enough) deeper
          (fun inside => apart (List.mem_cons_of_mem _ inside)) there with
          ⟨pre, cur', post, rfl, small, large, run⟩
        refine ⟨y :: pre, cur', post, rfl, ?_, large, run⟩
        intro t inside
        rcases List.mem_cons.mp inside with rfl | inside
        · exact Nat.lt_of_not_le found
        · exact small t inside

/-- A timer is linked in behind the head. -/
theorem Threads.joinedBehind {x cur : TimerPtr} {pre post : List TimerPtr}
    (threads : Threads s (x :: (pre ++ post)) (only timer)) (alive : timer ∈ s.live)
    (status : s.status timer = .ready) (before : ∀ t ∈ x :: pre, s.aim t ≤ s.aim timer)
    (behind : ∀ t ∈ post, s.aim timer ≤ s.aim t)
    (linked : LinkPath (rtListInsertBefore s cur timer).next (rtListInsertBefore s cur timer).prev x
      (pre ++ timer :: post) x)
    (other : ∀ t, t ≠ timer → t ∉ x :: (pre ++ post) →
      (rtListInsertBefore s cur timer).next t = s.next t ∧
        (rtListInsertBefore s cur timer).prev t = s.prev t) :
    Threads (rtListInsertBefore s cur timer) (x :: (pre ++ timer :: post)) noTimer := by
  have first := (ringIs_cons.mp threads.linked).1
  refine threads.joined alive (x :: pre) post rfl before behind
    (ringIs_cons.mpr ⟨first, linked⟩) rfl (fun _ => rfl)
    (fun t ne outside => ⟨(other t ne outside).1, (other t ne outside).2, rfl⟩) ?_ ?_
  · intro t inside
    by_cases same : t = timer
    · rw [same]
      exact .inl status
    · refine ((threads.members t same).mp ?_).2
      simp only [List.mem_append, List.mem_cons] at inside ⊢
      tauto
  · intro t inside
    rw [List.cons_append, List.tail_cons] at inside
    by_cases same : t = timer
    · rw [same]
      exact status
    · apply threads.ready
      simp only [List.tail_cons, List.mem_append, List.mem_cons] at inside ⊢
      tauto

/-- A timer is linked in as the new head. -/
theorem Threads.joinedFront {x : TimerPtr} (threads : Threads s (x :: rest) (only timer))
    (alive : timer ∈ s.live) (first : s.aim timer ≤ s.aim x) :
    Threads (makeHead (rtListInsertBefore s x timer) x timer) (timer :: x :: rest) noTimer := by
  have fresh := threads.not_mem
  have apart : x ≠ timer := fun same => fresh (same ▸ List.mem_cons_self)
  rcases rtListInsertBefore_ring (ringIs_cons.mp threads.linked).2 threads.distinct fresh with
    ⟨closed, other⟩
  have behind : ∀ t ∈ x :: rest, s.aim timer ≤ s.aim t := by
    intro t inside
    rcases List.mem_cons.mp inside with rfl | inside
    · exact first
    · exact Nat.le_trans first ((List.pairwise_cons.mp threads.sorted).1 t inside)
  let s2 := (rtListInsertBefore s x timer).setStatus x .ready
  have state : makeHead (rtListInsertBefore s x timer) x timer =
      { s2 with timerListHead := some timer }.setStatus timer .running := rfl
  have aim : ∀ t, (makeHead (rtListInsertBefore s x timer) x timer).aim t = s.aim t := by
    intro t
    rw [state, RtcState.aim_setStatus]
    exact (rtListInsertBefore s x timer).aim_setStatus x t .ready
  have status : ∀ t, t ≠ timer → t ≠ x →
      (makeHead (rtListInsertBefore s x timer) x timer).status t = s.status t := by
    intro t notNew notOld
    rw [state, RtcState.status_setStatus_of_ne _ notNew]
    exact (rtListInsertBefore s x timer).status_setStatus_of_ne notOld .ready
  have statusNew : (makeHead (rtListInsertBefore s x timer) x timer).status timer = .running := by
    rw [state, RtcState.status_setStatus_self]
  have statusOld : (makeHead (rtListInsertBefore s x timer) x timer).status x = .ready := by
    rw [state, RtcState.status_setStatus_of_ne _ apart]
    exact (rtListInsertBefore s x timer).status_setStatus_self x .ready
  have tail : ∀ t ∈ x :: rest,
      (makeHead (rtListInsertBefore s x timer) x timer).status t = .ready := by
    intro t inside
    by_cases old : t = x
    · rw [old]
      exact statusOld
    · rw [status t (fun same => fresh (same ▸ inside)) old]
      exact threads.ready t (List.mem_of_ne_of_mem old inside)
  refine threads.joined alive [] _ rfl (by simp) behind
    (ringIs_cons.mpr ⟨rfl, closed.rotate⟩) rfl aim ?_ ?_ ?_
  · intro t ne outside
    have notX : t ≠ x := fun same => outside (same ▸ List.mem_cons_self)
    exact ⟨(other t ne outside).1, (other t ne outside).2, status t ne notX⟩
  · intro t inside
    rcases List.mem_cons.mp inside with rfl | inside
    · exact .inr statusNew
    · exact .inl (tail t inside)
  · exact tail

/-- The last timer is the latest. -/
theorem le_getLast (sorted : (head :: rest).Pairwise fun timer later => s.aim timer ≤ s.aim later)
    (t : TimerPtr) (inside : t ∈ head :: rest) :
    s.aim t ≤ s.aim ((head :: rest).getLast (by simp)) := by
  induction rest generalizing head t with
  | nil =>
    rw [List.mem_singleton.mp inside]
    exact Nat.le_refl _
  | cons y ys ih =>
    rcases List.pairwise_cons.mp sorted with ⟨first, behind⟩
    rw [List.getLast_cons_cons]
    rcases List.mem_cons.mp inside with rfl | inside
    · exact Nat.le_trans (first y List.mem_cons_self) (ih behind y List.mem_cons_self)
    · exact ih behind t inside

/-- At most the statuses of the timers are others. -/
def StatusOnly (s s' : RtcState) : Prop :=
  ∀ t, ∃ status, s'.timers t = { s.timers t with status }

theorem statusOnly_setStatus (s : RtcState) (timer : TimerPtr) (status : TimerStatus) :
    StatusOnly s (s.setStatus timer status) := by
  intro t
  by_cases same : t = timer
  · rw [same, RtcState.setStatus, RtcState.modify_self]
    exact ⟨status, rfl⟩
  · rw [RtcState.setStatus, RtcState.modify_of_ne s same]
    exact ⟨(s.timers t).status, rfl⟩

theorem StatusOnly.trans {s₁ s₂ s₃ : RtcState} (first : StatusOnly s₁ s₂)
    (second : StatusOnly s₂ s₃) : StatusOnly s₁ s₃ := by
  intro t
  obtain ⟨_, one⟩ := first t
  obtain ⟨status, two⟩ := second t
  rw [one] at two
  exact ⟨status, two⟩

theorem statusOnly_makeHead (s : RtcState) (head timer : TimerPtr) :
    StatusOnly s (makeHead s head timer) :=
  (statusOnly_setStatus s head .ready).trans (statusOnly_setStatus _ timer .running)

/-- A timer that is out is put in between those that are there, and the call returns. -/
theorem Threads.inserted (threads : Threads s ring (only timer)) (alive : timer ∈ s.live) :
    ∃ s' pre post, rtcTimerListInsert s timer = some s' ∧ ring = pre ++ post ∧
      Threads s' (pre ++ timer :: post) noTimer ∧ s'.live = s.live ∧ StatusOnly s s' := by
  have millis : timer ∈ s.live → unpackMs (s.timers timer).aimDate < 1000 :=
    threads.millis timer
  have threads1 : Threads (s.setStatus timer .ready) ring (only timer) := threads.modify millis
  have status1 := s.status_setStatus_self timer .ready
  have alive1 : timer ∈ (s.setStatus timer .ready).live := alive
  have live1 : (s.setStatus timer .ready).live = s.live := rfl
  have only1 := statusOnly_setStatus s timer .ready
  rw [rtcTimerListInsert]
  generalize s.setStatus timer .ready = s1 at threads1 status1 alive1 live1 only1
  dsimp only
  have fresh := threads1.not_mem
  cases ring with
  | nil =>
    rw [ringIs_nil.mp threads1.linked]
    have alone := threads1.alone timer alive1 fresh
    refine ⟨_, [], [], rfl, rfl, threads1.joined alive1 [] [] rfl (by simp) (by simp)
      (ringIs_cons.mpr ⟨rfl, alone⟩) rfl (fun t => s1.aim_setStatus timer t .running) ?_ ?_
      (by simp), live1, only1.trans (statusOnly_setStatus s1 timer .running)⟩
    · intro t ne _
      exact ⟨rfl, rfl, s1.status_setStatus_of_ne ne .running⟩
    · intro t inside
      cases List.mem_singleton.mp inside
      exact .inr (s1.status_setStatus_self timer .running)
  | cons x rest =>
    rcases ringIs_cons.mp threads1.linked with ⟨first, path⟩
    rw [first]
    dsimp only
    have aims : ∀ t, (rtListInsertBefore s1 x timer).aim t = s1.aim t := fun _ => rfl
    -- a timer at the end
    have atEnd (late : ∀ t ∈ x :: rest, s1.aim t ≤ s1.aim timer) :
        Threads (rtListInsertBefore s1 x timer) (x :: (rest ++ [timer])) noTimer := by
      rcases rtListInsertBefore_ring path threads1.distinct fresh with ⟨closed, other⟩
      have whole : rest ++ [] = rest := List.append_nil rest
      rw [← whole] at threads1 other
      exact threads1.joinedBehind alive1 status1 late (by simp) closed other
    have front := only1.trans (statusOnly_makeHead (rtListInsertBefore s1 x timer) x timer)
    split
    · next alone =>
      have none_ := path.eq_nil_of_alone threads1.distinct alone.symm
      subst none_
      split
      · next early =>
        exact ⟨_, [], [x], rfl, rfl, threads1.joinedFront alive1 early, live1, front⟩
      · next late =>
        refine ⟨_, [x], [], rfl, rfl, atEnd fun t inside => ?_, live1, only1⟩
        rw [List.mem_singleton.mp inside]
        exact Nat.le_of_not_le late
    · next more =>
      split
      · next early =>
        exact ⟨_, [], x :: rest, rfl, rfl, threads1.joinedFront alive1 early, live1, front⟩
      · next notFirst =>
        have last : s1.prev x = (x :: rest).getLast (by simp) := path.prev_end
        split
        · next late =>
          refine ⟨_, x :: rest, [], rfl, (List.append_nil _).symm, atEnd fun t inside => ?_, live1,
            only1⟩
          rw [last] at late
          exact Nat.le_trans (le_getLast threads1.sorted t inside) late
        · next notLast =>
          rw [last] at notLast
          have later : ∃ t ∈ rest, s1.aim timer ≤ s1.aim t := by
            cases rest with
            | nil => exact absurd (Nat.le_of_not_le notFirst) notLast
            | cons y ys =>
              rw [List.getLast_cons_cons] at notLast
              exact ⟨_, List.getLast_mem _, Nat.le_of_not_le notLast⟩
          have distinct := List.nodup_cons.mp threads1.distinct
          have enough : rest.length < s1.live.length + 1 := by
            apply Nat.lt_succ_of_le
            exact distinct.2.length_le_of_subset
              fun t inside => threads1.live (List.mem_cons_of_mem _ inside)
          have walk : ∀ y ys, rest = y :: ys → LinkPath s1.next s1.prev y ys x := by
            rintro y ys rfl
            exact path.2
          rcases insertLoop_run path.next_start enough walk distinct.1 later with
            ⟨pre, cur, post, rfl, small, large, run⟩
          rw [run]
          rcases rtListInsertBefore_middle path threads1.distinct fresh with ⟨closed, other⟩
          refine ⟨_, x :: pre, cur :: post, rfl, rfl,
            threads1.joinedBehind alive1 status1 ?_ ?_ closed other, live1, only1⟩
          · intro t inside
            rcases List.mem_cons.mp inside with rfl | inside
            · exact Nat.le_of_not_le notFirst
            · exact Nat.le_of_lt (small t inside)
          · intro t inside
            rcases List.mem_cons.mp inside with rfl | inside
            · exact large
            · have sorted := (List.pairwise_append.mp (List.pairwise_cons.mp threads1.sorted).2).2.1
              exact Nat.le_trans large ((List.pairwise_cons.mp sorted).1 t inside)

/-- A timer that is out is put in, and the call returns. -/
theorem Threads.insert (threads : Threads s ring (only timer)) (alive : timer ∈ s.live) :
    ∃ s' ring', rtcTimerListInsert s timer = some s' ∧ Threads s' ring' noTimer := by
  obtain ⟨s', pre, post, run, -, inserted, -⟩ := threads.inserted alive
  exact ⟨s', pre ++ timer :: post, run, inserted⟩

/-! ## The alarm -/

/-- The alarm is off, or set to the head, which runs. -/
theorem rtcTimerSetAlarm_nil (empty : s.timerListHead = none) :
    rtcTimerSetAlarm s s.timerListHead = rtcStopAlarm s := by
  unfold rtcTimerSetAlarm
  rw [empty]
  rfl

theorem rtcTimerSetAlarm_cons (first : s.timerListHead = some head) :
    rtcTimerSetAlarm s s.timerListHead =
      { s.setStatus head .running with
        alarmReg := alarmValue (s.aim head), ctrlReg := s.ctrlReg ||| 2 } := by
  unfold rtcTimerSetAlarm
  rw [first]
  dsimp only
  rw [if_neg (Option.some_ne_none head), s.aim_setStatus]
  rfl

theorem statusOnly_setAlarm (s : RtcState) :
    StatusOnly s (rtcTimerSetAlarm s s.timerListHead) ∧
      (rtcTimerSetAlarm s s.timerListHead).live = s.live := by
  cases first : s.timerListHead with
  | none =>
    rw [← first, rtcTimerSetAlarm_nil first]
    exact ⟨fun t => ⟨s.status t, rfl⟩, rfl⟩
  | some head =>
    rw [← first, rtcTimerSetAlarm_cons first]
    exact ⟨statusOnly_setStatus s head .running, rfl⟩

/-- Setting the alarm leaves the ring. -/
theorem Threads.alarmed (threads : Threads s ring out) :
    Threads (rtcTimerSetAlarm s s.timerListHead) ring out := by
  cases ring with
  | nil =>
    rw [rtcTimerSetAlarm_nil (ringIs_nil.mp threads.linked)]
    exact threads.change rfl rfl rfl rfl (fun _ _ => rfl) threads.members threads.apart
      threads.ready threads.millis
  | cons head rest =>
    have fresh := (List.nodup_cons.mp threads.distinct).1
    rw [rtcTimerSetAlarm_cons (ringIs_cons.mp threads.linked).1]
    have aims : ∀ t, ({ s.setStatus head .running with
        alarmReg := alarmValue (s.aim head), ctrlReg := s.ctrlReg ||| 2 } : RtcState).aim t =
        s.aim t := fun t => s.aim_setStatus head t .running
    refine threads.change rfl rfl rfl rfl (fun t _ => aims t) ?_ threads.apart ?_ ?_
    · intro t notOut
      by_cases same : t = head
      · subst same
        refine ⟨fun inside => ⟨threads.live inside, .inr (s.status_setStatus_self t .running)⟩,
          fun _ => List.mem_cons_self⟩
      · have other := s.status_setStatus_of_ne same .running
        rw [threads.members t notOut, ← other]
        rfl
    · intro t inside
      have ne : t ≠ head := by
        rintro rfl
        exact fresh inside
      exact (s.status_setStatus_of_ne ne .running).trans (threads.ready t inside)
    · intro t alive
      rw [aims]
      exact threads.millis t alive

/-- With the alarm set to the head the list is as it should be, up to the timers that are out. -/
theorem Threads.setAlarm (threads : Threads s ring out) :
    Kept (rtcTimerSetAlarm s s.timerListHead) out := by
  refine ⟨⟨ring, threads.alarmed⟩, ?_, ?_⟩
  · intro head first
    cases empty : s.timerListHead with
    | none =>
      rw [rtcTimerSetAlarm_nil empty] at first
      cases empty.symm.trans first
    | some head' =>
      rw [rtcTimerSetAlarm_cons empty] at first
      rw [← empty, rtcTimerSetAlarm_cons empty]
      cases empty.symm.trans first
      refine ⟨s.status_setStatus_self head .running, ?_⟩
      rw [show ({ s.setStatus head .running with
        alarmReg := alarmValue (s.aim head), ctrlReg := s.ctrlReg ||| 2 } : RtcState).aim head =
          s.aim head from s.aim_setStatus head head .running]
  · intro none_
    cases first : s.timerListHead with
    | none =>
      rw [← first, rtcTimerSetAlarm_nil first]
      change (s.ctrlReg &&& (2 ^ 32 - 1 - 2)) &&& 2 = 0
      rw [Nat.and_assoc]
      exact Nat.and_zero _
    | some head =>
      rw [rtcTimerSetAlarm_cons first] at none_
      cases first.symm.trans none_

end Threads

end Rtc

end Tr6260
