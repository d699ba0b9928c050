import Mathlib.Data.List.Chain

/-!
# Requests on a link

A link sends messages one at a time. Some need a reply and are sent again until it comes, or until
they were sent often enough. `step` is a machine that accepts what such a link may do, and
`Protocol` says it of a whole trace: how often and how far apart a message is written, that nothing
else is sent meanwhile, that an answer ends it, and that each message's buffer is released once.
-/

namespace RequestLink

variable {μ φ : Type}

/-- What a link does: `sent` and `resent` write message `n`, `released` frees a buffer (`none`: one
that belongs to no message). -/
inductive Act (μ φ : Type)
  | frame (f : φ)
  | sent (n : Nat) (msg : μ) (time : Nat)
  | resent (n time : Nat)
  | released (n : Option Nat)
  deriving DecidableEq

/-- Which messages need a reply, which frames are one, and how often and how far apart a message is
sent again. -/
structure Rules (μ φ : Type) where
  needsReply : μ → Bool
  answers : φ → μ → Bool
  retries : Nat
  interval : Nat

/-- The message that is open, how often it was sent again, and when last. -/
structure Open (μ : Type) where
  n : Nat
  msg : μ
  count : Nat
  last : Nat

/-- The open message, the one whose buffer is held, and the number of messages so far. -/
structure State (μ : Type) where
  current : Option (Open μ)
  held : Option Nat
  used : Nat

/-- No message yet. -/
def State.start : State μ := ⟨none, none, 0⟩

/-- Nothing more is to be done for the message. -/
def Open.finished (rules : Rules μ φ) (o : Open μ) : Bool :=
  !rules.needsReply o.msg || o.count == rules.retries

/-- What is accepted next. -/
def step (rules : Rules μ φ) (st : State μ) : Act μ φ → Option (State μ)
  | .frame f =>
    if st.current.any fun o => rules.needsReply o.msg && rules.answers f o.msg then
      some { st with current := none }
    else
      some st
  | .sent n msg time =>
    if n = st.used ∧ st.held = none ∧ st.current.all (Open.finished rules) then
      some ⟨some ⟨n, msg, 0, time⟩, some n, n + 1⟩
    else
      none
  | .resent n time =>
    match st.current with
    | none => none
    | some o =>
      if n = o.n ∧ rules.needsReply o.msg ∧ o.count < rules.retries ∧
          o.last + rules.interval ≤ time then
        some { st with current := some { o with count := o.count + 1, last := time } }
      else
        none
  | .released n =>
    if n.isSome ∧ n = st.held then some { st with held := none } else none

/-- A trace that is accepted from the start. -/
def run (rules : Rules μ φ) (trace : List (Act μ φ)) : Option (State μ) :=
  trace.foldlM (step rules) State.start

theorem run_append (rules : Rules μ φ) (trace acts : List (Act μ φ)) :
    run rules (trace ++ acts) = (run rules trace).bind (acts.foldlM (step rules)) := by
  rw [run, List.foldlM_append]
  rfl

/-! ## What a trace says -/

/-- When message `n` was written. -/
def times (trace : List (Act μ φ)) (n : Nat) : List Nat :=
  trace.filterMap fun
    | .sent k _ time => if k = n then some time else none
    | .resent k time => if k = n then some time else none
    | _ => none

/-- How often the buffer of message `n` was released. -/
def releases (trace : List (Act μ φ)) (n : Nat) : Nat :=
  trace.countP fun
    | .released (some k) => k == n
    | _ => false

/-- A frame that answers message `n` came after it was sent. -/
def Answered (rules : Rules μ φ) (trace : List (Act μ φ)) (n : Nat) (msg : μ) : Prop :=
  ∃ time f, rules.answers f msg = true ∧ List.Sublist [.sent n msg time, .frame f] trace

/-- What a link that keeps the rules does. -/
structure Protocol (rules : Rules μ φ) (trace : List (Act μ φ)) : Prop where
  /-- A message is sent once, and then at most `retries` times more. -/
  often : ∀ n, (times trace n).length ≤ 1 + rules.retries
  /-- With `interval` between two writes. -/
  apart : ∀ n, (times trace n).IsChain fun a b => a + rules.interval ≤ b
  /-- No other message is sent until it is answered or was sent often enough. -/
  alone : ∀ before k other time after, trace = before ++ .sent k other time :: after →
    ∀ n msg time', .sent n msg time' ∈ before → rules.needsReply msg = true →
      Answered rules before n msg ∨ (times before n).length = 1 + rules.retries
  /-- An answer ends it. -/
  stops : ∀ n msg time f time', rules.needsReply msg = true → rules.answers f msg = true →
    ¬ List.Sublist [.sent n msg time, .frame f, .resent n time'] trace
  /-- Nothing is released twice, and nothing that was not sent. -/
  once : .released none ∉ trace ∧ ∀ n, releases trace n ≤ 1
  /-- A message is released before the next is sent. -/
  owned : ∀ before k other time after, trace = before ++ .sent k other time :: after →
    ∀ n msg time', .sent n msg time' ∈ before → releases before n = 1

/-! ## Accepted traces keep the rules -/

variable {rules : Rules μ φ} {trace : List (Act μ φ)} {st st' : State μ}

theorem times_append (trace acts : List (Act μ φ)) (n : Nat) :
    times (trace ++ acts) n = times trace n ++ times acts n :=
  List.filterMap_append

theorem releases_append (trace acts : List (Act μ φ)) (n : Nat) :
    releases (trace ++ acts) n = releases trace n + releases acts n :=
  List.countP_append

@[simp] theorem times_frame (f : φ) (n : Nat) : times [(.frame f : Act μ φ)] n = [] := rfl

@[simp] theorem times_released (k : Option Nat) (n : Nat) :
    times [(.released k : Act μ φ)] n = [] := rfl

@[simp] theorem times_sent (k : Nat) (msg : μ) (time n : Nat) :
    times [(.sent k msg time : Act μ φ)] n = if k = n then [time] else [] := by
  by_cases same : k = n <;> simp [times, same]

@[simp] theorem times_resent (k time n : Nat) :
    times [(.resent k time : Act μ φ)] n = if k = n then [time] else [] := by
  by_cases same : k = n <;> simp [times, same]

@[simp] theorem releases_frame (f : φ) (n : Nat) : releases [(.frame f : Act μ φ)] n = 0 := rfl

@[simp] theorem releases_sent (k : Nat) (msg : μ) (time n : Nat) :
    releases [(.sent k msg time : Act μ φ)] n = 0 := rfl

@[simp] theorem releases_resent (k time n : Nat) :
    releases [(.resent k time : Act μ φ)] n = 0 := rfl

@[simp] theorem releases_released (k n : Nat) :
    releases [(.released (some k) : Act μ φ)] n = if k = n then 1 else 0 := by
  by_cases same : k = n <;> simp [releases, same]

/-- What holds of an accepted trace and the state it leads to. -/
structure Inv (rules : Rules μ φ) (trace : List (Act μ φ)) (st : State μ) : Prop where
  fresh : ∀ n, st.used ≤ n → times trace n = [] ∧ releases trace n = 0
  known : ∀ n msg time, .sent n msg time ∈ trace → n < st.used
  often : ∀ n, (times trace n).length ≤ 1 + rules.retries
  apart : ∀ n, (times trace n).IsChain fun a b => a + rules.interval ≤ b
  unique : ∀ n msg time msg' time', .sent n msg time ∈ trace → .sent n msg' time' ∈ trace →
    msg = msg'
  current : ∀ o ∈ st.current, (∃ time, .sent o.n o.msg time ∈ trace) ∧
    (times trace o.n).length = o.count + 1 ∧ (times trace o.n).getLast? = some o.last
  waiting : ∀ n msg time, .sent n msg time ∈ trace → rules.needsReply msg = true →
    (∃ o ∈ st.current, o.n = n ∧ o.msg = msg) ∨ Answered rules trace n msg ∨
      (times trace n).length = 1 + rules.retries
  closed : ∀ n msg time f, rules.needsReply msg = true → rules.answers f msg = true →
    List.Sublist [.sent n msg time, .frame f] trace → ∀ o ∈ st.current, o.n ≠ n
  held : ∀ n ∈ st.held, n < st.used
  owned : .released none ∉ trace ∧
    ∀ n, n < st.used → releases trace n = if st.held = some n then 0 else 1

theorem Inv.start : Inv rules ([] : List (Act μ φ)) State.start where
  fresh n _ := ⟨rfl, rfl⟩
  known n msg time mem := by cases mem
  often n := Nat.zero_le _
  apart n := List.IsChain.nil
  unique n msg time msg' time' mem := by cases mem
  current o mem := by cases mem
  waiting n msg time mem := by cases mem
  closed n msg time f _ _ sub := by cases sub
  held n mem := by cases mem
  owned := ⟨by simp, fun n small => absurd small (Nat.not_lt_zero n)⟩

/-- A sublist that ends with the last act, or does not need it. -/
theorem sublist_snoc {α : Type} {xs ys : List α} {x y : α}
    (sub : List.Sublist (xs ++ [x]) (ys ++ [y])) :
    List.Sublist (xs ++ [x]) ys ∨ x = y ∧ List.Sublist xs ys := by
  rw [← List.reverse_sublist, List.reverse_append, List.reverse_append] at sub
  rcases List.cons_sublist_cons'.mp sub with keep | ⟨same, rest⟩
  · left
    rw [← List.reverse_sublist, List.reverse_append]
    exact keep
  · exact .inr ⟨same, List.reverse_sublist.mp rest⟩

theorem pair_sublist_snoc {α : Type} {a b y : α} {ys : List α}
    (sub : List.Sublist [a, b] (ys ++ [y])) : List.Sublist [a, b] ys ∨ b = y ∧ a ∈ ys := by
  rcases @sublist_snoc α [a] ys b y sub with old | ⟨same, first⟩
  · exact .inl old
  · exact .inr ⟨same, List.singleton_sublist.mp first⟩

theorem Answered.mono {n : Nat} {msg : μ} {acts : List (Act μ φ)}
    (answered : Answered rules trace n msg) : Answered rules (trace ++ acts) n msg := by
  obtain ⟨time, f, answers, sub⟩ := answered
  exact ⟨time, f, answers, sub.trans (List.sublist_append_left trace acts)⟩

/-- What is still open after a frame was not answered, and what is not open any more was. -/
theorem step_frame {f : φ} (accepted : step rules st (.frame f) = some st') :
    st'.used = st.used ∧ st'.held = st.held ∧
      (∀ o ∈ st'.current, o ∈ st.current ∧
        ¬ (rules.needsReply o.msg = true ∧ rules.answers f o.msg = true)) ∧
      ∀ o ∈ st.current, o ∈ st'.current ∨ rules.answers f o.msg = true := by
  simp only [step] at accepted
  split at accepted
  next answered =>
    cases accepted
    refine ⟨rfl, rfl, fun o mem => (nomatch mem), fun o mem => .inr ?_⟩
    rw [Option.mem_def.mp mem] at answered
    simp only [Option.any_some, Bool.and_eq_true] at answered
    exact answered.2
  next other =>
    cases accepted
    refine ⟨rfl, rfl, fun o mem => ⟨mem, fun both => other ?_⟩, fun o mem => .inl mem⟩
    rw [Option.mem_def.mp mem]
    simpa using both

section Steps

variable (inv : Inv rules trace st)
include inv

/-- A frame closes the message it answers. -/
theorem Inv.frame {f : φ} (accepted : step rules st (.frame f) = some st') :
    Inv rules (trace ++ [.frame f]) st' := by
  obtain ⟨used, held, stillOpen, nowClosed⟩ := step_frame accepted
  have times_eq : ∀ n, times (trace ++ [.frame f]) n = times trace n := by simp [times_append]
  have releases_eq : ∀ n, releases (trace ++ [.frame f]) n = releases trace n := by
    simp [releases_append]
  have sent_eq : ∀ n msg time, (.sent n msg time : Act μ φ) ∈ trace ++ [.frame f] ↔
      .sent n msg time ∈ trace := by simp
  refine ⟨?fresh, ?known, ?often, ?apart, ?unique, ?current, ?waiting, ?closed, ?held, ?owned⟩
  case fresh =>
    intro n bound
    rw [times_eq, releases_eq]
    exact inv.fresh n (used ▸ bound)
  case known =>
    intro n msg time sent
    rw [used]
    exact inv.known n msg time ((sent_eq n msg time).mp sent)
  case often =>
    intro n
    rw [times_eq]
    exact inv.often n
  case apart =>
    intro n
    rw [times_eq]
    exact inv.apart n
  case unique =>
    intro n msg time msg' time' sent sent'
    exact inv.unique n msg time msg' time' ((sent_eq _ _ _).mp sent) ((sent_eq _ _ _).mp sent')
  case current =>
    intro o mem
    obtain ⟨⟨time, sent⟩, count⟩ := inv.current o (stillOpen o mem).1
    rw [times_eq]
    exact ⟨⟨time, (sent_eq _ _ _).mpr sent⟩, count⟩
  case waiting =>
    intro n msg time sent needs
    rw [sent_eq] at sent
    rw [times_eq]
    rcases inv.waiting n msg time sent needs with ⟨o, mem, rfl, rfl⟩ | answered | enough
    · rcases nowClosed o mem with still | answers
      · exact .inl ⟨o, still, rfl, rfl⟩
      · refine .inr (.inl ⟨time, f, answers, ?_⟩)
        exact (List.singleton_sublist.mpr sent).append (List.Sublist.refl [Act.frame f])
    · exact .inr (.inl answered.mono)
    · exact .inr (.inr enough)
  case closed =>
    intro n msg time f' needs answers sub o mem
    obtain ⟨before, unanswered⟩ := stillOpen o mem
    rcases pair_sublist_snoc sub with old | ⟨same, sent⟩
    · exact inv.closed n msg time f' needs answers old o before
    · cases same
      rintro rfl
      obtain ⟨⟨time', sent'⟩, -⟩ := inv.current o before
      rw [inv.unique o.n o.msg time' msg time sent' sent] at unanswered
      exact unanswered ⟨needs, answers⟩
  case held =>
    intro n mem
    rw [used]
    exact inv.held n (held ▸ mem)
  case owned =>
    refine ⟨by simpa using inv.owned.1, fun n small => ?_⟩
    rw [releases_eq, held]
    exact inv.owned.2 n (used ▸ small)

/-- When the open message is finished, every message that needs a reply was answered or sent often
enough. -/
theorem Inv.settled (finished : st.current.all (Open.finished rules) = true) {n : Nat} {msg : μ}
    {time : Nat} (sent : .sent n msg time ∈ trace) (needs : rules.needsReply msg = true) :
    Answered rules trace n msg ∨ (times trace n).length = 1 + rules.retries := by
  rcases inv.waiting n msg time sent needs with ⟨o, current, rfl, rfl⟩ | settled
  · right
    rw [Option.mem_def.mp current] at finished
    simp only [Option.all_some, Open.finished, needs, Bool.not_true, Bool.false_or,
      beq_iff_eq] at finished
    rw [(inv.current o current).2.1, finished, Nat.add_comm]
  · exact settled

/-- A new message, when the one before it is finished and released. -/
theorem Inv.sent {n : Nat} {msg : μ} {time : Nat}
    (accepted : step rules st (.sent n msg time) = some st') :
    Inv rules (trace ++ [.sent n msg time]) st' := by
  simp only [step] at accepted
  split at accepted
  case isFalse => cases accepted
  next next_ =>
  obtain ⟨rfl, free, finished⟩ := next_
  cases accepted
  obtain ⟨noTimes, noReleases⟩ := inv.fresh st.used (Nat.le_refl _)
  have times_eq : ∀ n, times (trace ++ [.sent st.used msg time]) n =
      if st.used = n then [time] else times trace n := by
    intro n
    rw [times_append, times_sent]
    by_cases new : st.used = n
    · rw [if_pos new, if_pos new, ← new, noTimes, List.nil_append]
    · rw [if_neg new, if_neg new, List.append_nil]
  have releases_eq : ∀ n, releases (trace ++ [.sent st.used msg time]) n = releases trace n := by
    simp [releases_append]
  have sent_cases : ∀ {n msg' time'},
      (.sent n msg' time' : Act μ φ) ∈ trace ++ [.sent st.used msg time] →
        .sent n msg' time' ∈ trace ∨ n = st.used ∧ msg' = msg := by
    intro n msg' time' mem
    rcases List.mem_append.mp mem with old | new
    · exact .inl old
    · cases List.mem_singleton.mp new
      exact .inr ⟨rfl, rfl⟩
  refine ⟨?fresh, ?known, ?often, ?apart, ?unique, ?current, ?waiting, ?closed, ?held, ?owned⟩
  case fresh =>
    intro n bound
    dsimp only at bound
    rw [times_eq, releases_eq, if_neg (by omega)]
    exact inv.fresh n (by omega)
  case known =>
    intro n msg' time' mem
    rcases sent_cases mem with old | ⟨rfl, -⟩
    · exact Nat.lt_succ_of_lt (inv.known n msg' time' old)
    · exact Nat.lt_succ_self _
  case often =>
    intro n
    rw [times_eq]
    split
    · simp
    · exact inv.often n
  case apart =>
    intro n
    rw [times_eq]
    split
    · exact List.isChain_singleton _
    · exact inv.apart n
  case unique =>
    intro n msg1 time1 msg2 time2 mem1 mem2
    rcases sent_cases mem1 with old1 | ⟨rfl, rfl⟩
    · rcases sent_cases mem2 with old2 | ⟨rfl, -⟩
      · exact inv.unique n msg1 time1 msg2 time2 old1 old2
      · exact absurd (inv.known _ _ _ old1) (Nat.lt_irrefl _)
    · rcases sent_cases mem2 with old2 | ⟨-, rfl⟩
      · exact absurd (inv.known _ _ _ old2) (Nat.lt_irrefl _)
      · rfl
  case current =>
    rintro o same
    cases same
    rw [times_eq, if_pos rfl]
    exact ⟨⟨time, by simp⟩, rfl, rfl⟩
  case waiting =>
    intro n msg' time' mem needs
    rcases sent_cases mem with old | ⟨rfl, rfl⟩
    · have before := inv.known n msg' time' old
      rw [times_eq, if_neg (by omega)]
      rcases inv.settled finished old needs with answered | enough
      · exact .inr (.inl answered.mono)
      · exact .inr (.inr enough)
    · exact .inl ⟨_, rfl, rfl, rfl⟩
  case closed =>
    intro n msg' time' f needs answers sub o same
    cases same
    rcases pair_sublist_snoc sub with old | ⟨same, -⟩
    · have before := inv.known n msg' time' (old.subset (by simp))
      exact Nat.ne_of_gt before
    · cases same
  case held =>
    rintro n same
    cases same
    exact Nat.lt_succ_self _
  case owned =>
    refine ⟨by simpa using inv.owned.1, fun n small => ?_⟩
    dsimp only at small
    rw [releases_eq]
    by_cases new : st.used = n
    · rw [if_pos (congrArg some new), ← new, noReleases]
    · rw [if_neg (fun same => new (Option.some.inj same)), inv.owned.2 n (by omega), free,
        if_neg (by simp)]

/-- The open message again. -/
theorem Inv.resent {n time : Nat} (accepted : step rules st (.resent n time) = some st') :
    Inv rules (trace ++ [.resent n time]) st' := by
  simp only [step] at accepted
  split at accepted
  case h_1 => cases accepted
  next o current =>
  split at accepted
  case isFalse => cases accepted
  next allowed =>
  obtain ⟨rfl, needs, more, later⟩ := allowed
  cases accepted
  obtain ⟨⟨sentAt, sent⟩, count, last⟩ := inv.current o current
  have times_eq : ∀ n, times (trace ++ [.resent o.n time]) n =
      if o.n = n then times trace n ++ [time] else times trace n := by
    intro n
    rw [times_append, times_resent]
    by_cases same : o.n = n
    · rw [if_pos same, if_pos same]
    · rw [if_neg same, if_neg same, List.append_nil]
  have releases_eq : ∀ n, releases (trace ++ [.resent o.n time]) n = releases trace n := by
    simp [releases_append]
  have sent_eq : ∀ n msg time', (.sent n msg time' : Act μ φ) ∈ trace ++ [.resent o.n time] ↔
      .sent n msg time' ∈ trace := by simp
  have known := inv.known _ _ _ sent
  refine ⟨?fresh, ?known, ?often, ?apart, ?unique, ?current, ?waiting, ?closed, ?held, ?owned⟩
  case fresh =>
    intro n bound
    dsimp only at bound
    rw [times_eq, releases_eq, if_neg (by omega)]
    exact inv.fresh n bound
  case known =>
    intro n msg time' mem
    exact inv.known n msg time' ((sent_eq _ _ _).mp mem)
  case often =>
    intro n
    rw [times_eq]
    split
    next same =>
      rw [← same, List.length_append, count, List.length_singleton]
      omega
    next => exact inv.often n
  case apart =>
    intro n
    rw [times_eq]
    split
    next same =>
      subst same
      refine (inv.apart o.n).append (List.isChain_singleton _) ?_
      intro x isLast y isFirst
      rw [last] at isLast
      cases isLast
      cases isFirst
      exact later
    next => exact inv.apart n
  case unique =>
    intro n msg time1 msg' time2 mem mem'
    exact inv.unique n msg time1 msg' time2 ((sent_eq _ _ _).mp mem) ((sent_eq _ _ _).mp mem')
  case current =>
    rintro o' same
    cases same
    dsimp only
    rw [times_eq, if_pos rfl, List.length_append, count, List.getLast?_append]
    exact ⟨⟨sentAt, (sent_eq _ _ _).mpr sent⟩, rfl, rfl⟩
  case waiting =>
    intro n msg time' mem need
    rw [sent_eq] at mem
    rcases inv.waiting n msg time' mem need with ⟨o', current', rfl, rfl⟩ | answered | enough
    · rw [Option.mem_def.mp current'] at current
      cases current
      exact .inl ⟨_, rfl, rfl, rfl⟩
    · exact .inr (.inl answered.mono)
    · by_cases same : o.n = n
      · rw [← same, count] at enough
        omega
      · rw [times_eq, if_neg same]
        exact .inr (.inr enough)
  case closed =>
    intro n msg time' f need answers sub o' same
    cases same
    rcases pair_sublist_snoc sub with old | ⟨same, -⟩
    · exact inv.closed n msg time' f need answers old o current
    · cases same
  case held =>
    exact inv.held
  case owned =>
    refine ⟨by simpa using inv.owned.1, fun n small => ?_⟩
    rw [releases_eq]
    exact inv.owned.2 n small

/-- The buffer that is held. -/
theorem Inv.released {n : Option Nat} (accepted : step rules st (.released n) = some st') :
    Inv rules (trace ++ [.released n]) st' := by
  simp only [step] at accepted
  split at accepted
  case isFalse => cases accepted
  next allowed =>
  obtain ⟨isSome, rfl⟩ := allowed
  cases accepted
  obtain ⟨k, holds⟩ := Option.isSome_iff_exists.mp isSome
  rw [holds]
  have times_eq : ∀ n, times (trace ++ [.released (some k)]) n = times trace n := by
    simp [times_append]
  have sent_eq : ∀ n msg time, (.sent n msg time : Act μ φ) ∈ trace ++ [.released (some k)] ↔
      .sent n msg time ∈ trace := by simp
  have known := inv.held k holds
  refine ⟨?fresh, ?known, ?often, ?apart, ?unique, ?current, ?waiting, ?closed, ?held, ?owned⟩
  case fresh =>
    intro n bound
    dsimp only at bound
    rw [times_eq, releases_append, releases_released, if_neg (by omega)]
    exact inv.fresh n bound
  case known =>
    intro n msg time mem
    exact inv.known n msg time ((sent_eq _ _ _).mp mem)
  case often =>
    intro n
    rw [times_eq]
    exact inv.often n
  case apart =>
    intro n
    rw [times_eq]
    exact inv.apart n
  case unique =>
    intro n msg time1 msg' time2 mem mem'
    exact inv.unique n msg time1 msg' time2 ((sent_eq _ _ _).mp mem) ((sent_eq _ _ _).mp mem')
  case current =>
    intro o current
    obtain ⟨⟨time, sent⟩, count⟩ := inv.current o current
    rw [times_eq]
    exact ⟨⟨time, (sent_eq _ _ _).mpr sent⟩, count⟩
  case waiting =>
    intro n msg time mem needs
    rw [times_eq]
    rcases inv.waiting n msg time ((sent_eq _ _ _).mp mem) needs with still | answered | enough
    · exact .inl still
    · exact .inr (.inl answered.mono)
    · exact .inr (.inr enough)
  case closed =>
    intro n msg time f needs answers sub o current
    rcases pair_sublist_snoc sub with old | ⟨same, -⟩
    · exact inv.closed n msg time f needs answers old o current
    · cases same
  case held =>
    rintro n same
    cases same
  case owned =>
    refine ⟨by simpa using inv.owned.1, fun n small => ?_⟩
    rw [releases_append, releases_released, inv.owned.2 n small, holds]
    by_cases same : k = n
    · rw [if_pos (congrArg some same), if_pos same, if_neg (by simp)]
    · rw [if_neg (fun eq => same (Option.some.inj eq)), if_neg same, if_neg (by simp)]

/-- One act. -/
theorem Inv.act {act : Act μ φ} (accepted : step rules st act = some st') :
    Inv rules (trace ++ [act]) st' := by
  cases act with
  | frame f => exact inv.frame accepted
  | sent n msg time => exact inv.sent accepted
  | resent n time => exact inv.resent accepted
  | released n => exact inv.released accepted

end Steps

/-- Every accepted trace. -/
theorem inv_of_run (accepted : run rules trace = some st) : Inv rules trace st := by
  induction trace using List.reverseRecOn generalizing st with
  | nil =>
    cases accepted
    exact Inv.start
  | append_singleton trace act ih =>
    rw [run_append] at accepted
    obtain ⟨before, first, second⟩ := Option.bind_eq_some_iff.mp accepted
    exact (ih first).act (by simpa using second)

/-- A prefix of an accepted trace is accepted. -/
theorem run_prefix {before after : List (Act μ φ)} {act : Act μ φ}
    (accepted : run rules (before ++ act :: after) = some st) :
    ∃ mid mid', run rules before = some mid ∧ step rules mid act = some mid' := by
  rw [run_append] at accepted
  obtain ⟨mid, first, rest⟩ := Option.bind_eq_some_iff.mp accepted
  rw [List.foldlM_cons] at rest
  obtain ⟨mid', second, -⟩ := Option.bind_eq_some_iff.mp rest
  exact ⟨mid, mid', first, second⟩

/-- A message is sent only when the one before it is finished and released. -/
theorem sent_accepted {n : Nat} {msg : μ} {time : Nat}
    (accepted : step rules st (.sent n msg time) = some st') :
    st.held = none ∧ st.current.all (Open.finished rules) = true := by
  simp only [step] at accepted
  split at accepted
  next allowed => exact allowed.2
  next => cases accepted

/-- Only the open message is sent again. -/
theorem resent_accepted {n time : Nat} (accepted : step rules st (.resent n time) = some st') :
    ∃ o ∈ st.current, o.n = n := by
  simp only [step] at accepted
  split at accepted
  next => cases accepted
  next o current =>
    split at accepted
    next allowed => exact ⟨o, current, allowed.1.symm⟩
    next => cases accepted

/-- What the machine accepts keeps the rules. -/
theorem protocol_of_run (accepted : run rules trace = some st) : Protocol rules trace := by
  have inv := inv_of_run accepted
  refine ⟨inv.often, inv.apart, ?_, ?_, ⟨inv.owned.1, fun n => ?_⟩, ?_⟩
  · rintro before k other time after rfl n msg time' sent needs
    obtain ⟨mid, mid', first, second⟩ := run_prefix accepted
    exact (inv_of_run first).settled (sent_accepted second).2 sent needs
  · intro n msg time f time' needs answers sub
    obtain ⟨front, back, rfl, pair, last⟩ := List.append_sublist_iff.mp
      (show List.Sublist ([.sent n msg time, .frame f] ++ [.resent n time']) trace from sub)
    obtain ⟨between, after, rfl⟩ := List.append_of_mem (List.singleton_sublist.mp last)
    rw [← List.append_assoc] at accepted
    obtain ⟨mid, mid', first, second⟩ := run_prefix accepted
    obtain ⟨o, current, same⟩ := resent_accepted second
    exact (inv_of_run first).closed n msg time f needs answers
      (pair.trans (List.sublist_append_left front between)) o current same
  · by_cases small : n < st.used
    · rw [inv.owned.2 n small]
      split <;> omega
    · rw [(inv.fresh n (by omega)).2]
      omega
  · rintro before k other time after rfl n msg time' sent
    obtain ⟨mid, mid', first, second⟩ := run_prefix accepted
    have inv' := inv_of_run first
    rw [inv'.owned.2 n (inv'.known n msg time' sent), (sent_accepted second).1, if_neg (by simp)]

end RequestLink
