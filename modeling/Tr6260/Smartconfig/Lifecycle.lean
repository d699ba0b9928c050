import Tr6260.Smartconfig.Session

/-!
# Sessions one after another

`start_smnt` allocates what a session needs and creates the task; the end of
the task and `stop_smnt` release it. Both set `sconfig_info` and `info_head` to
`NULL`, but not the pointers to the three parameter blocks, and `start_smnt`
allocates a block only where its pointer is `NULL`: the second session clears,
uses and releases blocks that are not its own any more. A task that cannot be
created leaves `run_smartconfig` set, and no later start gets past it.

A pointer is followed through its life here, the blocks behind it are not.
-/

namespace Tr6260

/-! ## The model -/

/-- A global pointer; a block that is there may have been cleared. -/
inductive HeapPtr
  | null
  | live (zeroed : Bool)
  | released
  deriving DecidableEq

/-- `if (p != NULL) ya_hal_os_memory_free (p)`; `none` when the block has been released before. -/
def HeapPtr.free : HeapPtr → Option HeapPtr
  | .null => some .null
  | .live _ => some .released
  | .released => none

/-- `if (!p) p = ya_hal_os_memory_alloc (..)`. -/
def HeapPtr.allocIfNull : HeapPtr → HeapPtr
  | .null => .live false
  | p => p

/-- `memset`; `none` when there is no block. -/
def HeapPtr.memset : HeapPtr → Option HeapPtr
  | .live _ => some (.live true)
  | _ => none

/-- The block is there. -/
def HeapPtr.IsLive : HeapPtr → Prop
  | .live _ => True
  | _ => False

instance : (p : HeapPtr) → Decidable p.IsLive
  | .live _ => isTrue trivial
  | .null => isFalse id
  | .released => isFalse id

/-- The thread of `smartconfig_task`. -/
inductive SmartThread
  | none
  | created
  | running
  deriving DecidableEq

/-- The globals of `ya_smartconfig.c`. -/
structure SmartGlobals where
  runSmartconfig : Bool
  thread : SmartThread
  sconfigInfo : HeapPtr
  infoHead : HeapPtr
  parseToDs : HeapPtr
  parseFromDs : HeapPtr
  parseMul : HeapPtr
  deriving DecidableEq

/-- Before the first session. -/
def SmartGlobals.initial : SmartGlobals := ⟨false, .none, .null, .null, .null, .null, .null⟩

/-- What happens to the globals. -/
inductive LifeEvent
  /-- `start_smnt`, with whether the thread can be created. -/
  | startSmnt (created : Bool)
  /-- The task clears the blocks. -/
  | begins
  /-- A frame or a turn of the loop. -/
  | works
  /-- The task is done, with a result or out of time. -/
  | ends
  | stopSmnt
  deriving DecidableEq

/-- What a step comes to. -/
inductive LifeResult
  /-- The event cannot happen now. -/
  | disabled
  /-- A block that is not there is used or released. -/
  | misuse
  | done (g : SmartGlobals)
  deriving DecidableEq

/-- Misuse, or the globals afterwards. -/
def LifeResult.ofOption : Option SmartGlobals → LifeResult
  | none => .misuse
  | some g => .done g

namespace SmartGlobals

/-- `start_smnt`: return code and globals. -/
def startSmnt (g : SmartGlobals) (created : Bool) : Int × SmartGlobals :=
  if g.runSmartconfig then
    (-1, g)
  else
    let g := { g with
      runSmartconfig := true
      parseToDs := g.parseToDs.allocIfNull
      parseFromDs := g.parseFromDs.allocIfNull
      parseMul := g.parseMul.allocIfNull
      -- `sconfig_init`
      infoHead := .live false
      sconfigInfo := .live false }
    if created then
      (0, { g with thread := .created })
    else
      (-1, g)

/-- `free_node_info` and the releases behind it, the same at the end of the task and in
`stop_smnt`. -/
def releaseAll (g : SmartGlobals) : Option SmartGlobals :=
  if g.infoHead.IsLive then do
    let _ ← g.sconfigInfo.free
    let parseToDs ← g.parseToDs.free
    let parseFromDs ← g.parseFromDs.free
    let parseMul ← g.parseMul.free
    return { g with
      runSmartconfig := false
      thread := .none
      sconfigInfo := .null
      infoHead := .null
      parseToDs, parseFromDs, parseMul }
  else
    none

/-- The three `memset` of the task. -/
def clearBlocks (g : SmartGlobals) : Option SmartGlobals := do
  let parseToDs ← g.parseToDs.memset
  let parseFromDs ← g.parseFromDs.memset
  let parseMul ← g.parseMul.memset
  return { g with thread := .running, parseToDs, parseFromDs, parseMul }

/-- All five blocks are there. -/
def AllLive (g : SmartGlobals) : Prop :=
  g.sconfigInfo.IsLive ∧ g.infoHead.IsLive ∧ g.parseToDs.IsLive ∧ g.parseFromDs.IsLive ∧
    g.parseMul.IsLive

instance (g : SmartGlobals) : Decidable g.AllLive := inferInstanceAs (Decidable (_ ∧ _ ∧ _ ∧ _ ∧ _))

/-- One event. -/
def step (g : SmartGlobals) : LifeEvent → LifeResult
  | .startSmnt created => .done (g.startSmnt created).2
  | .begins => if g.thread = .created then .ofOption g.clearBlocks else .disabled
  | .works =>
    if g.thread = .running then
      if g.AllLive then .done g else .misuse
    else
      .disabled
  | .ends => if g.thread = .running then .ofOption g.releaseAll else .disabled
  | .stopSmnt => if g.runSmartconfig then .ofOption g.releaseAll else .done g

end SmartGlobals

/-- The histories in which every event meets a condition. -/
inductive LifeRun (meets : SmartGlobals → LifeEvent → Prop) : SmartGlobals → Prop
  | start : LifeRun meets .initial
  | step {g g' : SmartGlobals} {event : LifeEvent} (run : LifeRun meets g) (met : meets g event)
      (moved : g.step event = .done g') : LifeRun meets g'

/-- No event that meets the condition misuses a block, the task starts with blocks that are there and
cleared, and after a start that fails the next one is accepted. -/
structure SmartGlobals.Restartable (meets : SmartGlobals → LifeEvent → Prop) (g : SmartGlobals) :
    Prop where
  noMisuse : ∀ event, meets g event → g.step event ≠ .misuse
  cleared : ∀ g', meets g .begins → g.step .begins = .done g' →
    g'.parseToDs = .live true ∧ g'.parseFromDs = .live true ∧ g'.parseMul = .live true
  accepted : ∀ created g', meets g (.startSmnt created) → g.runSmartconfig = false →
    g.startSmnt created = (-1, g') → (g'.startSmnt true).1 = 0

/-- No session has ended before a start, and its thread can be created. -/
def SmartGlobals.FirstSession (g : SmartGlobals) : LifeEvent → Prop
  | .startSmnt created => g.runSmartconfig = false → created = true ∧
    g.parseToDs ≠ .released ∧ g.parseFromDs ≠ .released ∧ g.parseMul ≠ .released
  | _ => True

/-! ## One session -/

/-- The globals between the sessions and in one. -/
inductive SmartGlobals.Orderly : SmartGlobals → Prop
  | initial : Orderly .initial
  | active {g : SmartGlobals} (run : g.runSmartconfig = true) (thread : g.thread ≠ .none)
      (live : g.AllLive) : Orderly g
  | ended : Orderly ⟨false, .none, .null, .null, .released, .released, .released⟩

section Lives

variable {g g' : SmartGlobals}

theorem HeapPtr.IsLive.eq {p : HeapPtr} (live : p.IsLive) : ∃ zeroed, p = .live zeroed := by
  cases p with
  | null => cases live
  | live zeroed => exact ⟨zeroed, rfl⟩
  | released => cases live

theorem SmartGlobals.AllLive.releaseAll (live : g.AllLive) :
    g.releaseAll = some ⟨false, .none, .null, .null, .released, .released, .released⟩ := by
  rcases live with ⟨info, head, toDs, fromDs, mul⟩
  rcases info.eq with ⟨_, info⟩
  rcases toDs.eq with ⟨_, toDs⟩
  rcases fromDs.eq with ⟨_, fromDs⟩
  rcases mul.eq with ⟨_, mul⟩
  rw [SmartGlobals.releaseAll, if_pos head, info, toDs, fromDs, mul]
  rfl

theorem SmartGlobals.AllLive.clearBlocks (live : g.AllLive) :
    g.clearBlocks = some { g with
      thread := .running
      parseToDs := .live true
      parseFromDs := .live true
      parseMul := .live true } := by
  rcases live with ⟨-, -, toDs, fromDs, mul⟩
  rcases toDs.eq with ⟨_, toDs⟩
  rcases fromDs.eq with ⟨_, fromDs⟩
  rcases mul.eq with ⟨_, mul⟩
  rw [SmartGlobals.clearBlocks, toDs, fromDs, mul]
  rfl

/-- What an event comes to: nothing is misused, and the globals stay orderly. -/
theorem SmartGlobals.Orderly.step (orderly : g.Orderly) {event : LifeEvent}
    (met : g.FirstSession event) :
    g.step event = .disabled ∨ ∃ g', g.step event = .done g' ∧ g'.Orderly := by
  cases orderly with
  | initial =>
    cases event with
    | startSmnt created =>
      rcases met rfl with ⟨rfl, -⟩
      exact .inr ⟨_, rfl, .active rfl nofun (by decide)⟩
    | begins | works | ends => exact .inl rfl
    | stopSmnt => exact .inr ⟨_, rfl, .initial⟩
  | active run thread live =>
    cases event with
    | startSmnt created =>
      refine .inr ⟨g, ?_, .active run thread live⟩
      rw [SmartGlobals.step, SmartGlobals.startSmnt, if_pos run]
    | begins =>
      rw [SmartGlobals.step, live.clearBlocks]
      split
      · exact .inr ⟨_, rfl, .active run nofun ⟨live.1, live.2.1, trivial, trivial, trivial⟩⟩
      · exact .inl rfl
    | works =>
      rw [SmartGlobals.step, if_pos live]
      split
      · exact .inr ⟨g, rfl, .active run thread live⟩
      · exact .inl rfl
    | ends =>
      rw [SmartGlobals.step, live.releaseAll]
      split
      · exact .inr ⟨_, rfl, .ended⟩
      · exact .inl rfl
    | stopSmnt =>
      rw [SmartGlobals.step, if_pos run, live.releaseAll]
      exact .inr ⟨_, rfl, .ended⟩
  | ended =>
    cases event with
    | startSmnt created => exact absurd rfl (met rfl).2.1
    | begins | works | ends => exact .inl rfl
    | stopSmnt => exact .inr ⟨_, rfl, .ended⟩

theorem LifeRun.orderly (run : LifeRun SmartGlobals.FirstSession g) : g.Orderly := by
  induction run with
  | start => exact .initial
  | step run met moved orderly =>
    rcases orderly.step met with disabled | ⟨g', done, after⟩
    · rw [disabled] at moved
      cases moved
    · rw [done] at moved
      cases moved
      exact after

/-- While there is one session only, nothing is misused and the blocks start out cleared. -/
theorem smartSessions_restartable (run : LifeRun SmartGlobals.FirstSession g) :
    g.Restartable SmartGlobals.FirstSession := by
  have orderly := run.orderly
  refine ⟨fun event met misuse => ?_, fun g' _ moved => ?_, fun created g' met idle failed => ?_⟩
  · rcases orderly.step met with disabled | ⟨g', done, -⟩
    · rw [disabled] at misuse
      cases misuse
    · rw [done] at misuse
      cases misuse
  · cases orderly with
    | initial => cases moved
    | active run thread live =>
      rw [SmartGlobals.step, live.clearBlocks] at moved
      split at moved <;> cases moved
      exact ⟨rfl, rfl, rfl⟩
    | ended => cases moved
  · rcases met idle with ⟨rfl, -⟩
    rw [SmartGlobals.startSmnt, idle] at failed
    cases failed

end Lives

theorem smartSessions_restartable_started : ∃ g, LifeRun SmartGlobals.FirstSession g ∧
    g.thread = .running ∧ g.Restartable SmartGlobals.FirstSession := by
  have first : SmartGlobals.FirstSession .initial (.startSmnt true) :=
    fun _ => ⟨rfl, nofun, nofun, nofun⟩
  have begun : SmartGlobals.FirstSession (SmartGlobals.startSmnt .initial true).2 .begins := trivial
  have run := LifeRun.step (LifeRun.step .start first rfl) begun rfl
  exact ⟨_, run, rfl, smartSessions_restartable run⟩

/-- The globals after a second start: the blocks are those the first session has released. -/
def SmartGlobals.second : SmartGlobals :=
  ⟨true, .created, .live false, .live false, .released, .released, .released⟩

/-- The second session clears blocks that the first has released. -/
theorem smartSessions_second :
    ¬ ∀ g, LifeRun (fun _ _ => True) g → g.Restartable fun _ _ => True := by
  intro restartable
  have started : LifeRun (fun _ _ => True) _ :=
    .step .start trivial (rfl : SmartGlobals.step .initial (.startSmnt true) = .done _)
  have running : LifeRun (fun _ _ => True) _ :=
    .step started trivial (rfl : SmartGlobals.step _ .begins = .done _)
  have ended : LifeRun (fun _ _ => True) _ :=
    .step running trivial (rfl : SmartGlobals.step _ .ends = .done _)
  have again : LifeRun (fun _ _ => True) SmartGlobals.second :=
    .step ended trivial (rfl : SmartGlobals.step _ (.startSmnt true) = .done _)
  exact (restartable _ again).noMisuse .begins trivial rfl

end Tr6260
