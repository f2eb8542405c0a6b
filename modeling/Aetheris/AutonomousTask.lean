import Aetheris.AutonomousEntries
import Aetheris.Lib.SoleRun

namespace Aetheris.AutonomousTask

open Lib Coroutine Clock OrderIdentity PaperRecords PaperEngine PaperService PaperTradingService PaperWorld Autonomous
  AutonomousEntries

inductive AutonomousLoopState
  | disabledByConfig | disarmed | armed | failed
  deriving DecidableEq, Repr

structure Settings where
  autonomousTradingEnabled : Bool
  paperEnabled : Bool

/-- Where the background task waits, or that it has ended. -/
inductive Stand
  | created | iterating | sleeping | ended
  deriving DecidableEq, Repr

/-- The fields of the loop that arming and the background task share. -/
structure Supervisor where
  armed : Bool := false
  failureDetail : Option String := none
  stop : Bool := false
  task : Option Stand := none
  /-- How many iterations the task has begun. -/
  begun : Nat := 0
  deriving DecidableEq, Repr

namespace Supervisor

variable (settings : Settings) (s : Supervisor)

def state : AutonomousLoopState :=
  if s.failureDetail.isSome then .failed
  else if !settings.autonomousTradingEnabled then .disabledByConfig
  else if s.armed then .armed
  else .disarmed

/-- Arming clears a previous failure, because re-arming is a human saying they have looked at it. -/
def arm (enabled : Bool) : Except String Supervisor :=
  if enabled then
    if !settings.autonomousTradingEnabled then
      .error ("Autonomous trading is not permitted by this deployment's " ++
        "configuration. Set AETHERIS_AUTONOMOUS_TRADING_ENABLED=true and " ++
        "restart; the flag gates arming and never arms on its own.")
    else if !settings.paperEnabled then .error "Paper trading is disabled, so there is nothing to automate."
    else .ok { s with failureDetail := none, armed := true }
  else .ok { s with armed := false }

/-- Create the background task. Does not arm it. -/
def start : Supervisor :=
  if s.task.isSome || !settings.autonomousTradingEnabled then s
  else { s with stop := false, task := some .created }

/-- The top of the task's loop. -/
def turn : Supervisor :=
  if s.stop then { s with task := some .ended }
  else if s.armed then { s with task := some .iterating, begun := s.begun + 1 }
  else { s with task := some .sleeping }

/-- An iteration that returns is slept after; one that raises disarms the loop and ends the task. -/
def settle (failure : Option String) : Supervisor :=
  match failure with
  | none => { s with task := some .sleeping }
  | some detail => { s with failureDetail := some detail, armed := false, task := some .ended }

end Supervisor

inductive Event
  | start
  | arm (enabled : Bool)
  /-- The task runs for the first time, or has slept. -/
  | wakes
  /-- The iteration in progress returns, or raises. -/
  | iterated (failure : Option String)

namespace Supervisor

variable (settings : Settings) (s : Supervisor)

def step : Event → Supervisor
  | .start => s.start settings
  | .arm enabled =>
      match s.arm settings enabled with
      | .ok s' => s'
      | .error _ => s
  | .wakes => if s.task = some .created ∨ s.task = some .sleeping then s.turn else s
  | .iterated failure => if s.task = some .iterating then s.settle failure else s

def run (events : List Event) : Supervisor := events.foldl (step settings) {}

/-- What the task does next if it is left alone and its iteration returns. -/
def proceed : Supervisor := if s.task = some .iterating then s.step settings (.iterated none) else s.step settings .wakes

/-- The task is alive, and goes on to begin another iteration. -/
def Running : Prop :=
  (∃ stand, s.task = some stand ∧ stand ≠ .ended) ∧ ∃ n, s.begun < ((proceed settings)^[n] s).begun

/-- The task ends as the loop fails, and only a loop that may be armed has run. -/
structure Sound : Prop where
  unstopped : s.stop = false
  failed : s.failureDetail.isSome = true → s.task = some .ended
  permitted : s.armed = true ∨ s.task = some .iterating ∨ s.task = some .ended →
    settings.autonomousTradingEnabled = true ∧ settings.paperEnabled = true

end Supervisor

section Steps

variable {settings : Settings} {s s' : Supervisor} {enabled : Bool} {failure : Option String}

theorem run_append (events : List Event) (event : Event) :
    Supervisor.run settings (events ++ [event]) = (Supervisor.run settings events).step settings event := by
  rw [Supervisor.run, List.foldl_append]
  rfl

theorem arm_cases (h : s.arm settings enabled = .ok s') :
    (enabled = true ∧ settings.autonomousTradingEnabled = true ∧ settings.paperEnabled = true ∧
      s' = { s with failureDetail := none, armed := true }) ∨
    (enabled = false ∧ s' = { s with armed := false }) := by
  cases enabled with
  | false => exact .inr ⟨rfl, (Except.ok.inj h).symm⟩
  | true =>
      rw [Supervisor.arm, if_pos rfl] at h
      split at h
      · cases h
      · split at h
        · cases h
        · exact .inl ⟨rfl, by simp_all, by simp_all, (Except.ok.inj h).symm⟩

theorem state_eq_failed : s.state settings = .failed ↔ s.failureDetail.isSome = true := by
  unfold Supervisor.state
  constructor
  · intro h
    split at h
    · assumption
    · split at h
      · cases h
      · split at h <;> cases h
  · exact fun h => if_pos h

theorem state_eq_armed :
    s.state settings = .armed ↔
      s.failureDetail = none ∧ settings.autonomousTradingEnabled = true ∧ s.armed = true := by
  unfold Supervisor.state
  cases s.failureDetail <;> cases settings.autonomousTradingEnabled <;> cases s.armed <;> simp

theorem sound_start (hs : s.Sound settings) : (s.start settings).Sound settings := by
  unfold Supervisor.start
  split
  · exact hs
  · rename_i hfresh
    have hnone : s.task = none := by
      cases htask : s.task with
      | none => rfl
      | some stand => exact absurd (by simp [htask]) hfresh
    refine ⟨rfl, fun hfailed => ?_, fun hworked => hs.permitted (.inl ?_)⟩
    · rw [hs.failed hfailed] at hnone
      cases hnone
    · simpa using hworked

theorem sound_arm (hs : s.Sound settings) (h : s.arm settings enabled = .ok s') : s'.Sound settings := by
  rcases arm_cases h with ⟨_, hpermitted, hpaper, rfl⟩ | ⟨_, rfl⟩
  · exact ⟨hs.unstopped, nofun, fun _ => ⟨hpermitted, hpaper⟩⟩
  · exact ⟨hs.unstopped, hs.failed, fun hworked => hs.permitted (.inr (hworked.resolve_left Bool.false_ne_true))⟩

theorem turn_eq (hs : s.Sound settings) :
    s.turn = if s.armed then { s with task := some .iterating, begun := s.begun + 1 }
      else { s with task := some .sleeping } := by
  rw [Supervisor.turn, hs.unstopped]
  rfl

theorem sound_turn (hs : s.Sound settings) (htask : s.task ≠ some .ended) : s.turn.Sound settings := by
  have hunfailed : ¬ s.failureDetail.isSome = true := fun hfailed => htask (hs.failed hfailed)
  rw [turn_eq hs]
  split
  · rename_i harmed
    exact ⟨hs.unstopped, fun hfailed => absurd hfailed hunfailed, fun _ => hs.permitted (.inl harmed)⟩
  · exact ⟨hs.unstopped, fun hfailed => absurd hfailed hunfailed,
      fun hworked => hs.permitted (.inl (by simpa using hworked))⟩

theorem sound_settle (hs : s.Sound settings) (htask : s.task = some .iterating) : (s.settle failure).Sound settings := by
  have hpermitted := hs.permitted (.inr (.inl htask))
  cases failure with
  | none =>
      refine ⟨hs.unstopped, fun hfailed => ?_, fun _ => hpermitted⟩
      rw [hs.failed hfailed] at htask
      cases htask
  | some detail => exact ⟨hs.unstopped, fun _ => rfl, fun _ => hpermitted⟩

theorem sound_step (hs : s.Sound settings) (event : Event) : (s.step settings event).Sound settings := by
  cases event with
  | start => exact sound_start hs
  | arm enabled =>
      rw [Supervisor.step]
      split
      · rename_i s' h
        exact sound_arm hs h
      · exact hs
  | wakes =>
      rw [Supervisor.step]
      split
      · rename_i htask
        refine sound_turn hs fun hended => ?_
        rcases htask with htask | htask <;> cases htask.symm.trans hended
      · exact hs
  | iterated failure =>
      rw [Supervisor.step]
      split
      · rename_i htask
        exact sound_settle hs htask
      · exact hs

theorem sound_run (settings : Settings) (events : List Event) : (Supervisor.run settings events).Sound settings := by
  induction events using List.reverseRecOn with
  | nil => exact ⟨rfl, nofun, fun hworked => by simp [Supervisor.run] at hworked⟩
  | append_singleton events event ih =>
      rw [run_append]
      exact sound_step ih event

/-- An armed task that waits begins an iteration as it wakes; one that iterates begins the next after it has slept. -/
theorem running_of_alive (hs : s.Sound settings) (harmed : s.armed = true) {stand : Stand} (htask : s.task = some stand)
    (halive : stand ≠ .ended) : s.Running settings := by
  refine ⟨⟨stand, htask, halive⟩, ?_⟩
  have hwakes {t : Supervisor} (ht : t.Sound settings) (harmed : t.armed = true)
      (hwaits : t.task = some .created ∨ t.task = some .sleeping) : (t.proceed settings).begun = t.begun + 1 := by
    have hidle : t.task ≠ some .iterating := by
      rcases hwaits with h | h <;> simp [h]
    rw [Supervisor.proceed, if_neg hidle, Supervisor.step, if_pos hwaits, turn_eq ht, if_pos harmed]
  cases stand with
  | created => exact ⟨1, (hwakes hs harmed (.inl htask)).symm ▸ Nat.lt_succ_self _⟩
  | sleeping => exact ⟨1, (hwakes hs harmed (.inr htask)).symm ▸ Nat.lt_succ_self _⟩
  | iterating =>
      have hslept : s.proceed settings = { s with task := some .sleeping } := by
        rw [Supervisor.proceed, if_pos htask, Supervisor.step, if_pos htask]
        rfl
      have hsound : (s.proceed settings).Sound settings := by
        rw [Supervisor.proceed, if_pos htask]
        exact sound_step hs _
      rw [hslept] at hsound
      refine ⟨2, ?_⟩
      change s.begun < ((s.proceed settings).proceed settings).begun
      rw [hslept, hwakes hsound harmed (.inr rfl)]
      exact Nat.lt_succ_self _
  | ended => exact absurd rfl halive

theorem task_start :
    (s.start settings).task.isSome = true ↔ s.task.isSome = true ∨ settings.autonomousTradingEnabled = true := by
  rw [Supervisor.start]
  split
  · rename_i hidle
    exact ⟨.inl, fun h => h.elim id fun hpermitted => by simpa [hpermitted] using hidle⟩
  · rename_i hfresh
    have hpermitted : settings.autonomousTradingEnabled = true := by
      cases hp : settings.autonomousTradingEnabled with
      | true => rfl
      | false => exact absurd (by simp [hp]) hfresh
    exact ⟨fun _ => .inr hpermitted, fun _ => rfl⟩

theorem task_arm (h : s.arm settings enabled = .ok s') : s'.task = s.task := by
  rcases arm_cases h with ⟨_, _, _, rfl⟩ | ⟨_, rfl⟩ <;> rfl

/-- Once it is created the task is never given up, and no other event than a start creates it. -/
theorem task_step (event : Event) :
    (s.step settings event).task.isSome = true ↔
      s.task.isSome = true ∨ (event = .start ∧ settings.autonomousTradingEnabled = true) := by
  cases event with
  | start =>
      rw [Supervisor.step, task_start]
      simp
  | arm enabled =>
      rw [Supervisor.step]
      split
      · rename_i s' h
        rw [task_arm h]
        simp
      · simp
  | wakes =>
      rw [Supervisor.step]
      split
      · rename_i hwaits
        have hcreated : s.task.isSome = true := by rcases hwaits with h | h <;> simp [h]
        have hturn : s.turn.task.isSome = true := by
          unfold Supervisor.turn
          split
          · rfl
          · split <;> rfl
        simp [hcreated, hturn]
      · simp
  | iterated failure =>
      rw [Supervisor.step]
      split
      · rename_i htask
        have hsettled : (s.settle failure).task.isSome = true := by cases failure <;> rfl
        simp [htask, hsettled]
      · simp

theorem task_run (settings : Settings) (events : List Event) :
    (Supervisor.run settings events).task.isSome = true ↔
      .start ∈ events ∧ settings.autonomousTradingEnabled = true := by
  induction events using List.reverseRecOn with
  | nil => simp [Supervisor.run]
  | append_singleton events event ih =>
      rw [run_append, task_step, ih, List.mem_append, List.mem_singleton]
      tauto

/-- The task ends only as the loop fails, and it is a re-arming that hides the failure. -/
theorem failed_step {event : Event} (hs : s.Sound settings)
    (hended : s.task = some .ended → s.failureDetail.isSome = true)
    (hrearmed : event = .arm true → s.state settings ≠ .failed)
    (h : (s.step settings event).task = some .ended) : (s.step settings event).failureDetail.isSome = true := by
  cases event with
  | start =>
      rw [Supervisor.step, Supervisor.start] at h ⊢
      split at h
      · rename_i hidle
        rw [if_pos hidle]
        exact hended h
      · cases h
  | arm enabled =>
      rw [Supervisor.step] at h ⊢
      split at h
      · rename_i s' harm
        have hfailed : s.failureDetail.isSome = true := hended ((task_arm harm).symm.trans h)
        rcases arm_cases harm with ⟨rfl, _, _, _⟩ | ⟨_, rfl⟩
        · exact absurd (state_eq_failed.mpr hfailed) (hrearmed rfl)
        · exact hfailed
      · exact hended h
  | wakes =>
      rw [Supervisor.step] at h ⊢
      split at h
      · rw [turn_eq hs] at h
        split at h <;> cases h
      · rename_i hwaits
        rw [if_neg hwaits]
        exact hended h
  | iterated failure =>
      rw [Supervisor.step] at h ⊢
      split at h
      · rename_i htask
        rw [if_pos htask]
        cases failure with
        | none => cases h
        | some detail => rfl
      · rename_i htask
        rw [if_neg htask]
        exact hended h

end Steps

section Armed

variable (settings : Settings) (events : List Event)

/-- Wherever the run comes after a start, a loop that is reported as armed is running. -/
def ArmedRuns : Prop :=
  ∀ earlier, earlier <+: events → .start ∈ earlier →
    (Supervisor.run settings earlier).state settings = .armed → (Supervisor.run settings earlier).Running settings

/-- Nobody arms the loop while it is reported as failed. -/
def NeverRearmed : Prop :=
  ∀ earlier, earlier ++ [.arm true] <+: events → (Supervisor.run settings earlier).state settings ≠ .failed

variable {settings events}

theorem failed_of_ended (h : NeverRearmed settings events) {earlier : List Event} (hearlier : earlier <+: events)
    (hended : (Supervisor.run settings earlier).task = some .ended) :
    (Supervisor.run settings earlier).failureDetail.isSome = true := by
  induction earlier using List.reverseRecOn with
  | nil => cases hended
  | append_singleton earlier event ih =>
      rw [run_append] at hended ⊢
      refine failed_step (sound_run settings earlier) (ih ((List.prefix_append _ _).trans hearlier)) ?_ hended
      rintro rfl
      exact h earlier hearlier

/-- Armed means running exactly in the runs in which a loop that has failed is not
armed again: re-arming reports the loop as armed, and no task takes it up. -/
theorem armed_runs_iff (settings : Settings) (events : List Event) :
    ArmedRuns settings events ↔ NeverRearmed settings events := by
  constructor
  · intro h earlier hearlier hfailed
    have hsound := sound_run settings earlier
    have hended : (Supervisor.run settings earlier).task = some .ended := hsound.failed (state_eq_failed.mp hfailed)
    obtain ⟨hpermitted, hpaper⟩ := hsound.permitted (.inr (.inr hended))
    have hstarted : Event.start ∈ earlier := ((task_run settings earlier).mp (by rw [hended]; rfl)).1
    have hrearmed : Supervisor.run settings (earlier ++ [.arm true]) =
        { Supervisor.run settings earlier with failureDetail := none, armed := true } := by
      rw [run_append, Supervisor.step, Supervisor.arm]
      simp [hpermitted, hpaper]
    have hrunning := h _ hearlier (List.mem_append_left _ hstarted)
      (by rw [hrearmed]; exact state_eq_armed.mpr ⟨rfl, hpermitted, rfl⟩)
    obtain ⟨⟨stand, htask, halive⟩, _⟩ := hrunning
    rw [hrearmed] at htask
    exact halive (Option.some.inj (htask.symm.trans hended))
  · intro h earlier hearlier hstarted harmed
    obtain ⟨hunfailed, hpermitted, harmed⟩ := state_eq_armed.mp harmed
    obtain ⟨stand, htask⟩ := Option.isSome_iff_exists.mp ((task_run settings earlier).mpr ⟨hstarted, hpermitted⟩)
    refine running_of_alive (sound_run settings earlier) harmed htask ?_
    rintro rfl
    have hfailed := failed_of_ended h hearlier htask
    rw [hunfailed] at hfailed
    cases hfailed

/-- The loop is started and armed, an iteration raises, and a human who has looked
at it arms the loop again: it is reported as armed and its task has ended. -/
theorem rearmed_loop_is_dead : ¬ ∀ (settings : Settings) (events : List Event), ArmedRuns settings events := by
  intro h
  have hrunning := h ⟨true, true⟩
    [.start, .arm true, .wakes, .iterated (some "RuntimeError: iteration exploded"), .arm true] _ (List.prefix_refl _)
    (by simp) (by decide)
  obtain ⟨⟨stand, htask, halive⟩, _⟩ := hrunning
  exact halive (Option.some.inj htask).symm

end Armed

section Processes

variable [Runtime] (config : PaperEngineConfig) (settings : Settings) (loop : AutonomousLoop)

/-- While the loop waits, others may call the paper service; its own fields are its own. -/
def Elsewhere (d d' : Floor) : Prop :=
  Relation.ReflTransGen (fun w w' => ∃ (β : Type) (f : PaperService.Effect β) (r : Except ServiceError β),
    PaperWorld.exec config f w r w') d.base d'.base ∧ d'.fields = d.fields

def sharedExec : Semantics Autonomous.Effect ServiceError Floor :=
  fun f d r d' => ∃ d₁, Elsewhere config d d₁ ∧ exec config f d₁ r d'

/-- The loop with its task, over the process. -/
structure Process where
  supervisor : Supervisor := {}
  floor : Floor

/-- The process as an iteration began, and where the iteration stood as it went on. -/
structure Iteration where
  began : Floor
  stands : List (LoopM (List AutonomousDecision))

/-- What the iteration ended in, as the task records it. -/
def failureOf (r : Except ServiceError (List AutonomousDecision)) : Option String :=
  match r with
  | .ok _ => none
  | .error e => some (loop.describe e)

/-- What happens next: an iteration as a whole, with whatever else goes on meanwhile,
or something apart from the iterations. Nothing cancels the task. -/
inductive Happens : Process → Option Iteration → Process → Prop
  | supervised {p event} (hevent : ∀ failure, event ≠ .iterated failure) :
      Happens p none { p with supervisor := p.supervisor.step settings event }
  | elsewhere {p floor} (hidle : p.supervisor.task ≠ some .iterating) (h : Elsewhere config p.floor floor) :
      Happens p none { p with floor := floor }
  | iterates {p stands r floor} (htask : p.supervisor.task = some .iterating) (halive : r ≠ .error .cancelled)
      (h : (loop.runOnce).Passes (sharedExec config) p.floor stands r floor) :
      Happens p (some ⟨p.floor, stands⟩)
        { supervisor := p.supervisor.step settings (.iterated (failureOf loop r)), floor := floor }

/-- A run of the process, with its iterations. -/
inductive History : Process → List Iteration → Process → Prop
  | refl {p} : History p [] p
  | apart {p p₁ p' iterations} : Happens config settings loop p none p₁ → History p₁ iterations p' →
      History p iterations p'
  | iteration {p it p₁ p' iterations} : Happens config settings loop p (some it) p₁ → History p₁ iterations p' →
      History p (it :: iterations) p'

end Processes

namespace Iteration

variable [Runtime] (loop : AutonomousLoop) (it : Iteration)

/-- The paper account has open positions as the iteration begins. -/
def Holds : Prop := it.began.state.positions.keys ≠ []

/-- The iteration calls `PaperTradingService.tick`. -/
def Manages : Prop := Calls (asked .autonomous loop.paper.tick) it.stands

/-- Configured symbols that have not been dropped, as many as are watched. -/
def watched : List String :=
  (loop.symbols.filter fun symbol => symbol ∉ it.began.fields.excluded.keys).take loop.maxSymbols

end Iteration

section Management

open AutonomousLoop

variable [Runtime] {config : PaperEngineConfig} {settings : Settings} {loop : AutonomousLoop}

/-- Every writing call of the service takes the write lock first. -/
def Unlocking : {β : Type} → Autonomous.Effect β → Prop
  | _, .paper _ .acquire => False
  | _, _ => True

/-- The coroutine is about to take the write lock. -/
def Locking {α : Type} : LoopM α → Prop
  | .await f _ => ¬ Unlocking f
  | _ => False

omit [Runtime] in
theorem not_locking {α : Type} {c : LoopM α} (h : c.Performs Unlocking) : ¬ Locking c := by
  cases c with
  | ret | raise => exact not_false
  | await f k => exact fun hlocking => hlocking h.1

variable (loop) in
theorem locking_tick {α : Type} (k : PaperAccount × List PaperTrade → LoopM α) :
    Locking (asked .autonomous loop.paper.tick >>= k) := fun h => h

omit [Runtime] in
theorem performs_finishIteration (started : Timestamp) (failures evaluated : Nat) :
    (finishIteration started failures evaluated).Performs Unlocking := by
  refine performs_bind ⟨trivial, fun r => ?_⟩ fun now => performs_perform trivial
  cases r <;> trivial

omit [Runtime] in
/-- With nothing to watch, an iteration only says so and counts itself. -/
theorem performs_unwatched (finding : Finding) (started : Timestamp) :
    (do
      let decision ← loop.record finding
      finishIteration started 0 0
      return [decision] : LoopM (List AutonomousDecision)).Performs Unlocking := by
  refine performs_bind (performs_perform trivial) fun decision => ?_
  exact performs_bind (performs_finishIteration started 0 0) fun _ => trivial

/-- The universe is read before the iteration waits for anything, and decides whether it ticks. -/
theorem manages_iff {d d' : Floor} {stands : List (LoopM (List AutonomousDecision))}
    {r : Except ServiceError (List AutonomousDecision)} (h : (loop.runOnce).Passes (sharedExec config) d stands r d') :
    (Iteration.mk d stands).Manages loop ↔ (Iteration.mk d stands).watched loop ≠ [] := by
  obtain ⟨_, d₁, later, rfl, ⟨e₁, ⟨_, hfields₁⟩, ⟨now, _, rfl, _⟩, hfields₂, _⟩, h⟩ := h
  obtain ⟨_, d₂, later, rfl, ⟨e₂, ⟨_, hfields₃⟩, rfl, rfl⟩, h⟩ := h
  have hfields : e₂.fields = d.fields := hfields₃.trans (hfields₂.trans hfields₁)
  have hwatched {stands : List (LoopM (List AutonomousDecision))} : (Iteration.mk d stands).watched loop =
      (loop.symbols.filter fun symbol => symbol ∉ e₂.fields.excluded.keys).take loop.maxSymbols := by
    rw [hfields]
    rfl
  rw [hwatched]
  dsimp only [Coroutine.bind] at h
  cases hsymbols : (loop.symbols.filter fun symbol => symbol ∉ e₂.fields.excluded.keys).take loop.maxSymbols with
  | nil =>
      rw [hsymbols] at h
      refine iff_of_false ?_ fun hne => hne rfl
      rintro ⟨k, hk⟩
      have hlocking := locking_tick loop k
      rcases List.mem_cons.mp hk with heq | hk
      · rw [heq] at hlocking
        exact hlocking trivial
      rcases List.mem_cons.mp hk with heq | hk
      · rw [heq] at hlocking
        exact hlocking trivial
      · exact not_locking (performs_of_passes (performs_unwatched _ _) h _ hk) hlocking
  | cons symbol rest =>
      rw [hsymbols] at h
      refine iff_of_true ?_ nofun
      exact ⟨_, List.mem_cons_of_mem _ (List.mem_cons_of_mem _ (mem_of_passes h))⟩

theorem history_manages_iff {p p' : Process} {iterations : List Iteration}
    (h : History config settings loop p iterations p') {it : Iteration} (hit : it ∈ iterations) :
    it.Manages loop ↔ it.watched loop ≠ [] := by
  induction h with
  | refl => cases hit
  | apart _ _ ih => exact ih hit
  | iteration hnext _ ih =>
      rcases List.mem_cons.mp hit with rfl | hit
      · cases hnext with
        | iterates _ _ h => exact manages_iff h
      · exact ih hit

/-- In a run of the process, the iterations of the armed loop manage what the account
holds exactly if each of them still has a symbol to watch for entries. -/
theorem holdings_managed_iff (config : PaperEngineConfig) (settings : Settings) (loop : AutonomousLoop) (w : World)
    (iterations : List Iteration) (p : Process)
    (h : History config settings loop { floor := { base := w } } iterations p) :
    (∀ it ∈ iterations, it.Holds → it.Manages loop) ↔ ∀ it ∈ iterations, it.Holds → it.watched loop ≠ [] :=
  forall₂_congr fun _ hit => imp_congr_right fun _ => history_manages_iff h hit

end Management

section Examples

/-- A venue that serves no candles. -/
def blind [Runtime] (config : PaperEngineConfig) (venue : Venue) :
    {β : Type} → Autonomous.Effect β → Floor → Except ServiceError β × Floor
  | _, .candles _ _, d => (.ok (.error "upstream unavailable"), d)
  | _, f, d => answers config venue rising f d

theorem exec_blind [Runtime] {config : PaperEngineConfig} (venue : Venue) {β : Type} (f : Autonomous.Effect β)
    (d : Floor) : exec config f d (blind config venue f d).1 (blind config venue f d).2 := by
  cases f with
  | candles => rfl
  | paper | fields => exact exec_answers venue rising _ d

/-- The first failure of a symbol drops it for the session. -/
def strictLoop : AutonomousLoop := { exampleLoop with maxConsecutiveFailures := 1 }

/-- An account that holds a position, and a process that has just started with it. -/
def holding : Floor := { base := entry.base }

def blindly (now : Timestamp) (d : Floor) : Except ServiceError (List AutonomousDecision) × Floor :=
  (@AutonomousLoop.runOnce strictLoop referenceRuntime).interp (@blind referenceRuntime shortLog (quoted now 99)) d

/-- No candles are served, and the only symbol is dropped. -/
def dropped : Floor := (blindly 200000000 holding).2

/-- The sleeping task wakes, and its iteration returns. -/
theorem history_blindly (s : Supervisor) (hs : s.task = some .created ∨ s.task = some .sleeping) (hrunning : s.stop = false)
    (harmed : s.armed = true) {now : Timestamp} {d : Floor} (hreturned : (blindly now d).1.toOption.isSome = true) :
    ∃ stands s', (s'.task = some .sleeping ∧ s'.stop = false ∧ s'.armed = true) ∧
      ∀ iterations p', @History referenceRuntime shortLog ⟨true, true⟩ strictLoop ⟨s', (blindly now d).2⟩ iterations p' →
        @History referenceRuntime shortLog ⟨true, true⟩ strictLoop ⟨s, d⟩ (⟨d, stands⟩ :: iterations) p' := by
  have hshared {β : Type} (f : Autonomous.Effect β) (d : Floor) :
      @sharedExec referenceRuntime shortLog _ f d (@blind referenceRuntime shortLog (quoted now 99) _ f d).1
        (@blind referenceRuntime shortLog (quoted now 99) _ f d).2 :=
    ⟨d, ⟨.refl, rfl⟩, @exec_blind referenceRuntime _ _ _ f d⟩
  obtain ⟨stands, hpasses⟩ := exists_passes (runs_interp hshared (@AutonomousLoop.runOnce strictLoop referenceRuntime) d)
  obtain ⟨decisions, hdecisions⟩ : ∃ decisions, (blindly now d).1 = .ok decisions := by
    cases h : (blindly now d).1 with
    | ok decisions => exact ⟨decisions, rfl⟩
    | error e => rw [h] at hreturned; cases hreturned
  have hwoken : s.step ⟨true, true⟩ .wakes = { s with task := some .iterating, begun := s.begun + 1 } := by
    rw [Supervisor.step, if_pos hs, Supervisor.turn, hrunning, if_neg Bool.false_ne_true, if_pos harmed]
  refine ⟨stands, { s with task := some .sleeping, begun := s.begun + 1 }, ⟨rfl, hrunning, harmed⟩, fun _ _ hrest => ?_⟩
  have hwakes := @Happens.supervised referenceRuntime shortLog ⟨true, true⟩ strictLoop ⟨s, d⟩ .wakes (by rintro _ ⟨⟩)
  rw [hwoken] at hwakes
  have halive : (blindly now d).1 ≠ .error .cancelled := by
    rw [hdecisions]
    rintro ⟨⟩
  have hiterates := @Happens.iterates referenceRuntime shortLog ⟨true, true⟩ strictLoop
    ⟨{ s with task := some .iterating, begun := s.begun + 1 }, d⟩ _ _ _ rfl halive hpasses
  rw [hdecisions] at hiterates
  exact @History.apart referenceRuntime _ _ _ _ _ _ _ hwakes
    (@History.iteration referenceRuntime _ _ _ _ _ _ _ _ hiterates hrest)

theorem startup_history {iterations : List Iteration} {p : Process}
    (h : @History referenceRuntime shortLog ⟨true, true⟩ strictLoop
      ⟨Supervisor.run ⟨true, true⟩ [.start, .arm true], holding⟩ iterations p) :
    @History referenceRuntime shortLog ⟨true, true⟩ strictLoop { floor := holding } iterations p := by
  have hstart := @Happens.supervised referenceRuntime shortLog ⟨true, true⟩ strictLoop { floor := holding } .start
    (by rintro _ ⟨⟩)
  have harm := @Happens.supervised referenceRuntime shortLog ⟨true, true⟩ strictLoop
    ⟨Supervisor.run ⟨true, true⟩ [.start], holding⟩ (.arm true) (by rintro _ ⟨⟩)
  exact @History.apart referenceRuntime _ _ _ _ _ _ _ hstart (@History.apart referenceRuntime _ _ _ _ _ _ _ harm h)

theorem holdings_managed_example : ∃ first, holding.state.positions.keys = ["BTCUSDT"] ∧
    @Iteration.Manages referenceRuntime strictLoop ⟨holding, first⟩ := by
  obtain ⟨first, s, _, hfirst⟩ := history_blindly (Supervisor.run ⟨true, true⟩ [.start, .arm true]) (.inl rfl) rfl rfl
    (by decide +kernel : (blindly 200000000 holding).1.toOption.isSome = true)
  have hrun := startup_history (hfirst _ _ (@History.refl referenceRuntime _ _ _ _))
  have hholds : holding.state.positions.keys = ["BTCUSDT"] := by decide +kernel
  refine ⟨first, hholds, (@holdings_managed_iff referenceRuntime _ _ _ _ _ _ hrun).mpr ?_ _ (List.mem_singleton_self _) ?_⟩
  · intro it hit _
    obtain rfl := List.mem_singleton.mp hit
    change strictLoop.symbols.take 5 ≠ []
    decide
  · rw [Iteration.Holds, hholds]
    exact List.cons_ne_nil _ _

/-- The account holds a position as the only symbol of the armed loop is dropped: the
next iteration watches nothing, and ticks nothing. -/
theorem dropped_symbols_leave_stops_unwatched :
    ¬ ∀ (config : PaperEngineConfig) (settings : Settings) (loop : AutonomousLoop) (w : World)
      (iterations : List Iteration) (p : Process),
      @History referenceRuntime config settings loop { floor := { base := w } } iterations p →
        ∀ it ∈ iterations, it.Holds → @Iteration.Manages referenceRuntime loop it := by
  intro h
  obtain ⟨first, s, ⟨hslept, hrunning, harmed⟩, hfirst⟩ := history_blindly
    (Supervisor.run ⟨true, true⟩ [.start, .arm true]) (.inl rfl) rfl rfl
    (by decide +kernel : (blindly 200000000 holding).1.toOption.isSome = true)
  obtain ⟨second, s', _, hsecond⟩ := history_blindly s (.inr hslept) hrunning harmed
    (by decide +kernel : (blindly 300000000 dropped).1.toOption.isSome = true)
  have hrun := startup_history (hfirst _ _ (hsecond _ _ (@History.refl referenceRuntime _ _ _ _)))
  have hdropped : Iteration.mk dropped second ∈ [Iteration.mk holding first, ⟨dropped, second⟩] := by simp
  have hholds : (Iteration.mk dropped second).Holds := by
    change dropped.state.positions.keys ≠ []
    decide +kernel
  have hwatched := (@history_manages_iff referenceRuntime _ _ _ _ _ _ hrun _ hdropped).mp
    (h _ _ _ _ _ _ hrun _ hdropped hholds)
  refine hwatched ?_
  change (strictLoop.symbols.filter fun symbol => symbol ∉ dropped.fields.excluded.keys).take 5 = []
  decide +kernel

end Examples

end Aetheris.AutonomousTask
