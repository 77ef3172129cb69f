import Multipass.Proofs.Executor.Rule
import Multipass.Proofs.Executor.Transition

/-!
# What workers keep

A property of a worker and the rows of its record that no step of the worker breaks holds along
every sequence of its steps, whatever changes in the rest of the world between them, and it holds
when the worker is through.

Main statements: `Upheld.follow` for some steps of a worker, `Upheld.run` for all of them, and
`Upheld.attempt` for a worker that may be asked to stop.
-/

namespace Multipass

variable {β : Type}

/-- Holds of a property that a worker with an outfit keeps on the rows of the record of a number.
The property is about executions and rows without times. -/
def Keeps (o : Outfit β) (job : Job) (id : RecordId) (P : WorkerState → MemoryStore → Prop) : Prop :=
  ∀ (e : Execution) (w : World β), e.current.id = id → w.store.ScoresOrdered →
    P (.running e.plain) (w.store.rowsOf id) →
    P (e.step o.environment job w).1.plain ((e.step o.environment job w).2.store.rowsOf id)

/-- What holds of a worker on the record of a number that keeps a property. -/
structure Upheld (id : RecordId) (P : WorkerState → MemoryStore → Prop) (state : WorkerState)
    (w : World β) : Prop where
  wellFormed : w.store.WellFormed
  ordered : w.store.ScoresOrdered
  own : ∀ e, state = .running e → e.current.id = id
  holds : P state.plain (w.store.rowsOf id)

/-- A worker behind some steps, with the rest of the world as it is at each. Once it is over, it
makes no more steps. -/
def WorkerState.follow (o : Outfit β) (job : Job) :
    WorkerState → World β → List β → WorkerState × World β
  | .running e, w, rest :: moments =>
    let (state, w) := e.step o.environment job { w with rest }
    follow o job state w moments
  | state, w, _ => (state, w)

@[simp] lemma WorkerState.follow_nil (o : Outfit β) (job : Job) (state : WorkerState)
    (w : World β) : state.follow o job w [] = (state, w) := by
  cases state <;> rfl

/-- A worker that is over makes no more steps. -/
lemma WorkerState.follow_over (o : Outfit β) (job : Job) {state : WorkerState} (w : World β)
    (through : ∀ e, state ≠ .running e) (moments : List β) :
    state.follow o job w moments = (state, w) := by
  cases state with
  | running e => exact absurd rfl (through e)
  | _ => cases moments <;> rfl

section

variable {o : Outfit β} {job : Job} {id : RecordId} {P : WorkerState → MemoryStore → Prop}
  {given : PassDefinition → InvocationContext → Reply → Prop} {stop : Bool}
  {state : WorkerState} {w : World β} {e : Execution}

/-- A property is kept if no rule breaks it. -/
lemma keeps_of_rules (answers : o.Answers given) (flag : ∀ w, o.isCancelled w = stop)
    (each : ∀ e s state s', e.current.id = id → P (.running e) s →
      Execution.Rule given stop job.plain e s state s' → P state s') : Keeps o job id P := by
  rintro e w rfl ordered holds
  refine each e.plain _ _ _ rfl holds ?_
  rw [← flag w]
  exact Execution.rule_step answers job e ordered

/-- A property is kept if no rule breaks it, whether or not the worker is asked to stop. -/
lemma keeps_of_all_rules (answers : o.Answers given)
    (each : ∀ stop e s state s', e.current.id = id → P (.running e) s →
      Execution.Rule given stop job.plain e s state s' → P state s') : Keeps o job id P := by
  rintro e w rfl ordered holds
  exact each _ e.plain _ _ _ rfl holds (Execution.rule_step answers job e ordered)

/-! ### The record of a worker -/

/-- Holds when a worker is on the record of a number and reports on a path. -/
def WorkerState.IsOn (id : RecordId) (path : String) : WorkerState → Prop
  | .running e => e.current.id = id ∧ e.report.path = path
  | .finished run => run.path = path
  | _ => True

/-- A worker stays with its record. -/
lemma Execution.Transition.isOn {w' : World β} (t : Transition job e w state w') :
    state.IsOn e.current.id e.report.path := by
  have completed (pass : String) (updated : Record) (eq : updated.id = e.current.id) :
      (WorkerState.running (e.completed job pass updated)).IsOn e.current.id e.report.path := by
    simp only [Execution.completed]
    split <;> exact ⟨eq, rfl⟩
  cases t with
  | finish _ => rfl
  | recover _ _ _ eq _ => exact completed _ _ eq
  | commit _ _ _ eq _ => exact completed _ _ eq
  | panic _ _ => trivial
  | recoverGone _ _ _ => trivial
  | commitGone _ _ _ => trivial
  | _ => exact ⟨rfl, rfl⟩

lemma Execution.id_step {e' : Execution} (h : (e.step o.environment job w).1 = .running e') :
    e'.current.id = e.current.id := by
  have on := (Execution.transition_step o job e w).isOn
  rw [h] at on
  exact on.1

/-! ### Sequences of steps -/

lemma Upheld.step (upheld : Upheld id P (.running e) w) (keeps : Keeps o job id P) :
    Upheld id P (e.step o.environment job w).1 (e.step o.environment job w).2 := by
  obtain ⟨-, write⟩ := e.write_step o job w
  have own := upheld.own e rfl
  exact {
    wellFormed := write.wellFormed upheld.wellFormed
    ordered := write.scoresOrdered upheld.ordered
    own := fun e' h => (Execution.id_step h).trans own
    holds := keeps e w own upheld.ordered upheld.holds }

/-- The rest of the world does not matter. -/
lemma Upheld.elsewhere (upheld : Upheld id P state w) (rest : β) :
    Upheld id P state { w with rest } :=
  { upheld with }

/-- A property that is kept holds behind any number of steps. -/
theorem Upheld.follow (upheld : Upheld id P state w) (keeps : Keeps o job id P)
    (moments : List β) :
    Upheld id P (state.follow o job w moments).1 (state.follow o job w moments).2 := by
  induction moments generalizing state w with
  | nil => cases state <;> exact upheld
  | cons rest moments ih =>
    cases state with
    | running e => exact ih ((upheld.elsewhere rest).step keeps)
    | _ => exact upheld

/-! ### Whole runs -/

namespace Execution

variable {ω : Type} {env : Environment ω} {w w' : ω} {e' : Execution}

lemma run_running (h : e.step env job w = (.running e', w')) : e.run env job w = e'.run env job w' := by
  rw [run]
  split
  · next h' =>
    cases h.symm.trans h'
    rfl
  · next ended => exact absurd h (ended e' w')

lemma run_ended (h : e.step env job w = (state, w')) (through : ∀ e', state ≠ .running e') :
    e.run env job w = (state, w') := by
  rw [run]
  split
  · next h' =>
    cases h.symm.trans h'
    exact absurd rfl (through _)
  · exact h

/-- A run comes to what some steps come to behind which the worker is through. -/
lemma run_eq_follow {o : Outfit Unit} {w : World Unit} (n : Nat)
    (through : ∀ e', ((WorkerState.running e).follow o job w (List.replicate n ())).1 ≠ .running e') :
    e.run o.environment job w = (WorkerState.running e).follow o job w (List.replicate n ()) := by
  induction n generalizing e w with
  | zero => exact absurd rfl (through e)
  | succ n ih =>
    cases h : e.step o.environment job w with
    | mk state w' =>
      have follows : (WorkerState.running e).follow o job w (List.replicate (n + 1) ()) =
          state.follow o job w' (List.replicate n ()) := by
        rw [List.replicate_succ, WorkerState.follow]
        exact congrArg (fun next : WorkerState × World Unit =>
          next.1.follow o job next.2 (List.replicate n ())) h
      rw [follows] at through ⊢
      by_cases goesOn : ∃ e', state = .running e'
      · obtain ⟨e', rfl⟩ := goesOn
        exact (run_running h).trans (ih through)
      · have through : ∀ e', state ≠ .running e' := fun e' eq => goesOn ⟨e', eq⟩
        rw [WorkerState.follow_over o job w' through]
        exact run_ended h through

lemma run_of_follow {o : Outfit Unit} {w : World Unit} (n : Nat) {run : RecordRun}
    (finished : ((WorkerState.running e).follow o job w (List.replicate n ())).1 = .finished run) :
    e.run o.environment job w = (WorkerState.running e).follow o job w (List.replicate n ()) :=
  run_eq_follow n fun _ goesOn => WorkerState.noConfusion (finished.symm.trans goesOn)

end Execution

/-- A property that is kept holds when the worker is through, as it is at some time. -/
theorem Upheld.run (upheld : Upheld id P (.running e) w) (keeps : Keeps o job id P) :
    Upheld id P (e.run o.environment job w).1 (e.run o.environment job w).2 ∧
      ∀ e', (e.run o.environment job w).1 ≠ .running e' := by
  fun_induction Execution.run o.environment job e w with
  | case1 e w e' w' h _ ih =>
    have next := upheld.step keeps
    rw [h] at next
    exact ih next
  | case2 e w ended =>
    have next := upheld.step keeps
    exact ⟨next, fun e' h => ended e' _ (Prod.ext h rfl)⟩

end

/-!
### Attempts

An attempt to take a record through its passes ends after any number of steps, in whatever phase the
worker is by then; it may have been asked to stop before. What is left of it is the store.
-/

/-- An attempt: what the worker brings along, and the rest of the world at each of its steps, first
at those that it makes before it is asked to stop, then at those behind. -/
structure Attempt (β : Type) where
  outfit : Outfit β
  runId : String
  calm : List β
  asked : List β := []

namespace Attempt

/-- The job of an attempt. -/
def job (a : Attempt β) (job : Job) : Job :=
  { job with runId := a.runId }

/-- The worker of an attempt when it ends or is cut off, and the world that it leaves. -/
def run (a : Attempt β) (job : Job) (record : Record) (w : World β) : WorkerState × World β :=
  let start := WorkerState.running (.start record job.registry.order)
  let (state, w) := start.follow (a.outfit.flagged false) (a.job job) w a.calm
  state.follow (a.outfit.flagged true) (a.job job) w a.asked

end Attempt

variable {job : Job} {id : RecordId}

/-- What a worker keeps that may be asked to stop: a property for the steps before and one for the
steps behind. -/
theorem Upheld.attempt {a : Attempt β} {r : Record} {w : World β}
    {P Q : WorkerState → MemoryStore → Prop}
    (upheld : Upheld id P (.running (.start r job.registry.order)) w)
    (keepsCalm : Keeps (a.outfit.flagged false) (a.job job) id P)
    (keepsAsked : Keeps (a.outfit.flagged true) (a.job job) id Q)
    (turn : ∀ state s, P state s → Q state s) :
    Upheld id Q (a.run job r w).1 (a.run job r w).2 := by
  have calm := upheld.follow keepsCalm a.calm
  exact Upheld.follow { calm with holds := turn _ _ calm.holds } keepsAsked a.asked

/-- Records keep their numbers and paths. -/
lemma WorkerState.labels_follow (state : WorkerState) (o : Outfit β) (job : Job) (w : World β)
    (moments : List β) :
    (state.follow o job w moments).2.store.labels = w.store.labels := by
  induction moments generalizing state w with
  | nil => cases state <;> rfl
  | cons rest moments ih =>
    cases state with
    | running e =>
      obtain ⟨-, write⟩ := e.write_step o job { w with rest }
      exact (ih _ _).trans write.labels
    | _ => rfl

lemma Attempt.labels_run (a : Attempt β) (job : Job) (r : Record) (w : World β) :
    (a.run job r w).2.store.labels = w.store.labels :=
  (WorkerState.labels_follow ..).trans (WorkerState.labels_follow ..)

end Multipass
