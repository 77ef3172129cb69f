import Multipass.Batch.Basic

/-!
# Running a batch

Every step brings a batch closer to its end: first the number of records that are not dealt with
counts, then the work of those at work, then the stage. So a batch ends under any schedule. The
schedule here is the plainest: the coordinator goes on while it can, and while it has to wait the
worker that was hired first makes a step.
-/

namespace Multipass

namespace Stage

/-- The order in which stages follow each other while nothing else changes. -/
def rank : Stage → Nat
  | .collecting => 7
  | .choosing => 6
  | .waiting => 5
  | .permitted => 4
  | .claiming => 3
  | .draining => 2
  | .closing => 1
  | .closed => 0

end Stage

/-- The work that a worker has left; its end is left in any case. -/
def Worker.weight (worker : Worker) : Nat :=
  worker.execution.weight + 2

/-- The work that some workers have left. -/
def totalWeight : List Worker → Nat
  | [] => 0
  | worker :: rest => worker.weight + totalWeight rest

theorem totalWeight_set {ws : List Worker} {i : Nat} {old : Worker} (new : Worker)
    (h : ws[i]? = some old) (hw : new.weight < old.weight) :
    totalWeight (ws.set i new) < totalWeight ws := by
  induction ws generalizing i with
  | nil => simp at h
  | cons w ws ih =>
    cases i with
    | zero =>
      simp only [List.getElem?_cons_zero, Option.some.injEq] at h
      subst h
      simp only [List.set_cons_zero, totalWeight]
      omega
    | succ i =>
      simp only [List.set_cons_succ, totalWeight]
      have := ih (by simpa using h)
      omega

theorem totalWeight_eraseIdx {ws : List Worker} {i : Nat} {old : Worker}
    (h : ws[i]? = some old) : totalWeight (ws.eraseIdx i) + old.weight = totalWeight ws := by
  induction ws generalizing i with
  | nil => simp at h
  | cons w ws ih =>
    cases i with
    | zero =>
      simp only [List.getElem?_cons_zero, Option.some.injEq] at h
      subst h
      simp only [List.eraseIdx_cons_zero, totalWeight]
      omega
    | succ i =>
      simp only [List.eraseIdx_cons_succ, totalWeight]
      have := ih (by simpa using h)
      omega

namespace Batch

variable {ω : Type}

/-- The work that is left: the workers', and one step for each that is to be collected. -/
def workLeft (b : Batch) : Nat :=
  totalWeight b.working + b.ended.length

/-- What every step makes less. -/
def measure (b : Batch) : Nat × Nat × Nat :=
  (b.queue.length, b.workLeft, b.stage.rank)

/-- The order of these triples: the first part that differs counts. -/
abbrev Closer (x y : Nat × Nat × Nat) : Prop :=
  Prod.Lex (· < ·) (Prod.Lex (· < ·) (· < ·)) x y

theorem closer_of_queue {b b' : Batch} (h : b'.queue.length < b.queue.length) :
    Closer b'.measure b.measure :=
  .left _ _ h

theorem closer_of_work {b b' : Batch} (hq : b'.queue = b.queue) (h : b'.workLeft < b.workLeft) :
    Closer b'.measure b.measure := by
  simp only [measure, hq]
  exact .right _ (.left _ _ h)

theorem closer_of_stage {b b' : Batch} (hq : b'.queue = b.queue) (hw : b'.workLeft = b.workLeft)
    (h : b'.stage.rank < b.stage.rank) : Closer b'.measure b.measure := by
  simp only [measure, hq, hw]
  exact .right _ (.right _ h)

theorem closer_enter {b : Batch} {stage : Stage} (h : stage.rank < b.stage.rank) :
    Closer (b.enter stage).measure b.measure :=
  closer_of_stage rfl rfl h

theorem closer_cancel {b : Batch} (h : Stage.rank .draining < b.stage.rank) :
    Closer b.cancel.measure b.measure :=
  closer_of_stage rfl rfl h

theorem closer_collect {registry : PassRegistry} {b : Batch} {f : Finished}
    {rest : List Finished} (h : b.ended = f :: rest) :
    Closer (collect registry b f rest).measure b.measure :=
  closer_of_work rfl (by simp [workLeft, collect, h])

/-- A step of the coordinator brings a batch closer to its end. -/
theorem closer_coordinate {shop : Workshop ω} {job : Job} {options : RunOptions} {b b' : Batch}
    {w w' : ω} (h : coordinate shop job options b w = some (b', w')) :
    Closer b'.measure b.measure := by
  simp only [coordinate] at h
  split at h
  · next hs =>
    split at h
    · cases h
      exact closer_enter (by simp [hs, Stage.rank])
    · split at h <;> cases h
      · exact closer_cancel (by simp [hs, Stage.rank])
      · exact closer_enter (by simp [hs, Stage.rank])
  · next hs =>
    split at h <;> cases h
    exact closer_enter (by simp [hs, Stage.rank])
  · next hs =>
    split at h <;> cases h
    · exact closer_cancel (by simp [hs, Stage.rank])
    · exact closer_enter (by simp [hs, Stage.rank])
  · next hs =>
    split at h
    · cases h
      exact closer_enter (by simp [hs, Stage.rank])
    · next hq =>
      split at h <;> cases h
      · exact closer_of_queue (by simp [skipBusy, hq])
      · exact closer_of_queue (by simp [hire, hq])
  · next hs =>
    split at h
    · next he =>
      cases h
      exact closer_collect he
    · cases h
      exact closer_enter (by simp [hs, Stage.rank])
  · next hs =>
    split at h
    · next he =>
      cases h
      exact closer_collect he
    · split at h <;> cases h
      exact closer_enter (by simp [hs, Stage.rank])
  · next hs =>
    cases h
    exact closer_of_stage rfl rfl (by simp [hs, Stage.rank])
  · cases h

/-- A step of a worker brings a batch closer to its end. -/
theorem closer_work (shop : Workshop ω) (job : Job) (w : ω) {b : Batch} {place : Nat}
    {worker : Worker} (h : b.working[place]? = some worker) :
    Closer (work shop job b place worker w).1.measure b.measure := by
  have ended {ending : Ending} {w : ω} :
      Closer (b.dismiss shop place worker ending w).1.measure b.measure := by
    refine closer_of_work rfl ?_
    have := totalWeight_eraseIdx h
    simp only [workLeft, dismiss, List.length_append, List.length_cons, List.length_nil]
    have : 2 ≤ worker.weight := Nat.le_add_left 2 _
    omega
  simp only [work]
  split
  · next hs =>
    refine closer_of_work rfl ?_
    have hw := Execution.weight_step hs
    have := totalWeight_set { worker with execution := _ } h (Nat.add_lt_add_right hw 2)
    simp only [workLeft, proceed]
    omega
  · exact ended
  · exact ended
  · exact ended

/-- A step brings a batch closer to its end, whoever makes it. -/
theorem closer_step {shop : Workshop ω} {job : Job} {options : RunOptions} {b b' : Batch}
    {w w' : ω} {move : Move} (h : step shop job options b w move = some (b', w')) :
    Closer b'.measure b.measure := by
  cases move with
  | coordinator => exact closer_coordinate h
  | worker place =>
    simp only [step] at h
    split at h
    · next hp =>
      have := closer_work shop job w hp
      rwa [Option.some.inj h] at this
    · cases h

/-- A step of the coordinator, or else of the worker that was hired first. -/
def advance (shop : Workshop ω) (job : Job) (options : RunOptions) (b : Batch) (w : ω) :
    Option (Batch × ω) :=
  match step shop job options b w .coordinator with
  | some next => some next
  | none => step shop job options b w (.worker 0)

theorem closer_advance {shop : Workshop ω} {job : Job} {options : RunOptions} {b b' : Batch}
    {w w' : ω} (h : advance shop job options b w = some (b', w')) :
    Closer b'.measure b.measure := by
  simp only [advance] at h
  split at h
  · next hs =>
    cases h
    exact closer_step hs
  · exact closer_step h

/-- Runs a batch until no step is left. -/
def run (shop : Workshop ω) (job : Job) (options : RunOptions) (b : Batch) (w : ω) : Batch × ω :=
  match _h : advance shop job options b w with
  | some (b', w') => run shop job options b' w'
  | none => (b, w)
termination_by b.measure
decreasing_by exact closer_advance _h

end Batch

/-- What a batch leaves: its report, and what was told of it. -/
structure BatchOutcome where
  report : Report
  events : List ProgressEvent
  deriving Repr

/-- Runs the pending records of a store. -/
def runAll {ω : Type} (shop : Workshop ω) (job : Job) (options : RunOptions) (w : ω) :
    Except StoreError BatchOutcome × ω :=
  match shop.environment.store.pending job.registry.order options.pendingCheck w with
  | .error e => (.error e, w)
  | .ok pending =>
    let b := Batch.start job.runId options (Batch.select options pending)
    let (b, w) := b.run shop job options w
    (.ok ⟨b.report, b.events⟩, w)

/-- Why a configured run does not take place. -/
inductive RunError where
  | configuration (e : ConfigurationError)
  | store (e : StoreError)
  deriving DecidableEq, Repr

/-- The words for a run that does not take place. -/
def RunError.message : RunError → String
  | .configuration e => e.message
  | .store e => e.message

/-- Runs the pipeline of a configuration. Without an order there is nothing to do, and any other
fault of the pipeline is found before a record is touched. -/
def runConfigured {ω : Type} (shop : Workshop ω) (cfg : Config) (root runId : String)
    (options : RunOptions) (w : ω) : Except RunError BatchOutcome × ω :=
  match PassRegistry.ofConfig cfg with
  | .error .emptyPassOrder => (.ok ⟨.empty options.dryRun, []⟩, w)
  | .error e => (.error (.configuration e), w)
  | .ok registry =>
    match runAll shop ⟨registry, root, runId, options.dryRun⟩ options w with
    | (.ok outcome, w) => (.ok outcome, w)
    | (.error e, w) => (.error (.store e), w)

end Multipass
