import Mathlib.Data.List.Perm.Basic
import Multipass.Batch.Run

/-!
# Inversion of steps of a batch

What one step of a batch can do, over any shared state, with all that the coordinator or the worker
looked at: one rule for each way in which a batch goes on. Coarser rules, for one kind of state or
one kind of run, follow from these.

Main statements: `step_inv`, which finds the rule behind each step, and `closed_of_advance`, by which
a batch where nobody can move is closed.
-/

namespace Multipass

/-- How a worker stands that has ended. -/
def Ending.state : Ending → WorkerState
  | .finished run => .finished run
  | .aborted error => .aborted error
  | .panicked text => .panicked text

namespace Batch

variable {ω : Type}

/-- What one step of a batch can do, from a batch and a state to those behind it. -/
inductive Step (shop : Workshop ω) (job : Job) (options : RunOptions) (b : Batch) (w : ω) :
    Move → Batch → ω → Prop where
  | wait {record rest} :
    b.stage = .choosing →
    b.queue = record :: rest →
    shop.environment.isCancelled w = false →
    Step shop job options b w .coordinator (b.enter .waiting) w
  | permit :
    b.stage = .waiting →
    b.working.length < options.permits →
    Step shop job options b w .coordinator (b.enter .permitted) w
  | claim :
    b.stage = .permitted →
    shop.environment.isCancelled w = false →
    Step shop job options b w .coordinator (b.enter .claiming) w
  /-- No record is left to be dealt with. -/
  | drain :
    b.stage = .choosing ∨ b.stage = .claiming →
    b.queue = [] →
    Step shop job options b w .coordinator (b.enter .draining) w
  | cancel :
    b.stage = .choosing ∨ b.stage = .permitted →
    shop.environment.isCancelled w = true →
    Step shop job options b w .coordinator b.cancel w
  | busy {record rest} :
    b.stage = .claiming →
    b.queue = record :: rest →
    record.id ∈ shop.claimed w →
    Step shop job options b w .coordinator (b.skipBusy record) w
  | hire {record rest} :
    b.stage = .claiming →
    b.queue = record :: rest →
    record.id ∉ shop.claimed w →
    Step shop job options b w .coordinator (b.hire record job.registry.order)
      (shop.setClaimed (record.id :: shop.claimed w) w)
  | collect {f rest} :
    b.stage = .collecting ∨ b.stage = .draining →
    b.ended = f :: rest →
    Step shop job options b w .coordinator (collect job.registry b f rest) w
  /-- Nobody is left to be collected before the next record. -/
  | resume :
    b.stage = .collecting →
    b.ended = [] →
    Step shop job options b w .coordinator (b.enter .choosing) w
  | finish :
    b.stage = .draining →
    b.ended = [] →
    b.working = [] →
    Step shop job options b w .coordinator (b.enter .closing) w
  | close {cancelled} :
    b.stage = .closing →
    cancelled = (b.report.cancelled || shop.environment.isCancelled w) →
    Step shop job options b w .coordinator
      { b with stage := .closed, report := { b.report with cancelled }.sorted } w
  | proceed {place worker e' w'} :
    b.working[place]? = some worker →
    worker.execution.step shop.environment job w = (.running e', w') →
    Step shop job options b w (.worker place) (b.proceed place worker e') w'
  /-- A worker has ended, in whatever way. -/
  | dismiss {place worker ending w'} :
    b.working[place]? = some worker →
    worker.execution.step shop.environment job w = (Ending.state ending, w') →
    Step shop job options b w (.worker place) (b.dismiss shop place worker ending w').1
      (b.dismiss shop place worker ending w').2

variable {shop : Workshop ω} {job : Job} {options : RunOptions} {b b' : Batch} {w w' : ω}

lemma coordinate_inv (h : coordinate shop job options b w = some (b', w')) :
    Step shop job options b w .coordinator b' w' := by
  simp only [coordinate] at h
  split at h
  · next hs =>
    split at h
    · next none =>
      cases h
      exact .drain (.inl hs) (List.isEmpty_iff.1 none)
    · next some =>
      obtain ⟨record, rest, hq⟩ := List.exists_cons_of_ne_nil (mt List.isEmpty_iff.2 some)
      split at h <;> cases h
      · next asked => exact .cancel (.inl hs) asked
      · next calm => exact .wait hs hq (Bool.eq_false_iff.2 calm)
  · next hs =>
    split at h <;> cases h
    next free => exact .permit hs free
  · next hs =>
    split at h <;> cases h
    · next asked => exact .cancel (.inr hs) asked
    · next calm => exact .claim hs (Bool.eq_false_iff.2 calm)
  · next hs =>
    split at h
    · next none =>
      cases h
      exact .drain (.inr hs) none
    · next hq =>
      split at h <;> cases h
      · next held => exact .busy hs hq (List.contains_iff_mem.1 held)
      · next free => exact .hire hs hq fun mem => free (List.contains_iff_mem.2 mem)
  · next hs =>
    split at h <;> cases h
    · next he => exact .collect (.inl hs) he
    · next none => exact .resume hs none
  · next hs =>
    split at h
    · next he =>
      cases h
      exact .collect (.inr hs) he
    · next none =>
      split at h <;> cases h
      next idle => exact .finish hs none (List.isEmpty_iff.1 idle)
  · next hs =>
    cases h
    exact .close hs rfl
  · cases h

lemma work_inv {place : Nat} {worker : Worker} (hw : b.working[place]? = some worker) :
    Step shop job options b w (.worker place) (work shop job b place worker w).1
      (work shop job b place worker w).2 := by
  have dismiss (ending : Ending) {w' : ω}
      (hs : worker.execution.step shop.environment job w = (ending.state, w')) :
      Step shop job options b w (.worker place) (b.dismiss shop place worker ending w').1
        (b.dismiss shop place worker ending w').2 := .dismiss hw hs
  simp only [work]
  split
  · next hs => exact .proceed hw hs
  · next run _ hs => exact dismiss (.finished run) hs
  · next error _ hs => exact dismiss (.aborted error) hs
  · next text _ hs => exact dismiss (.panicked text) hs

/-- Each step follows one of the rules. -/
theorem step_inv {move : Move} (h : step shop job options b w move = some (b', w')) :
    Step shop job options b w move b' w' := by
  cases move with
  | coordinator => exact coordinate_inv h
  | worker place =>
    simp only [step] at h
    split at h
    · next worker hw =>
      have rule : Step shop job options b w (.worker place) (work shop job b place worker w).1
          (work shop job b place worker w).2 := work_inv hw
      rwa [Option.some.inj h] at rule
    · cases h

/-! ### Workers by their places -/

/-- The worker in a place, and all the others. -/
lemma perm_working {place : Nat} {worker : Worker} (hw : b.working[place]? = some worker) :
    b.working.Perm (worker :: b.working.eraseIdx place) := by
  obtain ⟨lt, rfl⟩ := List.getElem?_eq_some_iff.1 hw
  exact (List.getElem_cons_eraseIdx_perm lt).symm

lemma perm_proceed {place : Nat} {worker : Worker} (hw : b.working[place]? = some worker)
    (e' : Execution) :
    (b.proceed place worker e').working.Perm
      ({ worker with execution := e' } :: b.working.eraseIdx place) := by
  obtain ⟨lt, -⟩ := List.getElem?_eq_some_iff.1 hw
  exact List.set_perm_cons_eraseIdx lt _

/-! ### The last step -/

/-- A batch whose coordinator has to wait has somebody at work. -/
lemma working_of_coordinate (waits : coordinate shop job options b w = none)
    (late : b.stage ≠ .closed) : b.working ≠ [] := by
  intro none
  have free : b.working.length < options.permits := by
    rw [none]
    exact Nat.lt_of_lt_of_le Nat.one_pos (Nat.le_max_left 1 options.concurrency)
  have idle : b.working.isEmpty = true := List.isEmpty_iff.2 none
  simp only [coordinate] at waits
  split at waits
  · split at waits
    · cases waits
    · split at waits <;> cases waits
  · rw [if_pos free] at waits
    cases waits
  · split at waits <;> cases waits
  · split at waits
    · cases waits
    · split at waits <;> cases waits
  · split at waits <;> cases waits
  · split at waits
    · cases waits
    · rw [if_pos idle] at waits
      cases waits
  · cases waits
  · next closed => exact late closed

/-- A batch is closed when nobody can make a step. -/
lemma closed_of_advance (stuck : advance shop job options b w = none) : b.stage = .closed := by
  simp only [advance, step] at stuck
  split at stuck
  · cases stuck
  · next waits =>
    by_contra late
    obtain ⟨worker, rest, hw⟩ := List.exists_cons_of_ne_nil (working_of_coordinate waits late)
    rw [hw, List.getElem?_cons_zero] at stuck
    cases stuck

lemma move_of_advance (h : advance shop job options b w = some (b', w')) :
    ∃ move, b.step shop job options w move = some (b', w') := by
  simp only [advance] at h
  split at h
  · next hs => exact ⟨.coordinator, hs.trans h⟩
  · exact ⟨.worker 0, h⟩

/-- To run a batch is to make moves until it is closed. -/
theorem exists_moves (shop : Workshop ω) (job : Job) (options : RunOptions) (b : Batch) (w : ω) :
    (b.run shop job options w).1.stage = .closed ∧
      ∃ moves : List Move,
        moves.foldl (fun scene move => (scene.1.step shop job options scene.2 move).getD scene)
          (b, w) = b.run shop job options w := by
  fun_induction Batch.run shop job options b w with
  | case1 b w b' w' h ih =>
    obtain ⟨closed, moves, eq⟩ := ih
    obtain ⟨move, step⟩ := move_of_advance h
    refine ⟨closed, move :: moves, ?_⟩
    rw [List.foldl_cons, step]
    exact eq
  | case2 b w stuck => exact ⟨closed_of_advance stuck, [], rfl⟩

end Batch

end Multipass
