import Multipass.Proofs.Batch.Course
import Multipass.Proofs.Executor.Exclusive
import Multipass.Proofs.Store.Request

/-!
# Batches in company

A batch that shares its store. Whoever is to move makes one step, the coordinator or a worker; and at
any time others put whatever requests they like, claim records and give them back, and the rest of
the world changes.

Main statement: `Batch.goes_step`, which finds behind each step what it does to the workers, whether
or not the batch is asked to stop.
-/

namespace Multipass.Batch

variable {β : Type}

/-- What happens next to a batch in company. -/
inductive Happening (β : Type) where
  | move (move : Move)
  /-- Somebody else puts a request to the store. -/
  | request (now : Timestamp) (request : Request Record RecordId)
  /-- Others claim records or give them back. -/
  | claims (claimed : List RecordId)
  /-- The world changes outside the store. -/
  | elsewhere (rest : β)

/-- A batch and its world behind what happens; a move that cannot be made changes nothing. -/
def meet (o : Outfit β) (job : Job) (options : RunOptions) :
    Batch × World β → Happening β → Batch × World β
  | (b, w), .move move => (b.step o.workshop job options w move).getD (b, w)
  | (b, w), .request now request =>
    (b, { w with store := (request.perform MemoryStore.operations now w.store).2 })
  | (b, w), .claims claimed => (b, { w with claimed })
  | (b, w), .elsewhere rest => (b, { w with rest })

/-- A batch and its world behind all that happens. -/
def amid (o : Outfit β) (job : Job) (options : RunOptions) (scene : Batch × World β)
    (happenings : List (Happening β)) : Batch × World β :=
  happenings.foldl (meet o job options) scene

/-- A batch that was just called in a world. -/
def called (job : Job) (options : RunOptions) (w : World β) : Batch × World β :=
  (.start job.runId options (taken job options w.store), w)

/-- The requests that others put. -/
def requests (happenings : List (Happening β)) : List (Timestamp × Request Record RecordId) :=
  happenings.filterMap fun
    | .request now request => some (now, request)
    | _ => none

/-- What can be seen along all that happens, by what is seen of it one after the other. -/
def along {α : Type} (o : Outfit β) (job : Job) (options : RunOptions)
    (see : Batch × World β → Happening β → List α) : Batch × World β → List (Happening β) → List α
  | _, [] => []
  | scene, happening :: happenings =>
    see scene happening ++ along o job options see (meet o job options scene happening) happenings

/-- The invocations that are started with what happens: the number of the worker, the record, and
the pass. -/
def calls : Batch × World β → Happening β → List (Nat × RecordId × String)
  | (b, _), .move (.worker place) =>
    match b.working[place]? with
    | some worker => worker.execution.starts.map fun k => (worker.number, k)
    | none => []
  | _, _ => []

/-- The invocations that are started along all that happens. -/
def callsAlong (o : Outfit β) (job : Job) (options : RunOptions) (scene : Batch × World β)
    (happenings : List (Happening β)) : List (Nat × RecordId × String) :=
  along o job options calls scene happenings

/-! ### Steps -/

/-- What one step of a batch does to its workers. -/
inductive Goes (o : Outfit β) (job : Job) (b : Batch) (w : World β) :
    Move → Batch → World β → Prop where
  /-- The coordinator goes on, and may drop records and collect workers. -/
  | coordinate {b'} :
    b'.working = b.working →
    b'.nextWorker = b.nextWorker →
    b'.queue.Sublist b.queue →
    b'.ended.length ≤ b.ended.length →
    Goes o job b w .coordinator b' w
  | hire {record rest} :
    b.queue = record :: rest →
    Goes o job b w .coordinator (b.hire record job.registry.order)
      { w with claimed := record.id :: w.claimed }
  | proceed {place worker e'} :
    b.working[place]? = some worker →
    (worker.execution.step o.environment job w).1 = .running e' →
    Goes o job b w (.worker place) (b.proceed place worker e')
      (worker.execution.step o.environment job w).2
  | dismiss {place worker ending} :
    b.working[place]? = some worker →
    (worker.execution.step o.environment job w).1 = Ending.state ending →
    Goes o job b w (.worker place)
      (b.dismiss o.workshop place worker ending (worker.execution.step o.environment job w).2).1
      (b.dismiss o.workshop place worker ending (worker.execution.step o.environment job w).2).2

variable {o : Outfit β} {job : Job} {options : RunOptions} {b b' : Batch} {w w' : World β}

/-- Each step follows one of the rules. -/
theorem goes_step {move : Move} (h : step o.workshop job options b w move = some (b', w')) :
    Goes o job b w move b' w' := by
  have on {b' : Batch} (working : b'.working = b.working) (next : b'.nextWorker = b.nextWorker)
      (ended : b'.ended = b.ended) (queue : b'.queue.Sublist b.queue) :
      Goes o job b w .coordinator b' w :=
    .coordinate working next queue (by rw [ended])
  have enter (stage : Stage) : Goes o job b w .coordinator (b.enter stage) w :=
    on rfl rfl rfl (.refl _)
  cases step_inv h with
  | wait _ _ _ => exact enter _
  | permit _ _ => exact enter _
  | claim _ _ => exact enter _
  | drain _ _ => exact enter _
  | cancel _ _ => exact on rfl rfl rfl (.refl _)
  | busy _ _ _ => exact on rfl rfl rfl (List.tail_sublist _)
  | hire _ hq _ => exact .hire hq
  | collect _ he => exact .coordinate rfl rfl (.refl _) (by rw [he]; exact Nat.le_succ _)
  | resume _ _ => exact enter _
  | finish _ _ _ => exact enter _
  | close _ _ => exact on rfl rfl rfl (.refl _)
  | @proceed place worker e' _ hw hs =>
    have hs : worker.execution.step o.environment job w = (.running e', w') := hs
    have goes : Goes o job b w (.worker place) (b.proceed place worker e') _ :=
      .proceed hw (congrArg Prod.fst hs)
    rwa [hs] at goes
  | @dismiss place worker ending w'' hw hs =>
    have hs : worker.execution.step o.environment job w = (ending.state, w'') := hs
    have goes := Goes.dismiss (o := o) hw (congrArg Prod.fst hs)
    rwa [hs] at goes

lemma Goes.scoresOrdered {move : Move} (goes : Goes o job b w move b' w')
    (ordered : w.store.ScoresOrdered) : w'.store.ScoresOrdered := by
  cases goes with
  | coordinate _ _ _ _ => exact ordered
  | hire _ => exact ordered
  | @proceed _ worker _ _ _ => exact (worker.execution.write_step o job w).2.scoresOrdered ordered
  | @dismiss _ worker _ _ _ => exact (worker.execution.write_step o job w).2.scoresOrdered ordered

end Multipass.Batch
