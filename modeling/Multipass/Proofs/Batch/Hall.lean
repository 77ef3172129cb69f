import Mathlib.Data.List.Nodup
import Mathlib.Data.List.Perm.Basic
import Multipass.Proofs.Batch.Inversion
import Multipass.Proofs.Executor.Exclusive
import Multipass.Proofs.Executor.Transition

/-!
# Halls of batches

Any number of batches that share one store in memory and the claims of records. A batch may be
called at any time; it takes the records that are pending then, and much may happen before it comes
to the last of them. Whoever is to move makes one step: the coordinator or a worker of some batch,
somebody who ingests an artifact, or somebody outside who claims a record or gives it back. No
record is deleted.

Main statements: `Batch.transition_step`, which finds the rule behind each step of a batch, and
`Hall.run_excludes`, for a hall whose store has a result for each completed pass.
-/

namespace Multipass

/-!
### Transitions of a batch

What one step of a batch can do when the store is kept in memory, said once: the coordinator goes
on or hires a worker, and a worker goes on or is done. Later proofs take the cases of `Transition`
and open neither the coordinator nor the workers.
-/

section

/-- Holds of the stages in which the coordinator has a permit for a worker more. -/
def Stage.hasPermit : Stage → Bool
  | .permitted => true
  | .claiming => true
  | _ => false

namespace Batch

variable {β : Type}

/-- What one step of a batch can do, from a batch and a world to those behind it. -/
inductive Transition (job : Job) (options : RunOptions) (b : Batch) (w : World β) :
    Batch → World β → Prop where
  /-- The coordinator goes on, and takes a permit only if there is one. -/
  | coordinate {b'} :
    b'.working = b.working →
    b'.queue ⊆ b.queue →
    (b'.stage.hasPermit = true →
      b.stage.hasPermit = true ∨ b.working.length < options.permits) →
    Transition job options b w b' w
  /-- A record that nobody has claimed is claimed, and a worker is set on it. -/
  | hire {record rest} :
    b.stage.hasPermit = true →
    b.queue = record :: rest →
    record.id ∉ w.claimed →
    Transition job options b w (b.hire record job.registry.order)
      { w with claimed := record.id :: w.claimed }
  | proceed {place worker e' w'} :
    b.working[place]? = some worker →
    Execution.Transition job worker.execution w (.running e') w' →
    Transition job options b w (b.proceed place worker e') w'
  /-- A worker is done, in whatever way, and its claim is given back. -/
  | dismiss {place worker state w' ended} :
    b.working[place]? = some worker →
    Execution.Transition job worker.execution w state w' →
    (∀ e', state ≠ .running e') →
    Transition job options b w { b with working := b.working.eraseIdx place, ended }
      { w' with claimed := w'.claimed.filter fun id => id != worker.record.id }

/-- Each step follows one of the rules. -/
theorem transition_step {o : Outfit β} {job : Job} {options : RunOptions} {b b' : Batch}
    {w w' : World β} {move : Move} (h : step o.workshop job options b w move = some (b', w')) :
    Transition job options b w b' w' := by
  have on {b' : Batch} (working : b'.working = b.working) (queue : b'.queue ⊆ b.queue)
      (none : b'.stage.hasPermit = false) : Transition job options b w b' w :=
    .coordinate working queue fun some => absurd (none.symm.trans some) Bool.false_ne_true
  have enter {stage : Stage} (none : stage.hasPermit = false) :
      Transition job options b w (b.enter stage) w := on rfl (List.Subset.refl _) none
  cases step_inv h with
  | wait _ _ _ => exact enter rfl
  | permit _ free => exact .coordinate rfl (List.Subset.refl _) fun _ => .inr free
  | claim hs _ =>
    refine .coordinate rfl (List.Subset.refl _) fun _ => .inl ?_
    rw [hs]
    rfl
  | drain _ _ => exact enter rfl
  | cancel _ _ => exact on rfl (List.Subset.refl _) rfl
  | busy _ _ _ => exact on rfl (List.tail_sublist _).subset rfl
  | hire hs hq free =>
    refine .hire ?_ hq free
    rw [hs]
    rfl
  | collect hs _ =>
    obtain hs | hs := hs
    · exact on rfl (List.Subset.refl _) (congrArg Stage.hasPermit hs)
    · exact on rfl (List.Subset.refl _) (congrArg Stage.hasPermit hs)
  | resume _ _ => exact enter rfl
  | finish _ _ _ => exact enter rfl
  | close _ _ => exact on rfl (List.Subset.refl _) rfl
  | @proceed place worker e' _ hw hs =>
    have t := Execution.transition_step o job worker.execution w
    rw [show worker.execution.step o.environment job w = _ from hs] at t
    exact .proceed hw t
  | @dismiss place worker ending _ hw hs =>
    have t := Execution.transition_step o job worker.execution w
    rw [show worker.execution.step o.environment job w = _ from hs] at t
    refine .dismiss hw t fun e' eq => ?_
    cases ending <;> cases eq

end Batch

end

/-- A batch that was called, and what it was called with. -/
structure Call (β : Type) where
  outfit : Outfit β
  job : Job
  options : RunOptions
  batch : Batch

/-- What holds of a batch on a store: it has workers only with permits, and a permit more when it
has taken one, and the records that it is to take are there. -/
structure Call.Sound {β : Type} (call : Call β) (s : MemoryStore) : Prop where
  permits : call.batch.working.length ≤ call.options.permits
  spare : call.batch.stage.hasPermit = true → call.batch.working.length < call.options.permits
  queue : ∀ r ∈ call.batch.queue, r.id ∈ s.ids

/-- Batches in a world. -/
structure Hall (β : Type) where
  world : World β
  calls : List (Call β) := []
  /-- The records that are held by others than workers. -/
  held : List RecordId := []

namespace Hall

variable {β : Type}

/-- What happens next. -/
inductive Move (β : Type) where
  /-- A batch is called. -/
  | call (outfit : Outfit β) (job : Job) (options : RunOptions)
  /-- The batch in a place makes a step. -/
  | step (place : Nat) (move : Batch.Move)
  | upsert (new : NewRecord) (now : Timestamp)
  /-- Somebody else claims a record, unless it is claimed. -/
  | hold (id : RecordId)
  /-- Somebody else gives back a record that they hold. -/
  | letGo (id : RecordId)
  /-- The world changes outside the store. -/
  | elsewhere (rest : β)

/-- A hall in which no batch was called. -/
def start (store : MemoryStore) (rest : β) : Hall β where
  world := { store, rest }

/-- The hall behind a move; a move that cannot be made changes nothing. -/
def step (hall : Hall β) : Move β → Hall β
  | .call outfit job options =>
    match World.operations.pending job.registry.order options.pendingCheck hall.world with
    | .ok pending =>
      let batch := Batch.start job.runId options (Batch.select options pending)
      { hall with calls := hall.calls ++ [{ outfit, job, options, batch }] }
    | .error _ => hall
  | .step place move =>
    match hall.calls[place]? with
    | some call =>
      match call.batch.step call.outfit.workshop call.job call.options hall.world move with
      | some (batch, world) =>
        { hall with world, calls := hall.calls.set place { call with batch } }
      | none => hall
    | none => hall
  | .upsert new now => { hall with world := (World.operations.upsert new now hall.world).2 }
  | .hold id =>
    if hall.world.claimed.contains id then hall
    else
      { hall with
        world := { hall.world with claimed := id :: hall.world.claimed }
        held := id :: hall.held }
  | .letGo id =>
    if hall.held.contains id then
      { hall with
        world := { hall.world with claimed := hall.world.claimed.filter fun other => other != id }
        held := hall.held.erase id }
    else hall
  | .elsewhere rest => { hall with world := { hall.world with rest } }

/-- The hall behind a sequence of moves. -/
def run (hall : Hall β) (moves : List (Move β)) : Hall β :=
  moves.foldl step hall

/-- The workers at work, of all batches. -/
def workers (hall : Hall β) : List Worker :=
  hall.calls.flatMap fun call => call.batch.working

/-- The records for which there is a guard: those held outside, and one for each worker. -/
def guards (hall : Hall β) : List RecordId :=
  hall.held ++ hall.workers.map fun worker => worker.record.id

/-- The worker who makes a step with a move, and the outfit that it has. -/
def mover? (hall : Hall β) : Move β → Option (Outfit β × Execution)
  | .step place (.worker seat) => do
    let call ← hall.calls[place]?
    let worker ← call.batch.working[seat]?
    return (call.outfit, worker.execution)
  | _ => none

/-- The record and the pass for which an invocation is started with a move. -/
def started (hall : Hall β) (move : Move β) : List (RecordId × String) :=
  match hall.mover? move with
  | some (_, e) => e.starts
  | none => []

/-- The record and the pass for which an invocation returns an output with a move. -/
def returned (hall : Hall β) (move : Move β) : List (RecordId × String) :=
  match hall.mover? move with
  | some (o, e) => e.returns o hall.world
  | none => []

/-- The invocations that are started along a sequence of moves. -/
def startedAlong (hall : Hall β) : List (Move β) → List (RecordId × String)
  | [] => []
  | move :: moves => hall.started move ++ (hall.step move).startedAlong moves

/-- The invocations that return an output along a sequence of moves. -/
def returnedAlong (hall : Hall β) : List (Move β) → List (RecordId × String)
  | [] => []
  | move :: moves => hall.returned move ++ (hall.step move).returnedAlong moves

/-! ### The invariant -/

/-- What holds of a hall: the claims are those of the guards, each record has one guard at most, and
each worker is alone on its record. -/
structure Sound (hall : Hall β) : Prop where
  backed : hall.world.store.Backed
  claimed : ∀ id, id ∈ hall.world.claimed ↔ id ∈ hall.guards
  nodup : hall.guards.Nodup
  calls : ∀ call ∈ hall.calls, call.Sound hall.world.store
  workers : ∀ worker ∈ hall.workers,
    worker.execution.Exclusive worker.record.id hall.world.store

/-- Holds of what needs no invocation any more: there is a result, or a worker is about to commit
one. -/
def Settled (hall : Hall β) (k : RecordId × String) : Prop :=
  k ∈ hall.world.store.keys ∨ ∃ worker ∈ hall.workers, ∃ d result,
    worker.execution.phase = .committing d result ∧ k = (worker.record.id, result.pass)

/-- The workers of the other batches. -/
def others (hall : Hall β) (place : Nat) : List Worker :=
  (hall.calls.eraseIdx place).flatMap fun call => call.batch.working

/-- The hall with the batch in a place and the world replaced. -/
def replaced (hall : Hall β) (place : Nat) (call : Call β) (world : World β) : Hall β :=
  { hall with world, calls := hall.calls.set place call }

lemma workers_perm {hall : Hall β} {place : Nat} {call : Call β}
    (h : hall.calls[place]? = some call) :
    hall.workers.Perm (call.batch.working ++ hall.others place) := by
  obtain ⟨lt, rfl⟩ := List.getElem?_eq_some_iff.1 h
  exact (List.getElem_cons_eraseIdx_perm lt).symm.flatMap_right fun call => call.batch.working

lemma workers_replaced {hall : Hall β} {place : Nat} {call : Call β}
    (h : hall.calls[place]? = some call) (call' : Call β) (world : World β) :
    (hall.replaced place call' world).workers.Perm
      (call'.batch.working ++ hall.others place) := by
  obtain ⟨lt, -⟩ := List.getElem?_eq_some_iff.1 h
  exact (List.set_perm_cons_eraseIdx lt call').flatMap_right fun call => call.batch.working

/-- The order of the workers does not matter. -/
lemma Sound.of_perm {hall : Hall β} {active : List Worker} (perm : hall.workers.Perm active)
    (backed : hall.world.store.Backed)
    (claimed : ∀ id, id ∈ hall.world.claimed ↔
      id ∈ hall.held ++ active.map fun worker => worker.record.id)
    (nodup : (hall.held ++ active.map fun worker => worker.record.id).Nodup)
    (calls : ∀ call ∈ hall.calls, call.Sound hall.world.store)
    (workers : ∀ worker ∈ active,
      worker.execution.Exclusive worker.record.id hall.world.store) : hall.Sound := by
  have guards : hall.guards.Perm (hall.held ++ active.map fun worker => worker.record.id) :=
    (perm.map _).append_left hall.held
  refine ⟨backed, fun id => ?_, guards.nodup_iff.2 nodup, calls, fun worker mem => ?_⟩
  · rw [claimed, guards.mem_iff]
  · exact workers worker (perm.mem_iff.1 mem)

end Hall

lemma Call.Sound.mono {β : Type} {call : Call β} {s s' : MemoryStore} (sound : call.Sound s)
    (ids : s.ids ⊆ s'.ids) : call.Sound s' :=
  { sound with queue := fun r mem => ids (sound.queue r mem) }

namespace Hall

variable {β : Type}

/-- All batches stay sound when one of them is replaced and records are kept. -/
lemma Sound.calls_replaced {hall : Hall β} {place : Nat} {call : Call β} {world : World β}
    (sound : hall.Sound) (soundCall : call.Sound world.store)
    (ids : hall.world.store.ids ⊆ world.store.ids) :
    ∀ other ∈ (hall.replaced place call world).calls, other.Sound world.store := by
  intro other mem
  obtain mem | rfl := List.mem_or_eq_of_mem_set mem
  · exact (sound.calls other mem).mono ids
  · exact soundCall

/-- Workers on other records can rely on the same behind a step of one of them. -/
lemma Sound.others_exclusive {hall : Hall β} {worker : Worker} {rest : List Worker} {w' : World β}
    (sound : hall.Sound) (perm : hall.workers.Perm (worker :: rest))
    (effect : Execution.Effect worker.record.id hall.world w') :
    ∀ other ∈ rest, other.execution.Exclusive other.record.id w'.store := by
  have nodup : (hall.workers.map fun worker => worker.record.id).Nodup :=
    (List.nodup_append.1 sound.nodup).2.1
  rw [(perm.map _).nodup_iff, List.map_cons, List.nodup_cons] at nodup
  intro other mem
  have ne : other.record.id ≠ worker.record.id := fun eq =>
    nodup.1 (eq ▸ List.mem_map_of_mem mem)
  have exclusive := sound.workers other (perm.mem_iff.2 (List.mem_cons_of_mem worker mem))
  refine exclusive.frame effect.ids fun pass => ⟨fun mem => ?_, fun mem => effect.keys mem⟩
  exact effect.others _ mem ne

/-- What is settled stays so behind a step of a worker, as long as the others go on as they are. -/
lemma Sound.settled_of_work {hall hall' : Hall β} {worker : Worker} {rest : List Worker}
    {job : Job} {state : WorkerState} {k : RecordId × String} {w' : World β} (sound : hall.Sound)
    (perm : hall.workers.Perm (worker :: rest))
    (t : Execution.Transition job worker.execution hall.world state w')
    (store : hall'.world.store = w'.store) (stay : rest ⊆ hall'.workers)
    (settled : hall.Settled k) : hall'.Settled k := by
  have exclusive := sound.workers worker (perm.mem_iff.2 List.mem_cons_self)
  obtain mem | ⟨other, mem, d, result, hp, rfl⟩ := settled
  · exact .inl (store ▸ t.effect.keys mem)
  · obtain rfl | mem := List.mem_cons.1 (perm.mem_iff.1 mem)
    · exact .inl (store ▸ t.settles exclusive sound.backed hp)
    · exact .inr ⟨other, stay mem, d, result, hp, rfl⟩

/-! ### One move -/

lemma Sound.hire {hall : Hall β} {place : Nat} {call : Call β} {record : Record}
    {queue : List Record} (sound : hall.Sound) (h : hall.calls[place]? = some call)
    (permit : call.batch.stage.hasPermit = true) (hq : call.batch.queue = record :: queue)
    (free : record.id ∉ hall.world.claimed) :
    let batch := call.batch.hire record call.job.registry.order
    let claimed := record.id :: hall.world.claimed
    let hall' := hall.replaced place { call with batch } { hall.world with claimed }
    hall'.Sound ∧ ∀ k, hall.Settled k → hall'.Settled k := by
  intro batch claimed hall'
  have soundCall := sound.calls call (List.mem_of_getElem? h)
  let hired : Worker :=
    ⟨call.batch.nextWorker, record, .start record call.job.registry.order⟩
  have perm : hall'.workers.Perm (hired :: hall.workers) := by
    refine (workers_replaced h _ _).trans ?_
    refine .trans ?_ ((workers_perm h).symm.cons hired)
    show ((call.batch.working ++ [hired]) ++ hall.others place).Perm _
    rw [List.append_assoc]
    exact List.perm_middle
  refine ⟨.of_perm perm sound.backed (fun id => ?_) ?_ ?_ ?_, ?_⟩
  · have := sound.claimed id
    simp only [guards, List.mem_append] at this
    show id ∈ record.id :: hall.world.claimed ↔ id ∈ hall.held ++ _
    rw [List.mem_cons, this, List.mem_append, List.map_cons, List.mem_cons]
    exact or_left_comm
  · -- What is not claimed has no guard yet.
    have fresh : record.id ∉ hall.guards := fun mem => free ((sound.claimed _).2 mem)
    show (hall.held ++ record.id :: _).Nodup
    rw [List.perm_middle.nodup_iff, List.nodup_cons]
    exact ⟨fresh, sound.nodup⟩
  · refine sound.calls_replaced ⟨?_, nofun, fun r mem => ?_⟩ (List.Subset.refl _)
    · show (call.batch.working ++ [hired]).length ≤ call.options.permits
      rw [List.length_append]
      exact soundCall.spare permit
    · exact soundCall.queue r (List.mem_of_mem_tail mem)
  · intro worker mem
    obtain rfl | mem := List.mem_cons.1 mem
    · refine Execution.exclusive_of_phase rfl (soundCall.queue record ?_) rfl
      rw [hq]
      exact List.mem_cons_self
    · exact sound.workers worker mem
  · rintro k (mem | ⟨worker, mem, settling⟩)
    · exact .inl mem
    · exact .inr ⟨worker, perm.mem_iff.2 (List.mem_cons_of_mem hired mem), settling⟩

/-- The worker in a seat of a batch, and all the others. -/
lemma workers_perm_cons {hall : Hall β} {place seat : Nat} {call : Call β} {worker : Worker}
    (h : hall.calls[place]? = some call) (hw : call.batch.working[seat]? = some worker) :
    hall.workers.Perm (worker :: (call.batch.working.eraseIdx seat ++ hall.others place)) := by
  obtain ⟨lt, rfl⟩ := List.getElem?_eq_some_iff.1 hw
  refine (workers_perm h).trans ?_
  exact (List.getElem_cons_eraseIdx_perm lt).symm.append_right (hall.others place)

lemma Sound.proceed {hall : Hall β} {place seat : Nat} {call : Call β} {worker : Worker}
    {e' : Execution} {w' : World β} (sound : hall.Sound) (h : hall.calls[place]? = some call)
    (hw : call.batch.working[seat]? = some worker)
    (t : Execution.Transition call.job worker.execution hall.world (.running e') w') :
    let hall' := hall.replaced place { call with batch := call.batch.proceed seat worker e' } w'
    hall'.Sound ∧ (∀ k, hall.Settled k → hall'.Settled k) ∧
      { worker with execution := e' } ∈ hall'.workers := by
  intro hall'
  have soundCall := sound.calls call (List.mem_of_getElem? h)
  have before := workers_perm_cons h hw
  have exclusive := sound.workers worker (before.mem_iff.2 List.mem_cons_self)
  have effect := exclusive.current ▸ t.effect
  obtain ⟨backed, exclusive'⟩ := t.exclusive exclusive sound.backed
  have after : hall'.workers.Perm ({ worker with execution := e' } ::
      (call.batch.working.eraseIdx seat ++ hall.others place)) := by
    obtain ⟨lt, -⟩ := List.getElem?_eq_some_iff.1 hw
    refine (workers_replaced h _ _).trans ?_
    exact (List.set_perm_cons_eraseIdx lt _).append_right (hall.others place)
  -- The worker keeps its record, so that the guards are the same.
  have same := before.map fun worker => worker.record.id
  refine ⟨.of_perm after backed (fun id => ?_) ?_ ?_ ?_, fun k settled => ?_, ?_⟩
  · show id ∈ w'.claimed ↔ _
    rw [effect.claimed, sound.claimed]
    exact (same.append_left hall.held).mem_iff
  · exact (same.append_left hall.held).nodup_iff.1 sound.nodup
  · refine sound.calls_replaced ⟨?_, fun permit => ?_, fun r mem => ?_⟩ effect.ids
    · show (call.batch.working.set seat _).length ≤ _
      rw [List.length_set]
      exact soundCall.permits
    · show (call.batch.working.set seat _).length < _
      rw [List.length_set]
      exact soundCall.spare permit
    · exact effect.ids (soundCall.queue r mem)
  · intro other mem
    obtain rfl | mem := List.mem_cons.1 mem
    · exact exclusive'
    · exact sound.others_exclusive before effect other mem
  · exact sound.settled_of_work before t rfl
      (fun other mem => after.mem_iff.2 (List.mem_cons_of_mem _ mem)) settled
  · exact after.mem_iff.2 List.mem_cons_self

lemma Sound.dismiss {hall : Hall β} {place seat : Nat} {call : Call β} {worker : Worker}
    {state : WorkerState} {w' : World β} {ended : List Finished} (sound : hall.Sound)
    (h : hall.calls[place]? = some call) (hw : call.batch.working[seat]? = some worker)
    (t : Execution.Transition call.job worker.execution hall.world state w') :
    let batch := { call.batch with working := call.batch.working.eraseIdx seat, ended }
    let claimed := w'.claimed.filter fun id => id != worker.record.id
    let hall' := hall.replaced place { call with batch } { w' with claimed }
    hall'.Sound ∧ ∀ k, hall.Settled k → hall'.Settled k := by
  intro batch claimed hall'
  have soundCall := sound.calls call (List.mem_of_getElem? h)
  have before := workers_perm_cons h hw
  have exclusive := sound.workers worker (before.mem_iff.2 List.mem_cons_self)
  have effect := exclusive.current ▸ t.effect
  obtain ⟨backed, -⟩ := t.exclusive exclusive sound.backed
  have after : hall'.workers.Perm (call.batch.working.eraseIdx seat ++ hall.others place) :=
    workers_replaced h _ _
  -- With the worker goes its guard, which was the only one of its record.
  have guards : hall.guards.Perm (worker.record.id :: (hall.held ++
      (call.batch.working.eraseIdx seat ++ hall.others place).map fun worker =>
        worker.record.id)) := by
    refine ((before.map fun worker => worker.record.id).append_left hall.held).trans ?_
    rw [List.map_cons]
    exact List.perm_middle
  have nodup := guards.nodup_iff.1 sound.nodup
  rw [List.nodup_cons] at nodup
  refine ⟨.of_perm after backed (fun id => ?_) nodup.2 ?_ ?_, fun k settled => ?_⟩
  · show id ∈ w'.claimed.filter _ ↔ id ∈ hall.held ++ _
    rw [effect.claimed, List.mem_filter, sound.claimed, guards.mem_iff, List.mem_cons, bne_iff_ne]
    refine ⟨fun ⟨mem, ne⟩ => mem.resolve_left ne, fun mem => ⟨.inr mem, fun eq => ?_⟩⟩
    exact nodup.1 (eq ▸ mem)
  · have shorter : (call.batch.working.eraseIdx seat).length ≤ call.batch.working.length :=
      List.length_eraseIdx_le call.batch.working seat
    refine sound.calls_replaced ⟨?_, fun permit => ?_, fun r mem => ?_⟩ effect.ids
    · exact Nat.le_trans shorter soundCall.permits
    · exact Nat.lt_of_le_of_lt shorter (soundCall.spare permit)
    · exact effect.ids (soundCall.queue r mem)
  · exact fun other mem => sound.others_exclusive before effect other mem
  · exact sound.settled_of_work before t rfl (fun other mem => after.mem_iff.2 mem) settled

lemma Sound.coordinate {hall : Hall β} {place : Nat} {call : Call β} {batch : Batch}
    (sound : hall.Sound) (h : hall.calls[place]? = some call)
    (working : batch.working = call.batch.working) (queue : batch.queue ⊆ call.batch.queue)
    (permit : batch.stage.hasPermit = true →
      call.batch.stage.hasPermit = true ∨ call.batch.working.length < call.options.permits) :
    let hall' := hall.replaced place { call with batch } hall.world
    hall'.Sound ∧ ∀ k, hall.Settled k → hall'.Settled k := by
  intro hall'
  have soundCall := sound.calls call (List.mem_of_getElem? h)
  have perm : hall'.workers.Perm hall.workers := by
    refine (workers_replaced h _ _).trans ?_
    show (batch.working ++ _).Perm _
    rw [working]
    exact (workers_perm h).symm
  refine ⟨.of_perm perm sound.backed sound.claimed sound.nodup ?_ sound.workers, ?_⟩
  · refine sound.calls_replaced ⟨?_, fun has => ?_, fun r mem => ?_⟩ (List.Subset.refl _)
    · exact working ▸ soundCall.permits
    · show batch.working.length < _
      rw [working]
      exact (permit has).elim soundCall.spare id
    · exact soundCall.queue r (queue mem)
  · rintro k (mem | ⟨worker, mem, settling⟩)
    · exact .inl mem
    · exact .inr ⟨worker, perm.mem_iff.2 mem, settling⟩

lemma Sound.call {hall : Hall β} (sound : hall.Sound) (outfit : Outfit β) (job : Job)
    (options : RunOptions) :
    (hall.step (.call outfit job options)).Sound ∧
      ∀ k, hall.Settled k → (hall.step (.call outfit job options)).Settled k := by
  let pending := hall.world.store.records.filter fun r =>
    r.isPending job.registry.order options.pendingCheck
  let call : Call β :=
    { outfit, job, options, batch := .start job.runId options (Batch.select options pending) }
  have ended : hall.step (.call outfit job options) =
      { hall with calls := hall.calls ++ [call] } := rfl
  have same : ({ hall with calls := hall.calls ++ [call] } : Hall β).workers = hall.workers := by
    show (hall.calls ++ [call]).flatMap _ = _
    rw [List.flatMap_append]
    exact List.append_nil _
  rw [ended]
  refine ⟨.of_perm (same ▸ .refl _) sound.backed sound.claimed sound.nodup ?_ sound.workers, ?_⟩
  · intro other mem
    obtain mem | mem := List.mem_append.1 mem
    · exact sound.calls other mem
    · -- A batch starts without workers, and its queue was listed just now.
      cases List.mem_singleton.1 mem
      refine ⟨Nat.zero_le _, nofun, fun r mem => ?_⟩
      have selected : r ∈ pending := by
        have mem : r ∈ Batch.select options pending := mem
        simp only [Batch.select] at mem
        split at mem
        · exact List.mem_of_mem_take mem
        · exact mem
      exact MemoryStore.mem_ids (List.mem_of_mem_filter selected)
  · rintro k (mem | settling)
    · exact .inl mem
    · exact .inr (same.symm ▸ settling)

lemma Sound.upsert {hall : Hall β} (sound : hall.Sound) (new : NewRecord) (now : Timestamp) :
    (hall.step (.upsert new now)).Sound ∧
      ∀ k, hall.Settled k → (hall.step (.upsert new now)).Settled k := by
  obtain ⟨ids, keys⟩ := MemoryStore.upsert_keeps hall.world.store new now
  refine ⟨⟨sound.backed.upsert new now, sound.claimed, sound.nodup, fun call mem => ?_,
    fun worker mem => ?_⟩, ?_⟩
  · exact (sound.calls call mem).mono ids
  · refine (sound.workers worker mem).frame ids fun pass => ?_
    show _ ∈ (MemoryStore.upsert new now hall.world.store).2.keys ↔ _
    rw [keys]
  · rintro k (mem | settling)
    · refine .inl ?_
      show k ∈ (MemoryStore.upsert new now hall.world.store).2.keys
      rw [keys]
      exact mem
    · exact .inr settling

lemma Sound.hold {hall : Hall β} (sound : hall.Sound) (id : RecordId) :
    (hall.step (.hold id)).Sound ∧ ∀ k, hall.Settled k → (hall.step (.hold id)).Settled k := by
  simp only [step]
  split
  · exact ⟨sound, fun _ settled => settled⟩
  · next free =>
    have fresh : id ∉ hall.guards := fun mem =>
      free (List.contains_iff_mem.2 ((sound.claimed id).2 mem))
    refine ⟨⟨sound.backed, fun other => ?_, ?_, sound.calls, sound.workers⟩,
      fun _ settled => settled⟩
    · show other ∈ id :: hall.world.claimed ↔ other ∈ id :: hall.guards
      rw [List.mem_cons, List.mem_cons, sound.claimed]
    · exact List.nodup_cons.2 ⟨fresh, sound.nodup⟩

lemma Sound.letGo {hall : Hall β} (sound : hall.Sound) (id : RecordId) :
    (hall.step (.letGo id)).Sound ∧ ∀ k, hall.Settled k → (hall.step (.letGo id)).Settled k := by
  simp only [step]
  split
  · next held =>
    have perm : hall.guards.Perm
        (id :: (hall.held.erase id ++ hall.workers.map fun worker => worker.record.id)) :=
      (List.perm_cons_erase (List.contains_iff_mem.1 held)).append_right _
    have nodup := perm.nodup_iff.1 sound.nodup
    rw [List.nodup_cons] at nodup
    refine ⟨⟨sound.backed, fun other => ?_, nodup.2, sound.calls, sound.workers⟩,
      fun _ settled => settled⟩
    show other ∈ hall.world.claimed.filter _ ↔
      other ∈ hall.held.erase id ++ hall.workers.map fun worker => worker.record.id
    rw [List.mem_filter, sound.claimed, perm.mem_iff, List.mem_cons, bne_iff_ne]
    refine ⟨fun ⟨mem, ne⟩ => mem.resolve_left ne, fun mem => ⟨.inr mem, fun eq => ?_⟩⟩
    exact nodup.1 (eq ▸ mem)
  · exact ⟨sound, fun _ settled => settled⟩

/-- Every move keeps a hall sound, and what is settled stays so. -/
theorem Sound.step {hall : Hall β} (sound : hall.Sound) (move : Move β) :
    (hall.step move).Sound ∧ ∀ k, hall.Settled k → (hall.step move).Settled k := by
  cases move with
  | call outfit job options => exact sound.call outfit job options
  | step place move =>
    simp only [Hall.step]
    split
    · next call h =>
      split
      · next batch world hs =>
        cases Batch.transition_step hs with
        | coordinate working queue permit => exact sound.coordinate h working queue permit
        | hire permit queue free => exact sound.hire h permit queue free
        | proceed hw t =>
          obtain ⟨sound', settled, -⟩ := sound.proceed h hw t
          exact ⟨sound', settled⟩
        | dismiss hw t _ => exact sound.dismiss h hw t
      · exact ⟨sound, fun _ settled => settled⟩
    · exact ⟨sound, fun _ settled => settled⟩
  | upsert new now => exact sound.upsert new now
  | hold id => exact sound.hold id
  | letGo id => exact sound.letGo id
  | elsewhere rest =>
    exact ⟨⟨sound.backed, sound.claimed, sound.nodup, sound.calls, sound.workers⟩,
      fun _ settled => settled⟩

/-- The seat of the worker who makes a step. -/
lemma mover?_eq_some {hall : Hall β} {move : Move β} {o : Outfit β} {e : Execution}
    (h : hall.mover? move = some (o, e)) :
    ∃ place seat call worker, move = .step place (.worker seat) ∧
      hall.calls[place]? = some call ∧ call.batch.working[seat]? = some worker ∧
      o = call.outfit ∧ e = worker.execution := by
  simp only [mover?] at h
  split at h
  · next place seat =>
    obtain ⟨call, hc, h⟩ := Option.bind_eq_some_iff.1 h
    obtain ⟨worker, hw, h⟩ := Option.bind_eq_some_iff.1 h
    cases h
    exact ⟨place, seat, call, worker, rfl, hc, hw, rfl, rfl⟩
  · cases h

/-- For what is settled no invocation is started. -/
lemma Sound.not_started {hall : Hall β} (sound : hall.Sound) {move : Move β}
    {k : RecordId × String} (mem : k ∈ hall.started move) : ¬ hall.Settled k := by
  simp only [started] at mem
  split at mem
  · next o e h =>
    obtain ⟨place, seat, call, worker, -, hc, hw, -, rfl⟩ := mover?_eq_some h
    have perm := workers_perm_cons hc hw
    have memw : worker ∈ hall.workers := perm.mem_iff.2 List.mem_cons_self
    have exclusive := sound.workers worker memw
    have eq : k.1 = worker.record.id := exclusive.current ▸ worker.execution.starts_id mem
    rintro (stored | ⟨other, memo, d, result, hp, rfl⟩)
    · exact exclusive.not_starts mem stored
    · -- Of the workers on a record there is one, and it cannot be in two phases.
      have nodup : (hall.workers.map fun worker => worker.record.id).Nodup :=
        (List.nodup_append.1 sound.nodup).2.1
      obtain rfl : other = worker := List.inj_on_of_nodup_map nodup memo memw eq
      simp [Execution.starts, hp] at mem
  · cases mem

/-- What gets an output is settled. -/
lemma Sound.settled_of_returned {hall : Hall β} (sound : hall.Sound) {move : Move β}
    {k : RecordId × String} (mem : k ∈ hall.returned move) : (hall.step move).Settled k := by
  simp only [returned] at mem
  split at mem
  · next o e h =>
    obtain ⟨place, seat, call, worker, rfl, hc, hw, rfl, rfl⟩ := mover?_eq_some h
    obtain ⟨e', d, result, hs, hp, rfl⟩ := Execution.step_of_returns call.job mem
    have t := Execution.transition_step call.outfit call.job worker.execution hall.world
    have current := (sound.workers worker
      ((workers_perm_cons hc hw).mem_iff.2 List.mem_cons_self)).current
    cases hw' : worker.execution.step call.outfit.environment call.job hall.world with
    | mk state w' =>
      rw [hw'] at t hs
      cases hs
      obtain ⟨-, -, mem⟩ := sound.proceed hc hw t
      have ended : hall.step (.step place (.worker seat)) = hall.replaced place
          { call with batch := call.batch.proceed seat worker e' } w' := by
        have work : call.batch.work call.outfit.workshop call.job seat worker hall.world =
            (call.batch.proceed seat worker e', w') := by
          simp only [Batch.work]
          rw [show worker.execution.step call.outfit.workshop.environment call.job hall.world = _
            from hw']
        simp [Hall.step, hc, Batch.step, hw, work, replaced]
      rw [ended]
      exact .inr ⟨_, mem, d, result, hp, by rw [current]⟩
  · cases mem

/-! ### Sequences of moves -/

/-- A hall stays sound, and what is settled stays so. -/
theorem Sound.run {hall : Hall β} (sound : hall.Sound) (moves : List (Move β)) :
    (hall.run moves).Sound ∧ ∀ k, hall.Settled k → (hall.run moves).Settled k := by
  induction moves generalizing hall with
  | nil => exact ⟨sound, fun _ settled => settled⟩
  | cons move moves ih =>
    obtain ⟨sound', settled'⟩ := sound.step move
    obtain ⟨sound'', settled''⟩ := ih sound'
    exact ⟨sound'', fun k settled => settled'' k (settled' k settled)⟩

/-- For what is settled no invocation is started any more. -/
theorem Sound.not_startedAlong {hall : Hall β} (sound : hall.Sound) {k : RecordId × String}
    (settled : hall.Settled k) (moves : List (Move β)) : k ∉ hall.startedAlong moves := by
  induction moves generalizing hall with
  | nil => exact List.not_mem_nil
  | cons move moves ih =>
    obtain ⟨sound', settled'⟩ := sound.step move
    intro mem
    obtain mem | mem := List.mem_append.1 mem
    · exact sound.not_started mem settled
    · exact ih sound' (settled' k settled) mem

/-- What got an output along a sequence of moves is settled. -/
theorem Sound.settled_of_returnedAlong {hall : Hall β} (sound : hall.Sound)
    {k : RecordId × String} (moves : List (Move β)) (mem : k ∈ hall.returnedAlong moves) :
    (hall.run moves).Settled k := by
  induction moves generalizing hall with
  | nil => cases mem
  | cons move moves ih =>
    obtain ⟨sound', -⟩ := sound.step move
    obtain mem | mem := List.mem_append.1 mem
    · exact (sound'.run moves).2 k (sound.settled_of_returned mem)
    · exact ih sound' mem

lemma sound_start {store : MemoryStore} (backed : store.Backed) (rest : β) :
    (start store rest).Sound where
  backed := backed
  claimed := fun _ => Iff.rfl
  nodup := List.nodup_nil
  calls := fun _ mem => absurd mem List.not_mem_nil
  workers := fun _ mem => absurd mem List.not_mem_nil

/-- In every state of a hall that starts from any store with a result for each completed pass: no
two workers are on one record; the claimed records are those with a guard, and have one each; every
batch has at most as many workers as it has permits; and once an invocation for a record and a pass
has returned an output, none is started for them, whenever the records of a batch were selected. -/
theorem run_excludes (history : List (Timestamp × Request Record RecordId)) (rest : β)
    (earlier later : List (Move β))
    (backed : (Request.performAll MemoryStore.operations history {}).Backed) :
    let hall := start (Request.performAll MemoryStore.operations history {}) rest
    let hall' := hall.run earlier
    (hall'.workers.map fun worker => worker.record.id).Nodup ∧
      hall'.guards.Nodup ∧ (∀ id, id ∈ hall'.world.claimed ↔ id ∈ hall'.guards) ∧
      (∀ call ∈ hall'.calls, call.batch.working.length ≤ max 1 call.options.concurrency) ∧
      ∀ k ∈ hall.returnedAlong earlier, k ∉ hall'.startedAlong later := by
  intro hall hall'
  have sound : hall.Sound := sound_start backed rest
  obtain ⟨sound', -⟩ := sound.run earlier
  have nodup := List.nodup_append.1 sound'.nodup
  refine ⟨nodup.2.1, sound'.nodup, sound'.claimed, fun call mem => ?_, fun k mem => ?_⟩
  · exact (sound'.calls call mem).permits
  · exact sound'.not_startedAlong (sound.settled_of_returnedAlong earlier mem) later

/-- Two batches select the same record before either of them claims it. The second one comes to it
when the pass is done, and does not invoke the backend. -/
theorem run_excludes_of_overlap :
    let history : List (Timestamp × Request Record RecordId) :=
      [(0, .upsert ⟨"a", none, "", "", .null⟩)]
    let store := Request.performAll MemoryStore.operations history {}
    let outfit := Outfit.constant (.output ⟨"", .text "clean", none⟩)
    let call : Move Unit := .call outfit (Job.single "lint") {}
    let coordinate := fun place => List.replicate 5 (Move.step place .coordinator)
    let work := fun place => List.replicate 6 (Move.step place (.worker 0))
    let earlier := [call, call] ++ coordinate 0 ++ work 0
    let later := coordinate 1 ++ work 1
    let hall := start store ()
    store.Backed ∧ hall.returnedAlong earlier = [(1, "lint")] ∧
      (hall.run (earlier ++ coordinate 1)).guards = [1] ∧
      (1, "lint") ∉ (hall.run earlier).startedAlong later := by
  intro history store outfit call coordinate work earlier later hall
  have backed : store.Backed := by decide
  have returned : hall.returnedAlong earlier = [(1, "lint")] := by decide
  obtain ⟨-, -, -, -, once⟩ := run_excludes history () earlier later backed
  refine ⟨backed, returned, by decide, once _ ?_⟩
  rw [show (start _ ()).returnedAlong earlier = _ from returned]
  exact List.mem_singleton_self _

end Hall

end Multipass
