import Multipass.Proofs.Executor.Transition
import Multipass.Proofs.Store.Addition

/-!
# Stores in step

A store is in step when the results of each record are those of its completed passes, in the same
order. A worker on such a store never recovers a result: what has a result is completed. So passes
are completed by commits alone, and a commit completes what was neither completed nor stored.

Main statement: `Execution.Transition.keeps`, by which a step of a worker keeps a store in step and
reports as completed exactly what it completes.
-/

namespace Multipass

/-! ### Completed outcomes -/

namespace WorkerState

/-- The outcomes that a worker has reported. -/
def outcomes : WorkerState → List PassReport
  | .running e => e.report.outcomes
  | .finished run => run.outcomes
  | .aborted _ => []
  | .panicked _ => []

/-- The passes that a worker has reported as completed from one state to a later one. -/
def completedSince (before after : WorkerState) : List String :=
  ((after.outcomes.drop before.outcomes.length).filter fun o => o.outcome.isCompleted).map
    PassReport.pass

@[simp] lemma completedSince_same {before after : WorkerState}
    (h : after.outcomes = before.outcomes) : completedSince before after = [] := by
  simp [completedSince, h]

lemma completedSince_push {before after : WorkerState} {o : PassReport}
    (h : after.outcomes = before.outcomes ++ [o]) :
    completedSince before after = if o.outcome.isCompleted then [o.pass] else [] := by
  simp only [completedSince, h, List.drop_left]
  cases hc : o.outcome.isCompleted <;> simp [hc]

end WorkerState

/-! ### Stores in step -/

namespace MemoryStore

/-- The passes of the results of a record, in order. -/
def passesKept (s : MemoryStore) (id : RecordId) : List String :=
  (s.resultsOf id).map PassResult.pass

/-- Holds when the results of each record are those of its completed passes, in the same order. -/
def InStep (s : MemoryStore) : Prop :=
  ∀ r ∈ s.records, s.passesKept r.id = r.completed

instance (s : MemoryStore) : Decidable s.InStep :=
  inferInstanceAs (Decidable (∀ r ∈ s.records, s.passesKept r.id = r.completed))

lemma passesKept_eq (s : MemoryStore) (id : RecordId) :
    s.passesKept id = (s.keys.filter fun k => k.1 = id).map Prod.snd := by
  simp only [passesKept, resultsOf, keys, List.filter_map, List.map_map]
  congr 1

lemma mem_passesKept {s : MemoryStore} {id : RecordId} {pass : String} :
    pass ∈ s.passesKept id ↔ (id, pass) ∈ s.keys := by
  simp [passesKept_eq]

/-- What is on the list of its record is spent. -/
lemma spent_of_listed {s : MemoryStore} (wf : s.WellFormed) {r : Record} {pass : String}
    (mem : r ∈ s.records) (listed : pass ∈ r.completed) : s.Spent (r.id, pass) where
  given := wf.below_of_mem mem
  listed := by
    intro r' mem' eq
    rw [wf.eq_of_id mem' mem eq]
    exact listed

/-- In a store in step, a pass with a result is spent. -/
lemma InStep.spent {s : MemoryStore} (inStep : s.InStep) (wf : s.WellFormed) {id : RecordId}
    {pass : String} (mem : (id, pass) ∈ s.keys) : s.Spent (id, pass) := by
  obtain ⟨r, memr, rfl⟩ := List.mem_map.1 (wf.owned _ mem)
  refine spent_of_listed wf memr ?_
  rw [← inStep r memr]
  exact mem_passesKept.2 mem

lemma InStep.inserted {s : MemoryStore} (inStep : s.InStep) (wf : s.WellFormed) (new : NewRecord)
    (now : Timestamp) : (s.inserted new now).InStep := by
  intro r mem
  obtain mem | rfl := by simpa [MemoryStore.inserted] using mem
  · exact inStep r mem
  · show s.passesKept s.nextId = []
    rw [passesKept_eq, List.map_eq_nil_iff, List.filter_eq_nil_iff]
    intro k memk eq
    exact absurd (of_decide_eq_true eq) (Int.ne_of_lt (wf.below _ (wf.owned k memk)))

lemma InStep.refreshed {s : MemoryStore} (inStep : s.InStep) (id : RecordId) (new : NewRecord)
    (now : Timestamp) : (s.refreshed id new now).InStep := by
  intro r' mem'
  obtain ⟨r, mem, rfl⟩ := mem_modifyRecord.1 mem'
  split
  · exact inStep r mem
  · exact inStep r mem

lemma InStep.removed {s : MemoryStore} (inStep : s.InStep) (id : RecordId) :
    (s.removed id).InStep := by
  intro r mem
  obtain ⟨mem, other⟩ := List.mem_filter.1 mem
  rw [← inStep r mem, passesKept_eq, passesKept_eq, keys_removed, List.filter_filter]
  congr 1
  refine List.filter_congr fun k _ => ?_
  by_cases h : k.1 = r.id
  · simpa [h] using other
  · simp [h]

lemma InStep.committed {s : MemoryStore} (inStep : s.InStep) {stored : Record}
    {result : PassResult} (now : Timestamp) (mem : stored ∈ s.records)
    (free : result.pass ∉ stored.completed) :
    (((s.completed stored.id result.pass now).dropped stored.id result.pass).kept
      stored.id result).InStep := by
  have none : (stored.id, result.pass) ∉ s.keys := by
    rw [← mem_passesKept, inStep stored mem]
    exact free
  have all : (s.keys.filter fun k => k ≠ (stored.id, result.pass)) = s.keys := by
    rw [List.filter_eq_self]
    intro k memk
    simpa using fun eq : k = (stored.id, result.pass) => none (eq ▸ memk)
  intro r' mem'
  obtain ⟨r, memr, rfl⟩ := mem_modifyRecord.1 mem'
  have id_eq : (if r.id = stored.id then r.complete result.pass now else r).id = r.id := by
    split <;> rfl
  rw [id_eq, passesKept_eq, keys_kept, keys_dropped]
  show (((s.keys.filter fun k => k ≠ (stored.id, result.pass)) ++ _).filter _).map _ = _
  rw [all, List.filter_append, List.map_append, ← passesKept_eq, inStep r memr]
  by_cases h : r.id = stored.id
  · simp [h, Record.complete]
  · simp [h, Ne.symm h]

lemma InStep.upsert {s : MemoryStore} (inStep : s.InStep) (wf : s.WellFormed) (new : NewRecord)
    (now : Timestamp) : (MemoryStore.upsert new now s).2.InStep := by
  simp only [MemoryStore.upsert]
  split
  · split
    · exact inStep
    · exact inStep.refreshed _ new now
  · exact inStep.inserted wf new now

lemma InStep.delete {s : MemoryStore} (inStep : s.InStep) (path : String) :
    (MemoryStore.delete path s).2.InStep := by
  simp only [MemoryStore.delete]
  split
  · exact inStep
  · exact inStep.removed _

end MemoryStore

/-! ### One worker -/

namespace Execution

open MemoryStore (Gain)

variable {β : Type}

/-- What holds of a worker on the record of a number: a result that it wants to commit is of the
pass at hand, and a pass that it wants to recover is spent. -/
structure Sound (e : Execution) (id : RecordId) (s : MemoryStore) : Prop where
  current : e.current.id = id
  committing : ∀ d result, e.phase = .committing d result → e.remaining.head? = some result.pass
  recovering : ∀ d pass, e.phase = .recovering d → e.remaining.head? = some pass →
    s.Spent (id, pass)

/-- A worker stays sound whatever others do to the store. -/
lemma Sound.change {e : Execution} {id : RecordId} {s s' : MemoryStore} {c : Gain}
    (sound : e.Sound id s) (change : MemoryStore.Change s c s') (wf : s.WellFormed) :
    e.Sound id s' :=
  { sound with
    recovering := fun d pass hp hr => (sound.recovering d pass hp hr).change change wf }

/-- A worker in any other phase is sound on its record. -/
lemma sound_of_phase {e : Execution} {id : RecordId} {s : MemoryStore} (h : e.current.id = id)
    (hp : e.phase.relies = false) : e.Sound id s where
  current := h
  committing := fun d result eq => by simp [eq, Phase.relies] at hp
  recovering := fun d _ eq => by simp [eq, Phase.relies] at hp

lemma sound_start (record : Record) (order : List String) (s : MemoryStore) :
    (start record order).Sound record.id s :=
  sound_of_phase rfl rfl

lemma sound_close {e : Execution} {id : RecordId} {s : MemoryStore} (h : e.current.id = id)
    (name : String) (outcome : PassOutcome) : (e.close name outcome).Sound id s :=
  sound_of_phase h rfl

lemma sound_completed {e : Execution} {id : RecordId} {s : MemoryStore} {updated : Record}
    (h : updated.id = id) (job : Job) (pass : String) : (e.completed job pass updated).Sound id s := by
  simp only [completed]
  split
  · exact sound_of_phase h rfl
  · exact sound_of_phase h rfl

lemma outcomes_completed (e : Execution) (job : Job) (pass : String) (updated : Record) :
    (WorkerState.running (e.completed job pass updated)).outcomes =
      (WorkerState.running e).outcomes ++ [⟨pass, .completed⟩] := by
  rw [WorkerState.outcomes, report_completed]
  rfl

end Execution

/-- What holds of a worker in any state on the record of a number. -/
def WorkerState.Sound (state : WorkerState) (id : RecordId) (s : MemoryStore) : Prop :=
  match state with
  | .running e => e.Sound id s
  | _ => True

/-- A worker stays sound whatever others do to the store. -/
lemma WorkerState.Sound.change {state : WorkerState} {id : RecordId} {s s' : MemoryStore}
    {c : MemoryStore.Gain} (sound : state.Sound id s) (change : MemoryStore.Change s c s')
    (wf : s.WellFormed) : state.Sound id s' := by
  cases state with
  | running e => exact Execution.Sound.change sound change wf
  | _ => trivial

namespace Execution

open MemoryStore (Change)

variable {β : Type}

/-- What a step of a worker on a record comes to: one change of the store, by which it stays in step,
while the worker stays sound and reports as completed exactly what the change completes. -/
def Keeps (e : Execution) (id : RecordId) (s : MemoryStore) (state : WorkerState)
    (s' : MemoryStore) : Prop :=
  ∃ c, Change s c s' ∧ s'.InStep ∧ state.Sound id s' ∧
    (WorkerState.completedSince (.running e) state).map (fun pass => (id, pass)) = c.toList

/-- A step that leaves the store alone and completes nothing. -/
lemma keeps_same {e : Execution} {id : RecordId} {s : MemoryStore} {state : WorkerState}
    (inStep : s.InStep) (sound : state.Sound id s)
    (none : WorkerState.completedSince (.running e) state = []) : e.Keeps id s state s :=
  ⟨Option.none, .same, inStep, sound, by rw [none]; rfl⟩

lemma keeps_enter {e : Execution} {id : RecordId} {s : MemoryStore} {phase : Phase}
    (inStep : s.InStep) (sound : (e.enter phase).Sound id s) :
    e.Keeps id s (.running (e.enter phase)) s :=
  keeps_same inStep sound (WorkerState.completedSince_same rfl)

lemma keeps_close {e : Execution} {id : RecordId} {s : MemoryStore} {name : String}
    {outcome : PassOutcome} (inStep : s.InStep) (current : e.current.id = id)
    (h : outcome.isCompleted = false) : e.Keeps id s (.running (e.close name outcome)) s := by
  refine keeps_same inStep (sound_close current name outcome) ?_
  rw [WorkerState.completedSince_push (o := ⟨name, outcome⟩) rfl]
  simp [h]

lemma keeps_ended {e : Execution} {id : RecordId} {s : MemoryStore} {state : WorkerState}
    (inStep : s.InStep) (sound : state.Sound id s) (none : state.outcomes = []) :
    e.Keeps id s state s :=
  keeps_same inStep sound (by simp [WorkerState.completedSince, none])

/-- A step of a sound worker keeps the store in step. -/
lemma Transition.keeps {job : Job} {e : Execution} {w w' : World β} {state : WorkerState}
    {id : RecordId} (t : Transition job e w state w') (sound : e.Sound id w.store)
    (wf : w.store.WellFormed) (inStep : w.store.InStep) : e.Keeps id w.store state w'.store := by
  have current := sound.current
  cases t with
  | finish _ => exact keeps_same inStep trivial (WorkerState.completedSince_same rfl)
  | leave _ _ h => exact keeps_close inStep current h
  | gather _ _ => exact keeps_enter inStep (sound_of_phase current rfl)
  | prepare _ _ => exact keeps_enter inStep (sound_of_phase current rfl)
  | @find pass rest d ctx hr _ stored =>
    refine keeps_enter inStep ⟨current, fun _ _ h => Phase.noConfusion h, fun _ name _ hn => ?_⟩
    rw [current, eq_of_head? hr hn] at stored
    exact inStep.spent wf stored
  | miss _ _ _ =>
    exact keeps_enter inStep
      ⟨current, fun _ _ h => Phase.noConfusion h, fun _ _ h => Phase.noConfusion h⟩
  | call _ _ => exact keeps_enter inStep (sound_of_phase current rfl)
  | @receive pass rest d ctx since result other hr _ hp =>
    refine keeps_enter inStep ⟨current, fun _ result' h => ?_, fun _ _ h => Phase.noConfusion h⟩
    cases h
    show e.remaining.head? = _
    rw [hr, hp, List.head?_cons]
  | panic _ _ => exact keeps_ended inStep trivial rfl
  | @recover pass rest d stored now hr hp mem eq free =>
    -- A pass that is to be recovered is spent, and so it is on the list.
    have spent := sound.recovering d pass hp (by rw [hr, List.head?_cons])
    exact absurd (spent.listed stored mem (eq.trans current)) free
  | recoverLate _ _ _ _ _ => exact keeps_close inStep current rfl
  | recoverGone _ _ _ => exact keeps_ended inStep trivial rfl
  | @commit pass rest d result stored now hr hp mem eq free =>
    -- The pass that is reported is the one that the store appends.
    have head := eq_of_head? hr (sound.committing d result hp)
    have id_eq : (stored.complete result.pass now).id = id := eq.trans current
    refine ⟨_, .commit mem free, inStep.committed now mem free,
      sound_completed id_eq job pass, ?_⟩
    rw [WorkerState.completedSince_push (outcomes_completed ..)]
    simp [PassOutcome.isCompleted, eq, current, head]
  | commitLate _ _ _ _ _ => exact keeps_close inStep current rfl
  | commitGone _ _ _ => exact keeps_ended inStep trivial rfl
  | score _ _ => exact keeps_enter inStep (sound_of_phase current rfl)
  | refuse _ _ =>
    exact keeps_same inStep (sound_of_phase current rfl)
      (WorkerState.completedSince_same rfl)
  | save _ _ =>
    have quiet : WorkerState.completedSince (.running e) (.running e.next) = [] :=
      WorkerState.completedSince_same rfl
    exact ⟨none, .score, inStep, sound_of_phase current rfl, by rw [quiet]; rfl⟩

end Execution

end Multipass
