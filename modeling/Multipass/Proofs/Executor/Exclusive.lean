import Multipass.Proofs.Executor.Transition
import Multipass.Proofs.Store.WellFormed

/-!
# Workers with records of their own

What a worker does to the store, and what it can rely on as long as nobody else works on its record
and no record is deleted: a pass whose backend it is about to call has no result, and a pass that it
is about to complete gets one.

Main statements: `Transition.effect`, `Transition.exclusive`, and `Transition.settles`.
-/

namespace Multipass

namespace MemoryStore

/-- Holds when every completed pass has a result. -/
def Backed (s : MemoryStore) : Prop :=
  ∀ r ∈ s.records, ∀ pass ∈ r.completed, (r.id, pass) ∈ s.keys

instance (s : MemoryStore) : Decidable s.Backed :=
  inferInstanceAs (Decidable (∀ r ∈ s.records, ∀ pass ∈ r.completed, (r.id, pass) ∈ s.keys))

lemma Backed.completed {s : MemoryStore} (backed : s.Backed) {id : RecordId} {pass : String}
    (now : Timestamp) (stored : (id, pass) ∈ s.keys) : (s.completed id pass now).Backed := by
  intro r' mem' name memn
  obtain ⟨r, mem, rfl⟩ := mem_modifyRecord.1 mem'
  show _ ∈ s.keys
  split at memn
  · next eq =>
    obtain memn | rfl := by simpa [Record.complete] using memn
    · simpa [eq, Record.complete] using backed r mem name memn
    · simpa [eq, Record.complete] using stored
  · next ne => simpa [ne] using backed r mem name memn

lemma Backed.committed {s : MemoryStore} (backed : s.Backed) (id : RecordId) (result : PassResult)
    (now : Timestamp) :
    (((s.completed id result.pass now).dropped id result.pass).kept id result).Backed := by
  intro r' mem' name memn
  obtain ⟨r, mem, rfl⟩ := mem_modifyRecord.1 mem'
  have grow := keys_subset_committed s id result now
  split at memn
  · next eq =>
    obtain memn | rfl := by simpa [Record.complete] using memn
    · simpa [eq, Record.complete] using grow (backed r mem name memn)
    · simp [eq, Record.complete]
  · next ne => simpa [ne] using grow (backed r mem name memn)

lemma Backed.upsert {s : MemoryStore} (backed : s.Backed) (new : NewRecord) (now : Timestamp) :
    (MemoryStore.upsert new now s).2.Backed := by
  simp only [MemoryStore.upsert]
  split
  · split
    · exact backed
    · intro r' mem' name memn
      obtain ⟨r, mem, rfl⟩ := mem_modifyRecord.1 mem'
      show _ ∈ s.keys
      split at memn
      · next eq => simpa [eq, Record.refresh] using backed r mem name memn
      · next ne => simpa [ne] using backed r mem name memn
  · intro r mem name memn
    obtain mem | rfl := by simpa [MemoryStore.inserted] using mem
    · exact backed r mem name memn
    · cases memn

/-- Ingesting keeps the records and the results that are there. -/
lemma upsert_keeps (s : MemoryStore) (new : NewRecord) (now : Timestamp) :
    s.ids ⊆ (upsert new now s).2.ids ∧ (upsert new now s).2.keys = s.keys := by
  simp only [upsert]
  split
  · split
    · exact ⟨List.Subset.refl _, rfl⟩
    · exact ⟨fun id mem => (ids_refreshed s _ new now).symm ▸ mem, rfl⟩
  · refine ⟨fun id mem => ?_, rfl⟩
    show id ∈ (s.inserted new now).ids
    rw [ids_inserted]
    exact List.mem_append_left _ mem

end MemoryStore

namespace Execution

variable {β : Type}

/-- What a step of a worker on the record of a number does to a world: claims stay, and so do
records and results, and no result of another record appears. -/
structure Effect (id : RecordId) (w w' : World β) : Prop where
  claimed : w'.claimed = w.claimed
  ids : w.store.ids ⊆ w'.store.ids
  keys : w.store.keys ⊆ w'.store.keys
  others : ∀ k ∈ w'.store.keys, k.1 ≠ id → k ∈ w.store.keys

lemma Effect.of_same {id : RecordId} {w w' : World β} (claimed : w'.claimed = w.claimed)
    (ids : w'.store.ids = w.store.ids) (keys : w'.store.keys = w.store.keys) : Effect id w w' where
  claimed := claimed
  ids := by rw [ids]; exact List.Subset.refl _
  keys := by rw [keys]; exact List.Subset.refl _
  others := fun k mem _ => keys ▸ mem

/-- What a step does beyond its own record. -/
theorem Transition.effect {job : Job} {e : Execution} {w w' : World β} {state : WorkerState}
    (t : Transition job e w state w') : Effect e.current.id w w' := by
  cases t with
  | @recover pass rest d stored now _ _ _ _ _ =>
    exact .of_same rfl (MemoryStore.ids_completed w.store stored.id pass now) rfl
  | @commit pass rest d result stored now _ _ _ eq _ =>
    refine ⟨rfl, fun id mem => ?_, MemoryStore.keys_subset_committed _ _ result now, ?_⟩
    · exact (MemoryStore.ids_completed w.store stored.id result.pass now).symm ▸ mem
    · intro k mem ne
      rw [MemoryStore.keys_kept, MemoryStore.keys_dropped, List.mem_append,
        List.mem_singleton] at mem
      obtain mem | rfl := mem
      · exact List.mem_of_mem_filter mem
      · exact absurd eq ne
  | _ => exact .of_same rfl rfl rfl

/-- What a worker can rely on, alone on the record of a number. -/
structure Exclusive (e : Execution) (id : RecordId) (s : MemoryStore) : Prop where
  current : e.current.id = id
  live : id ∈ s.ids
  recovering : ∀ d pass, e.phase = .recovering d → e.remaining.head? = some pass →
    (id, pass) ∈ s.keys
  starting : ∀ d ctx pass, e.phase = .starting d ctx → e.remaining.head? = some pass →
    (id, pass) ∉ s.keys
  committing : ∀ d result, e.phase = .committing d result → e.remaining.head? = some result.pass

/-- A worker in any other phase relies on its record alone. -/
lemma exclusive_of_phase {e : Execution} {id : RecordId} {s : MemoryStore} (h : e.current.id = id)
    (live : id ∈ s.ids) (hp : e.phase.relies = false) : e.Exclusive id s where
  current := h
  live := live
  recovering := fun d _ eq => by simp [eq, Phase.relies] at hp
  starting := fun d ctx _ eq => by simp [eq, Phase.relies] at hp
  committing := fun d result eq => by simp [eq, Phase.relies] at hp

/-- A worker can rely on the same as long as others leave its record alone. -/
lemma Exclusive.frame {e : Execution} {id : RecordId} {s s' : MemoryStore}
    (exclusive : e.Exclusive id s) (ids : s.ids ⊆ s'.ids)
    (keys : ∀ pass, (id, pass) ∈ s'.keys ↔ (id, pass) ∈ s.keys) : e.Exclusive id s' :=
  { exclusive with
    live := ids exclusive.live
    recovering := fun d pass hp hr => (keys pass).2 (exclusive.recovering d pass hp hr)
    starting := fun d ctx pass hp hr mem =>
      exclusive.starting d ctx pass hp hr ((keys pass).1 mem) }

lemma exclusive_completed {e : Execution} {id : RecordId} {s : MemoryStore} {updated : Record}
    (h : updated.id = id) (live : id ∈ s.ids) (job : Job) (pass : String) :
    (e.completed job pass updated).Exclusive id s := by
  simp only [completed]
  split
  · exact exclusive_of_phase h live rfl
  · exact exclusive_of_phase h live rfl

end Execution

/-- What a worker in any state can rely on, alone on the record of a number. -/
def WorkerState.Exclusive (state : WorkerState) (id : RecordId) (s : MemoryStore) : Prop :=
  match state with
  | .running e => e.Exclusive id s
  | _ => True

namespace Execution

variable {β : Type}

/-- A step of a worker alone on its record keeps completed passes backed by results, and leaves it
where it can rely on the same. -/
theorem Transition.exclusive {job : Job} {e : Execution} {w w' : World β} {state : WorkerState}
    {id : RecordId} (t : Transition job e w state w') (exclusive : e.Exclusive id w.store)
    (backed : w.store.Backed) : w'.store.Backed ∧ state.Exclusive id w'.store := by
  have current := exclusive.current
  have live : id ∈ w'.store.ids := t.effect.ids exclusive.live
  cases t with
  | finish _ => exact ⟨backed, trivial⟩
  | leave _ _ _ => exact ⟨backed, exclusive_of_phase current live rfl⟩
  | gather _ _ => exact ⟨backed, exclusive_of_phase current live rfl⟩
  | prepare _ _ => exact ⟨backed, exclusive_of_phase current live rfl⟩
  | @find pass rest d ctx hr _ stored =>
    refine ⟨backed, current, live, fun _ name _ hn => ?_, fun _ _ _ h => Phase.noConfusion h,
      fun _ _ h => Phase.noConfusion h⟩
    exact eq_of_head? hr hn ▸ current ▸ stored
  | @miss pass rest d ctx hr _ none =>
    refine ⟨backed, current, live, fun _ _ h => Phase.noConfusion h, fun _ _ name _ hn => ?_,
      fun _ _ h => Phase.noConfusion h⟩
    exact eq_of_head? hr hn ▸ current ▸ none
  | call _ _ => exact ⟨backed, exclusive_of_phase current live rfl⟩
  | @receive pass rest d ctx since result other hr _ hp =>
    refine ⟨backed, current, live, fun _ _ h => Phase.noConfusion h,
      fun _ _ _ h => Phase.noConfusion h, fun _ result' h => ?_⟩
    cases h
    show e.remaining.head? = _
    rw [hr, hp, List.head?_cons]
  | panic _ _ => exact ⟨backed, trivial⟩
  | @recover pass rest d stored now hr hp mem eq free =>
    -- The completion is backed by the result that was found before.
    have found := exclusive.recovering d pass hp (by rw [hr, List.head?_cons])
    have stored_id : (stored.complete pass now).id = id := eq.trans current
    exact ⟨backed.completed now (stored_id ▸ found), exclusive_completed stored_id live job pass⟩
  | recoverLate _ _ _ _ _ => exact ⟨backed, exclusive_of_phase current live rfl⟩
  | recoverGone _ _ _ => exact ⟨backed, trivial⟩
  | @commit pass rest d result stored now hr hp mem eq free =>
    -- The completion comes with its own result.
    have stored_id : (stored.complete result.pass now).id = id := eq.trans current
    exact ⟨backed.committed stored.id result now, exclusive_completed stored_id live job pass⟩
  | commitLate _ _ _ _ _ => exact ⟨backed, exclusive_of_phase current live rfl⟩
  | commitGone _ _ _ => exact ⟨backed, trivial⟩
  | score _ _ => exact ⟨backed, exclusive_of_phase current live rfl⟩
  | refuse _ _ => exact ⟨backed, exclusive_of_phase current live rfl⟩
  | save _ _ => exact ⟨backed, exclusive_of_phase current live rfl⟩

/-- A worker alone on its record that is about to commit a result leaves a result behind. -/
theorem Transition.settles {job : Job} {e : Execution} {w w' : World β} {state : WorkerState}
    {id : RecordId} {d : PassDefinition} {result : PassResult} (t : Transition job e w state w')
    (exclusive : e.Exclusive id w.store) (backed : w.store.Backed)
    (hp : e.phase = .committing d result) : (id, result.pass) ∈ w'.store.keys := by
  have current := exclusive.current
  have head := exclusive.committing d result hp
  cases t with
  | @commit _ _ _ _ stored now _ hp' _ eq _ =>
    cases hp.symm.trans hp'
    simp [eq, current]
  | @commitLate _ _ _ _ stored _ hp' mem eq done =>
    cases hp.symm.trans hp'
    exact current ▸ eq ▸ backed stored mem _ done
  | commitGone _ _ gone => exact absurd exclusive.live (current ▸ gone)
  | finish none => simp [none] at head
  | leave _ quiet _ => simp [hp, Phase.relies] at quiet
  | prepare _ quiet => simp [hp, Phase.relies] at quiet
  | gather _ hp' => cases hp.symm.trans hp'
  | find _ hp' _ => cases hp.symm.trans hp'
  | miss _ hp' _ => cases hp.symm.trans hp'
  | call _ hp' => cases hp.symm.trans hp'
  | receive _ hp' _ => cases hp.symm.trans hp'
  | panic _ hp' => cases hp.symm.trans hp'
  | recover _ hp' _ _ _ => cases hp.symm.trans hp'
  | recoverLate _ hp' _ _ _ => cases hp.symm.trans hp'
  | recoverGone _ hp' _ => cases hp.symm.trans hp'
  | score _ hp' => cases hp.symm.trans hp'
  | refuse _ hp' => cases hp.symm.trans hp'
  | save _ hp' => cases hp.symm.trans hp'

/-! ### Invocations -/

/-- The record and the pass for which the next step starts an invocation. -/
def starts (e : Execution) : List (RecordId × String) :=
  match e.phase, e.remaining with
  | .starting .., pass :: _ => [(e.current.id, pass)]
  | _, _ => []

/-- The record and the pass for which the next step gets an output from a backend. -/
def returns (o : Outfit β) (e : Execution) (w : World β) : List (RecordId × String) :=
  match e.phase, e.remaining with
  | .calling d ctx _, pass :: _ =>
    match (o.environment.backends.for? d.backend).map fun backend => backend.invoke d ctx w with
    | some (Reply.output _, _) => [(e.current.id, pass)]
    | _ => []
  | _, _ => []

lemma starts_id (e : Execution) {k : RecordId × String} (mem : k ∈ e.starts) :
    k.1 = e.current.id := by
  simp only [starts] at mem
  split at mem
  · rw [List.mem_singleton.1 mem]
  · cases mem

/-- What has a result is not invoked by a worker alone on its record. -/
lemma Exclusive.not_starts {e : Execution} {id : RecordId} {s : MemoryStore}
    (exclusive : e.Exclusive id s) {k : RecordId × String} (mem : k ∈ e.starts) : k ∉ s.keys := by
  simp only [starts] at mem
  split at mem
  · next d ctx pass rest hp hr =>
    rw [List.mem_singleton] at mem
    rw [mem, exclusive.current]
    exact exclusive.starting d ctx pass hp (by rw [hr, List.head?_cons])
  · cases mem

/-- A worker that gets an output is about to commit it. -/
lemma step_of_returns {o : Outfit β} {e : Execution} {w : World β} {k : RecordId × String}
    (job : Job) (mem : k ∈ e.returns o w) :
    ∃ e' d result, (e.step o.environment job w).1 = .running e' ∧
      e'.phase = .committing d result ∧ k = (e.current.id, result.pass) := by
  simp only [returns] at mem
  split at mem
  · next d ctx since pass rest hp hr =>
    split at mem
    · next out w' h =>
      obtain ⟨backend, hb, eq⟩ := Option.map_eq_some_iff.1 h
      rw [List.mem_singleton] at mem
      let result := resultOf pass out since (o.clock w')
      refine ⟨e.enter (.committing d result), d, result, ?_, rfl, mem⟩
      simp only [step, hr, stepPass, hp, hb, eq, afterReply]
      rfl
    · cases mem
  · cases mem

end Execution

end Multipass
