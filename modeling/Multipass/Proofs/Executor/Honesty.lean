import Multipass.Proofs.Executor.Transition
import Multipass.Proofs.Store.Addition
import Multipass.Proofs.Store.Rows

/-!
# What workers vouch for

A worker reports a pass as completed only if the store has it completed, with a result, and it
reports each pass that it adds. Others may put any requests meanwhile, also about the record of the
worker, as long as they delete none: the store only grows then.

Main statements: `MemoryStore.labels_perform` and `MemoryStore.Holds.change` for the store, and
`Execution.Transition.honest`.
-/

namespace Multipass

/-!
### Stores that last

As long as no record is deleted, a store only grows: records keep their numbers and paths, and a pass
that is completed with a result stays so, whatever else is requested.
-/

section

/-- Holds of the requests to delete a record. -/
def Request.deletes {ρ ι : Type} : Request ρ ι → Bool
  | .delete _ => true
  | _ => false

namespace MemoryStore

/-- Holds when a record has completed a pass and there is a result of it. -/
structure Holds (s : MemoryStore) (k : RecordId × String) : Prop where
  listed : ∃ r ∈ s.records, r.id = k.1 ∧ k.2 ∈ r.completed
  kept : k ∈ s.keys

variable {s s' : MemoryStore} {c : Gain} {k : RecordId × String}

lemma labels_upsert (s : MemoryStore) (new : NewRecord) (now : Timestamp) :
    s.labels ⊆ (upsert new now s).2.labels := by
  simp only [upsert]
  split
  · split
    · exact List.Subset.refl _
    · rw [labels_modifyRecord]
      · exact List.Subset.refl _
      · exact fun _ => rfl
  · intro label mem
    show label ∈ (s.records ++ [_]).map _
    rw [List.map_append]
    exact List.mem_append_left _ mem

/-- A request that is no deletion keeps each record under its number and its path. -/
theorem labels_perform (s : MemoryStore) (now : Timestamp) {request : Request Record RecordId}
    (spares : request.deletes = false) :
    s.labels ⊆ (request.perform operations now s).2.labels := by
  have of_eq {t : MemoryStore} (same : t.labels = s.labels) : s.labels ⊆ t.labels := by
    rw [same]
    exact List.Subset.refl _
  cases request with
  | upsert new => exact labels_upsert s new now
  | recordResult record result =>
    refine of_eq ?_
    show (recordResult record result s).2.labels = _
    simp only [recordResult]
    split
    · rfl
    · split <;> rfl
  | advance record pass => exact of_eq (@Write.advance record s pass now).labels
  | commit record result => exact of_eq (@Write.commit record s result now).labels
  | delete path => cases spares
  | _ => exact List.Subset.refl _

/-- Results are kept with their records. -/
lemma Change.keys_subset (change : Change s c s') (labels : s.labels ⊆ s'.labels) :
    s.keys ⊆ s'.keys := by
  cases change with
  | keep _ _ _ =>
    rw [keys_kept]
    exact List.subset_append_left _ _
  | @commit stored result now _ _ => exact keys_subset_committed s stored.id result now
  | @delete old mem =>
    -- The record that was deleted would still be there.
    have there : (old.id, old.path) ∈ (s.removed old.id).labels := labels (List.mem_map_of_mem mem)
    obtain ⟨r, memr, eq⟩ := List.mem_map.1 there
    have ne := (List.mem_filter.1 memr).2
    rw [(Prod.mk.inj eq).1, bne_self_eq_false] at ne
    cases ne
  | _ => exact List.Subset.refl _

/-- What is completed with a result stays so. -/
theorem Holds.change (holds : s.Holds k) (change : Change s c s') (wf : s.WellFormed)
    (labels : s.labels ⊆ s'.labels) : s'.Holds k where
  listed := by
    obtain ⟨r, mem, eq, listed⟩ := holds.listed
    obtain ⟨r', mem', label⟩ := List.mem_map.1 (labels (List.mem_map_of_mem mem))
    obtain ⟨-, -, grown⟩ := change.of_stays wf mem mem' (Prod.mk.inj label).1
    refine ⟨r', mem', (Prod.mk.inj label).1.trans eq, ?_⟩
    rw [grown]
    exact List.mem_append_left _ listed
  kept := change.keys_subset labels holds.kept

/-- A completion of a pass that has a result then is one of both. -/
lemma Change.holds (change : Change s (some k) s') (wf : s.WellFormed) (kept : k ∈ s'.keys) :
    s'.Holds k where
  listed := by
    obtain ⟨there, -⟩ := change.of_gain
    obtain ⟨r', mem', eq⟩ := List.mem_map.1 there
    exact ⟨r', mem', eq, (change.spent wf).listed r' mem' eq⟩
  kept := kept

/-- A pass that has a result has a latest one. -/
lemma exists_latest {id : RecordId} {pass : String} (kept : (id, pass) ∈ s.keys) :
    ∃ result, s.latest? id pass = some result ∧ result.pass = pass := by
  obtain ⟨result, latest⟩ := Option.isSome_iff_exists.1 (latest?_isSome.2 kept)
  obtain ⟨entry, found, rfl⟩ := Option.map_eq_some_iff.1 latest
  have key := isResultOf_iff.1 (List.find?_some found)
  exact ⟨entry.2, latest, (Prod.mk.inj key).2⟩

end MemoryStore

end

open MemoryStore (Change Gain)

variable {id : RecordId} {added more : List (RecordId × String)} {s s' : MemoryStore}
  {outcomes : List PassReport} {c : Gain}

/-- Holds of what a worker on the record of a number has reported when some passes were added: what
is completed is there, and what was added is reported. -/
structure Vouched (id : RecordId) (added : List (RecordId × String)) (s : MemoryStore)
    (outcomes : List PassReport) : Prop where
  holds : ∀ o ∈ outcomes, o.outcome.isCompleted = true → s.Holds (id, o.pass)
  told : ∀ k ∈ added, k.1 = id → ⟨k.2, .completed⟩ ∈ outcomes

lemma Vouched.push (vouched : Vouched id added s outcomes) (pass : String) {outcome : PassOutcome}
    (open' : outcome.isCompleted = false) :
    Vouched id added s (outcomes ++ [⟨pass, outcome⟩]) where
  holds := by
    intro o mem done
    obtain mem | mem := List.mem_append.1 mem
    · exact vouched.holds o mem done
    · rw [List.mem_singleton.1 mem, open'] at done
      cases done
  told := fun k mem eq => List.mem_append_left _ (vouched.told k mem eq)

/-- What was reported stays true as long as no record is deleted. -/
lemma Vouched.change (vouched : Vouched id added s outcomes) (change : Change s c s')
    (wf : s.WellFormed) (labels : s.labels ⊆ s'.labels) : Vouched id added s' outcomes :=
  { vouched with
    holds := fun o mem done => (vouched.holds o mem done).change change wf labels }

/-- What is added to other records need not be reported. -/
lemma Vouched.others (vouched : Vouched id added s outcomes) (foreign : ∀ k ∈ more, k.1 ≠ id) :
    Vouched id (added ++ more) s outcomes :=
  { vouched with
    told := by
      intro k mem eq
      obtain mem | mem := List.mem_append.1 mem
      · exact vouched.told k mem eq
      · exact absurd eq (foreign k mem) }

/-- A pass is completed, and reported. -/
lemma Vouched.complete (vouched : Vouched id added s outcomes) {pass : String}
    (change : Change s (some (id, pass)) s') (wf : s.WellFormed) (labels : s.labels ⊆ s'.labels)
    (kept : (id, pass) ∈ s'.keys) :
    Vouched id (added ++ [(id, pass)]) s' (outcomes ++ [⟨pass, .completed⟩]) where
  holds := by
    intro o mem done
    obtain mem | mem := List.mem_append.1 mem
    · exact (vouched.holds o mem done).change change wf labels
    · rw [List.mem_singleton.1 mem]
      exact change.holds wf kept
  told := by
    intro k mem eq
    obtain mem | mem := List.mem_append.1 mem
    · exact List.mem_append_left _ (vouched.told k mem eq)
    · rw [List.mem_singleton.1 mem]
      exact List.mem_append_right _ List.mem_cons_self

/-! ### One worker -/

namespace Execution

/-- What holds of a worker on the record of a number: a result that it is about to commit is of the
pass at hand, there is one of a pass that it is about to recover, and it vouches for its report. -/
structure Honest (e : Execution) (id : RecordId) (added : List (RecordId × String))
    (s : MemoryStore) : Prop where
  committing : ∀ d result, e.phase = .committing d result → e.remaining.head? = some result.pass
  recovering : ∀ d pass, e.phase = .recovering d → e.remaining.head? = some pass → (id, pass) ∈ s.keys
  vouched : Vouched id added s e.report.outcomes

/-- A worker in any other phase only vouches for its report. -/
lemma honest_of_phase {e : Execution} (hp : e.phase.relies = false)
    (vouched : Vouched id added s e.report.outcomes) : e.Honest id added s where
  committing := fun d result eq => by simp [eq, Phase.relies] at hp
  recovering := fun d _ eq => by simp [eq, Phase.relies] at hp
  vouched := vouched

end Execution

/-- What holds of a worker in any state on the record of a number. -/
def WorkerState.Honest (state : WorkerState) (id : RecordId) (added : List (RecordId × String))
    (s : MemoryStore) : Prop :=
  match state with
  | .running e => e.Honest id added s
  | .finished run => Vouched id added s run.outcomes
  | _ => True

lemma WorkerState.Honest.change {state : WorkerState} (honest : state.Honest id added s)
    (change : Change s c s') (wf : s.WellFormed) (labels : s.labels ⊆ s'.labels) :
    state.Honest id added s' := by
  cases state with
  | running e =>
    exact { honest with
      recovering := fun d pass hp hr =>
        change.keys_subset labels (Execution.Honest.recovering honest d pass hp hr)
      vouched := (Execution.Honest.vouched honest).change change wf labels }
  | finished run => exact Vouched.change honest change wf labels
  | _ => trivial

lemma WorkerState.Honest.others {state : WorkerState} (honest : state.Honest id added s)
    (foreign : ∀ k ∈ more, k.1 ≠ id) : state.Honest id (added ++ more) s := by
  cases state with
  | running e => exact { honest with vouched := (Execution.Honest.vouched honest).others foreign }
  | finished run => exact Vouched.others honest foreign
  | _ => trivial

namespace Execution

variable {β : Type} {job : Job} {e : Execution} {w w' : World β} {state : WorkerState}

lemma honest_start (record : Record) (order : List String) (s : MemoryStore)
    (fresh : ∀ k ∈ added, k.1 ≠ id) : (start record order).Honest id added s :=
  honest_of_phase rfl ⟨nofun, fun k mem eq => absurd eq (fresh k mem)⟩

lemma honest_completed {pass : String} {updated : Record}
    (vouched : Vouched id added s (e.report.outcomes ++ [⟨pass, .completed⟩])) :
    (e.completed job pass updated).Honest id added s := by
  refine honest_of_phase ?_ (by rw [report_completed]; exact vouched)
  simp only [completed]
  split <;> rfl

/-- What a step of a worker comes to: it makes one change of the store, at most to its own record,
and is honest behind it. -/
def Vouches (id : RecordId) (added : List (RecordId × String)) (s : MemoryStore)
    (state : WorkerState) (s' : MemoryStore) : Prop :=
  ∃ c, Change s c s' ∧ (∀ k ∈ c, k.1 = id) ∧ state.Honest id (added ++ c.toList) s'

lemma vouches_same (state : WorkerState) (honest : state.Honest id added s) :
    Vouches id added s state s :=
  ⟨none, .same, nofun, by rw [Option.toList_none, List.append_nil]; exact honest⟩

lemma vouches_of_phase {e' : Execution} (hp : e'.phase.relies = false)
    (vouched : Vouched id added s e'.report.outcomes) : Vouches id added s (.running e') s :=
  vouches_same (.running e') (honest_of_phase hp vouched)

/-- An honest worker stays so with each step. -/
theorem Transition.honest (t : Transition job e w state w') (own : e.current.id = id)
    (honest : e.Honest id added w.store) (wf : w.store.WellFormed) :
    Vouches id added w.store state w'.store := by
  have vouched := honest.vouched
  cases t with
  | finish _ => exact vouches_same (.finished _) vouched
  | leave _ _ open' => exact vouches_of_phase rfl (vouched.push _ open')
  | @find pass rest d ctx hr _ there =>
    refine vouches_same (.running _)
      ⟨fun _ _ h => Phase.noConfusion h, fun _ name _ hn => ?_, vouched⟩
    rw [← eq_of_head? hr hn, ← own]
    exact there
  | miss _ _ _ =>
    exact vouches_same (.running _)
      ⟨fun _ _ h => Phase.noConfusion h, fun _ _ h => Phase.noConfusion h, vouched⟩
  | @receive pass rest d ctx since result other hr _ hp =>
    refine vouches_same (.running _)
      ⟨fun _ result' h => ?_, fun _ _ h => Phase.noConfusion h, vouched⟩
    cases h
    show e.remaining.head? = _
    rw [hr, hp, List.head?_cons]
  | panic _ _ => exact vouches_same (.panicked _) trivial
  | @recover pass rest d stored now hr hp mem eq free =>
    -- The result was there when the worker looked for it.
    have eq : stored.id = id := eq.trans own
    have there := honest.recovering d pass hp (by rw [hr, List.head?_cons])
    have change := @Change.complete w.store stored pass now mem free
    have labels := MemoryStore.labels_completed w.store stored.id pass now
    subst eq
    refine ⟨_, change, fun k mem => by cases mem; rfl, ?_⟩
    exact honest_completed (vouched.complete change wf (by rw [labels]; exact List.Subset.refl _) there)
  | recoverLate _ _ _ _ _ => exact vouches_of_phase rfl (vouched.push _ rfl)
  | recoverGone _ _ _ => exact vouches_same (.aborted _) trivial
  | @commit pass rest d result stored now hr hp mem eq free =>
    have eq : stored.id = id := eq.trans own
    have head := eq_of_head? hr (honest.committing d result hp)
    have change := @Change.commit w.store stored result now mem free
    have labels := MemoryStore.labels_completed w.store stored.id result.pass now
    subst eq head
    refine ⟨_, change, fun k mem => by cases mem; rfl, honest_completed ?_⟩
    refine vouched.complete change wf ?_ (by simp)
    show w.store.labels ⊆ (w.store.completed stored.id result.pass now).labels
    rw [labels]
    exact List.Subset.refl _
  | commitLate _ _ _ _ _ => exact vouches_of_phase rfl (vouched.push _ rfl)
  | commitGone _ _ _ => exact vouches_same (.aborted _) trivial
  | save _ _ =>
    refine ⟨none, .score, nofun, ?_⟩
    rw [Option.toList_none, List.append_nil]
    exact honest_of_phase rfl (vouched.change .score wf (List.Subset.refl _))
  | _ => exact vouches_of_phase rfl vouched

end Execution

end Multipass
