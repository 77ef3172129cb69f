import Mathlib.Data.List.Perm.Subperm
import Multipass.Proofs.Batch.Course
import Multipass.Proofs.Executor.Keeping
import Multipass.Proofs.Executor.Steady
import Multipass.Proofs.Registry

/-!
# Batches with a limit

A batch takes the pending records with the least numbers, up to its limit. A record that has
completed all passes of the order is pending no more, so the next batch takes others, and after as
many batches as there are records none is pending. A placeholder is never completed: with one in the
order all records stay pending, and every batch takes the same records again.

Main statements: `keeps_diligent` for one worker, `round_done` for one batch, `rounds_drain`,
`rounds_stalled` and `rounds_again` for batches one after the other, without and with a placeholder,
and `rounds_complete`.
-/

namespace Multipass

/-!
### Diligent workers

A worker that nobody disturbs, whose backends succeed and that is not asked to stop, leaves its
record with all runnable passes completed and no others.
-/

section

/-- Holds of the passes of a registry that there is something to run for. -/
def PassRegistry.Runs (registry : PassRegistry) (pass : String) : Prop :=
  ∃ d, registry.definition pass = .ok d ∧ d.backend.isRunnable = true

/-- Holds of a reply with an output. -/
def Reply.Succeeds (reply : Reply) : Prop :=
  ∃ output, reply = .output output

/-- Holds of a record that has completed what can be run, and nothing else. -/
def Done (registry : PassRegistry) (id : RecordId) (s : MemoryStore) : Prop :=
  ∃ r, s.record? id = some r ∧ ∀ pass, pass ∈ r.completed ↔ registry.Runs pass

/-- What holds of a worker that is to complete what can be run. -/
def Diligent (job : Job) (id : RecordId) : WorkerState → MemoryStore → Prop
  | .running e, s =>
    e.Steady (fun _ _ => Reply.Succeeds) job s ∧ ∀ pass ∈ e.current.completed, job.registry.Runs pass
  | .finished _, s => Done job.registry id s
  | _, _ => False

lemma PassRegistry.Runs.mem_order {registry : PassRegistry} {pass : String}
    (runs : registry.Runs pass) : pass ∈ registry.order := by
  obtain ⟨d, definition, -⟩ := runs
  obtain ⟨mem, rfl⟩ := mem_of_definition definition
  exact List.mem_map_of_mem mem

lemma PassRegistry.runs_iff {registry : PassRegistry} (nodup : registry.order.Nodup)
    {d : PassDefinition} (mem : d ∈ registry.definitions) :
    registry.Runs d.name ↔ d.backend.isRunnable = true := by
  simp [Runs, definition_of_mem nodup mem]

variable {job : Job} {id : RecordId} {s s' : MemoryStore}

lemma done_rowsOf {registry : PassRegistry} : Done registry id (s.rowsOf id) ↔ Done registry id s := by
  simp only [Done, MemoryStore.record?_rowsOf, Option.map_eq_some_iff]
  constructor
  · rintro ⟨_, ⟨r, stored, rfl⟩, done⟩
    exact ⟨r, stored, done⟩
  · rintro ⟨r, stored, done⟩
    exact ⟨r.timeless, ⟨r, stored, rfl⟩, done⟩

lemma diligent_start {r : Record} (stored : s.record? r.id = some r)
    (ran : ∀ pass ∈ r.completed, job.registry.Runs pass) :
    Diligent job id (.running (.start r job.registry.order)) s :=
  ⟨Execution.steady_start stored, ran⟩

/-- A step of a diligent worker. -/
theorem diligent_step (nodup : job.registry.order.Nodup) (real : job.dryRun = false)
    {e : Execution} {state : WorkerState} (own : e.current.id = id)
    (diligent : Diligent job id (.running e) s)
    (rule : Execution.Rule (fun _ _ => Reply.Succeeds) false job e s state s') :
    Diligent job id state s' := by
  obtain ⟨steady, ran⟩ := diligent
  have faultless (d : PassDefinition) (ctx : InvocationContext) (error : BackendError) :
      ¬(Reply.error error).Succeeds := fun ⟨_, eq⟩ => nomatch eq
  cases steady.step nodup faultless rule with
  | finished none =>
    refine ⟨e.current, own ▸ steady.current, fun pass => ⟨ran pass, fun runs => ?_⟩⟩
    by_contra free
    have mem := runs.mem_order
    obtain ⟨d, definition, runnable⟩ := runs
    refine steady.behind pass mem ?_ d ⟨definition, runnable, real, free⟩
    rw [none]
    exact List.not_mem_nil
  | cancelled asked => cases asked
  | panicked allowed =>
    obtain ⟨_, eq⟩ := allowed
    cases eq
  | goesOn current steady => exact ⟨steady, current ▸ ran⟩
  | settles _ settles current _ steady =>
    refine ⟨steady, ?_⟩
    rw [current]
    intro other mem
    obtain mem | mem := List.mem_append.1 mem
    · exact ran other mem
    · obtain rfl := List.mem_singleton.1 mem
      cases settles with
      | recover owed _ => exact ⟨_, owed.definition, owed.runnable⟩
      | commit owed _ _ => exact ⟨_, owed.definition, owed.runnable⟩

/-- Workers whose backends succeed and that are never asked to stop are diligent. -/
theorem keeps_diligent {β : Type} {o : Outfit β} (nodup : job.registry.order.Nodup)
    (real : job.dryRun = false) (succeeds : o.Answers fun _ _ => Reply.Succeeds)
    (calm : ∀ w, o.isCancelled w = false) : Keeps o job id (Diligent job.plain id) := by
  have nodup' : job.plain.registry.order.Nodup := nodup
  have real' : job.plain.dryRun = false := real
  exact keeps_of_rules succeeds calm fun _ _ _ _ own diligent rule =>
    diligent_step nodup' real' own diligent rule

end

/-! ### Pending records -/

section

variable {registry : PassRegistry} {r r' : Record} {check : PendingCheck} {pass : String}

lemma Record.isPending_congr (same : r.completed = r'.completed) (order : List String)
    (check : PendingCheck) : r.isPending order check = r'.isPending order check := by
  cases check <;> simp only [isPending, hasCompleted, same]

lemma Record.not_pending_of_subset (nodup : registry.order.Nodup)
    (all : registry.order ⊆ r.completed) : r.isPending registry.order check = false := by
  cases check with
  | count =>
    have le := (List.subperm_of_subset nodup all).length_le
    simpa [isPending] using le
  | set =>
    rw [isPending, List.any_eq_false]
    intro pass mem
    simpa [hasCompleted] using all mem

/-- Under both checks, a record that is not pending has completed the whole order, as long as it has
completed nothing else. -/
lemma Record.subset_of_not_pending (nodup : r.completed.Nodup)
    (own : r.completed ⊆ registry.order) (idle : r.isPending registry.order check = false) :
    registry.order ⊆ r.completed := by
  cases check with
  | count =>
    have le : registry.order.length ≤ r.completed.length := by simpa [isPending] using idle
    exact ((List.subperm_of_subset nodup own).perm_of_length_le le).symm.subset
  | set =>
    rw [isPending, List.any_eq_false] at idle
    intro pass mem
    simpa [hasCompleted] using idle pass mem

/-- Under both checks, a record stays pending that lacks a pass of the order. -/
lemma Record.pending_of_lacking (nodup : r.completed.Nodup) (own : r.completed ⊆ registry.order)
    (mem : pass ∈ registry.order) (lacks : pass ∉ r.completed) :
    r.isPending registry.order check = true := by
  rw [← Bool.not_eq_false]
  exact fun idle => lacks (subset_of_not_pending nodup own idle mem)

end

namespace Batch

variable {β : Type}

/-! ### One batch -/

/-- What holds of a world in which a batch can be called: nobody claims a record, and no record has
completed what cannot be run. -/
structure Callable (registry : PassRegistry) (w : World β) : Prop where
  wellFormed : w.store.WellFormed
  ordered : w.store.ScoresOrdered
  unclaimed : w.claimed = []
  ran : ∀ r ∈ w.store.records, ∀ pass ∈ r.completed, registry.Runs pass

section

variable {o : Outfit β} {job : Job} {options : RunOptions} {w : World β} {turns : List (Turn β)}

/-- Records of one label, with the same rows, have completed the same. -/
lemma completed_of_rowsOf {s t : MemoryStore} {r r' : Record} (stored : s.record? r.id = some r)
    (stored' : t.record? r.id = some r') (same : t.rowsOf r.id = s.rowsOf r.id) :
    r'.completed = r.completed :=
  (congrArg Record.completed (MemoryStore.timeless_of_rowsOf stored' stored same) :)

/-- Where the labels are the same, each record was there before. -/
lemma exists_of_labels {s t : MemoryStore} (labels : t.labels = s.labels) {r' : Record}
    (mem : r' ∈ t.records) : ∃ r ∈ s.records, r.id = r'.id := by
  have mem : (r'.id, r'.path) ∈ s.labels := labels ▸ List.mem_map_of_mem mem
  obtain ⟨r, mem, eq⟩ := List.mem_map.1 mem
  exact ⟨r, mem, (Prod.mk.inj eq).1⟩

/-- A closed batch whose backends succeeded has completed what can be run on each record that it
took, and left the others alone. -/
theorem round_done (callable : Callable job.registry w) (nodup : job.registry.order.Nodup)
    (real : job.dryRun = false) (succeeds : o.Answers fun _ _ => Reply.Succeeds)
    (calm : ∀ w, o.isCancelled w = false)
    (closed : (course o job options w turns).1.stage = .closed) :
    let t := (course o job options w turns).2
    Callable job.registry t ∧ t.store.labels = w.store.labels ∧
      (∀ r ∈ taken job options w.store, Done job.registry r.id t.store) ∧
      ∀ id, (∀ r ∈ taken job options w.store, r.id ≠ id) →
        t.store.rowsOf id = w.store.rowsOf id := by
  intro t
  have sub := (taken_sublist job options w.store).subset
  have keeps : ∀ r ∈ taken job options w.store, Keeps o job r.id (Diligent job.plain r.id) :=
    fun r _ => keeps_diligent nodup real succeeds calm
  have starts : ∀ r ∈ taken job options w.store, Diligent job.plain r.id
      (WorkerState.running (.start r job.registry.order)).plain (w.store.rowsOf r.id) := by
    intro r mem
    refine diligent_start (r := r.timeless) ?_ (callable.ran r (sub mem))
    rw [Record.id_timeless, MemoryStore.record?_rowsOf, callable.wellFormed.record?_of_mem (sub mem)]
    rfl
  obtain ⟨gone, on⟩ :=
    onCourse_course calm keeps callable.wellFormed callable.ordered callable.unclaimed starts turns
  obtain ⟨perm, ended⟩ := on.ended closed
  have done : ∀ r ∈ taken job options w.store, Done job.registry r.id t.store := by
    intro r mem
    obtain ⟨f, memGone, rfl⟩ := List.mem_map.1 (perm.mem_iff.2 mem)
    obtain ⟨-, diligent⟩ := ended f memGone
    rw [← done_rowsOf]
    cases hf : f.ending with
    | finished run =>
      rw [hf] at diligent
      exact diligent
    | aborted error =>
      rw [hf] at diligent
      exact diligent.elim
    | panicked text =>
      rw [hf] at diligent
      exact diligent.elim
  have unclaimed : t.claimed = [] := by
    have idle := (on.idle (by simp [closed, Stage.rank])).1
    refine List.eq_nil_iff_forall_not_mem.2 fun id mem => ?_
    obtain ⟨worker, mem, -⟩ := on.claimed id mem
    rw [idle] at mem
    cases mem
  have wf : t.store.WellFormed := on.fair.wellFormed
  refine ⟨⟨wf, on.fair.ordered, unclaimed, fun r' mem' => ?_⟩, on.fair.labels, done, on.fair.others⟩
  obtain ⟨r, mem, eq⟩ := exists_of_labels on.fair.labels mem'
  have stored' : t.store.record? r.id = some r' := eq ▸ wf.record?_of_mem mem'
  by_cases picked : ∃ other ∈ taken job options w.store, other.id = r.id
  · obtain ⟨other, mem, eq⟩ := picked
    obtain ⟨r'', stored'', ran⟩ := done other mem
    rw [eq, stored'] at stored''
    cases stored''
    exact fun pass => (ran pass).1
  · have left : ∀ other ∈ taken job options w.store, other.id ≠ r.id := by simpa using picked
    rw [completed_of_rowsOf (callable.wellFormed.record?_of_mem mem) stored' (on.fair.others r.id left)]
    exact callable.ran r mem

end

/-! ### Batches one after the other -/

/-- A batch that is called, with what is its own: its outfit, its name, the number of its workers, and
who moves when. -/
structure Round (β : Type) where
  outfit : Outfit β
  runId : String
  concurrency : Nat
  turns : List (Turn β)

/-- A batch that is called, as far as it gets, and the world behind. -/
def Round.ended (job : Job) (options : RunOptions) (w : World β) (round : Round β) :
    Batch × World β :=
  course round.outfit { job with runId := round.runId }
    { options with concurrency := round.concurrency } w round.turns

/-- Batches that are called one after the other, as far as they get, and the world behind. -/
def rounds (job : Job) (options : RunOptions) : World β → List (Round β) → List Batch × World β
  | w, [] => ([], w)
  | w, round :: rest =>
    let (b, w) := round.ended job options w
    let (bs, w) := rounds job options w rest
    (b :: bs, w)

/-- What is asked of each of the batches: its backends succeed, and nobody asks it to stop. -/
structure Round.Works (round : Round β) : Prop where
  succeeds : round.outfit.Answers fun _ _ => Reply.Succeeds
  calm : ∀ w, round.outfit.isCancelled w = false

/-- The pending records of a store. -/
def pendingIn (job : Job) (options : RunOptions) (s : MemoryStore) : List Record :=
  s.records.filter fun r => r.isPending job.registry.order options.pendingCheck

section

variable {job : Job} {options : RunOptions} {limit : Nat} {w w' : World β} {calls : List (Round β)}

lemma taken_eq_take (limited : options.limit = some limit) (s : MemoryStore) :
    taken job options s = (pendingIn job options s).take limit := by
  simp only [taken, select, limited, pendingIn]

/-- What is done is pending no more, if there is no placeholder. -/
lemma not_pending_of_done {s : MemoryStore} {r : Record} (nodup : job.registry.order.Nodup)
    (runnable : ∀ pass ∈ job.registry.order, job.registry.Runs pass)
    (done : Done job.registry r.id s) (stored : s.record? r.id = some r) (check : PendingCheck) :
    r.isPending job.registry.order check = false := by
  obtain ⟨_, stored', completed⟩ := done
  obtain rfl := Option.some.inj (stored.symm.trans stored')
  exact Record.not_pending_of_subset nodup fun pass mem => (completed pass).2 (runnable pass mem)

/-- A batch without a placeholder leaves fewer records pending, by its limit. -/
lemma pending_of_round (wf : w.store.WellFormed) (wf' : w'.store.WellFormed)
    (nodup : job.registry.order.Nodup)
    (runnable : ∀ pass ∈ job.registry.order, job.registry.Runs pass)
    (limited : options.limit = some limit) (labels : w'.store.labels = w.store.labels)
    (done : ∀ r ∈ taken job options w.store, Done job.registry r.id w'.store)
    (others : ∀ id, (∀ r ∈ taken job options w.store, r.id ≠ id) →
      w'.store.rowsOf id = w.store.rowsOf id) :
    (pendingIn job options w'.store).length ≤ (pendingIn job options w.store).length - limit := by
  have ids : ((pendingIn job options w'.store).map Record.id) ⊆
      ((pendingIn job options w.store).drop limit).map Record.id := by
    refine List.forall_mem_map.2 fun r' memPending => ?_
    obtain ⟨mem', pending⟩ := List.mem_filter.1 memPending
    obtain ⟨r, memr, eq⟩ := exists_of_labels labels mem'
    have stored' := wf'.record?_of_mem mem'
    have left : ∀ other ∈ taken job options w.store, other.id ≠ r.id := by
      intro other mem same
      have done : Done job.registry r'.id w'.store := same.trans eq ▸ done other mem
      have idle := not_pending_of_done nodup runnable done stored' options.pendingCheck
      rw [pending] at idle
      cases idle
    have same := completed_of_rowsOf (wf.record?_of_mem memr) (eq ▸ stored') (others r.id left)
    have waiting : r ∈ pendingIn job options w.store :=
      List.mem_filter.2 ⟨memr, Record.isPending_congr same _ _ ▸ pending⟩
    rw [← List.take_append_drop limit (pendingIn job options w.store), List.mem_append] at waiting
    obtain waiting | waiting := waiting
    · rw [← taken_eq_take limited] at waiting
      exact absurd rfl (left r waiting)
    · exact eq ▸ List.mem_map_of_mem waiting
  have distinct : ((pendingIn job options w'.store).map Record.id).Nodup :=
    (wf'.ascending.imp Int.ne_of_lt).sublist (List.filter_sublist.map Record.id)
  have le := (List.subperm_of_subset distinct ids).length_le
  rwa [List.length_map, List.length_map, List.length_drop] at le

lemma rounds_cons (job : Job) (options : RunOptions) (w : World β) (call : Round β)
    (calls : List (Round β)) :
    rounds job options w (call :: calls) =
      ((call.ended job options w).1 :: (rounds job options (call.ended job options w).2 calls).1,
        (rounds job options (call.ended job options w).2 calls).2) := rfl

lemma Round.Works.done {call : Round β} (works : call.Works) (callable : Callable job.registry w)
    (nodup : job.registry.order.Nodup) (real : job.dryRun = false)
    (closed : (call.ended job options w).1.stage = .closed) :
    let t := (call.ended job options w).2
    Callable job.registry t ∧ t.store.labels = w.store.labels ∧
      (∀ r ∈ taken job options w.store, Done job.registry r.id t.store) ∧
      ∀ id, (∀ r ∈ taken job options w.store, r.id ≠ id) →
        t.store.rowsOf id = w.store.rowsOf id :=
  @round_done β call.outfit { job with runId := call.runId }
    { options with concurrency := call.concurrency } w call.turns callable nodup real
    works.succeeds works.calm closed

lemma rounds_append (job : Job) (options : RunOptions) (w : World β) (front back : List (Round β)) :
    rounds job options w (front ++ back) =
      ((rounds job options w front).1 ++ (rounds job options (rounds job options w front).2 back).1,
        (rounds job options (rounds job options w front).2 back).2) := by
  induction front generalizing w with
  | nil => rfl
  | cons call front ih => rw [List.cons_append, rounds_cons, rounds_cons, ih, List.cons_append]

/-- Behind batches that were brought to their end the next one can be called, on the same records. -/
theorem callable_rounds (callable : Callable job.registry w) (nodup : job.registry.order.Nodup)
    (real : job.dryRun = false) (works : ∀ call ∈ calls, call.Works)
    (closed : ∀ b ∈ (rounds job options w calls).1, b.stage = .closed) :
    let t := (rounds job options w calls).2
    Callable job.registry t ∧ t.store.labels = w.store.labels := by
  induction calls generalizing w with
  | nil => exact ⟨callable, rfl⟩
  | cons call calls ih =>
    rw [rounds_cons] at closed ⊢
    obtain ⟨work, works⟩ := List.forall_mem_cons.1 works
    obtain ⟨closedHead, closedTail⟩ := List.forall_mem_cons.1 closed
    obtain ⟨callable', labels, -⟩ := work.done callable nodup real closedHead
    obtain ⟨callable'', labels'⟩ := ih callable' works closedTail
    exact ⟨callable'', labels'.trans labels⟩

/-- Batches without a placeholder leave at least one record less pending each. -/
theorem rounds_left (callable : Callable job.registry w) (nodup : job.registry.order.Nodup)
    (real : job.dryRun = false) (positive : 1 ≤ limit) (limited : options.limit = some limit)
    (runnable : ∀ pass ∈ job.registry.order, job.registry.Runs pass)
    (works : ∀ call ∈ calls, call.Works)
    (closed : ∀ b ∈ (rounds job options w calls).1, b.stage = .closed) :
    (pendingIn job options (rounds job options w calls).2.store).length ≤
      (pendingIn job options w.store).length - calls.length := by
  induction calls generalizing w with
  | nil => exact Nat.le_refl _
  | cons call calls ih =>
    rw [rounds_cons] at closed ⊢
    obtain ⟨work, works⟩ := List.forall_mem_cons.1 works
    obtain ⟨closedHead, closedTail⟩ := List.forall_mem_cons.1 closed
    obtain ⟨callable', labels, done, others⟩ := work.done callable nodup real closedHead
    have less := pending_of_round callable.wellFormed callable'.wellFormed nodup runnable limited
      labels done others
    refine (ih callable' works closedTail).trans ?_
    rw [List.length_cons]
    omega

/-- As many batches without a placeholder as there are records complete the whole order on each. -/
theorem rounds_drain (callable : Callable job.registry w) (nodup : job.registry.order.Nodup)
    (real : job.dryRun = false) (positive : 1 ≤ limit) (limited : options.limit = some limit)
    (runnable : ∀ pass ∈ job.registry.order, job.registry.Runs pass)
    (works : ∀ call ∈ calls, call.Works) (number : calls.length = w.store.records.length)
    (closed : ∀ b ∈ (rounds job options w calls).1, b.stage = .closed) :
    ∀ r ∈ w.store.records, ∃ r', (rounds job options w calls).2.store.record? r.id = some r' ∧
      job.registry.order ⊆ r'.completed := by
  let t := (rounds job options w calls).2
  obtain ⟨callable', labels⟩ := callable_rounds callable nodup real works closed
  have left := rounds_left callable nodup real positive limited runnable works closed
  have none : pendingIn job options t.store = [] := by
    have le : (pendingIn job options w.store).length ≤ w.store.records.length :=
      List.length_filter_le ..
    refine List.eq_nil_of_length_eq_zero (Nat.eq_zero_of_le_zero (left.trans ?_))
    omega
  intro r mem
  obtain ⟨r', mem', eq⟩ := exists_of_labels (s := t.store) labels.symm mem
  have idle : r'.isPending job.registry.order options.pendingCheck = false := by
    rw [Bool.eq_false_iff]
    exact List.filter_eq_nil_iff.1 none r' mem'
  refine ⟨r', eq ▸ callable'.wellFormed.record?_of_mem mem', ?_⟩
  exact Record.subset_of_not_pending (callable'.wellFormed.counted r' mem').1
    (fun pass done => (callable'.ran r' mem' pass done).mem_order) idle

/-- A store with a placeholder to come, over records of given numbers: no record has completed what
cannot be run, all are pending under both checks, and a batch takes the first of them. -/
structure Stalled (job : Job) (options : RunOptions) (limit : Nat) (numbers : List RecordId)
    (s : MemoryStore) : Prop where
  ids : s.ids = numbers
  ascending : numbers.Pairwise (· < ·)
  uncompleted : ∀ r ∈ s.records, ∀ d ∈ job.registry.definitions,
    d.backend.isRunnable = false → d.name ∉ r.completed
  pending : ∀ r ∈ s.records, ∀ check, r.isPending job.registry.order check = true
  first : (taken job options s).map Record.id = numbers.take limit

section

variable {placeholder : String}

lemma pending_of_placeholder (callable : Callable job.registry w)
    (mem : placeholder ∈ job.registry.order) (idle : ¬job.registry.Runs placeholder) {r : Record}
    (memr : r ∈ w.store.records) (check : PendingCheck) :
    r.isPending job.registry.order check = true := by
  have ran := callable.ran r memr
  exact Record.pending_of_lacking (callable.wellFormed.counted r memr).1
    (fun pass mem => (ran pass mem).mem_order) mem fun done => idle (ran placeholder done)

/-- With a placeholder in the order a batch takes the first records, whatever they have completed. -/
lemma taken_of_placeholder (callable : Callable job.registry w)
    (limited : options.limit = some limit) (mem : placeholder ∈ job.registry.order)
    (idle : ¬job.registry.Runs placeholder) :
    taken job options w.store = w.store.records.take limit := by
  have all : pendingIn job options w.store = w.store.records :=
    List.filter_eq_self.2 fun _ memr => pending_of_placeholder callable mem idle memr _
  rw [taken_eq_take limited, all]

lemma stalled_of_callable (callable : Callable job.registry w) (nodup : job.registry.order.Nodup)
    (limited : options.limit = some limit) (mem : placeholder ∈ job.registry.order)
    (idle : ¬job.registry.Runs placeholder) : Stalled job options limit w.store.ids w.store where
  ids := rfl
  ascending := callable.wellFormed.ascending
  uncompleted r memr d memd unrunnable done := by
    have runs := (PassRegistry.runs_iff nodup memd).1 (callable.ran r memr d.name done)
    rw [unrunnable] at runs
    cases runs
  pending _ memr := pending_of_placeholder callable mem idle memr
  first := by
    rw [taken_of_placeholder callable limited mem idle]
    exact List.map_take ..

/-- Before each of the batches, and behind the last one, a placeholder keeps all records waiting. -/
theorem rounds_stalled (callable : Callable job.registry w) (nodup : job.registry.order.Nodup)
    (real : job.dryRun = false) (limited : options.limit = some limit)
    (mem : placeholder ∈ job.registry.order) (idle : ¬job.registry.Runs placeholder)
    (works : ∀ call ∈ calls, call.Works)
    (closed : ∀ b ∈ (rounds job options w calls).1, b.stage = .closed) {front : List (Round β)}
    (part : front <+: calls) :
    Stalled job options limit w.store.ids (rounds job options w front).2.store := by
  obtain ⟨back, rfl⟩ := part
  rw [rounds_append] at closed
  obtain ⟨callable', labels⟩ := callable_rounds callable nodup real
    (fun call mem => works call (List.mem_append_left _ mem))
    fun b mem => closed b (List.mem_append_left _ mem)
  have ids : (rounds job options w front).2.store.ids = w.store.ids := by
    rw [MemoryStore.ids_eq_labels, labels, ← MemoryStore.ids_eq_labels]
  exact ids ▸ stalled_of_callable callable' nodup limited mem idle

end

/-- Batches with a placeholder take the same records again and again: the first ones. -/
theorem rounds_again (callable : Callable job.registry w) (nodup : job.registry.order.Nodup)
    (real : job.dryRun = false) (limited : options.limit = some limit) {placeholder : String}
    (mem : placeholder ∈ job.registry.order) (idle : ¬job.registry.Runs placeholder)
    (works : ∀ call ∈ calls, call.Works)
    (closed : ∀ b ∈ (rounds job options w calls).1, b.stage = .closed) :
    let t := (rounds job options w calls).2
    (calls ≠ [] → ∀ id ∈ w.store.ids.take limit, Done job.registry id t.store) ∧
      ∀ id, id ∉ w.store.ids.take limit → t.store.rowsOf id = w.store.rowsOf id := by
  induction calls generalizing w with
  | nil => exact ⟨fun none => absurd rfl none, fun _ _ => rfl⟩
  | cons call calls ih =>
    rw [rounds_cons] at closed ⊢
    obtain ⟨work, works⟩ := List.forall_mem_cons.1 works
    obtain ⟨closedHead, closedTail⟩ := List.forall_mem_cons.1 closed
    obtain ⟨callable', labels, done, others⟩ := work.done callable nodup real closedHead
    obtain ⟨done', others'⟩ := ih callable' works closedTail
    rw [taken_of_placeholder callable limited mem idle] at done others
    have ids : (call.ended job options w).2.store.ids = w.store.ids := by
      rw [MemoryStore.ids_eq_labels, labels, ← MemoryStore.ids_eq_labels]
    rw [ids] at done' others'
    have first : w.store.ids.take limit = (w.store.records.take limit).map Record.id :=
      (List.map_take ..).symm
    refine ⟨fun _ id mem => ?_, fun id notMem => ?_⟩
    · by_cases more : calls = []
      · subst more
        rw [first] at mem
        obtain ⟨r, memr, rfl⟩ := List.mem_map.1 mem
        exact done r memr
      · exact done' more id mem
    · rw [others' id notMem]
      refine others id fun r mem eq => notMem ?_
      rw [first]
      exact eq ▸ List.mem_map_of_mem mem

/-- One batch for each record, with a limit, of which each is brought to its end before the next one
is called, and which can be: the records that were fresh before have completed the whole order, if
all of it can be run. If there is a placeholder, it is never completed: before each batch and behind
the last one all records are pending under both checks, and a batch takes the first of them, as many
as the limit says. These have completed what can be run in the end, and the others are as they
were. -/
theorem rounds_complete {cfg : Config} (built : PassRegistry.ofConfig cfg = .ok job.registry)
    (real : job.dryRun = false) (positive : 1 ≤ limit) (limited : options.limit = some limit)
    (history : List (Timestamp × Request Record RecordId)) (rest : β)
    (works : ∀ call ∈ calls, call.Works) :
    let store := Request.performAll MemoryStore.operations history {}
    let ended := rounds job options { store, rest } calls
    (∀ call ∈ calls, ∀ w : World β, ∃ more,
        ({ call with turns := call.turns ++ more }.ended job options w).1.stage = .closed) ∧
      ((∀ r ∈ store.records, r.completed = []) → calls.length = store.records.length →
        (∀ b ∈ ended.1, b.stage = .closed) →
          ((∀ d ∈ job.registry.definitions, d.backend.isRunnable = true) →
            ∀ r ∈ store.records, ∃ r', ended.2.store.record? r.id = some r' ∧
              ∀ pass ∈ job.registry.order, pass ∈ r'.completed) ∧
          ((∃ d ∈ job.registry.definitions, d.backend.isRunnable = false) →
            (∀ front, front <+: calls → Stalled job options limit store.ids
              (rounds job options { store, rest } front).2.store) ∧
            (∀ r ∈ store.records.take limit, ∃ r', ended.2.store.record? r.id = some r' ∧
              ∀ d ∈ job.registry.definitions, d.backend.isRunnable = true → d.name ∈ r'.completed) ∧
            ∀ r ∈ store.records.drop limit,
              ended.2.store.rowsOf r.id = store.rowsOf r.id)) := by
  intro store ended
  refine ⟨fun call _ w => exists_closing_course call.outfit { job with runId := call.runId }
    { options with concurrency := call.concurrency } w call.turns, ?_⟩
  intro fresh number closed
  have nodup := PassRegistry.nodup_of_ofConfig built
  obtain ⟨wf, -⟩ := MemoryStore.performAll_wellFormed MemoryStore.wellFormed_empty history
  have callable : Callable job.registry ({ store, rest } : World β) := {
    wellFormed := wf
    ordered := MemoryStore.performAll_scoresOrdered MemoryStore.scoresOrdered_empty history
    unclaimed := rfl
    ran := fun r mem pass done => by simp [fresh r mem] at done }
  refine ⟨fun all r mem => ?_, fun ⟨d, memd, idle⟩ => ?_⟩
  · have runnable : ∀ pass ∈ job.registry.order, job.registry.Runs pass :=
      List.forall_mem_map.2 fun d mem => (PassRegistry.runs_iff nodup mem).2 (all d mem)
    obtain ⟨r', stored, whole⟩ :=
      rounds_drain callable nodup real positive limited runnable works number closed r mem
    exact ⟨r', stored, fun pass memPass => whole memPass⟩
  · have mem : d.name ∈ job.registry.order := List.mem_map_of_mem memd
    have never : ¬job.registry.Runs d.name := by
      rw [PassRegistry.runs_iff nodup memd, idle]
      exact Bool.false_ne_true
    obtain ⟨done, others⟩ := rounds_again callable nodup real limited mem never works closed
    have first : store.ids.take limit = (store.records.take limit).map Record.id :=
      (List.map_take ..).symm
    refine ⟨fun front part => ?_, fun r memr => ?_, fun r memr => others r.id ?_⟩
    · exact rounds_stalled callable nodup real limited mem never works closed part
    · have some : calls ≠ [] := by
        rintro rfl
        have stored := List.mem_of_mem_take memr
        rw [List.eq_nil_of_length_eq_zero number.symm] at stored
        cases stored
      obtain ⟨r', stored, completed⟩ := done some r.id (first ▸ List.mem_map_of_mem memr)
      refine ⟨r', stored, fun d memd runnable => (completed d.name).2 ?_⟩
      exact (PassRegistry.runs_iff nodup memd).2 runnable
    · show r.id ∉ store.ids.take limit
      have distinct : store.ids.Nodup := wf.ascending.imp Int.ne_of_lt
      have behind : r.id ∈ store.ids.drop limit := by
        rw [MemoryStore.ids, ← List.map_drop]
        exact List.mem_map_of_mem memr
      exact fun early => List.disjoint_take_drop distinct (Nat.le_refl limit) early behind

end

/-- Two records, and two batches of one record each: the second batch takes the second record. -/
theorem rounds_complete_of_two :
    let lint : PassConfig := { backend := .staticTool, command := some "lint" }
    let cfg : Config :=
      { db := ⟨""⟩, pipeline := { order := ["lint"] }, passes := [("lint", lint)] }
    let registry : PassRegistry :=
      { definitions := [⟨"lint", 0, .staticTool ⟨"lint", [], .json, 120000, [0]⟩, .raw, none⟩]
        scoringPass := none
        scoreFields := defaultScoreFields }
    let job : Job := ⟨registry, "", "run", false⟩
    let history : List (Timestamp × Request Record RecordId) :=
      [(0, .upsert ⟨"a", none, "", "", .null⟩), (0, .upsert ⟨"b", none, "", "", .null⟩)]
    let call : Round Unit :=
      { outfit := .constant (.output ⟨"", .text "clean", none⟩)
        runId := "run"
        concurrency := 1
        turns := (List.replicate 20 [Turn.move .coordinator, .move (.worker 0)]).flatten }
    let record := Record.ofNew 2 ⟨"b", none, "", "", .null⟩ 0
    PassRegistry.ofConfig cfg = .ok registry ∧ ∃ ended,
      rounds job { limit := some 1 }
        { store := Request.performAll MemoryStore.operations history {}, rest := () } [call, call] =
          ended ∧
      ∃ r', ended.2.store.record? record.id = some r' ∧
        ∀ pass ∈ job.registry.order, pass ∈ r'.completed := by
  intro lint cfg registry job history call record
  have built : PassRegistry.ofConfig cfg = .ok job.registry := by rfl
  have work : call.Works := ⟨Outfit.answers_constant fun _ _ => ⟨_, rfl⟩, fun _ => rfl⟩
  have works : ∀ other ∈ [call, call], other.Works := by
    rintro _ (_ | ⟨_, _ | ⟨_, ⟨⟩⟩⟩) <;> exact work
  have limited : ({ limit := some 1 } : RunOptions).limit = some 1 := rfl
  have complete := (rounds_complete built rfl (Nat.le_refl 1) limited history () works).2
  have fresh : ∀ r ∈ (Request.performAll MemoryStore.operations history {}).records,
      r.completed = [] := by
    rintro _ (_ | ⟨_, _ | ⟨_, ⟨⟩⟩⟩) <;> rfl
  have all : ∀ d ∈ job.registry.definitions, d.backend.isRunnable = true := by
    rintro _ (_ | ⟨_, ⟨⟩⟩)
    rfl
  have each := (complete fresh rfl (by decide +kernel)).1 all
  exact ⟨built, _, rfl, each record (List.mem_cons_of_mem _ List.mem_cons_self)⟩

/-- Two records, and two batches of one record each, with a placeholder in the order: under both
checks the second batch takes the first record again, and nothing is run for the second record. -/
theorem rounds_starve :
    let lint : PassConfig := { backend := .staticTool, command := some "lint" }
    let cfg : Config :=
      { db := ⟨""⟩
        pipeline := { order := ["lint", "manual"] }
        passes := [("lint", lint), ("manual", { backend := .none })] }
    let registry : PassRegistry :=
      { definitions :=
          [⟨"lint", 0, .staticTool ⟨"lint", [], .json, 120000, [0]⟩, .raw, none⟩,
            ⟨"manual", 1, .none, .raw, none⟩]
        scoringPass := none
        scoreFields := defaultScoreFields }
    let job : Job := ⟨registry, "", "run", false⟩
    let history : List (Timestamp × Request Record RecordId) :=
      [(0, .upsert ⟨"a", none, "", "", .null⟩), (0, .upsert ⟨"b", none, "", "", .null⟩)]
    let store := Request.performAll MemoryStore.operations history {}
    let call : Round Unit :=
      { outfit := .constant (.output ⟨"", .text "clean", none⟩)
        runId := "run"
        concurrency := 1
        turns := (List.replicate 20 [Turn.move .coordinator, .move (.worker 0)]).flatten }
    PassRegistry.ofConfig cfg = .ok registry ∧ call.Works ∧ store.records.length = 2 ∧
      (∀ r ∈ store.records, r.completed = []) ∧
      ∀ check, ∃ ended,
        rounds job { limit := some 1, pendingCheck := check } { store, rest := () } [call, call] =
          ended ∧
        (∀ b ∈ ended.1, b.stage = .closed) ∧
        (ended.2.store.record? 1).map Record.completed = some ["lint"] ∧
        (ended.2.store.record? 2).map Record.completed = some [] := by
  intro lint cfg registry job history store call
  have work : call.Works := ⟨Outfit.answers_constant fun _ _ => ⟨_, rfl⟩, fun _ => rfl⟩
  have fresh : ∀ r ∈ store.records, r.completed = [] := by
    rintro _ (_ | ⟨_, _ | ⟨_, ⟨⟩⟩⟩) <;> rfl
  refine ⟨by rfl, work, rfl, fresh, fun check => ⟨_, rfl, ?_⟩⟩
  cases check <;> exact ⟨by decide +kernel, by decide +kernel, by decide +kernel⟩

end Batch

end Multipass
