import Multipass.Proofs.Batch.Accounting
import Multipass.Proofs.Executor.InStep

/-!
# Batches that are cancelled

A batch over any shared state that is asked to stop at some moment, and is never told to go on again.
It withholds work when a selected record gets no summary, or a summary has a pass that was cancelled.
Work is withheld only by refusing it: the coordinator leaves the next record, or a worker that is
about to decide on a pass reports it as cancelled. What was refused once stays withheld, since nobody
reads a request to stop and then goes on.

The report of a batch says that it was cancelled when the batch was asked to stop before it closed,
whether or not any work was left by then.

Main statements: `Watched.through`, by which work is withheld exactly when some was refused, and
`cancelled_iff_asked`.
-/

namespace Multipass

/-! ### Cancelled passes of a worker -/

/-- Holds of a list of outcomes with a pass that was cancelled. -/
def PassReport.AnyCancelled (outcomes : List PassReport) : Prop :=
  ∃ o ∈ outcomes, o.outcome = .skipped .cancelled

/-- Holds of a worker that has reported a pass as cancelled. -/
def WorkerState.HasCancelled (state : WorkerState) : Prop :=
  PassReport.AnyCancelled state.outcomes

/-- Holds of a worker that decides on nothing but passes from here on, if it is still at work. -/
def WorkerState.IsDeciding : WorkerState → Prop
  | .running e => e.phase = .deciding
  | _ => True

namespace PassReport

instance (outcomes : List PassReport) : Decidable (AnyCancelled outcomes) :=
  inferInstanceAs (Decidable (∃ o ∈ outcomes, o.outcome = .skipped .cancelled))

lemma anyCancelled_push {outcomes : List PassReport} {o : PassReport} :
    AnyCancelled (outcomes ++ [o]) ↔ AnyCancelled outcomes ∨ o.outcome = .skipped .cancelled := by
  simp [AnyCancelled, or_and_right, exists_or]

end PassReport

namespace WorkerState

lemma not_hasCancelled_aborted {error : StoreError} : ¬(aborted error).HasCancelled :=
  fun ⟨_, mem, _⟩ => List.not_mem_nil mem

lemma not_hasCancelled_panicked {text : String} : ¬(panicked text).HasCancelled :=
  fun ⟨_, mem, _⟩ => List.not_mem_nil mem

lemma not_hasCancelled_start (record : Record) (order : List String) :
    ¬(running (.start record order)).HasCancelled :=
  fun ⟨_, mem, _⟩ => List.not_mem_nil mem

end WorkerState

namespace Execution

variable {ω : Type} {env : Environment ω} {job : Job} {e : Execution} {w : ω} {pass : String}

/-- Holds of a worker that is about to report a pass as cancelled. -/
structure Refuses (env : Environment ω) (e : Execution) (w : ω) : Prop where
  deciding : e.phase = .deciding
  left : e.remaining ≠ []
  asked : env.isCancelled w = true

/-- What a worker does that refuses a pass. -/
lemma Refuses.step (refuses : e.Refuses env w) (job : Job) :
    ∃ pass, e.step env job w = (.running (e.close pass (.skipped .cancelled)), w) := by
  obtain ⟨pass, rest, more⟩ := List.exists_cons_of_ne_nil refuses.left
  refine ⟨pass, ?_⟩
  simp only [Execution.step, stepPass, choose, more, refuses.deciding, refuses.asked, if_true]

lemma hasCancelled_close {outcome : PassOutcome}
    (has : (WorkerState.running (e.close pass outcome)).HasCancelled)
    (ne : outcome ≠ .skipped .cancelled) : (WorkerState.running e).HasCancelled :=
  (PassReport.anyCancelled_push.1 has).resolve_right ne

lemma hasCancelled_prepared {d : PassDefinition} {prior : List PassResult}
    (has : (WorkerState.running (e.prepared job d prior)).HasCancelled) :
    (WorkerState.running e).HasCancelled := by
  simp only [prepared] at has
  split at has
  · exact hasCancelled_close has (by simp)
  · exact has

lemma hasCancelled_choose (calm : env.isCancelled w = false)
    (has : (WorkerState.running (e.choose env job pass w)).HasCancelled) :
    (WorkerState.running e).HasCancelled := by
  simp only [choose, calm, Bool.false_eq_true, if_false] at has
  split at has
  · exact hasCancelled_close has (by simp)
  · split at has
    · exact hasCancelled_close has (by simp)
    · split at has
      · exact has
      · exact hasCancelled_prepared has

lemma hasCancelled_completed {updated : Record}
    (has : (WorkerState.running (e.completed job pass updated)).HasCancelled) :
    (WorkerState.running e).HasCancelled := by
  have has : PassReport.AnyCancelled (e.completed job pass updated).report.outcomes := has
  rw [report_completed] at has
  exact (PassReport.anyCancelled_push.1 has).resolve_right (by simp)

lemma hasCancelled_afterCompletion {answer : Except StoreError Record}
    (has : (e.afterCompletion job pass answer).HasCancelled) :
    (WorkerState.running e).HasCancelled := by
  simp only [afterCompletion] at has
  split at has
  · exact hasCancelled_completed has
  · exact hasCancelled_close has (by simp)
  · exact absurd has WorkerState.not_hasCancelled_aborted

lemma hasCancelled_afterReply {d : PassDefinition} {since now : Nat} {reply : Reply}
    (has : (e.afterReply d pass since now reply).HasCancelled) :
    (WorkerState.running e).HasCancelled := by
  cases reply with
  | output o => exact has
  | error error => exact hasCancelled_close has (by simp)
  | panic text => exact absurd has WorkerState.not_hasCancelled_panicked

/-- A worker that refuses nothing reports no more passes as cancelled. -/
theorem hasCancelled_of_step (willing : ¬e.Refuses env w)
    (has : (e.step env job w).1.HasCancelled) : (WorkerState.running e).HasCancelled := by
  simp only [step] at has
  cases more : e.remaining with
  | nil =>
    rw [more] at has
    exact has
  | cons pass rest =>
    simp only [more, stepPass] at has
    cases phase : e.phase with
    | deciding =>
      have calm : env.isCancelled w = false := by
        by_contra asked
        exact willing ⟨phase, more ▸ List.cons_ne_nil _ _, Bool.eq_true_of_not_eq_false asked⟩
      rw [phase] at has
      exact hasCancelled_choose calm has
    | gathering d =>
      simp only [phase] at has
      split at has
      · exact hasCancelled_prepared has
      · exact absurd has WorkerState.not_hasCancelled_aborted
    | checking d ctx =>
      simp only [phase] at has
      split at has
      · exact has
      · exact has
      · exact absurd has WorkerState.not_hasCancelled_aborted
    | recovering d =>
      simp only [phase] at has
      exact hasCancelled_afterCompletion has
    | starting d ctx =>
      simp only [phase] at has
      exact has
    | calling d ctx since =>
      simp only [phase] at has
      split at has
      · exact hasCancelled_close has (by simp)
      · exact hasCancelled_afterReply has
    | committing d result =>
      simp only [phase] at has
      exact hasCancelled_afterCompletion has
    | scoring =>
      simp only [phase] at has
      split at has
      · exact has
      · exact has
    | saving scores =>
      simp only [phase] at has
      split at has
      · exact has
      · exact has

/-- A worker that decides on a pass when it is asked to stop refuses the pass, or has none left. -/
lemma step_of_asked (job : Job) (deciding : e.phase = .deciding) (asked : env.isCancelled w = true) :
    (∃ pass, (e.step env job w).1 = .running (e.close pass (.skipped .cancelled))) ∨
      (e.step env job w).1 = .finished { e.report with completed := e.current.completed } := by
  cases more : e.remaining with
  | nil =>
    right
    simp only [step, more]
  | cons pass rest =>
    have refuses : e.Refuses env w := ⟨deciding, more ▸ List.cons_ne_nil _ _, asked⟩
    obtain ⟨pass, eq⟩ := refuses.step job
    exact .inl ⟨pass, congrArg Prod.fst eq⟩

/-- Cancelled passes stay reported, and those that a worker refuses are added. -/
theorem hasCancelled_step (job : Job)
    (settled : (WorkerState.running e).HasCancelled → e.phase = .deciding)
    (asked : (WorkerState.running e).HasCancelled → env.isCancelled w = true) :
    (e.step env job w).1.HasCancelled ↔
      (WorkerState.running e).HasCancelled ∨ e.Refuses env w := by
  refine ⟨fun has => ?_, fun either => ?_⟩
  · by_cases refuses : e.Refuses env w
    · exact .inr refuses
    · exact .inl (hasCancelled_of_step refuses has)
  · obtain has | refuses := either
    · obtain ⟨pass, eq⟩ | eq := step_of_asked job (settled has) (asked has)
      · rw [eq]
        exact PassReport.anyCancelled_push.2 (.inl has)
      · rw [eq]
        exact has
    · obtain ⟨pass, eq⟩ := refuses.step job
      rw [eq]
      exact PassReport.anyCancelled_push.2 (.inr rfl)

/-- A worker with a cancelled pass goes on to decide, and to do nothing else. -/
theorem isDeciding_step (job : Job)
    (settled : (WorkerState.running e).HasCancelled → e.phase = .deciding)
    (asked : (WorkerState.running e).HasCancelled → env.isCancelled w = true)
    (has : (e.step env job w).1.HasCancelled) : (e.step env job w).1.IsDeciding := by
  have decides (deciding : e.phase = .deciding) (asked : env.isCancelled w = true) :
      (e.step env job w).1.IsDeciding := by
    obtain ⟨pass, eq⟩ | eq := step_of_asked job deciding asked
    · rw [eq]
      rfl
    · rw [eq]
      trivial
  obtain has | refuses := (hasCancelled_step job settled asked).1 has
  · exact decides (settled has) (asked has)
  · exact decides refuses.deciding refuses.asked

end Execution

/-! ### Work that a batch withholds -/

/-- Holds when work on some selected records was kept from being done: one of them has no summary, or
a summary has a pass that was cancelled. -/
def Report.Withholds (report : Report) (selected : List Record) : Prop :=
  (∃ r ∈ selected, ∀ a ∈ report.records, a.path ≠ r.path) ∨
    ∃ a ∈ report.records, PassReport.AnyCancelled a.outcomes

instance (report : Report) (selected : List Record) : Decidable (report.Withholds selected) :=
  inferInstanceAs (Decidable (_ ∨ _))

namespace Batch

variable {ω : Type}

/-- Holds of a move by which work is refused: the coordinator leaves the records that wait, or a
worker reports a pass as cancelled. -/
inductive Refuses (shop : Workshop ω) (b : Batch) (w : ω) : Move → Prop where
  | next :
    b.stage = .choosing ∨ b.stage = .permitted →
    b.queue ≠ [] →
    shop.environment.isCancelled w = true →
    Refuses shop b w .coordinator
  | pass {place worker} :
    b.working[place]? = some worker →
    worker.execution.Refuses shop.environment w →
    Refuses shop b w (.worker place)

/-- Holds when some work is refused along all that happens. -/
def Refused (shop : Workshop ω) (job : Job) (options : RunOptions) (scene : Batch × ω)
    (incidents : List (Incident ω)) : Prop :=
  ∃ n move, incidents[n]? = some (.move move) ∧
    Refuses shop (through shop job options scene (incidents.take n)).1
      (through shop job options scene (incidents.take n)).2 move

/-- Holds when the batch is asked to stop at some moment before it is closed. -/
def Asked (shop : Workshop ω) (job : Job) (options : RunOptions) (scene : Batch × ω)
    (incidents : List (Incident ω)) : Prop :=
  ∃ n, (through shop job options scene (incidents.take n)).1.stage ≠ .closed ∧
    shop.environment.isCancelled (through shop job options scene (incidents.take n)).2 = true

/-- Holds when a request to stop is never taken back. -/
def Steadfast (shop : Workshop ω) (job : Job) (options : RunOptions) (scene : Batch × ω)
    (incidents : List (Incident ω)) : Prop :=
  ∀ n, shop.environment.isCancelled (through shop job options scene (incidents.take n)).2 = true →
    shop.environment.isCancelled (through shop job options scene (incidents.take (n + 1))).2 = true

variable {shop : Workshop ω} {job : Job} {options : RunOptions} {b b' : Batch} {w w' : ω}
  {entries : List Entry} {selected : List Record} {scene : Batch × ω} {incident : Incident ω}
  {incidents : List (Incident ω)} {move : Move} {refused : Prop}

/-! ### One incident, and those behind it -/

lemma refused_cons :
    Refused shop job options scene (incident :: incidents) ↔
      (∃ move, incident = .move move ∧ Refuses shop scene.1 scene.2 move) ∨
        Refused shop job options (befall shop job options scene incident) incidents := by
  refine ⟨fun ⟨n, move, here, refuses⟩ => ?_, fun either => ?_⟩
  · cases n with
    | zero => exact .inl ⟨move, Option.some.inj here, refuses⟩
    | succ n => exact .inr ⟨n, move, here, refuses⟩
  · obtain ⟨move, rfl, refuses⟩ | ⟨n, move, here, refuses⟩ := either
    · exact ⟨0, move, rfl, refuses⟩
    · exact ⟨n + 1, move, here, refuses⟩

lemma Asked.later
    (asked : Asked shop job options (befall shop job options scene incident) incidents) :
    Asked shop job options scene (incident :: incidents) := by
  obtain ⟨n, early, flag⟩ := asked
  exact ⟨n + 1, early, flag⟩

lemma asked_cons :
    Asked shop job options scene (incident :: incidents) ↔
      (scene.1.stage ≠ .closed ∧ shop.environment.isCancelled scene.2 = true) ∨
        Asked shop job options (befall shop job options scene incident) incidents := by
  refine ⟨fun ⟨n, early, flag⟩ => ?_, fun either => ?_⟩
  · cases n with
    | zero => exact .inl ⟨early, flag⟩
    | succ n => exact .inr ⟨n, early, flag⟩
  · obtain now | later := either
    · exact ⟨0, now⟩
    · exact later.later

lemma Steadfast.head (steadfast : Steadfast shop job options scene (incident :: incidents))
    (asked : shop.environment.isCancelled scene.2 = true) :
    shop.environment.isCancelled (befall shop job options scene incident).2 = true :=
  steadfast 0 asked

lemma Steadfast.tail (steadfast : Steadfast shop job options scene (incident :: incidents)) :
    Steadfast shop job options (befall shop job options scene incident) incidents :=
  fun n => steadfast (n + 1)

/-- Who refuses work makes a step by it. -/
lemma Refuses.step_ne_none (refuses : Refuses shop b w move) :
    b.step shop job options w move ≠ none := by
  cases refuses with
  | next stage waits asked =>
    have more : b.queue.isEmpty = false := by simpa using waits
    obtain stage | stage := stage <;>
      simp [Batch.step, coordinate, stage, more, asked]
  | pass hw _ => simp [Batch.step, hw]

/-- What happens is a step by one of the rules, or the batch stays as it is and nobody refuses work. -/
lemma befall_cases (shop : Workshop ω) (job : Job) (options : RunOptions) (scene : Batch × ω)
    (incident : Incident ω) :
    (∃ move, incident = .move move ∧
        Step shop job options scene.1 scene.2 move (befall shop job options scene incident).1
          (befall shop job options scene incident).2) ∨
      (befall shop job options scene incident).1 = scene.1 ∧
        ∀ move, incident = .move move → ¬Refuses shop scene.1 scene.2 move := by
  obtain ⟨b, w⟩ := scene
  cases incident with
  | change w' => exact .inr ⟨rfl, nofun⟩
  | move move =>
    simp only [befall]
    cases h : b.step shop job options w move with
    | some next => exact .inl ⟨move, rfl, step_inv h⟩
    | none =>
      refine .inr ⟨rfl, ?_⟩
      rintro _ ⟨⟩ refuses
      exact refuses.step_ne_none h

/-! ### The invariant -/

/-- Holds when a batch has left records, or some worker has reported a pass as cancelled. -/
def Declined (order : List String) (entries : List Entry) (b : Batch) : Prop :=
  (b.stage.rank ≤ 2 ∧ b.queue ≠ []) ∨ ∃ x ∈ matters order entries b, x.2.HasCancelled

/-- What holds of a batch and its state, by whether some work was refused. -/
structure Watched (shop : Workshop ω) (job : Job) (selected : List Record) (refused : Prop)
    (entries : List Entry) (b : Batch) (w : ω) : Prop where
  booked : Booked job selected entries b
  declined : Declined job.registry.order entries b ↔ refused
  asked : refused → shop.environment.isCancelled w = true
  deciding : ∀ x ∈ matters job.registry.order entries b, x.2.HasCancelled → x.2.IsDeciding
  waits : b.stage = .waiting ∨ b.stage = .permitted → b.queue ≠ []

lemma watched_start (shop : Workshop ω) (job : Job) (options : RunOptions) (selected : List Record)
    (w : ω) :
    Watched shop job selected False [] (start job.runId options selected) w := by
  have none : ∀ x ∈ matters job.registry.order [] (start job.runId options selected),
      ¬x.2.HasCancelled := by
    simp only [matters, affairs, start, List.filterMap_nil, List.append_nil, List.map_nil]
    exact List.forall_mem_map.2 fun r _ => WorkerState.not_hasCancelled_start r _
  refine ⟨booked_start job options selected, ?_, False.elim,
    fun x mem has => absurd has (none x mem), ?_⟩
  · refine iff_of_false ?_ id
    rintro (⟨late, -⟩ | ⟨x, mem, has⟩)
    · exact absurd late (show ¬Stage.rank .choosing ≤ 2 by decide)
    · exact none x mem has
  · rintro (stage | stage) <;> cases stage

/-- The coordinator refuses work when it leaves records that wait. -/
lemma Watched.coordinate (watched : Watched shop job selected refused entries b w)
    (rule : Step shop job options b w .coordinator b' w')
    (steadfast : shop.environment.isCancelled w = true → shop.environment.isCancelled w' = true) :
    ∃ entries', Watched shop job selected (Refuses shop b w .coordinator ∨ refused) entries' b' w' := by
  obtain ⟨entries', booked, perm⟩ := watched.booked.coordinate rule
  have refuses : Refuses shop b w .coordinator ↔ (b.stage = .choosing ∨ b.stage = .permitted) ∧
      b.queue ≠ [] ∧ shop.environment.isCancelled w = true := by
    refine ⟨fun | .next stage waits asked => ⟨stage, waits, asked⟩, fun ⟨stage, waits, asked⟩ => ?_⟩
    exact .next stage waits asked
  have left : (b'.stage.rank ≤ 2 ∧ b'.queue ≠ []) ↔
      Refuses shop b w .coordinator ∨ (b.stage.rank ≤ 2 ∧ b.queue ≠ []) := by
    rw [refuses]
    cases rule with
    | wait hs _ calm => simp [hs, calm, enter, Stage.rank]
    | permit hs _ => simp [hs, enter, Stage.rank]
    | claim hs calm => simp [hs, calm, enter, Stage.rank]
    | drain hs none => simp [none, enter]
    | cancel hs asked => obtain hs | hs := hs <;> simp [hs, asked, cancel, Stage.rank]
    | busy hs _ _ => simp [hs, skipBusy, Stage.rank]
    | hire hs _ _ => simp [hs, hire, Stage.rank]
    | collect hs _ => obtain hs | hs := hs <;> simp [hs, collect, Stage.rank]
    | resume hs _ => simp [hs, enter, Stage.rank]
    | finish hs _ _ => simp [hs, enter, Stage.rank]
    | close hs _ => simp [hs, Stage.rank]
  refine ⟨entries', booked, ?_, ?_, ?_, ?_⟩
  · rw [Declined, left, or_assoc, ← watched.declined, Declined]
    simp only [perm.mem_iff]
  · rintro (refuses' | refused)
    · exact steadfast (refuses.1 refuses').2.2
    · exact steadfast (watched.asked refused)
  · exact fun x mem => watched.deciding x (perm.mem_iff.1 mem)
  · cases rule with
    | wait _ hq _ => exact fun _ => hq ▸ List.cons_ne_nil _ _
    | permit hs _ => exact fun _ => watched.waits (.inl hs)
    | collect hs _ =>
      intro stage
      exact watched.waits stage
    | _ => rintro (stage | stage) <;> cases stage

/-- A worker refuses work when it reports a pass as cancelled. -/
lemma Watched.work (watched : Watched shop job selected refused entries b w) {place : Nat}
    {worker : Worker} (hw : b.working[place]? = some worker)
    (booked : Booked job selected entries b')
    (perm : (matters job.registry.order entries b').Perm
      ((worker.record, (worker.execution.step shop.environment job w).1) ::
        matters job.registry.order entries { b with working := b.working.eraseIdx place }))
    (stage : b'.stage = b.stage) (queue : b'.queue = b.queue)
    (steadfast : shop.environment.isCancelled w = true → shop.environment.isCancelled w' = true) :
    Watched shop job selected (Refuses shop b w (.worker place) ∨ refused) entries b' w' := by
  let e := worker.execution
  have before : (matters job.registry.order entries b).Perm ((worker.record, .running e) ::
      matters job.registry.order entries { b with working := b.working.eraseIdx place }) :=
    affairs_working (perm_working hw)
  have own : (worker.record, .running e) ∈ matters job.registry.order entries b :=
    before.mem_iff.2 List.mem_cons_self
  have settled : (WorkerState.running e).HasCancelled → e.phase = .deciding :=
    watched.deciding _ own
  have asked : (WorkerState.running e).HasCancelled → shop.environment.isCancelled w = true :=
    fun has => watched.asked (watched.declined.1 (.inr ⟨_, own, has⟩))
  have refuses : Refuses shop b w (.worker place) ↔ e.Refuses shop.environment w := by
    refine ⟨fun | .pass hw' refuses => ?_, .pass hw⟩
    obtain rfl := Option.some.inj (hw.symm.trans hw')
    exact refuses
  refine ⟨booked, ?_, ?_, ?_, ?_⟩
  · have has : (∃ x ∈ matters job.registry.order entries b', x.2.HasCancelled) ↔
        e.Refuses shop.environment w ∨
          ∃ x ∈ matters job.registry.order entries b, x.2.HasCancelled := by
      simp only [perm.mem_iff, before.mem_iff, List.exists_mem_cons_iff]
      rw [e.hasCancelled_step job settled asked, or_comm (b := e.Refuses _ _), or_assoc]
    rw [Declined, stage, queue, has, or_left_comm, refuses, ← watched.declined, Declined]
  · rintro (refuses' | refused)
    · exact steadfast (refuses.1 refuses').asked
    · exact steadfast (watched.asked refused)
  · intro x mem has
    obtain rfl | mem := List.mem_cons.1 (perm.mem_iff.1 mem)
    · exact e.isDeciding_step job settled asked has
    · exact watched.deciding x (before.mem_iff.2 (List.mem_cons_of_mem _ mem)) has
  · rw [stage, queue]
    exact watched.waits

/-- What a step does to the work that is refused. -/
theorem Watched.step (watched : Watched shop job selected refused entries b w)
    (rule : Step shop job options b w move b' w')
    (steadfast : shop.environment.isCancelled w = true → shop.environment.isCancelled w' = true) :
    ∃ entries', Watched shop job selected (Refuses shop b w move ∨ refused) entries' b' w' := by
  cases move with
  | coordinator => exact watched.coordinate rule steadfast
  | worker place =>
    have booked := watched.booked.work_step rule
    refine ⟨entries, ?_⟩
    cases rule with
    | @proceed _ worker e' _ hw hs =>
      refine watched.work hw booked ?_ rfl rfl steadfast
      rw [hs]
      exact matters_proceed hw e'
    | @dismiss _ worker ending w'' hw hs =>
      refine watched.work hw booked ?_ rfl rfl steadfast
      rw [hs]
      exact matters_dismiss place worker ending w''

/-- What one incident does to the work that is refused. -/
lemma Watched.befall (watched : Watched shop job selected refused entries b w)
    (steadfast : Steadfast shop job options (b, w) (incident :: incidents)) :
    ∃ entries', Watched shop job selected
      ((∃ move, incident = .move move ∧ Refuses shop b w move) ∨ refused) entries'
      (befall shop job options (b, w) incident).1 (befall shop job options (b, w) incident).2 := by
  obtain ⟨move, rfl, rule⟩ | ⟨same, willing⟩ := befall_cases shop job options (b, w) incident
  · obtain ⟨entries', watched'⟩ := watched.step rule steadfast.head
    refine ⟨entries', ?_⟩
    simpa using watched'
  · have none : ¬∃ move, incident = .move move ∧ Refuses shop b w move :=
      fun ⟨move, here, refuses⟩ => willing move here refuses
    refine ⟨entries, ?_⟩
    rw [same, or_iff_right none]
    exact { watched with asked := fun refused => steadfast.head (watched.asked refused) }

/-- While a request to stop is never taken back, a batch has declined work exactly when some was
refused. -/
theorem Watched.through (watched : Watched shop job selected refused entries b w)
    (steadfast : Steadfast shop job options (b, w) incidents) :
    ∃ entries', Watched shop job selected
      (refused ∨ Refused shop job options (b, w) incidents) entries'
      (through shop job options (b, w) incidents).1
      (through shop job options (b, w) incidents).2 := by
  induction incidents generalizing b w entries refused with
  | nil =>
    have none : ¬Refused shop job options (b, w) [] := fun ⟨_, _, here, _⟩ => nomatch here
    rw [or_iff_left none]
    exact ⟨entries, watched⟩
  | cons incident incidents ih =>
    obtain ⟨entries', watched'⟩ := watched.befall steadfast
    rw [refused_cons, or_left_comm, ← or_assoc]
    exact ih watched' steadfast.tail

/-! ### The flag of the report -/

lemma ne_closed_of_or {stage s s' : Stage} (either : stage = s ∨ stage = s') (ne : s ≠ .closed)
    (ne' : s' ≠ .closed) : stage ≠ .closed := by
  obtain rfl | rfl := either
  · exact ne
  · exact ne'

/-- The coordinator of a closed batch makes no step. -/
lemma Step.early (rule : Step shop job options b w .coordinator b' w') : b.stage ≠ .closed := by
  cases rule with
  | wait hs _ _ => exact hs ▸ nofun
  | permit hs _ => exact hs ▸ nofun
  | claim hs _ => exact hs ▸ nofun
  | drain hs _ => exact ne_closed_of_or hs nofun nofun
  | cancel hs _ => exact ne_closed_of_or hs nofun nofun
  | busy hs _ _ => exact hs ▸ nofun
  | hire hs _ _ => exact hs ▸ nofun
  | collect hs _ => exact ne_closed_of_or hs nofun nofun
  | resume hs _ => exact hs ▸ nofun
  | finish hs _ _ => exact hs ▸ nofun
  | close hs _ => exact hs ▸ nofun

lemma Step.cancelled_or_asked (rule : Step shop job options b w move b' w')
    (told : b'.report.cancelled = true) :
    b.report.cancelled = true ∨
      (b.stage ≠ .closed ∧ shop.environment.isCancelled w = true) := by
  cases rule with
  | cancel hs asked => exact .inr ⟨ne_closed_of_or hs nofun nofun, asked⟩
  | close hs eq =>
    obtain told | asked := Bool.or_eq_true_iff.1 (eq.symm.trans told)
    · exact .inl told
    · exact .inr ⟨hs ▸ nofun, asked⟩
  | busy _ _ _ => exact .inl ((Report.cancelled_push ..).symm.trans told)
  | collect _ _ => exact .inl ((Report.cancelled_push ..).symm.trans told)
  | _ => exact .inl told

/-- With the last step a batch that is asked to stop says so. -/
lemma Step.cancelled_of_close (rule : Step shop job options b w move b' w')
    (early : b.stage ≠ .closed) (closed : b'.stage = .closed)
    (asked : shop.environment.isCancelled w = true) : b'.report.cancelled = true := by
  cases rule with
  | close _ eq =>
    rw [asked, Bool.or_true] at eq
    exact eq
  | collect _ _ => exact absurd closed early
  | proceed _ _ => exact absurd closed early
  | dismiss _ _ => exact absurd closed early
  | _ => cases closed

/-- The report of a closed batch stays as it is. -/
lemma Step.report_of_closed (rule : Step shop job options b w move b' w')
    (closed : b.stage = .closed) : b'.stage = .closed ∧ b'.report = b.report := by
  cases move with
  | coordinator => exact absurd closed rule.early
  | worker place => cases rule <;> exact ⟨closed, rfl⟩

lemma report_through_closed (closed : scene.1.stage = .closed) :
    (through shop job options scene incidents).1.report = scene.1.report := by
  induction incidents generalizing scene with
  | nil => rfl
  | cons incident incidents ih =>
    obtain ⟨move, -, rule⟩ | ⟨same, -⟩ := befall_cases shop job options scene incident
    · obtain ⟨closed', report⟩ := rule.report_of_closed closed
      exact (ih closed').trans report
    · exact (ih (same ▸ closed)).trans (congrArg Batch.report same)

lemma asked_of_cancelled
    (told : (through shop job options scene incidents).1.report.cancelled = true) :
    scene.1.report.cancelled = true ∨ Asked shop job options scene incidents := by
  induction incidents generalizing scene with
  | nil => exact .inl told
  | cons incident incidents ih =>
    obtain told' | asked := ih told
    · obtain ⟨move, -, rule⟩ | ⟨same, -⟩ := befall_cases shop job options scene incident
      · exact (rule.cancelled_or_asked told').imp_right fun now => asked_cons.2 (.inl now)
      · exact .inl (same ▸ told')
    · exact .inr asked.later

lemma cancelled_of_asked (steadfast : Steadfast shop job options scene incidents)
    (closed : (through shop job options scene incidents).1.stage = .closed)
    (asked : Asked shop job options scene incidents) :
    (through shop job options scene incidents).1.report.cancelled = true := by
  induction incidents generalizing scene with
  | nil =>
    obtain ⟨n, early, -⟩ := asked
    rw [List.take_nil] at early
    exact absurd closed early
  | cons incident incidents ih =>
    obtain ⟨early, now⟩ | later := asked_cons.1 asked
    · by_cases closed' : (befall shop job options scene incident).1.stage = .closed
      · obtain ⟨move, -, rule⟩ | ⟨same, -⟩ := befall_cases shop job options scene incident
        · have told := rule.cancelled_of_close early closed' now
          exact (congrArg Report.cancelled (report_through_closed closed')).trans told
        · exact absurd (same ▸ closed') early
      · exact ih steadfast.tail closed ⟨0, closed', steadfast.head now⟩
    · exact ih steadfast.tail closed later

/-! ### A closed batch -/

/-- Who refuses work is asked to stop, and the batch is not closed. -/
lemma Booked.asked_of_refuses (booked : Booked job selected entries b)
    (refuses : Refuses shop b w move) :
    b.stage ≠ .closed ∧ shop.environment.isCancelled w = true := by
  cases refuses with
  | next hs _ asked => exact ⟨ne_closed_of_or hs nofun nofun, asked⟩
  | pass hw refuses =>
    refine ⟨fun closed => ?_, refuses.asked⟩
    rw [(booked.idle (by rw [closed]; decide)).1] at hw
    cases hw

lemma Booked.asked_of_refused (booked : Booked job selected entries b)
    (refused : Refused shop job options (b, w) incidents) :
    Asked shop job options (b, w) incidents := by
  obtain ⟨n, move, -, refuses⟩ := refused
  obtain ⟨entries', booked'⟩ := booked.through shop options w (incidents.take n)
  exact ⟨n, booked'.asked_of_refuses refuses⟩

/-- The summary of an entry has the outcomes that its worker has reported. -/
lemma outcomes_summary (registry : PassRegistry) (order : List String) (x : Entry) :
    (x.summary registry).outcomes = (x.state order).outcomes := by
  cases x with
  | busy r => rfl
  | done f =>
    obtain ⟨number, record, ending⟩ := f
    cases ending <;> rfl

/-- The report of a closed batch shows what the batch has declined. -/
lemma Booked.withholds_iff (booked : Booked job selected entries b) (closed : b.stage = .closed)
    (distinct : (selected.map Record.path).Nodup) :
    b.report.Withholds selected ↔ Declined job.registry.order entries b := by
  have late : b.stage.rank ≤ 2 := by rw [closed]; decide
  obtain ⟨working, ended⟩ := booked.idle (by rw [closed]; decide)
  have records := booked.perm_selected closed
  have listed (a : RecordSummary) : a ∈ b.report.records ↔
      ∃ x ∈ entries, x.summary job.registry = a :=
    booked.posted.summaries.mem_iff.trans List.mem_map
  refine or_congr ?_ ?_
  · -- A selected record without a summary is one that was left.
    rw [and_iff_right late]
    have apart := ((records.map Record.path).nodup_iff.2 distinct)
    rw [List.map_append, List.map_map, List.nodup_append] at apart
    refine ⟨fun ⟨r, mem, without⟩ none => ?_, fun some => ?_⟩
    · rw [none, List.nil_append] at records
      obtain ⟨x, entered, rfl⟩ := List.mem_map.1 (records.mem_iff.2 mem)
      exact without _ ((listed _).2 ⟨x, entered, rfl⟩) (booked.path_summary entered)
    · obtain ⟨r, rest, queue⟩ := List.exists_cons_of_ne_nil some
      have waits : r ∈ b.queue := queue ▸ List.mem_cons_self
      refine ⟨r, records.mem_iff.1 (List.mem_append_left _ waits), fun a mem eq => ?_⟩
      obtain ⟨x, entered, rfl⟩ := (listed a).1 mem
      rw [booked.path_summary entered] at eq
      exact apart.2.2 _ (List.mem_map_of_mem waits) _ (List.mem_map_of_mem entered) eq.symm
  · refine ⟨fun ⟨a, mem, cancelled⟩ => ?_, fun ⟨x, mem, has⟩ => ?_⟩
    · obtain ⟨x, entered, rfl⟩ := (listed a).1 mem
      rw [outcomes_summary job.registry job.registry.order] at cancelled
      exact ⟨_, mem_matters job.registry.order b entered, cancelled⟩
    · simp only [matters, affairs, working, ended, List.map_append, List.map_nil, List.nil_append,
        List.mem_append, List.mem_map, List.mem_filterMap] at mem
      obtain (⟨r, -, rfl⟩ | ⟨r, -, rfl⟩) | ⟨f, ⟨y, entered, done⟩, rfl⟩ := mem
      · exact absurd has (WorkerState.not_hasCancelled_start r _)
      · exact absurd has (WorkerState.not_hasCancelled_start r _)
      · cases y with
        | busy r => cases done
        | done f' =>
          obtain rfl := Option.some.inj done
          refine ⟨_, (listed _).2 ⟨_, entered, rfl⟩, ?_⟩
          rw [outcomes_summary job.registry job.registry.order]
          exact has

/-- A batch over the pending records of a store is asked to stop at some moment, or never, and is not
told to go on again. However it comes to its end, its report says that it was cancelled exactly when
it was asked before it closed, and work was withheld exactly when some was refused. So where work was
withheld the report says so; it says so for nothing exactly when the batch was asked and there was
nothing left to refuse. To run all pending records is one of the ways. -/
theorem cancelled_iff_asked (shop : Workshop ω) (job : Job) (options : RunOptions) {w : ω}
    (kept : shop.environment.store.Kept w) {pending : List Record}
    (read : shop.environment.store.pending job.registry.order options.pendingCheck w = .ok pending) :
    let selected := select options pending
    let begun := start job.runId options selected
    (∀ (incidents : List (Incident ω)) (b : Batch) (w' : ω),
      through shop job options (begun, w) incidents = (b, w') → b.stage = .closed →
      Steadfast shop job options (begun, w) incidents →
        (b.report.cancelled = true ↔ Asked shop job options (begun, w) incidents) ∧
        (b.report.Withholds selected ↔ Refused shop job options (begun, w) incidents) ∧
        (b.report.Withholds selected → b.report.cancelled = true) ∧
        ((b.report.cancelled = true ↔ b.report.Withholds selected) ↔
          (Asked shop job options (begun, w) incidents →
            Refused shop job options (begun, w) incidents))) ∧
    ∃ (moves : List Move) (b : Batch) (w' : ω),
      through shop job options (begun, w) (moves.map .move) = (b, w') ∧ b.stage = .closed ∧
        runAll shop job options w = (.ok ⟨b.report, b.events⟩, w') := by
  intro selected begun
  have distinct : (selected.map Record.path).Nodup := nodup_paths_select kept read options
  have booked : Booked job selected [] begun := booked_start job options selected
  refine ⟨fun incidents b w' ended closed steadfast => ?_, ?_⟩
  · obtain rfl : (through shop job options (begun, w) incidents).1 = b := congrArg Prod.fst ended
    obtain ⟨entries, watched⟩ :=
      (watched_start shop job options selected w).through steadfast
    have asked : (through shop job options (begun, w) incidents).1.report.cancelled = true ↔
        Asked shop job options (begun, w) incidents :=
      ⟨fun told => (asked_of_cancelled told).resolve_left nofun, cancelled_of_asked steadfast closed⟩
    have refused : (through shop job options (begun, w) incidents).1.report.Withholds selected ↔
        Refused shop job options (begun, w) incidents := by
      rw [watched.booked.withholds_iff closed distinct, watched.declined, false_or]
    have first : Refused shop job options (begun, w) incidents →
        Asked shop job options (begun, w) incidents := booked.asked_of_refused
    rw [asked, refused]
    exact ⟨.rfl, .rfl, first, fun same => same.1, fun all => ⟨all, first⟩⟩
  · obtain ⟨closed, moves, eq⟩ := exists_moves shop job options begun w
    refine ⟨moves, (begun.run shop job options w).1, (begun.run shop job options w).2, ?_, closed, ?_⟩
    · rw [through, List.foldl_map]
      exact eq
    · simp only [runAll, read]
      rfl

/-- Whether a request to stop is taken back shows while something happens. -/
lemma steadfast_of_lt
    (keeps : ∀ n < incidents.length,
      shop.environment.isCancelled (through shop job options scene (incidents.take n)).2 = true →
      shop.environment.isCancelled (through shop job options scene (incidents.take (n + 1))).2 = true) :
    Steadfast shop job options scene incidents := by
  intro n asked
  by_cases lt : n < incidents.length
  · exact keeps n lt asked
  · rw [List.take_of_length_le (Nat.le_of_not_lt lt)] at asked
    rw [List.take_of_length_le (Nat.le_succ_of_le (Nat.le_of_not_lt lt))]
    exact asked

/-- What workers bring along that are asked to stop while a tool works on a record. -/
def stoppedAt (path : String) : Outfit Bool where
  ai _ _ w := (.output ⟨"", .text "clean", none⟩, w.rest)
  staticTool _ ctx w := (.output ⟨"", .text "clean", none⟩, w.rest || ctx.path == path)
  clock _ := 0
  isCancelled w := w.rest

/-- The request comes while the first of two records is worked on, and the second is left. -/
theorem cancelled_amid_two :
    let job : Job := .single "lint"
    let shop := (stoppedAt "a").workshop
    let upsert : String → Timestamp × Request Record RecordId := fun path =>
      (0, .upsert ⟨path, none, "", "", .null⟩)
    let history := [upsert "a", upsert "b"]
    let w : World Bool :=
      { store := Request.performAll MemoryStore.operations history {}, claimed := [], rest := false }
    let pending := w.store.records.filter fun r => r.isPending job.registry.order .count
    let incidents := (List.replicate 20 [Incident.move .coordinator, .move (.worker 0)]).flatten
    let begun := start job.runId {} pending
    shop.environment.store.Kept w ∧
      shop.environment.store.pending job.registry.order .count w = .ok pending ∧
      ∃ b w', through shop job {} (begun, w) incidents = (b, w') ∧ b.stage = .closed ∧
        Steadfast shop job {} (begun, w) incidents ∧
        b.report.records.map RecordSummary.path = ["a"] ∧ b.report.Withholds pending ∧
        b.report.cancelled = true ∧ Refused shop job {} (begun, w) incidents := by
  intro job shop upsert history w pending incidents begun
  have kept : shop.environment.store.Kept w := .memory history rfl
  have read : shop.environment.store.pending job.registry.order .count w = .ok pending := rfl
  have steadfast : Steadfast shop job {} (begun, w) incidents := steadfast_of_lt (by decide +kernel)
  obtain ⟨told, -⟩ := cancelled_iff_asked shop job {} kept read
  obtain ⟨b, w', ended, closed, listed, withheld⟩ :
      ∃ b w', through shop job {} (begun, w) incidents = (b, w') ∧ b.stage = .closed ∧
        b.report.records.map RecordSummary.path = ["a"] ∧ b.report.Withholds pending :=
    ⟨_, _, Prod.mk.eta.symm, by decide +kernel, by decide +kernel, by decide +kernel⟩
  obtain ⟨-, refused, cancelled, -⟩ := told incidents b w' ended closed steadfast
  exact ⟨kept, read, b, w', ended, closed, steadfast, listed, withheld, cancelled withheld,
    refused.1 withheld⟩

/-- The request comes while the last pass of the only record is at work. The pass is completed, and
nothing was withheld; the report says that the batch was cancelled before all records were
processed. -/
theorem cancelled_of_one :
    let job : Job := .single "lint"
    let shop := (stoppedAt "a").workshop
    let w : World Bool :=
      { store := Request.performAll MemoryStore.operations [(0, .upsert ⟨"a", none, "", "", .null⟩)] {}
        claimed := []
        rest := false }
    let pending := w.store.records.filter fun r => r.isPending job.registry.order .count
    let incidents := (List.replicate 20 [Incident.move .coordinator, .move (.worker 0)]).flatten
    let ended := through shop job {} (start job.runId {} pending, w) incidents
    ended.1.stage = .closed ∧ ended.1.report.cancelled = true ∧
      ¬ended.1.report.Withholds pending ∧
      ended.1.report.text = Text.lines
        ["run run", "  pending records:     1", "  fully completed:     1",
          "  partially completed: 0", "  no progress:         0", "  errored:             0",
          "  cancelled before all records were processed", "", "  a",
          "    lint                     completed"] := by
  intro job shop w pending incidents ended
  exact ⟨by decide +kernel, by decide +kernel, by decide +kernel, by decide +kernel⟩

end Batch

end Multipass
