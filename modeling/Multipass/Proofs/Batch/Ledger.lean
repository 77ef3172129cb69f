import Mathlib.Data.List.Perm.Subperm
import Multipass.Proofs.Batch.Course
import Multipass.Proofs.Batch.Report

/-!
# The ledger of a batch

A batch over any shared state, whatever becomes of that state between its steps. What is done about a
record is an entry: somebody else held the record, or its worker has ended. The report sums up the
entries, the events tell of them one by one, and the records that were selected are those of the
entries together with those that wait, are worked on, or are still to be collected.

Main statements: `Booked.step` for one step, and `Booked.closed` for the report of a closed batch.
-/

namespace Multipass

/-! ### The path of a worker -/

/-- Holds of a worker that reports on a path, if it reports. -/
def WorkerState.TellsOf (path : String) : WorkerState → Prop
  | .running e => e.report.path = path
  | .finished run => run.path = path
  | _ => True

namespace Execution

variable {ω : Type} {env : Environment ω} {job : Job} {e : Execution} {pass : String}

lemma path_prepared (d : PassDefinition) (prior : List PassResult) :
    (e.prepared job d prior).report.path = e.report.path := by
  simp only [prepared]
  split <;> rfl

lemma path_choose (w : ω) : (e.choose env job pass w).report.path = e.report.path := by
  simp only [choose]
  split
  · rfl
  · split
    · rfl
    · split
      · rfl
      · split
        · rfl
        · exact path_prepared _ _

lemma tellsOf_afterCompletion (answer : Except StoreError Record) :
    (e.afterCompletion job pass answer).TellsOf e.report.path := by
  simp only [afterCompletion]
  split
  · next updated =>
    show (e.completed job pass updated).report.path = e.report.path
    rw [report_completed]
    rfl
  · rfl
  · trivial

/-- A worker reports on one path, whatever the store answers. -/
theorem tellsOf_step (env : Environment ω) (job : Job) (e : Execution) (w : ω) :
    (e.step env job w).1.TellsOf e.report.path := by
  simp only [step]
  cases e.remaining with
  | nil => rfl
  | cons pass rest =>
    simp only [stepPass]
    cases e.phase with
    | deciding => exact path_choose w
    | gathering d =>
      simp only
      split
      · exact path_prepared _ _
      · trivial
    | checking d ctx =>
      simp only
      split
      · rfl
      · rfl
      · trivial
    | recovering d => exact tellsOf_afterCompletion _
    | starting d ctx => rfl
    | calling d ctx since =>
      simp only
      split
      · rfl
      · next backend _ =>
        cases h : (backend.invoke d ctx w).1 with
        | output o => rfl
        | error error => rfl
        | panic text => trivial
    | committing d result => exact tellsOf_afterCompletion _
    | scoring =>
      simp only
      split <;> rfl
    | saving scores =>
      simp only
      split <;> rfl

end Execution

/-! ### Events -/

/-- Which of the records that are done an event tells of. -/
def ProgressEvent.number? : ProgressEvent → Option Nat
  | .finished _ n _ _ _ => some n
  | _ => none

/-- Holds of the event that tells of a record with a summary, in a batch of so many records. -/
inductive ProgressEvent.Tells (total : Nat) (a : RecordSummary) : ProgressEvent → Prop where
  | busy :
    a.status = .busy →
    Tells total a (.busy a.path)
  | finished {n} :
    a.status ≠ .busy →
    Tells total a (.finished a.path n total
      (a.outcomes.filter fun o => o.outcome.isCompleted).length
      (a.outcomes.filter fun o => o.outcome.isFailed).length)

namespace Batch

lemma status_ofRun_ne_busy (registry : PassRegistry) (run : RecordRun) :
    (RecordSummary.ofRun registry run).status ≠ .busy := by
  show Report.statusOf registry run ≠ .busy
  simp only [Report.statusOf]
  split
  · exact nofun
  · split <;> exact nofun

lemma tells_summaryOf (registry : PassRegistry) (total n : Nat) (f : Finished) :
    ProgressEvent.Tells total (summaryOf registry f).1
      (.finished (summaryOf registry f).1.path n total (summaryOf registry f).2.1
        (summaryOf registry f).2.2) := by
  obtain ⟨number, record, ending⟩ := f
  cases ending with
  | finished run => exact .finished (status_ofRun_ne_busy registry run)
  | aborted error => exact .finished nofun
  | panicked text => exact .finished nofun

/-! ### Entries -/

/-- What was done about a record. -/
inductive Entry where
  /-- Somebody else held it. -/
  | busy (record : Record)
  /-- Its worker has ended and was collected. -/
  | done (f : Finished)

namespace Entry

def record : Entry → Record
  | .busy r => r
  | .done f => f.record

def busy? : Entry → Option Record
  | .busy r => some r
  | .done _ => none

def done? : Entry → Option Finished
  | .busy _ => none
  | .done f => some f

/-- How the worker of the record of an entry stands: where somebody else held the record, as one that
is not set on it yet. -/
def state (order : List String) : Entry → WorkerState
  | .busy r => .running (.start r order)
  | .done f => f.ending.state

/-- The summary of the record of an entry. -/
def summary (registry : PassRegistry) : Entry → RecordSummary
  | .busy r => .ofBusy r
  | .done f => (summaryOf registry f).1

end Entry

/-- The affairs of a batch with the entries in its ledger. A record that somebody else holds stays as
it was selected, like one that waits. -/
def matters (order : List String) (entries : List Entry) (b : Batch) : List (Record × WorkerState) :=
  affairs order (b.queue ++ entries.filterMap Entry.busy?) b.working
    (b.ended ++ entries.filterMap Entry.done?)

variable {ω : Type} {shop : Workshop ω} {job : Job} {options : RunOptions} {b b' : Batch} {w w' : ω}
  {order : List String} {entries : List Entry} {selected : List Record} {total : Nat} {move : Move}

lemma affairs_waiting {queue queue' : List Record} {working : List Worker} {done : List Finished}
    (perm : queue.Perm queue') :
    (affairs order queue working done).Perm (affairs order queue' working done) :=
  .append_right _ (perm.map _)

lemma matters_busy (order : List String) (entries : List Entry) {record : Record}
    {rest : List Record} (hq : b.queue = record :: rest) :
    (matters order (entries ++ [.busy record]) (b.skipBusy record)).Perm (matters order entries b) := by
  have one : (entries ++ [Entry.busy record]).filterMap Entry.busy? =
      entries.filterMap Entry.busy? ++ [record] := List.filterMap_append
  have none : (entries ++ [Entry.busy record]).filterMap Entry.done? =
      entries.filterMap Entry.done? := List.filterMap_append.trans (List.append_nil _)
  simp only [matters, skipBusy, hq, one, none, List.tail_cons]
  refine affairs_waiting ?_
  rw [← List.append_assoc]
  exact List.perm_append_singleton record (rest ++ entries.filterMap Entry.busy?)

lemma matters_collect (registry : PassRegistry) {f : Finished} {rest : List Finished}
    (he : b.ended = f :: rest) :
    (matters order (entries ++ [.done f]) (Batch.collect registry b f rest)).Perm
      (matters order entries b) := by
  have none : (entries ++ [Entry.done f]).filterMap Entry.busy? =
      entries.filterMap Entry.busy? := List.filterMap_append.trans (List.append_nil _)
  have one : (entries ++ [Entry.done f]).filterMap Entry.done? =
      entries.filterMap Entry.done? ++ [f] := List.filterMap_append
  simp only [matters, Batch.collect, he, one, none]
  refine .trans (affairs_done ?_) (affairs_done (.refl _)).symm
  rw [← List.append_assoc]
  exact List.perm_append_singleton f (rest ++ entries.filterMap Entry.done?)

lemma matters_hire (order : List String) (entries : List Entry) {record : Record}
    {rest : List Record} (hq : b.queue = record :: rest) :
    (matters order entries (b.hire record order)).Perm (matters order entries b) := by
  simp only [matters, Batch.hire, hq, List.tail_cons]
  exact affairs_working (List.perm_append_singleton _ _)

lemma mem_matters (order : List String) (b : Batch) {x : Entry} (mem : x ∈ entries) :
    (x.record, x.state order) ∈ matters order entries b := by
  cases x with
  | busy r =>
    have waits : r ∈ b.queue ++ entries.filterMap Entry.busy? :=
      List.mem_append_right _ (List.mem_filterMap.2 ⟨.busy r, mem, rfl⟩)
    refine List.mem_append_left _ ?_
    exact List.mem_map_of_mem (f := fun r => (r, WorkerState.running (.start r order))) waits
  | done f =>
    have done : f ∈ b.ended ++ entries.filterMap Entry.done? :=
      List.mem_append_right _ (List.mem_filterMap.2 ⟨.done f, mem, rfl⟩)
    refine List.mem_append_right _ (List.mem_append_right _ ?_)
    exact List.mem_map_of_mem (f := fun f : Finished => (f.record, f.ending.state)) done

/-- What the entries come to, with the records that are not dealt with once nobody is at work. -/
lemma map_matters (working : b.working = []) (ended : b.ended = []) :
    ((matters order entries b).map Prod.fst).Perm (b.queue ++ entries.map Entry.record) := by
  simp only [matters, affairs, working, ended, List.map_append, List.map_nil, List.nil_append,
    List.map_map]
  rw [List.append_assoc]
  refine .append (.of_eq (List.map_id _)) ?_
  induction entries with
  | nil => exact .refl _
  | cons x entries ih =>
    cases x with
    | busy r => exact ih.cons r
    | done f => exact List.perm_middle.trans (ih.cons f.record)

/-! ### The account -/

/-- What holds of the report and the events of a batch with its entries: the entries are summed up,
and told of one after the other behind the start. -/
structure Posted (job : Job) (total : Nat) (entries : List Entry) (b : Batch) : Prop where
  counted : b.report.Counted
  pending : b.report.pending = total
  summaries : b.report.records.Perm (entries.map (Entry.summary job.registry))
  told : ∃ told, b.events = .started job.runId total :: told ∧
    List.Forall₂ (ProgressEvent.Tells total) (entries.map (Entry.summary job.registry)) told ∧
    told.filterMap ProgressEvent.number? = List.range' 1 b.collected

lemma Posted.push (posted : Posted job total entries b) {x : Entry} {event : ProgressEvent}
    (report : b'.report = b.report.push (x.summary job.registry))
    (events : b'.events = b.events ++ [event])
    (tells : event.Tells total (x.summary job.registry))
    (number : List.range' 1 b'.collected = List.range' 1 b.collected ++ event.number?.toList) :
    Posted job total (entries ++ [x]) b' where
  counted := report ▸ posted.counted.push _
  pending := by
    rw [report, Report.pending_push]
    exact posted.pending
  summaries := by
    rw [report, Report.records_push, List.map_append]
    exact posted.summaries.append_right _
  told := by
    obtain ⟨told, started, each, numbers⟩ := posted.told
    refine ⟨told ++ [event], by rw [events, started]; rfl, ?_, ?_⟩
    · rw [List.map_append]
      exact forall₂_append each (.cons tells .nil)
    · rw [List.filterMap_append, numbers, number]
      cases h : event.number? <;> simp [h]

lemma posted_start (job : Job) (options : RunOptions) (selected : List Record) :
    Posted job selected.length [] (.start job.runId options selected) where
  counted := fun status => by cases status <;> rfl
  pending := rfl
  summaries := .refl _
  told := ⟨[], rfl, .nil, rfl⟩

lemma Posted.busy (posted : Posted job total entries b) (record : Record) :
    Posted job total (entries ++ [.busy record]) (b.skipBusy record) :=
  have tells : ProgressEvent.Tells total (.ofBusy record) (.busy record.path) :=
    .busy (a := .ofBusy record) rfl
  posted.push rfl rfl tells (List.append_nil _).symm

lemma Posted.collect (posted : Posted job total entries b) (f : Finished) (rest : List Finished) :
    Posted job total (entries ++ [.done f]) (Batch.collect job.registry b f rest) := by
  refine posted.push (x := .done f) rfl rfl ?_ ?_
  · rw [posted.pending]
    exact tells_summaryOf job.registry total (b.collected + 1) f
  · show List.range' 1 (b.collected + 1) = List.range' 1 b.collected ++ [b.collected + 1]
    rw [List.range'_1_concat, Nat.add_comm 1]

/-! ### The invariant -/

/-- What holds of a batch over selected records with the entries in its ledger. -/
structure Booked (job : Job) (selected : List Record) (entries : List Entry) (b : Batch) : Prop where
  posted : Posted job selected.length entries b
  records : ((matters job.registry.order entries b).map Prod.fst).Perm selected
  tells : ∀ x ∈ matters job.registry.order entries b, x.2.TellsOf x.1.path
  drained : b.stage.rank ≤ 2 → b.queue = [] ∨ b.report.cancelled = true
  idle : b.stage.rank ≤ 1 → b.working = [] ∧ b.ended = []
  sorted : b.stage = .closed →
    b.report.records.Pairwise fun a a' => byPath RecordSummary.path a a' = true

lemma booked_start (job : Job) (options : RunOptions) (selected : List Record) :
    Booked job selected [] (.start job.runId options selected) where
  posted := posted_start job options selected
  records := by
    simp [matters, affairs, start, Function.comp_def]
  tells := by
    simp only [matters, affairs, start, List.filterMap_nil, List.append_nil, List.map_nil]
    exact List.forall_mem_map.2 fun _ _ => rfl
  drained := by simp [start, Stage.rank]
  idle := by simp [start, Stage.rank]
  sorted := nofun

/-- The records of a batch do not change while it goes on. -/
lemma Booked.of_perm (booked : Booked job selected entries b) {entries' : List Entry}
    (perm : (matters job.registry.order entries' b').Perm (matters job.registry.order entries b))
    (posted : Posted job selected.length entries' b')
    (drained : b'.stage.rank ≤ 2 → b'.queue = [] ∨ b'.report.cancelled = true)
    (idle : b'.stage.rank ≤ 1 → b'.working = [] ∧ b'.ended = [])
    (sorted : b'.stage = .closed →
      b'.report.records.Pairwise fun a a' => byPath RecordSummary.path a a' = true) :
    Booked job selected entries' b' where
  posted := posted
  records := (perm.map _).trans booked.records
  tells := fun x mem => booked.tells x (perm.mem_iff.1 mem)
  drained := drained
  idle := idle
  sorted := sorted

/-- Before the last stages nothing has to be settled yet. -/
lemma Booked.goOn (booked : Booked job selected entries b) {entries' : List Entry}
    (perm : (matters job.registry.order entries' b').Perm (matters job.registry.order entries b))
    (posted : Posted job selected.length entries' b') (early : 2 < b'.stage.rank) :
    Booked job selected entries' b' := by
  refine booked.of_perm perm posted ?_ ?_ ?_
  · exact fun late => absurd late (Nat.not_le_of_gt early)
  · exact fun late => absurd late (Nat.not_le_of_gt (Nat.lt_of_succ_lt early))
  · intro closed
    rw [closed] at early
    cases early

lemma Booked.enter (booked : Booked job selected entries b) {stage : Stage}
    (early : 2 < stage.rank) : Booked job selected entries (b.enter stage) :=
  booked.goOn (.refl _) { booked.posted with } early

lemma Booked.collect (booked : Booked job selected entries b)
    (hs : b.stage = .collecting ∨ b.stage = .draining) {f : Finished} {rest : List Finished}
    (he : b.ended = f :: rest) :
    Booked job selected (entries ++ [.done f]) (Batch.collect job.registry b f rest) := by
  refine booked.of_perm (matters_collect job.registry he) (booked.posted.collect f rest) ?_ ?_ ?_
  · intro drained
    obtain none | asked := booked.drained drained
    · exact .inl none
    · exact .inr ((Report.cancelled_push ..).trans asked)
  · intro idle
    obtain ⟨-, none⟩ := booked.idle idle
    rw [none] at he
    cases he
  · intro closed
    have closed : b.stage = .closed := closed
    obtain hs | hs := hs
    · cases hs.symm.trans closed
    · cases hs.symm.trans closed

/-- To close a batch puts the records of its report in order. -/
lemma Booked.close (booked : Booked job selected entries b) (hs : b.stage = .closing)
    (cancelled : Bool) (asked : b.report.cancelled = true → cancelled = true) :
    Booked job selected entries
      { b with stage := .closed, report := { b.report with cancelled }.sorted } where
  posted := {
    counted := Report.Counted.sorted (r := { b.report with cancelled }) fun status => by
      have counted := booked.posted.counted status
      cases status <;> exact counted
    pending := booked.posted.pending
    summaries := (List.mergeSort_perm _ _).trans booked.posted.summaries
    told := booked.posted.told }
  records := booked.records
  tells := booked.tells
  drained := by
    intro _
    have late : b.stage.rank ≤ 2 := by rw [hs]; decide
    exact (booked.drained late).imp_right asked
  idle := fun _ => booked.idle (by rw [hs]; decide)
  sorted := fun _ => pairwise_byPath _

/-- A step of a worker is a step in one affair, and leaves the report alone. -/
lemma Booked.work (booked : Booked job selected entries b) {place : Nat} {worker : Worker}
    (hw : b.working[place]? = some worker) {state : WorkerState}
    (tells : state.TellsOf worker.execution.report.path)
    (perm : (matters job.registry.order entries b').Perm ((worker.record, state) ::
      matters job.registry.order entries { b with working := b.working.eraseIdx place }))
    (report : b'.report = b.report) (events : b'.events = b.events)
    (collected : b'.collected = b.collected) (stage : b'.stage = b.stage) (queue : b'.queue = b.queue) :
    Booked job selected entries b' := by
  have before : (matters job.registry.order entries b).Perm
      ((worker.record, .running worker.execution) ::
        matters job.registry.order entries { b with working := b.working.eraseIdx place }) :=
    affairs_working (perm_working hw)
  have own : worker.execution.report.path = worker.record.path :=
    booked.tells (worker.record, .running worker.execution) (before.mem_iff.2 List.mem_cons_self)
  have early : ¬b.stage.rank ≤ 1 := by
    intro late
    rw [(booked.idle late).1] at hw
    cases hw
  refine ⟨⟨?_, ?_, ?_, ?_⟩, ?_, ?_, ?_, ?_, ?_⟩
  · exact report ▸ booked.posted.counted
  · exact report ▸ booked.posted.pending
  · exact report ▸ booked.posted.summaries
  · rw [events, collected]
    exact booked.posted.told
  · exact (perm.map Prod.fst).trans ((before.map Prod.fst).symm.trans booked.records)
  · intro x mem
    obtain rfl | mem := List.mem_cons.1 (perm.mem_iff.1 mem)
    · exact own ▸ tells
    · exact booked.tells x (before.mem_iff.2 (List.mem_cons_of_mem _ mem))
  · rw [stage, queue, report]
    exact booked.drained
  · rw [stage]
    exact fun late => absurd late early
  · intro closed
    refine absurd ?_ early
    rw [← stage, closed]
    decide

lemma matters_proceed {place : Nat} {worker : Worker} (hw : b.working[place]? = some worker)
    (e' : Execution) :
    (matters order entries (b.proceed place worker e')).Perm ((worker.record, .running e') ::
      matters order entries { b with working := b.working.eraseIdx place }) :=
  affairs_working (perm_proceed hw e')

lemma matters_dismiss (place : Nat) (worker : Worker) (ending : Ending) (w : ω) :
    (matters order entries (b.dismiss shop place worker ending w).1).Perm
      ((worker.record, ending.state) ::
        matters order entries { b with working := b.working.eraseIdx place }) := by
  let f : Finished := ⟨worker.number, worker.record, ending⟩
  have perm : (b.ended ++ [f] ++ entries.filterMap Entry.done?).Perm
      (f :: (b.ended ++ entries.filterMap Entry.done?)) := by
    rw [List.append_assoc]
    exact List.perm_middle
  exact affairs_done perm

/-- With a step of the coordinator the ledger gains an entry at most, and no affair changes. -/
theorem Booked.coordinate (booked : Booked job selected entries b)
    (rule : Step shop job options b w .coordinator b' w') :
    ∃ entries', Booked job selected entries' b' ∧
      (matters job.registry.order entries' b').Perm (matters job.registry.order entries b) := by
  cases rule with
  | wait _ _ _ => exact ⟨entries, booked.enter (by decide), .refl _⟩
  | permit _ _ => exact ⟨entries, booked.enter (by decide), .refl _⟩
  | claim _ _ => exact ⟨entries, booked.enter (by decide), .refl _⟩
  | drain _ none =>
    refine ⟨entries, booked.of_perm (.refl _) { booked.posted with } ?_ ?_ nofun, .refl _⟩
    · exact fun _ => .inl none
    · exact fun late => absurd late (show ¬Stage.rank .draining ≤ 1 by decide)
  | cancel _ _ =>
    refine ⟨entries, booked.of_perm (.refl _) ?_ ?_ ?_ nofun, .refl _⟩
    · refine { booked.posted with counted := fun status => ?_ }
      have counted := booked.posted.counted status
      cases status <;> exact counted
    · exact fun _ => .inr rfl
    · exact fun late => absurd late (show ¬Stage.rank .draining ≤ 1 by decide)
  | @busy record rest _ hq _ =>
    have perm := matters_busy job.registry.order entries hq
    exact ⟨entries ++ [.busy record], booked.goOn perm (booked.posted.busy record)
      (show 2 < Stage.rank .choosing by decide), perm⟩
  | @hire record rest _ hq _ =>
    have perm := matters_hire job.registry.order entries hq
    exact ⟨entries, booked.goOn perm { booked.posted with }
      (show 2 < Stage.rank .collecting by decide), perm⟩
  | @collect f rest hs he =>
    exact ⟨entries ++ [.done f], booked.collect hs he, matters_collect job.registry he⟩
  | resume _ _ => exact ⟨entries, booked.enter (by decide), .refl _⟩
  | finish hs none idle =>
    refine ⟨entries, booked.of_perm (.refl _) { booked.posted with } ?_ ?_ nofun, .refl _⟩
    · intro _
      exact booked.drained (by rw [hs]; decide)
    · exact fun _ => ⟨idle, none⟩
  | close hs eq =>
    refine ⟨entries, booked.close hs _ fun asked => ?_, .refl _⟩
    rw [eq, asked, Bool.true_or]

lemma Booked.work_step (booked : Booked job selected entries b) {place : Nat}
    (rule : Step shop job options b w (.worker place) b' w') : Booked job selected entries b' := by
  cases rule with
  | @proceed _ worker e' _ hw hs =>
    have tells := Execution.tellsOf_step shop.environment job worker.execution w
    rw [hs] at tells
    exact booked.work hw tells (matters_proceed hw e') rfl rfl rfl rfl rfl
  | @dismiss _ worker ending w'' hw hs =>
    have tells := Execution.tellsOf_step shop.environment job worker.execution w
    rw [hs] at tells
    exact booked.work hw tells (matters_dismiss place worker ending w'') rfl rfl rfl rfl rfl

/-- A step of a batch keeps its ledger in order. -/
theorem Booked.step (booked : Booked job selected entries b)
    (rule : Step shop job options b w move b' w') : ∃ entries', Booked job selected entries' b' := by
  cases move with
  | coordinator =>
    obtain ⟨entries', booked', -⟩ := booked.coordinate rule
    exact ⟨entries', booked'⟩
  | worker place => exact ⟨entries, booked.work_step rule⟩

/-! ### A closed batch -/

/-- The summary of an entry is about its record. -/
lemma Booked.path_summary (booked : Booked job selected entries b) {x : Entry} (mem : x ∈ entries) :
    (x.summary job.registry).path = x.record.path := by
  cases x with
  | busy r => rfl
  | done f =>
    have tells : f.ending.state.TellsOf f.record.path := booked.tells _ (mem_matters _ b mem)
    obtain ⟨number, record, ending⟩ := f
    cases ending with
    | finished run => exact tells
    | aborted error => rfl
    | panicked text => rfl

/-- The selected records of a closed batch: those with an entry, and those that were left when it was
asked to stop. -/
lemma Booked.perm_selected (booked : Booked job selected entries b) (closed : b.stage = .closed) :
    (b.queue ++ entries.map Entry.record).Perm selected := by
  obtain ⟨working, ended⟩ := booked.idle (by rw [closed]; decide)
  exact (map_matters working ended).symm.trans booked.records

/-- The report of a closed batch has the summaries of its entries, in the order of their paths. -/
theorem Booked.closed (booked : Booked job selected entries b) (closed : b.stage = .closed)
    (distinct : (selected.map Record.path).Nodup) :
    ∃ line : List Entry, line.Perm entries ∧
      b.report.records = line.map (Entry.summary job.registry) ∧
      (line.map Entry.record).Subperm selected ∧
      (b.report.records.map RecordSummary.path).Pairwise (· < ·) := by
  have related : List.Forall₂ (fun a x => a = Entry.summary job.registry x)
      (entries.map (Entry.summary job.registry)) entries := by
    rw [List.forall₂_map_left_iff, List.forall₂_same]
    exact fun _ _ => rfl
  obtain ⟨line, each, perm⟩ := List.perm_comp_forall₂ booked.posted.summaries related
  have listed : b.report.records = line.map (Entry.summary job.registry) := by
    rw [← List.forall₂_eq_eq_eq, List.forall₂_map_right_iff]
    exact each
  have within : (line.map Entry.record).Subperm selected :=
    (perm.map _).subperm.trans ((List.sublist_append_right _ _).subperm.trans
      (booked.perm_selected closed).subperm)
  refine ⟨line, perm, listed, within, ?_⟩
  have paths : b.report.records.map RecordSummary.path =
      (line.map Entry.record).map Record.path := by
    rw [listed, List.map_map, List.map_map]
    exact List.map_congr_left fun x mem => booked.path_summary (perm.mem_iff.1 mem)
  have nodup : (b.report.records.map RecordSummary.path).Nodup := by
    obtain ⟨others, permOthers, sub⟩ := within
    rw [paths, ← (permOthers.map Record.path).nodup_iff]
    exact distinct.sublist (sub.map _)
  have ordered := List.pairwise_map.2 ((booked.sorted closed).imp byPath_iff.1)
  exact (ordered.and nodup).imp fun ⟨le, ne⟩ => Std.lt_of_le_of_ne le ne

end Batch

end Multipass
