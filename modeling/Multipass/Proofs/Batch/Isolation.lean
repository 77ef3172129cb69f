import Multipass.Proofs.Batch.Course
import Multipass.Proofs.Batch.Report
import Multipass.Proofs.Executor.Fate

/-!
# Isolation of records

What a batch makes of a record is the fate of the record. It depends on the rows of the record and
on the replies for it, and neither on the other records nor on who moves when. So two batches over
one store report the same, and what a backend replies for one record shows in no other one.

Main statements: `fated_course`, which finds the fate of each record behind a batch, and
`courses_alike` for two batches.
-/

namespace Multipass.Batch

variable {β γ : Type}

/-! ### Summaries -/

/-- Holds of a summary of a record whose worker ended as said. -/
def Sums (registry : PassRegistry) (state : WorkerState) (r : Record) (a : RecordSummary) : Prop :=
  ∃ f : Finished, f.ending.state = state ∧ f.record = r ∧ a = (summaryOf registry f).1

lemma Ending.eq_of_state {ending ending' : Ending} (h : ending.state = ending'.state) :
    ending = ending' := by
  cases ending <;> cases ending' <;> cases h <;> rfl

lemma Sums.alike {registry : PassRegistry} {state : WorkerState} {r r' : Record}
    {a b : RecordSummary} (sums : Sums registry state r a) (sums' : Sums registry state r' b)
    (same : r.timeless = r'.timeless) : a.Alike b := by
  obtain ⟨⟨m, _, ending⟩, hs, rfl, rfl⟩ := sums
  obtain ⟨⟨n, _, ending'⟩, hs', rfl, rfl⟩ := sums'
  obtain rfl := Ending.eq_of_state (hs.trans hs'.symm)
  have path := congrArg Record.path same
  have completed := congrArg Record.completed same
  cases ending with
  | finished run => exact ⟨rfl, rfl, rfl, rfl, rfl, .inl rfl⟩
  | aborted error => exact ⟨path, rfl, rfl, completed, rfl, .inl rfl⟩
  | panicked text => exact ⟨path, rfl, rfl, completed, rfl, .inr ⟨text, m, n, rfl, rfl⟩⟩

lemma path_summaryOf (registry : PassRegistry) {f : Finished}
    (on : f.ending.state.IsOn f.record.id f.record.path) :
    (summaryOf registry f).1.path = f.record.path := by
  obtain ⟨n, record, ending⟩ := f
  cases ending with
  | finished run => exact on
  | _ => rfl

/-! ### One batch -/

/-- What holds behind a batch that took records of a store: its report has a summary for each of
them, in the order of their paths, each has met its fate, and nothing else has changed. -/
structure Fated (reply : PassDefinition → InvocationContext → Reply) (job : Job)
    (options : RunOptions) (s : MemoryStore) (report : Report) (t : MemoryStore) : Prop where
  counted : report.Counted
  dryRun : report.dryRun = options.dryRun
  cancelled : report.cancelled = false
  pending : report.pending = (taken job options s).length
  records :
    List.Forall₂
      (fun r a => a.path = r.path ∧ Sums job.registry (fate reply job (s.rowsOf r.id) r).1 r a)
      ((taken job options s).mergeSort (byPath Record.path)) report.records
  rows : ∀ r ∈ taken job options s, t.rowsOf r.id = (fate reply job (s.rowsOf r.id) r).2
  others : ∀ id, (∀ r ∈ taken job options s, r.id ≠ id) → t.rowsOf id = s.rowsOf id

section

variable {o : Outfit β} {job : Job} {options : RunOptions} {w : World β}
  {reply : PassDefinition → InvocationContext → Reply}

/-- All rows of a record are about its path. -/
lemma path_of_mem_labels_rowsOf {s : MemoryStore} (wf : s.WellFormed) {r : Record}
    (mem : r ∈ s.records) : ∀ label ∈ (s.rowsOf r.id).labels, label.2 = r.path := by
  intro label memLabel
  simp only [MemoryStore.labels, MemoryStore.rowsOf, List.map_map, List.mem_map, List.mem_filter]
    at memLabel
  obtain ⟨other, ⟨memOther, eq⟩, rfl⟩ := memLabel
  have nodup : (s.records.map Record.id).Nodup := wf.ascending.imp Int.ne_of_lt
  rw [List.inj_on_of_nodup_map nodup memOther mem (beq_iff_eq.1 eq)]
  rfl

lemma counted_told (job : Job) (options : RunOptions) (pending : Nat) (gone : List Finished) :
    (told job options pending gone).Counted := by
  refine Report.Counted.foldl ?_ _
  intro status
  cases status <;> rfl

/-- The report of a batch without the order in which its workers were done. -/
lemma records_told (job : Job) (options : RunOptions) (pending : Nat) {gone : List Finished}
    {records : List Record}
    (nodup : (records.map Record.path).Nodup) (perm : (gone.map Finished.record).Perm records)
    (on : ∀ f ∈ gone, f.ending.state.IsOn f.record.id f.record.path) :
    ∃ line : List Finished, line.Perm gone ∧
      line.map Finished.record = records.mergeSort (byPath Record.path) ∧
      (told job options pending gone).sorted.records =
        line.map fun f => (summaryOf job.registry f).1 := by
  refine ⟨gone.mergeSort (byPath fun f => f.record.path), List.mergeSort_perm .., ?_, ?_⟩
  · have same : (gone.mergeSort (byPath fun f => f.record.path)).map Finished.record =
        (gone.map Finished.record).mergeSort (byPath Record.path) :=
      List.map_mergeSort fun _ _ _ _ => rfl
    rw [same]
    exact mergeSort_eq_of_perm perm ((perm.map Record.path).nodup_iff.2 nodup)
  · have listed : (told job options pending gone).records =
        gone.map fun f => (summaryOf job.registry f).1 := by
      rw [told, Report.records_foldl, List.nil_append]
    show (told job options pending gone).records.mergeSort (byPath RecordSummary.path) = _
    rw [listed]
    refine (List.map_mergeSort fun f memf g memg => ?_).symm
    simp only [byPath, path_summaryOf job.registry (on f memf),
      path_summaryOf job.registry (on g memg)]

/-- The report of a closed batch has a summary of each record that was taken, in the order of their
paths, with what its worker has kept. -/
lemma OnCourse.summaries {P : Record → WorkerState → MemoryStore → Prop} {s : MemoryStore}
    {gone : List Finished} {b : Batch} (on : OnCourse P job options s gone b w) (wf : s.WellFormed)
    (closed : b.stage = .closed) :
    b.report.pending = (taken job options s).length ∧
      List.Forall₂
        (fun r a => a.path = r.path ∧ ∃ f : Finished, f.record = r ∧
          a = (summaryOf job.registry f).1 ∧ P r f.ending.state (w.store.rowsOf r.id))
        ((taken job options s).mergeSort (byPath Record.path)) b.report.records := by
  obtain ⟨perm, ended⟩ := on.ended closed
  have report := on.closed closed
  obtain ⟨line, permLine, records, summaries⟩ :=
    records_told job options (taken job options s).length (nodup_paths_taken wf job options)
      perm fun f mem => (ended f mem).1
  obtain ⟨-, -, pending⟩ := Report.foldl_push_fields
    { runId := job.runId, dryRun := options.dryRun, pending := (taken job options s).length }
    (gone.map fun f => (summaryOf job.registry f).1)
  refine ⟨report ▸ pending, ?_⟩
  rw [report, summaries, ← records, List.forall₂_map_left_iff, List.forall₂_map_right_iff,
    List.forall₂_same]
  intro f mem
  obtain ⟨on, holds⟩ := ended f (permLine.mem_iff.1 mem)
  exact ⟨path_summaryOf _ on, f, rfl, rfl, holds⟩

/-- A batch that is never asked to stop, once it is closed, has led each record that it took to its
fate, whoever moved when. -/
theorem fated_course (answers : o.Answers fun d ctx actual => actual = reply d ctx)
    (calm : ∀ w, o.isCancelled w = false) (wf : w.store.WellFormed)
    (ordered : w.store.ScoresOrdered) (unclaimed : w.claimed = []) {turns : List (Turn β)}
    (closed : (course o job options w turns).1.stage = .closed) :
    Fated reply job options w.store (course o job options w turns).1.report
      (course o job options w turns).2.store := by
  let P (r : Record) := Meets reply job r.path (fate reply job (w.store.rowsOf r.id) r)
  have keeps : ∀ r ∈ taken job options w.store, Keeps o job r.id (P r) := fun r _ =>
    keeps_meets answers calm
  have starts : ∀ r ∈ taken job options w.store,
      P r (WorkerState.running (.start r job.registry.order)).plain (w.store.rowsOf r.id) := by
    intro r mem
    have stored := (taken_sublist job options w.store).subset mem
    exact ⟨⟨rfl, nofun, path_of_mem_labels_rowsOf wf stored⟩, rfl⟩
  obtain ⟨gone, on⟩ := onCourse_course calm keeps wf ordered unclaimed starts turns
  have report := on.closed closed
  obtain ⟨dryRun, cancelled, -⟩ := Report.foldl_push_fields
    { runId := job.runId, dryRun := options.dryRun, pending := (taken job options w.store).length }
    (gone.map fun f => (summaryOf job.registry f).1)
  obtain ⟨pending, records⟩ := on.summaries wf closed
  -- A worker that has ended is where it was to go.
  have met {r : Record} {ending : Ending}
      (meets : P r ending.state ((course o job options w turns).2.store.rowsOf r.id)) :
      (ending.state, (course o job options w turns).2.store.rowsOf r.id) =
        fate reply job (w.store.rowsOf r.id) r := by
    obtain ⟨-, meets⟩ := meets
    rw [← meets]
    cases ending <;> rfl
  exact {
    counted := report ▸ Report.Counted.sorted (counted_told _ _ _ _)
    dryRun := report ▸ dryRun
    cancelled := report ▸ cancelled
    pending := pending
    records := by
      refine records.imp fun r a ⟨path, f, own, sum, meets⟩ => ?_
      exact ⟨path, f, congrArg Prod.fst (met meets), own, sum⟩
    rows := by
      obtain ⟨perm, ended⟩ := on.ended closed
      intro r mem
      obtain ⟨f, memGone, rfl⟩ := List.mem_map.1 (perm.mem_iff.2 mem)
      exact congrArg Prod.snd (met (ended f memGone).2)
    others := on.fair.others }

end

/-! ### Two batches -/

lemma filter_path {records : List Record} (nodup : (records.map Record.path).Nodup) {r : Record}
    (mem : r ∈ records) : (records.filter fun other => other.path = r.path) = [r] := by
  induction records with
  | nil => cases mem
  | cons other records ih =>
    obtain ⟨fresh, nodup⟩ := List.nodup_cons.1 nodup
    obtain rfl | mem := List.mem_cons.1 mem
    · rw [List.filter_cons_of_pos (by simp), List.filter_eq_nil_iff.2]
      intro same mem eq
      exact fresh (of_decide_eq_true eq ▸ List.mem_map_of_mem mem)
    · have ne : other.path ≠ r.path := fun eq => fresh (eq ▸ List.mem_map_of_mem mem)
      rw [List.filter_cons_of_neg (by simpa using ne)]
      exact ih nodup mem

/-- The fate of a record depends on its rows and on the replies for its path. -/
lemma fate_congr {reply reply' : PassDefinition → InvocationContext → Reply} {r r' : Record}
    (job : Job) (runId : String) (rows : MemoryStore) (same : r.timeless = r'.timeless)
    (replies : ∀ d ctx, ctx.path = r.path → reply d ctx = reply' d ctx) :
    fate reply job rows r = fate reply' { job with runId } rows r' := by
  have path : r.path = r'.path := (congrArg Record.path same :)
  rw [fate, fate, same, repliesFor_congr replies, path]
  rfl

section

variable {job : Job} {runId : String} {options options' : RunOptions} {s s' t t' : MemoryStore}
  {report report' : Report} {reply reply' : PassDefinition → InvocationContext → Reply}

/-- A report has one summary of each record that was taken. -/
lemma Fated.summary (fated : Fated reply job options s report t) (wf : s.WellFormed) {r : Record}
    (mem : r ∈ taken job options s) :
    ∃ a, (report.records.filter fun a => a.path = r.path) = [a] ∧
      Sums job.registry (fate reply job (s.rowsOf r.id) r).1 r a := by
  have perm := List.mergeSort_perm (taken job options s) (byPath Record.path)
  have nodup := (perm.map Record.path).nodup_iff.2 (nodup_paths_taken wf job options)
  have filtered := forall₂_filter (p := fun other => other.path = r.path)
    (q := fun a => a.path = r.path) fated.records fun other a ⟨eq, _⟩ => by rw [eq]
  rw [filter_path nodup (perm.mem_iff.2 mem)] at filtered
  obtain ⟨a, rest, ⟨-, sums⟩, none, eq⟩ := List.forall₂_cons_left_iff.1 filtered
  cases none
  exact ⟨a, eq, sums⟩

/-- Two batches agree about a record with the same rows and the same replies. -/
lemma Fated.agree (fated : Fated reply job options s report t)
    (fated' : Fated reply' { job with runId } options' s' report' t') (wf : s.WellFormed)
    (wf' : s'.WellFormed) {r r' : Record} (mem : r ∈ taken job options s)
    (mem' : r' ∈ taken { job with runId } options' s') (eq : r.id = r'.id)
    (rows : s.rowsOf r.id = s'.rowsOf r.id)
    (replies : ∀ d ctx, ctx.path = r.path → reply d ctx = reply' d ctx) :
    t.rowsOf r.id = t'.rowsOf r.id ∧
      ∃ a b, (report.records.filter fun a => a.path = r.path) = [a] ∧
        (report'.records.filter fun b => b.path = r.path) = [b] ∧ a.Alike b := by
  have stored : s.record? r.id = some r :=
    wf.record?_of_mem ((taken_sublist job options s).subset mem)
  have stored' : s'.record? r.id = some r' :=
    eq ▸ wf'.record?_of_mem ((taken_sublist { job with runId } options' s').subset mem')
  have same : r.timeless = r'.timeless := MemoryStore.timeless_of_rowsOf stored stored' rows
  have path : r.path = r'.path := (congrArg Record.path same :)
  have fates : fate reply job (s.rowsOf r.id) r =
      fate reply' { job with runId } (s'.rowsOf r'.id) r' := by
    rw [← eq, ← rows]
    exact fate_congr job runId _ same replies
  refine ⟨?_, ?_⟩
  · rw [fated.rows r mem, fates, eq, fated'.rows r' mem']
  · obtain ⟨a, only, sums⟩ := fated.summary wf mem
    obtain ⟨b, only', sums'⟩ := fated'.summary wf' mem'
    rw [← fates] at sums'
    exact ⟨a, b, only, path ▸ only', sums.alike sums' same⟩

/-- Two batches over one store that take the same records, with the same replies, report the same. -/
lemma Fated.alike (fated : Fated reply job options s report t)
    (fated' : Fated reply { job with runId } options' s report' t')
    (dryRun : options'.dryRun = options.dryRun)
    (same : taken { job with runId } options' s = taken job options s) : report.Alike report' := by
  have records := fated'.records
  rw [same] at records
  refine Report.alike_of_records fated.counted fated'.counted ?_ ?_ ?_ ?_
  · rw [fated.dryRun, fated'.dryRun, dryRun]
  · rw [fated.cancelled, fated'.cancelled]
  · rw [fated.pending, fated'.pending, same]
  · refine forall₂_join fated.records records fun r a b summary summary' => ?_
    have sums' := summary'.2
    rw [← fate_congr job runId (s.rowsOf r.id) rfl fun _ _ _ => rfl] at sums'
    exact summary.2.alike sums' rfl

end

/-- A batch that is never asked to stop can always be brought to its end, and to run it is one way to
do so. Once two batches have come to theirs, under any schedules and with any numbers of workers, they
agree about each record with the same rows and the same replies: on its rows, up to times, and on its
summary, up to the number of a worker that broke down. What a batch does not take it leaves alone. If
the stores and all replies are the same, the reports are the same, up to such numbers and the names of
the runs. -/
theorem courses_alike (job : Job) (runId : String)
    (history history' : List (Timestamp × Request Record RecordId)) (o : Outfit β) (o' : Outfit γ)
    (options options' : RunOptions) (reply reply' : PassDefinition → InvocationContext → Reply)
    (answers : o.Answers fun d ctx actual => actual = reply d ctx)
    (answers' : o'.Answers fun d ctx actual => actual = reply' d ctx)
    (calm : ∀ w, o.isCancelled w = false) (calm' : ∀ w, o'.isCancelled w = false) (rest : β)
    (rest' : γ) (turns : List (Turn β)) (turns' : List (Turn γ)) :
    let job' := { job with runId }
    let store := Request.performAll MemoryStore.operations history {}
    let store' := Request.performAll MemoryStore.operations history' {}
    let ended := course o job options { store, rest } turns
    let ended' := course o' job' options' { store := store', rest := rest' } turns'
    (∃ more, (course o job options { store, rest } (turns ++ more)).1.stage = .closed) ∧
      (∃ all, let run := course o job options { store, rest } all
        run.1.stage = .closed ∧ runAll o.workshop job options { store, rest } =
          (.ok ⟨run.1.report, run.1.events⟩, run.2)) ∧
      (ended.1.stage = .closed → ended'.1.stage = .closed →
        (∀ r ∈ taken job options store, ∀ r' ∈ taken job' options' store', r.id = r'.id →
          store.rowsOf r.id = store'.rowsOf r.id →
          (∀ d ctx, ctx.path = r.path → reply d ctx = reply' d ctx) →
          ended.2.store.rowsOf r.id = ended'.2.store.rowsOf r.id ∧
            ∃ a b, (ended.1.report.records.filter fun a => a.path = r.path) = [a] ∧
              (ended'.1.report.records.filter fun b => b.path = r.path) = [b] ∧ a.Alike b) ∧
        (∀ id, (∀ r ∈ taken job options store, r.id ≠ id) →
          ended.2.store.rowsOf id = store.rowsOf id) ∧
        (store = store' → reply = reply' → options'.dryRun = options.dryRun →
          options'.limit = options.limit → options'.pendingCheck = options.pendingCheck →
          ended.1.report.Alike ended'.1.report)) := by
  intro job' store store' ended ended'
  obtain ⟨wf, -⟩ := MemoryStore.performAll_wellFormed MemoryStore.wellFormed_empty history
  obtain ⟨wf', -⟩ := MemoryStore.performAll_wellFormed MemoryStore.wellFormed_empty history'
  have ordered : store.ScoresOrdered :=
    MemoryStore.performAll_scoresOrdered MemoryStore.scoresOrdered_empty history
  have ordered' : store'.ScoresOrdered :=
    MemoryStore.performAll_scoresOrdered MemoryStore.scoresOrdered_empty history'
  refine ⟨exists_closing_course o job options { store, rest } turns,
    exists_course_runAll o job options { store, rest }, fun closed closed' => ?_⟩
  have fated : Fated reply job options store ended.1.report ended.2.store :=
    fated_course answers calm wf ordered rfl closed
  have fated' : Fated reply' job' options' store' ended'.1.report ended'.2.store :=
    fated_course answers' calm' wf' ordered' rfl closed'
  refine ⟨fun r mem r' mem' eq rows replies => ?_, fated.others, ?_⟩
  · exact fated.agree fated' wf wf' mem mem' eq rows replies
  · intro sameStore sameReply dryRun limit check
    rw [← sameStore, ← sameReply] at fated'
    refine fated.alike fated' dryRun ?_
    simp only [taken, select, limit, check]

/-- A backend breaks down on one of two records, and two workers are at work in place of one. The
other record does not show it. -/
theorem courses_alike_of_panic :
    let history : List (Timestamp × Request Record RecordId) :=
      [(0, .upsert ⟨"a", none, "", "", .null⟩), (0, .upsert ⟨"b", none, "", "", .null⟩)]
    let job := Job.single "lint"
    let reply := fun _ _ => Reply.output ⟨"", .text "clean", none⟩
    let reply' := fun d ctx => if ctx.path = "a" then .panic "killed" else reply d ctx
    let turns := (List.replicate 40 [Turn.move .coordinator, .move (.worker 0)]).flatten
    let turns' := (List.replicate 40 [Turn.move .coordinator, .move (.worker 1),
      .move (.worker 0)]).flatten
    let record := Record.ofNew 2 ⟨"b", none, "", "", .null⟩ 0
    ∃ ended ended',
      course (.replying reply) job {}
        { store := Request.performAll MemoryStore.operations history {}, rest := () } turns = ended ∧
      course (.replying reply') { job with runId := "again" } { concurrency := 2 }
        { store := Request.performAll MemoryStore.operations history {}, rest := () } turns' = ended' ∧
      ended.1.report.errored = 0 ∧ ended'.1.report.errored = 1 ∧
      ended.2.store.rowsOf record.id = ended'.2.store.rowsOf record.id ∧
      ∃ a b, (ended.1.report.records.filter fun a => a.path = record.path) = [a] ∧
        (ended'.1.report.records.filter fun b => b.path = record.path) = [b] ∧ a.Alike b := by
  intro history job reply reply' turns turns' record
  have agree := courses_alike job "again" history history (.replying reply) (.replying reply') {}
    { concurrency := 2 } reply reply' (Outfit.answers_replying reply)
    (Outfit.answers_replying reply') (fun _ => rfl) (fun _ => rfl) () () turns turns'
  have each := (agree.2.2 (by decide +kernel) (by decide +kernel)).1
  have mem : record ∈ taken job {} (Request.performAll MemoryStore.operations history {}) :=
    List.mem_cons_of_mem _ List.mem_cons_self
  have other : ∀ d ctx, ctx.path = record.path → reply d ctx = reply' d ctx := by
    intro d ctx eq
    have ne : ctx.path ≠ "a" := by
      rw [eq]
      decide
    simp only [reply', if_neg ne]
  refine ⟨_, _, rfl, rfl, by decide +kernel, by decide +kernel, ?_⟩
  exact each record mem record mem rfl rfl other

end Multipass.Batch
