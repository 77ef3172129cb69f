import Multipass.Proofs.Batch.Ledger
import Multipass.Proofs.Batch.Roll
import Multipass.Proofs.Executor.Fate
import Multipass.Proofs.Relational.Paths

/-!
# The account of a batch

A batch over any shared state. Whoever is to move makes one step, and at any time the shared state
may become another one: other workers write to the store, claims come and go, the batch is asked to
stop. However it comes to its end, the report counts the records that it lists, and the events tell
of each of them once.

Main statements: `Booked.through`, by which the ledger stays in order whatever happens, and
`balanced_of_kept` for the report and the events.
-/

namespace Multipass.Batch

variable {ω : Type}

/-- Holds when the batch is not asked to stop, whatever happens. -/
def Unasked (shop : Workshop ω) (job : Job) (options : RunOptions) (scene : Batch × ω)
    (incidents : List (Incident ω)) : Prop :=
  ∀ n, shop.environment.isCancelled (through shop job options scene (incidents.take n)).2 = false

/-- What a report and the events come to for a batch over selected records: the report counts its
records, they are about different selected records in the order of their paths, and behind the start
one event tells of each of them. -/
structure Balanced (runId : String) (selected : List Record) (report : Report)
    (events : List ProgressEvent) : Prop where
  counted : ∀ status, report.number status = (report.records.map RecordSummary.status).count status
  total : report.fullyCompleted + report.partlyCompleted + report.noProgress + report.errored +
    report.busy = report.records.length
  about : ∃ records : List Record, records.Nodup ∧ records ⊆ selected ∧
    List.Forall₂ (fun r a => a.path = r.path) records report.records
  ordered : report.records.Pairwise fun a a' => a.path < a'.path
  pending : report.pending = selected.length
  bounded : report.records.length ≤ report.pending
  told : ∃ listed told n, events = .started runId report.pending :: told ∧
    listed.Perm report.records ∧
    List.Forall₂ (ProgressEvent.Tells report.pending) listed told ∧
    told.filterMap ProgressEvent.number? = List.range' 1 n

variable {shop : Workshop ω} {job : Job} {options : RunOptions} {b b' : Batch} {w w' : ω}
  {entries : List Entry} {selected : List Record}

/-! ### The flag -/

lemma Step.cancelled {move : Move} (rule : Step shop job options b w move b' w')
    (calm : shop.environment.isCancelled w = false) (none : b.report.cancelled = false) :
    b'.report.cancelled = false := by
  cases rule with
  | cancel _ asked =>
    rw [calm] at asked
    cases asked
  | close _ eq =>
    rw [none, calm] at eq
    exact eq
  | busy _ _ _ => exact (Report.cancelled_push ..).trans none
  | collect _ _ => exact (Report.cancelled_push ..).trans none
  | _ => exact none

/-- A batch that nobody asks to stop is not cancelled. -/
lemma cancelled_through {scene : Batch × ω} {incidents : List (Incident ω)}
    (none : scene.1.report.cancelled = false)
    (calm : Unasked shop job options scene incidents) :
    (through shop job options scene incidents).1.report.cancelled = false := by
  induction incidents generalizing scene with
  | nil => exact none
  | cons incident incidents ih =>
    obtain ⟨b, w⟩ := scene
    refine ih ?_ fun n => calm (n + 1)
    cases incident with
    | change w' => exact none
    | move move =>
      simp only [befall]
      cases h : b.step shop job options w move with
      | none => exact none
      | some next => exact (step_inv h).cancelled (calm 0) none

/-! ### The ledger -/

/-- The ledger stays in order, whatever happens. -/
theorem Booked.through (booked : Booked job selected entries b) (shop : Workshop ω)
    (options : RunOptions) (w : ω) (incidents : List (Incident ω)) :
    ∃ entries', Booked job selected entries' (through shop job options (b, w) incidents).1 := by
  induction incidents generalizing b w entries with
  | nil => exact ⟨entries, booked⟩
  | cons incident incidents ih =>
    cases incident with
    | change w' => exact ih booked w'
    | move move =>
      simp only [Batch.through, List.foldl_cons, befall]
      cases h : b.step shop job options w move with
      | none => exact ih booked w
      | some next =>
        obtain ⟨entries', booked'⟩ := booked.step (step_inv h)
        exact ih booked' next.2

/-- A closed batch whose ledger is in order balances. -/
theorem Booked.balanced (booked : Booked job selected entries b) (closed : b.stage = .closed)
    (distinct : (selected.map Record.path).Nodup) :
    Balanced job.runId selected b.report b.events := by
  obtain ⟨line, perm, listed, within, ordered⟩ := booked.closed closed distinct
  have pending := booked.posted.pending
  have counted := booked.posted.counted
  exact {
    counted := counted
    total := counted.total
    about := by
      refine ⟨line.map Entry.record, ?_, within.subset, ?_⟩
      · obtain ⟨others, same, sub⟩ := within
        exact same.nodup_iff.1 (distinct.of_map.sublist sub)
      · rw [listed, List.forall₂_map_left_iff, List.forall₂_map_right_iff, List.forall₂_same]
        exact fun x mem => booked.path_summary (perm.mem_iff.1 mem)
    ordered := List.pairwise_map.1 ordered
    pending := pending
    bounded := by
      rw [pending, listed, List.length_map, ← List.length_map (f := Entry.record)]
      exact within.length_le
    told := by
      obtain ⟨told, started, each, numbers⟩ := booked.posted.told
      rw [pending]
      exact ⟨_, told, _, started, booked.posted.summaries.symm, each, numbers⟩ }

/-- A closed batch that was not cancelled has a record in its report for each that was selected. -/
lemma Booked.length_records (booked : Booked job selected entries b) (closed : b.stage = .closed)
    (none : b.report.cancelled = false) : b.report.records.length = b.report.pending := by
  have queue : b.queue = [] := by
    obtain queue | asked := booked.drained (by rw [closed]; decide)
    · exact queue
    · rw [none] at asked
      cases asked
  have same := (booked.perm_selected closed).length_eq
  rw [queue, List.nil_append, List.length_map] at same
  rw [booked.posted.summaries.length_eq, List.length_map, same, booked.posted.pending]

/-! ### Whole batches -/

lemma nodup_paths_select {store : ArtifactStore ω} (kept : store.Kept w) {order : List String}
    {check : PendingCheck} {pending : List Record} (read : store.pending order check w = .ok pending)
    (options : RunOptions) : ((select options pending).map Record.path).Nodup := by
  have distinct : (pending.map Record.path).Nodup := by
    simp only [ArtifactStore.pending] at read
    split at read <;> cases read
    next list => exact (kept.nodup_paths list).sublist (List.filter_sublist.map _)
  simp only [select]
  split
  · exact distinct.sublist ((List.take_sublist ..).map _)
  · exact distinct

/-- However a batch over the pending records of a store comes to its end, its report and its events
balance, and if it was never asked to stop they tell of all its records. To run all pending records
is one of the ways. -/
theorem balanced_of_kept (shop : Workshop ω) (job : Job) (options : RunOptions) {w : ω}
    (kept : shop.environment.store.Kept w) {pending : List Record}
    (read : shop.environment.store.pending job.registry.order options.pendingCheck w = .ok pending) :
    let selected := select options pending
    let begun := start job.runId options selected
    (∀ (incidents : List (Incident ω)) (b : Batch) (roll : Roll) (w' : ω),
      throughBy shop job options ((begun, []), w) incidents = ((b, roll), w') → b.stage = .closed →
        Balanced job.runId selected b.report b.events ∧
        (Unasked shop job options (begun, w) incidents →
          b.report.records.length = b.report.pending)) ∧
    ∃ (moves : List Move) (b : Batch) (roll : Roll) (w' : ω),
      throughBy shop job options ((begun, []), w) (moves.map .move) = ((b, roll), w') ∧
        b.stage = .closed ∧ runAll shop job options w = (.ok ⟨b.report, b.events⟩, w') := by
  intro selected begun
  have distinct : (selected.map Record.path).Nodup := nodup_paths_select kept read options
  have enrolled : Enrolled begun [] := enrolled_start job.runId options selected
  refine ⟨fun incidents b roll w' ended closed => ?_, ?_⟩
  · obtain ⟨roll', eq⟩ := throughBy_eq shop job options enrolled w incidents
    obtain rfl : (through shop job options (begun, w) incidents).1 = b :=
      congrArg (fun scene => scene.1.1) (eq.symm.trans ended)
    obtain ⟨entries, booked⟩ :=
      (booked_start job options selected).through shop options w incidents
    refine ⟨booked.balanced closed distinct, fun calm => ?_⟩
    exact booked.length_records closed (cancelled_through rfl calm)
  · obtain ⟨closed, moves, eq⟩ := exists_moves shop job options begun w
    have ran : through shop job options (begun, w) (moves.map .move) =
        begun.run shop job options w := by
      rw [← eq, through, List.foldl_map]
      rfl
    obtain ⟨roll, ended⟩ := throughBy_eq shop job options enrolled w (moves.map .move)
    rw [ran] at ended
    refine ⟨moves, _, roll, _, ended, closed, ?_⟩
    simp only [runAll, read]
    rfl

/-- Somebody else holds the first of three records, the backend breaks down on the second, and the
third is completed. -/
theorem balanced_of_three :
    let job : Job := .single "lint"
    let reply := fun _ (ctx : InvocationContext) =>
      if ctx.path = "b" then Reply.panic "boom" else .output ⟨"", .text "clean", none⟩
    let shop := (Outfit.replying reply).workshop
    let options : RunOptions := { concurrency := 2 }
    let upsert : String → Timestamp × Request Record RecordId := fun path =>
      (0, .upsert ⟨path, none, "", "", .null⟩)
    let history := [upsert "a", upsert "b", upsert "c"]
    let w : World Unit :=
      { store := Request.performAll MemoryStore.operations history {}, claimed := [1], rest := () }
    let pending := w.store.records.filter fun r => r.isPending job.registry.order options.pendingCheck
    let incidents := (List.replicate 40 [Incident.move .coordinator, .move (.worker 0)]).flatten
    shop.environment.store.Kept w ∧
      shop.environment.store.pending job.registry.order options.pendingCheck w = .ok pending ∧
      ∃ b roll w',
        throughBy shop job options ((start job.runId options pending, []), w) incidents =
          ((b, roll), w') ∧
        b.stage = .closed ∧ (b.report.busy, b.report.errored, b.report.fullyCompleted) = (1, 1, 1) ∧
        Balanced job.runId pending b.report b.events ∧ b.report.records.length = b.report.pending := by
  intro job reply shop options upsert history w pending incidents
  have kept : shop.environment.store.Kept w := .memory history rfl
  have read : shop.environment.store.pending job.registry.order options.pendingCheck w =
      .ok pending := rfl
  have calm : ∀ w, shop.environment.isCancelled w = false := fun _ => rfl
  obtain ⟨balances, -⟩ := balanced_of_kept shop job options kept read
  have parts (scene : (Batch × Roll) × World Unit) :
      scene = ((scene.1.1, scene.1.2), scene.2) := rfl
  obtain ⟨b, roll, w', ended, closed, counts⟩ : ∃ b roll w',
      throughBy shop job options ((start job.runId options pending, []), w) incidents =
        ((b, roll), w') ∧
      b.stage = .closed ∧
      (b.report.busy, b.report.errored, b.report.fullyCompleted) = (1, 1, 1) :=
    ⟨_, _, _, parts _, by decide +kernel, by decide +kernel⟩
  obtain ⟨balanced, all⟩ := balances incidents b roll w' ended closed
  exact ⟨kept, read, b, roll, w', ended, closed, counts, balanced, all fun _ => calm _⟩

end Multipass.Batch
