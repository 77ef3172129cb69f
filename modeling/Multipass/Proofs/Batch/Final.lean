import Multipass.Proofs.Batch.Company
import Multipass.Proofs.Batch.Ledger
import Multipass.Proofs.Executor.Abreast
import Multipass.Proofs.Executor.Fate

/-!
# What a report says of the final state

A batch that nobody else writes beside; others may hold records, backends may break down at any
pass, and the batch may be asked to stop. Each summary has the completed passes that its record has
when the batch is closed, except where the worker broke down: there it has those that the record had
when the batch began, and passes that were completed since are left out.

Main statement: `final_of_closed`.
-/

namespace Multipass.Batch

variable {β : Type} {o : Outfit β} {job : Job} {options : RunOptions} {b b' : Batch}
  {w w' : World β} {s : MemoryStore} {entries : List Entry} {selected : List Record}

/-- What the worker of a record keeps that was set on the record as it was. -/
def Tracks (r : Record) (state : WorkerState) (rows : MemoryStore) : Prop :=
  state.KeepsUp r.id r.completed r.completed rows

/-- What holds of a batch that nobody else writes beside, since it began with a store. -/
structure Tracked (job : Job) (s : MemoryStore) (selected : List Record) (entries : List Entry)
    (b : Batch) (w : World β) : Prop where
  booked : Booked job selected entries b
  fair : Fair Tracks s selected (matters job.registry.order entries b) w.store

lemma keeps_tracks (o : Outfit β) (job : Job) (r : Record) : Keeps o job r.id (Tracks r) :=
  keeps_abreast o job r.id r.completed r.completed

lemma tracks_start {t : MemoryStore} (wf : t.WellFormed) {r : Record} (mem : r ∈ t.records)
    (order : List String) :
    Tracks r (WorkerState.running (.start r order)).plain (t.rowsOf r.id) := by
  have stored : (t.rowsOf r.id).record? r.id = some r.timeless := by
    rw [MemoryStore.record?_rowsOf, wf.record?_of_mem mem]
    rfl
  exact keepsUp_start stored r.timeless order

lemma tracked_called (options : RunOptions) (wf : w.store.WellFormed)
    (ordered : w.store.ScoresOrdered) :
    Tracked job w.store (taken job options w.store) [] (called job options w).1 w where
  booked := booked_start job options _
  fair := by
    simp only [matters, called, start, List.filterMap_nil, List.append_nil]
    exact fair_start wf ordered fun r mem =>
      tracks_start wf ((taken_sublist job options w.store).subset mem) job.registry.order

/-- Only workers write to the store. -/
lemma store_of_coordinate (rule : Step o.workshop job options b w .coordinator b' w') :
    w'.store = w.store := by
  cases rule with
  | hire _ _ _ => rfl
  | _ => rfl

/-- The affair of a worker that makes a step. -/
lemma Tracked.work (tracked : Tracked job s selected entries b w)
    (nodup : (selected.map Record.id).Nodup) {place : Nat} {worker : Worker}
    (hw : b.working[place]? = some worker) {state : WorkerState}
    (hs : worker.execution.step o.environment job w = (state, w')) :
    Fair Tracks s selected ((worker.record, state) ::
      matters job.registry.order entries { b with working := b.working.eraseIdx place })
      w'.store := by
  have fair := (tracked.fair.of_perm (affairs_working (perm_working hw)).symm).step
    (keeps_tracks o job worker.record) nodup
  rwa [hs] at fair

/-- A step of a batch keeps track of the store. -/
theorem Tracked.step (tracked : Tracked job s selected entries b w)
    (nodup : (selected.map Record.id).Nodup) {move : Move}
    (rule : Step o.workshop job options b w move b' w') :
    ∃ entries', Tracked job s selected entries' b' w' := by
  cases move with
  | coordinator =>
    obtain ⟨entries', booked, perm⟩ := tracked.booked.coordinate rule
    refine ⟨entries', booked, ?_⟩
    rw [store_of_coordinate rule]
    exact tracked.fair.of_perm perm
  | worker place =>
    have booked := tracked.booked.work_step rule
    refine ⟨entries, booked, ?_⟩
    cases rule with
    | proceed hw hs => exact (tracked.work nodup hw hs).of_perm (matters_proceed hw _)
    | @dismiss _ worker ending w'' hw hs =>
      exact (tracked.work nodup hw hs).of_perm (matters_dismiss place worker ending w'')

/-- A batch keeps track of the store while nobody else writes to it. -/
theorem Tracked.amid (tracked : Tracked job s selected entries b w) (o : Outfit β)
    (options : RunOptions) (nodup : (selected.map Record.id).Nodup) {happenings : List (Happening β)}
    (alone : requests happenings = []) :
    ∃ entries', Tracked job s selected entries' (amid o job options (b, w) happenings).1
      (amid o job options (b, w) happenings).2 := by
  induction happenings generalizing b w entries with
  | nil => exact ⟨entries, tracked⟩
  | cons happening happenings ih =>
    simp only [Batch.amid, List.foldl_cons]
    cases happening with
    | request now request => cases alone
    | claims claimed => exact ih (w := { w with claimed }) ⟨tracked.booked, tracked.fair⟩ alone
    | elsewhere rest => exact ih (w := { w with rest }) ⟨tracked.booked, tracked.fair⟩ alone
    | move move =>
      simp only [meet]
      cases h : b.step o.workshop job options w move with
      | none => exact ih tracked alone
      | some next =>
        obtain ⟨entries', tracked'⟩ := tracked.step nodup (step_inv h)
        exact ih tracked' alone

/-! ### A closed batch -/

/-- What a summary says of its record, from the store in which the batch began to the one in which it
ended. -/
structure Speaks (s t : MemoryStore) (a : RecordSummary) (before after : Record) : Prop where
  began : before ∈ s.records
  ended : after ∈ t.records
  same : after.id = before.id
  path : a.path = before.path ∧ a.path = after.path
  final : a.error = none → a.completed = after.completed
  early : ∀ error, a.error = some error → (∃ number text, error = breakdown number text) ∧
    a.completed = before.completed ∧ before.completed <+: after.completed

/-- The record among the rows of its number is the one that was taken, under the same path. -/
lemma exists_after {t : MemoryStore} (wf : s.WellFormed) (labels : t.labels = s.labels) {r row : Record}
    (mem : r ∈ s.records) (found : (t.rowsOf r.id).record? r.id = some row) :
    ∃ after ∈ t.records, after.id = r.id ∧ after.path = r.path ∧ after.completed = row.completed := by
  rw [MemoryStore.record?_rowsOf, Option.map_eq_some_iff] at found
  obtain ⟨after, found, rfl⟩ := found
  obtain ⟨memAfter, own⟩ := MemoryStore.record?_eq_some found
  have label : (after.id, after.path) ∈ s.labels :=
    labels ▸ List.mem_map.2 ⟨after, memAfter, rfl⟩
  obtain ⟨r', mem', eq⟩ := List.mem_map.1 label
  obtain ⟨sameId, samePath⟩ := Prod.mk.inj eq
  obtain rfl := wf.eq_of_id mem' mem (sameId.trans own)
  exact ⟨after, memAfter, own, samePath.symm, rfl⟩

/-- A worker that is through has told what is stored. -/
lemma completed_of_tracks {r row : Record} {run : RecordRun} {rows : MemoryStore}
    (tracks : Tracks r (.finished run) rows) (found : rows.record? r.id = some row) :
    run.completed = row.completed := by
  obtain ⟨⟨row', found', grown⟩, told⟩ := tracks
  obtain rfl := Option.some.inj (found.symm.trans found')
  rw [told, grown]
  split
  · next none => rw [none, List.append_nil]
  · rfl

/-- Each summary speaks of the record that it is about. -/
lemma Tracked.speaks (tracked : Tracked job s selected entries b w) (wf : s.WellFormed)
    (began : selected ⊆ s.records) {x : Entry} (mem : x ∈ entries) :
    ∃ after, Speaks s w.store (x.summary job.registry) x.record after := by
  have affair := mem_matters job.registry.order b mem
  have tracks := tracked.fair.holds _ affair
  have path := tracked.booked.path_summary mem
  have here : x.record ∈ s.records :=
    began (tracked.booked.records.mem_iff.1 (List.mem_map_of_mem affair))
  have after {row : Record} (found : (w.store.rowsOf x.record.id).record? x.record.id = some row) :=
    exists_after wf tracked.fair.labels here found
  cases x with
  | busy r =>
    obtain ⟨⟨⟨row, found, grown⟩, -⟩, -⟩ := tracks
    obtain ⟨after, memAfter, own, samePath, completed⟩ := after found
    refine ⟨after, here, memAfter, own, ⟨path, path.trans samePath.symm⟩, fun _ => ?_, nofun⟩
    rw [completed, grown]
    exact (List.append_nil _).symm
  | done f =>
    obtain ⟨number, record, ending⟩ := f
    cases ending with
    | finished run =>
      have ⟨⟨row, found, _⟩, _⟩ := tracks
      obtain ⟨after, memAfter, own, samePath, completed⟩ := after found
      refine ⟨after, here, memAfter, own, ⟨path, path.trans samePath.symm⟩, fun _ => ?_, nofun⟩
      rw [completed]
      exact completed_of_tracks tracks found
    | aborted error => exact tracks.elim
    | panicked text =>
      obtain ⟨row, found, grown⟩ := tracks
      obtain ⟨after, memAfter, own, samePath, completed⟩ := after found
      refine ⟨after, here, memAfter, own, ⟨path, path.trans samePath.symm⟩, nofun, ?_⟩
      rintro _ ⟨⟩
      exact ⟨⟨number, text, rfl⟩, rfl, completed ▸ grown⟩

/-- A batch runs over the pending records of a store that nobody else writes to. However it comes to
its end, a summary without an error has the completed passes that its record has by then. With an
error, which tells of a worker that broke down, a summary has those that the record had before, and
the record may have more by then. To run all pending records is one of the ways. -/
theorem final_of_closed (history : List (Timestamp × Request Record RecordId)) (o : Outfit β)
    (job : Job) (options : RunOptions) (claimed : List RecordId) (rest : β) :
    let w : World β :=
      { store := Request.performAll MemoryStore.operations history {}, claimed, rest }
    (∀ happenings : List (Happening β), requests happenings = [] →
      ∀ b w', amid o job options (called job options w) happenings = (b, w') → b.stage = .closed →
        ∀ a ∈ b.report.records, ∃ before after, Speaks w.store w'.store a before after) ∧
    ∃ moves : List Move, ∃ b w',
      amid o job options (called job options w) (moves.map .move) = (b, w') ∧ b.stage = .closed ∧
        runAll o.workshop job options w = (.ok ⟨b.report, b.events⟩, w') := by
  intro w
  obtain ⟨wf, -⟩ := MemoryStore.performAll_wellFormed MemoryStore.wellFormed_empty history
  have ordered : w.store.ScoresOrdered :=
    MemoryStore.performAll_scoresOrdered MemoryStore.scoresOrdered_empty history
  have nodup := nodup_taken wf job options
  refine ⟨fun happenings alone b w' ended closed a mem => ?_, ?_⟩
  · obtain ⟨entries, tracked⟩ := (tracked_called options wf ordered).amid o options nodup alone
    have ended : amid o job options ((called job options w).1, w) happenings = (b, w') := ended
    rw [ended] at tracked
    obtain ⟨line, perm, listed, -⟩ := tracked.booked.closed closed (nodup_paths_taken wf job options)
    rw [listed] at mem
    obtain ⟨x, entered, rfl⟩ := List.mem_map.1 mem
    have began : taken job options w.store ⊆ w.store.records := (taken_sublist ..).subset
    exact ⟨_, tracked.speaks wf began (perm.mem_iff.1 entered)⟩
  · obtain ⟨closed, moves, eq⟩ :=
      exists_moves o.workshop job options (called job options w).1 w
    refine ⟨moves, _, _, ?_, closed, rfl⟩
    rw [amid, List.foldl_map]
    exact eq

/-- Somebody else holds the first of three records, the second is completed, and on the third the
backend breaks down. -/
theorem final_of_three :
    let job : Job := .single "lint"
    let reply := fun _ (ctx : InvocationContext) =>
      if ctx.path = "c" then Reply.panic "boom" else .output ⟨"", .text "clean", none⟩
    let o := Outfit.replying reply
    let upsert : String → Timestamp × Request Record RecordId := fun path =>
      (0, .upsert ⟨path, none, "", "", .null⟩)
    let history := [upsert "a", upsert "b", upsert "c"]
    let w : World Unit :=
      { store := Request.performAll MemoryStore.operations history {}, claimed := [1], rest := () }
    let happenings : List (Happening Unit) :=
      (List.replicate 40 [Happening.move .coordinator, .move (.worker 0)]).flatten
    requests happenings = [] ∧ ∃ b w',
      amid o job {} (called job {} w) happenings = (b, w') ∧ b.stage = .closed ∧
        (b.report.busy, b.report.fullyCompleted, b.report.errored) = (1, 1, 1) ∧
        ∀ a ∈ b.report.records, ∃ before after, Speaks w.store w'.store a before after := by
  intro job reply o upsert history w happenings
  have alone : requests happenings = [] := by decide +kernel
  obtain ⟨b, w', ended, closed, counts⟩ : ∃ b w',
      amid o job {} (called job {} w) happenings = (b, w') ∧ b.stage = .closed ∧
        (b.report.busy, b.report.fullyCompleted, b.report.errored) = (1, 1, 1) :=
    ⟨_, _, Prod.mk.eta.symm, by decide +kernel, by decide +kernel⟩
  obtain ⟨speaks, -⟩ := final_of_closed history o job {} [1] ()
  exact ⟨alone, b, w', ended, closed, counts, speaks happenings alone b w' ended closed⟩

/-- The backend does its first pass and breaks down on the second. The first pass is stored, and the
summary leaves it out. -/
theorem final_left_out :
    let tool : PassConfig := { backend := .staticTool, command := some "tool" }
    let cfg : Config :=
      { db := ⟨""⟩
        pipeline := { order := ["lint", "style"] }
        passes := [("lint", tool), ("style", tool)] }
    let backend : BackendSpec := .staticTool ⟨"tool", [], .json, 120000, [0]⟩
    let registry : PassRegistry :=
      { definitions := [⟨"lint", 0, backend, .raw, none⟩, ⟨"style", 1, backend, .raw, none⟩]
        scoringPass := none
        scoreFields := defaultScoreFields }
    let job : Job := ⟨registry, "", "run", false⟩
    let reply := fun (d : PassDefinition) _ =>
      if d.name = "style" then Reply.panic "boom" else .output ⟨"", .text "clean", none⟩
    let o := Outfit.replying reply
    let w : World Unit :=
      { store := Request.performAll MemoryStore.operations [(0, .upsert ⟨"a", none, "", "", .null⟩)] {}
        claimed := []
        rest := () }
    let happenings : List (Happening Unit) :=
      (List.replicate 20 [Happening.move .coordinator, .move (.worker 0)]).flatten
    let ended := amid o job {} (called job {} w) happenings
    PassRegistry.ofConfig cfg = .ok registry ∧ requests happenings = [] ∧
      ended.1.stage = .closed ∧
      ended.1.report.records.map (fun a => (a.path, a.status, a.completed)) = [("a", .errored, [])] ∧
      ended.2.store.records.map (fun r => (r.path, r.completed)) = [("a", ["lint"])] := by
  intro tool cfg backend registry job reply o w happenings ended
  exact ⟨by rfl, by decide +kernel, by decide +kernel, by decide +kernel, by decide +kernel⟩

end Multipass.Batch
