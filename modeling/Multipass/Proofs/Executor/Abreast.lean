import Multipass.Batch.Report
import Multipass.Proofs.Executor.Keeping

/-!
# What a worker says is completed

A worker reports the completed passes of its record as it last saw the record, and it sees the record
again only where it completes a pass. So what it reports is what is stored as soon as it has
completed a pass, and until then it is what the record had when it was handed to the worker, which
may be less by then.

Main statements: `keeps_abreast` for the steps of a worker, and `runMissing_abreast` for a whole run.
-/

namespace Multipass

/-- The passes that are reported as completed. -/
def passed (outcomes : List PassReport) : List String :=
  (outcomes.filter fun o => o.outcome.isCompleted).map PassReport.pass

/-- What a record has completed that had some completed passes when a worker began, and what the
worker says that was handed the record with the ones that were seen. -/
structure Abreast (id : RecordId) (was seen : List String) (run : RecordRun)
    (names : List String) (s : MemoryStore) : Prop where
  stored : ∃ r, s.record? id = some r ∧ r.completed = was ++ passed run.outcomes
  told : names = if passed run.outcomes = [] then seen else was ++ passed run.outcomes

namespace WorkerState

/-- What holds of a worker and the rows of its record. A worker that breaks down says nothing, and
one whose record is there does not abort. -/
def KeepsUp (id : RecordId) (was seen : List String) : WorkerState → MemoryStore → Prop
  | .running e, s =>
    Abreast id was seen e.report e.current.completed s ∧
      ∀ result, e.phase.result? = some result → e.remaining.head? = some result.pass
  | .finished run, s => Abreast id was seen run run.completed s
  | .aborted _, _ => False
  | .panicked _, s => ∃ r, s.record? id = some r ∧ was <+: r.completed

end WorkerState

variable {id : RecordId} {was seen : List String} {s s' : MemoryStore} {run run' : RecordRun}
  {names : List String} {job : Job} {e : Execution} {pass : String}

lemma passed_append (outcomes others : List PassReport) :
    passed (outcomes ++ others) = passed outcomes ++ passed others := by
  rw [passed, List.filter_append, List.map_append]
  rfl

lemma passed_push {outcome : PassOutcome} (none : outcome.isCompleted = false) :
    passed (run.push pass outcome).outcomes = passed run.outcomes := by
  have alone : passed [⟨pass, outcome⟩] = [] := by simp [passed, none]
  refine (passed_append _ _).trans ?_
  rw [alone]
  exact List.append_nil _

/-- Whatever completes no pass changes nothing. -/
lemma Abreast.stays (abreast : Abreast id was seen run names s)
    (same : passed run'.outcomes = passed run.outcomes) (records : s'.record? id = s.record? id) :
    Abreast id was seen run' names s' where
  stored := by
    rw [records, same]
    exact abreast.stored
  told := by
    rw [same]
    exact abreast.told

namespace WorkerState.KeepsUp

lemma quiet {e' : Execution} (keepsUp : KeepsUp id was seen (.running e) s)
    (current : e'.current = e.current)
    (same : passed e'.report.outcomes = passed e.report.outcomes)
    (records : s'.record? id = s.record? id)
    (kept : ∀ result, e'.phase.result? = some result → e'.remaining.head? = some result.pass) :
    KeepsUp id was seen (.running e') s' := by
  refine ⟨?_, kept⟩
  rw [current]
  exact keepsUp.1.stays same records

lemma close (keepsUp : KeepsUp id was seen (.running e) s) {outcome : PassOutcome}
    (none : outcome.isCompleted = false) :
    KeepsUp id was seen (.running (e.close pass outcome)) s :=
  keepsUp.quiet rfl (passed_push none) rfl nofun

lemma enter (keepsUp : KeepsUp id was seen (.running e) s) {phase : Phase}
    (none : phase.result? = none) : KeepsUp id was seen (.running (e.enter phase)) s := by
  refine keepsUp.quiet rfl rfl rfl fun result eq => ?_
  cases none.symm.trans eq

lemma prepared (keepsUp : KeepsUp id was seen (.running e) s) (d : PassDefinition)
    (prior : List PassResult) : KeepsUp id was seen (.running (e.prepared job d prior)) s := by
  simp only [Execution.prepared]
  split
  · exact keepsUp.close rfl
  · exact keepsUp.enter rfl

/-- A worker that completes a pass sees its record. -/
lemma completed (keepsUp : KeepsUp id was seen (.running e) s) {stored : Record} {now : Timestamp}
    (found : s.record? id = some stored)
    (records : s'.record? id = some (stored.complete pass now)) :
    KeepsUp id was seen (.running (e.completed job pass (stored.complete pass now))) s' := by
  obtain ⟨⟨⟨r, found', completed⟩, -⟩, -⟩ := keepsUp
  obtain rfl : stored = r := Option.some.inj (found.symm.trans found')
  have gains : passed (e.report.push pass .completed).outcomes =
      passed e.report.outcomes ++ [pass] := passed_append _ _
  have grown : (stored.complete pass now).completed =
      was ++ (passed e.report.outcomes ++ [pass]) := by
    rw [← List.append_assoc, ← completed]
    rfl
  refine ⟨⟨⟨_, records, ?_⟩, ?_⟩, ?_⟩
  · rw [Execution.report_completed, gains]
    exact grown
  · have some : passed e.report.outcomes ++ [pass] ≠ [] :=
      List.append_ne_nil_of_right_ne_nil _ (List.cons_ne_nil _ _)
    rw [Execution.report_completed, gains, if_neg some, Execution.completed_current]
    exact grown
  · intro result eq
    simp only [Execution.completed] at eq
    split at eq <;> cases eq

/-- A worker keeps up with its record by any rule. -/
theorem step {given : PassDefinition → InvocationContext → Reply → Prop} {stop : Bool}
    {state : WorkerState} (own : e.current.id = id) (keepsUp : KeepsUp id was seen (.running e) s)
    (rule : Execution.Rule given stop job e s state s') : KeepsUp id was seen state s' := by
  subst own
  have live : s.record? e.current.id ≠ none := by
    obtain ⟨r, found, -⟩ := keepsUp.1.stored
    exact found ▸ nofun
  cases rule with
  | finish _ => exact keepsUp.1.stays rfl rfl
  | cancel _ _ _ => exact keepsUp.close rfl
  | reject _ _ _ _ => exact keepsUp.close rfl
  | skip _ _ _ _ _ => exact keepsUp.close rfl
  | gather _ _ _ _ _ _ => exact keepsUp.enter rfl
  | prepare _ _ _ _ _ _ => exact keepsUp.prepared _ _
  | read _ _ => exact keepsUp.prepared _ _
  | find _ _ _ => exact keepsUp.enter rfl
  | miss _ _ _ => exact keepsUp.enter rfl
  | call _ _ => exact keepsUp.enter rfl
  | abandon _ _ _ => exact keepsUp.close rfl
  | receive hr _ _ =>
    -- the result is one of the pass at hand, which is what `commit` completes later on
    refine keepsUp.quiet rfl rfl rfl ?_
    intro result eq
    obtain rfl := Option.some.inj eq
    exact congrArg List.head? hr
  | fail _ _ _ => exact keepsUp.close rfl
  | panic _ _ _ =>
    obtain ⟨r, found, completed⟩ := keepsUp.1.stored
    exact ⟨r, found, completed ▸ List.prefix_append _ _⟩
  | recover _ _ found _ =>
    refine keepsUp.completed found ?_
    rw [MemoryStore.record?_completed, found]
    rfl
  | recoverLate _ _ _ _ => exact keepsUp.close rfl
  | recoverGone _ _ gone => exact absurd gone live
  | @commit pass rest d result stored hr hp found _ =>
    have named : result.pass = pass := by
      have head := keepsUp.2 result (congrArg Phase.result? hp)
      rw [hr] at head
      exact (Option.some.inj head).symm
    rw [named]
    refine keepsUp.completed found ?_
    rw [MemoryStore.record?_committed, found, named]
    rfl
  | commitLate _ _ _ _ => exact keepsUp.close rfl
  | commitGone _ _ gone => exact absurd gone live
  | score _ _ _ => exact keepsUp.enter rfl
  | refuse _ _ _ => exact keepsUp.quiet rfl rfl rfl nofun
  | save _ _ => exact keepsUp.quiet rfl rfl rfl nofun

end WorkerState.KeepsUp

/-- A worker keeps up with its record, whatever its backends do and whether or not it is asked to
stop. -/
theorem keeps_abreast {β : Type} (o : Outfit β) (job : Job) (id : RecordId) (was seen : List String) :
    Keeps o job id (WorkerState.KeepsUp id was seen) := by
  have answers : o.Answers fun _ _ _ => True := fun _ _ _ _ _ => trivial
  exact keeps_of_all_rules answers fun _ _ _ _ _ own keepsUp rule => keepsUp.step own rule

lemma keepsUp_start {r : Record} (live : s.record? id = some r) (snapshot : Record)
    (order : List String) :
    WorkerState.KeepsUp id r.completed snapshot.completed (.running (.start snapshot order)) s :=
  ⟨⟨⟨r, live, (List.append_nil _).symm⟩, rfl⟩, nofun⟩

/-! ### Whole runs -/

section

variable {β : Type} {o : Outfit β} {w : World β} {record snapshot : Record}

lemma upheld_abreast (wf : w.store.WellFormed) (ordered : w.store.ScoresOrdered)
    (live : record ∈ w.store.records) (same : snapshot.id = record.id) (order : List String) :
    Upheld record.id (WorkerState.KeepsUp record.id record.completed snapshot.completed)
      (.running (.start snapshot order)) w where
  wellFormed := wf
  ordered := ordered
  own := by
    rintro _ ⟨⟩
    exact same
  holds := by
    have stored : (w.store.rowsOf record.id).record? record.id = some record.timeless := by
      rw [MemoryStore.record?_rowsOf, wf.record?_of_mem live]
      rfl
    exact keepsUp_start stored snapshot.timeless order

/-- A worker is handed a record as it once was, and nobody else writes to the record. If no backend
breaks down the worker is through at some time. The record has gained the passes that are reported
as completed. If there are any, or if the record had not changed since, then the completed passes in
the report are those of the record, and the record counts as completed if nothing that can be run is
missing. Otherwise the report has the passes of the record as it was handed to the worker. -/
theorem runMissing_abreast (history : List (Timestamp × Request Record RecordId))
    (sound : o.Answers fun _ _ reply => ∀ text, reply ≠ .panic text) (job : Job)
    {record snapshot : Record}
    (live : record ∈ (Request.performAll MemoryStore.operations history {}).records)
    (same : snapshot.id = record.id) (claimed : List RecordId) (rest : β) :
    let w : World β :=
      { store := Request.performAll MemoryStore.operations history {}, claimed, rest }
    ∃ run r, (runMissing o.environment job snapshot w).1 = .finished run ∧
      r ∈ (runMissing o.environment job snapshot w).2.store.records ∧ r.id = record.id ∧
      r.completed = record.completed ++ passed run.outcomes ∧
      (passed run.outcomes ≠ [] ∨ snapshot.completed = record.completed →
        run.completed = r.completed ∧
        (Report.lacksRunnable job.registry r.completed = false →
          Report.statusOf job.registry run = .completed)) ∧
      (passed run.outcomes = [] → run.completed = snapshot.completed) := by
  intro w
  obtain ⟨wf, -⟩ := MemoryStore.performAll_wellFormed MemoryStore.wellFormed_empty history
  have ordered : w.store.ScoresOrdered :=
    MemoryStore.performAll_scoresOrdered MemoryStore.scoresOrdered_empty history
  have begun := upheld_abreast (w := w) wf ordered live same job.registry.order
  obtain ⟨upheld, through⟩ := begun.run (keeps_abreast o job record.id _ _)
  -- that the worker does not break down is kept beside it, for any snapshot
  have unbroken : Keeps o job record.id fun state _ => ∀ text, state ≠ .panicked text :=
    keeps_of_all_rules sound fun _ _ _ _ _ _ _ rule =>
      rule.ne_panicked fun _ _ text allowed => allowed text rfl
  obtain ⟨⟨-, -, -, unbroken⟩, -⟩ := Upheld.run { begun with holds := fun _ => nofun } unbroken
  have keepsUp := upheld.holds
  simp only [runMissing]
  generalize (Execution.start snapshot job.registry.order).run o.environment job w = ended at *
  obtain ⟨state, w'⟩ := ended
  cases state with
  | running e => exact absurd rfl (through e)
  | aborted error => exact keepsUp.elim
  | panicked text => exact absurd rfl (unbroken text)
  | finished run =>
    obtain ⟨⟨_, found, grown⟩, told⟩ := keepsUp
    rw [MemoryStore.record?_rowsOf, Option.map_eq_some_iff] at found
    obtain ⟨r, found, rfl⟩ := found
    obtain ⟨mem, own⟩ := MemoryStore.record?_eq_some found
    have grown : r.completed = record.completed ++ passed run.outcomes := grown
    refine ⟨run, r, rfl, mem, own, grown, fun fresh => ?_, fun none => ?_⟩
    · have agree : run.completed = r.completed := by
        rw [told, grown]
        split
        · next none =>
          obtain some | eq := fresh
          · exact absurd none some
          · rw [none, List.append_nil]
            exact eq
        · rfl
      refine ⟨agree, fun nothing => ?_⟩
      simp only [Report.statusOf, agree, nothing, Bool.not_false, if_true]
    · rw [told, if_pos none]

/-- A pass was completed since the record was handed to the worker, and another one is completed by
the worker, which then sees both. -/
theorem runMissing_abreast_of_stale :
    let tool (pass : String) : PassDefinition :=
      ⟨pass, 0, .staticTool ⟨pass, [], .text, 1000, [0]⟩, .raw, none⟩
    let job : Job := ⟨⟨[tool "doc", tool "style"], none, []⟩, "", "run", false⟩
    let new : NewRecord := ⟨"a", none, "", "", .null⟩
    let snapshot := Record.ofNew 1 new 0
    let record := snapshot.complete "doc" 0
    let history : List (Timestamp × Request Record RecordId) :=
      [(0, .upsert new), (0, .commit snapshot ⟨"doc", "", .text "kept", none, 0, 0⟩)]
    let w : World Unit := { store := Request.performAll MemoryStore.operations history {}, rest := () }
    let works := Outfit.constant (.output ⟨"", .text "clean", none⟩)
    works.Answers (fun _ _ reply => ∀ text, reply ≠ .panic text) ∧ record ∈ w.store.records ∧
      snapshot.id = record.id ∧
      ∃ run r, (runMissing works.environment job snapshot w).1 = .finished run ∧
        r ∈ (runMissing works.environment job snapshot w).2.store.records ∧ r.id = record.id ∧
        passed run.outcomes = ["style"] ∧ run.completed = r.completed ∧
        r.completed = ["doc", "style"] := by
  intro tool job new snapshot record history w works
  have sound : works.Answers fun _ _ reply => ∀ text, reply ≠ .panic text :=
    Outfit.answers_constant fun _ _ _ => nofun
  have live : record ∈ w.store.records := List.mem_singleton_self _
  have same : snapshot.id = record.id := rfl
  obtain ⟨run, r, ended, mem, own, grown, fresh, -⟩ :=
    runMissing_abreast history sound job live same [] ()
  obtain ⟨run', ended', gained⟩ : ∃ run',
      ((WorkerState.running (.start snapshot job.registry.order)).follow works job w
        (List.replicate 10 ())).1 = .finished run' ∧ passed run'.outcomes = ["style"] := ⟨_, rfl, rfl⟩
  have runs := congrArg Prod.fst (Execution.run_of_follow 10 ended')
  obtain rfl : run = run' := WorkerState.finished.inj (ended.symm.trans (runs.trans ended'))
  rw [gained] at grown
  refine ⟨sound, live, same, run, r, ended, mem, own, gained, ?_, grown⟩
  exact (fresh (.inl (gained ▸ List.cons_ne_nil _ _))).1

/-- The only pass was completed since the record was handed to the worker. What is reported is the
record as it was then, without progress, although nothing is missing. -/
theorem runMissing_behind :
    let doc : PassConfig := { backend := .staticTool, command := some "doc" }
    let cfg : Config :=
      { db := ⟨""⟩, pipeline := { order := ["doc"] }, passes := [("doc", doc)] }
    let registry : PassRegistry :=
      { definitions := [⟨"doc", 0, .staticTool ⟨"doc", [], .json, 120000, [0]⟩, .raw, none⟩]
        scoringPass := none
        scoreFields := defaultScoreFields }
    let job : Job := ⟨registry, "", "run", false⟩
    let new : NewRecord := ⟨"a", none, "", "", .null⟩
    let earlier : List (Timestamp × Request Record RecordId) := [(0, .upsert new)]
    let snapshot := Record.ofNew 1 new 0
    let later : List (Timestamp × Request Record RecordId) :=
      [(0, .commit snapshot ⟨"doc", "", .text "kept", none, 0, 0⟩)]
    let works := Outfit.constant (.output ⟨"", .text "clean", none⟩)
    let w : World Unit :=
      { store := Request.performAll MemoryStore.operations (earlier ++ later) {}, rest := () }
    PassRegistry.ofConfig cfg = .ok registry ∧
      snapshot ∈ (Request.performAll MemoryStore.operations earlier {}).records ∧
      ∃ run, (runMissing works.environment job snapshot w).1 = .finished run ∧
        ((runMissing works.environment job snapshot w).2.store.record? snapshot.id).map
          Record.completed = some ["doc"] ∧
        Report.lacksRunnable registry ["doc"] = false ∧
        run.outcomes = [⟨"doc", .skipped .alreadyCompleted⟩] ∧ run.completed = [] ∧
        Report.statusOf registry run = .noProgress := by
  intro doc cfg registry job new earlier snapshot later works w
  let ended := (WorkerState.running (.start snapshot job.registry.order)).follow works job w
    (List.replicate 5 ())
  obtain ⟨run, finished, outcomes, completed⟩ : ∃ run, ended.1 = .finished run ∧
      run.outcomes = [⟨"doc", .skipped .alreadyCompleted⟩] ∧ run.completed = [] :=
    ⟨_, rfl, rfl, rfl⟩
  have runs : runMissing works.environment job snapshot w = ended :=
    Execution.run_of_follow 5 finished
  rw [runs]
  refine ⟨by rfl, List.mem_singleton_self _, run, finished, by decide +kernel, by decide +kernel,
    outcomes, completed, ?_⟩
  simp only [Report.statusOf, RecordRun.completedCount, completed, outcomes]
  decide +kernel

end

end Multipass
