import Multipass.Proofs.Executor.Keeping
import Multipass.Proofs.Executor.Steady
import Multipass.Proofs.Registry

/-!
# Resumption

However often a worker is cut off on its way, the worker that takes up the record again and runs to
its end leaves the same as one that was never cut off. Both settle the owed passes in their order,
each as the passes before left the rows of the record; a pass that was settled stays as it is.

The invariant is the outcome: what the rows come to when all passes of the order are settled is the
same behind every step.

Main statements: `foldl_settle_of_sublist`, by which settled passes can be left out, and
`Attempt.resume_eq_run`.
-/

namespace Multipass

variable {answer : PassDefinition → InvocationContext → BackendOutput} {job : Job}
  {given : PassDefinition → InvocationContext → Reply → Prop} {s s' : MemoryStore}
  {r : Record} {id : RecordId} {pass : String} {order todo : List String}

/-! ### Settled passes -/

/-- The rows of a record with a pass settled, if it is owed. -/
def settle (answer : PassDefinition → InvocationContext → BackendOutput) (job : Job)
    (id : RecordId) (s : MemoryStore) (pass : String) : MemoryStore :=
  match job.registry.definition pass, s.record? id with
  | .ok d, some r =>
    if d.backend.isRunnable && !job.dryRun && !r.hasCompleted pass then
      match s.latest? id pass with
      | some _ => s.completed id pass 0
      | none =>
        s.committed id (Execution.resultOf pass (answer d (job.contextOf s r d)) 0 0) 0
    else s
  | _, _ => s

lemma settle_of_owed (stored : s.record? id = some r) {d : PassDefinition}
    (owed : Owed job r pass d) :
    settle answer job id s pass =
      match s.latest? id pass with
      | some _ => s.completed id pass 0
      | none =>
        s.committed id (Execution.resultOf pass (answer d (job.contextOf s r d)) 0 0) 0 := by
  simp [settle, stored, owed.definition, owed.runnable, owed.real, Record.hasCompleted, owed.free]

lemma settle_of_not_owed (stored : s.record? id = some r) (idle : ∀ d, ¬Owed job r pass d) :
    settle answer job id s pass = s := by
  simp only [settle, stored]
  split
  · next d r' hd hr =>
    cases hr
    split
    · next owed =>
      simp only [Bool.and_eq_true, Bool.not_eq_true', Record.hasCompleted] at owed
      exact absurd ⟨hd, owed.1.1, owed.1.2, by simpa using owed.2⟩ (idle d)
    · rfl
  · rfl

/-- What is settled is a completed pass more, or nothing. -/
lemma record?_settle (answer : PassDefinition → InvocationContext → BackendOutput) (job : Job)
    (stored : s.record? id = some r) (pass : String) :
    (settle answer job id s pass).record? id = some (r.complete pass 0) ∨
      (settle answer job id s pass).record? id = some r ∧ ∀ d, ¬Owed job r pass d := by
  by_cases owed : ∃ d, Owed job r pass d
  · obtain ⟨d, owed⟩ := owed
    left
    rw [settle_of_owed stored owed]
    split <;> simp [stored, Execution.resultOf]
  · have idle := not_exists.1 owed
    rw [settle_of_not_owed stored idle]
    exact .inr ⟨stored, idle⟩

/-- Passes that are not owed can be left out. -/
theorem foldl_settle_of_sublist (answer : PassDefinition → InvocationContext → BackendOutput)
    (sub : todo.Sublist order) (nodup : order.Nodup) (stored : s.record? id = some r)
    (idle : ∀ pass ∈ order, pass ∉ todo → ∀ d, ¬Owed job r pass d) :
    order.foldl (settle answer job id) s = todo.foldl (settle answer job id) s := by
  induction sub generalizing s r with
  | slnil => rfl
  | @cons todo order pass sub ih =>
    obtain ⟨notMem, nodup⟩ := List.nodup_cons.1 nodup
    have head := idle pass List.mem_cons_self fun mem => notMem (sub.subset mem)
    rw [List.foldl_cons, settle_of_not_owed stored head]
    exact ih nodup stored fun other mem => idle other (List.mem_cons_of_mem pass mem)
  | @cons_cons todo order pass sub ih =>
    obtain ⟨notMem, nodup⟩ := List.nodup_cons.1 nodup
    rw [List.foldl_cons, List.foldl_cons]
    have rest (other : String) (mem : other ∈ order) (notTodo : other ∉ todo) :
        ∀ d, ¬Owed job r other d := by
      refine idle other (List.mem_cons_of_mem pass mem) ?_
      rw [List.mem_cons, not_or]
      exact ⟨fun eq => notMem (eq ▸ mem), notTodo⟩
    obtain stored' | ⟨stored', -⟩ := record?_settle answer job stored pass
    · exact ih nodup stored' fun other mem notTodo d owed => rest other mem notTodo d owed.of_complete
    · exact ih nodup stored' rest

/-- What is left of the replies when no backend fails. -/
def Reply.IsOf (answer : PassDefinition → InvocationContext → BackendOutput) (d : PassDefinition)
    (ctx : InvocationContext) (reply : Reply) : Prop :=
  reply = .output (answer d ctx) ∨ ∃ text, reply = .panic text

lemma settle_of_settles (stored : s.record? r.id = some r)
    (settles : Settles (Reply.IsOf answer) job s r pass s') :
    s'.unscored = settle answer job r.id s.unscored pass := by
  have stored' : s.unscored.record? r.id = some r := stored
  cases settles with
  | recover owed result =>
    have result' : s.unscored.latest? r.id pass = some _ := result
    rw [settle_of_owed stored' owed, result']
    rfl
  | commit owed none reply =>
    have none' : s.unscored.latest? r.id pass = Option.none := none
    rw [settle_of_owed stored' owed, none']
    obtain reply | ⟨text, reply⟩ := reply
    · cases reply
      rfl
    · cases reply

/-! ### The invariant -/

/-- Holds of rows that come to a goal when all passes of the order are settled. -/
def ComesTo (answer : PassDefinition → InvocationContext → BackendOutput) (job : Job)
    (id : RecordId) (goal s : MemoryStore) : Prop :=
  job.registry.order.foldl (settle answer job id) s.unscored = goal

/-- What holds of a worker that makes for a goal: the rows come to it. The worker is steady until
it is asked to stop; when it is through without that, the rows are at the goal. -/
def MakesFor (answer : PassDefinition → InvocationContext → BackendOutput) (job : Job)
    (id : RecordId) (goal : MemoryStore) (stop : Bool) : WorkerState → MemoryStore → Prop
  | .running e, s =>
    ComesTo answer job id goal s ∧
      (e.Steady (Reply.IsOf answer) job s ∨ stop = true ∧ e.phase = .deciding)
  | .finished _, s => ComesTo answer job id goal s ∧ (stop = false → s.unscored = goal)
  | .aborted _, _ => False
  | .panicked _, s => ComesTo answer job id goal s

/-- Once asked to stop, a worker gives up one pass after the other. -/
lemma Execution.Rule.of_asked {e : Execution} {state : WorkerState}
    (rule : Execution.Rule given true job e s state s') (hp : e.phase = .deciding) :
    s' = s ∧ (state = .finished { e.report with completed := e.current.completed } ∨
      ∃ pass, state = .running (e.close pass (.skipped .cancelled))) := by
  cases rule with
  | finish _ => exact ⟨rfl, .inl rfl⟩
  | cancel _ _ _ => exact ⟨rfl, .inr ⟨_, rfl⟩⟩
  | _ => simp_all

/-- A step of a worker keeps what the rows come to. -/
theorem makesFor_step {goal : MemoryStore} {stop : Bool} (nodup : job.registry.order.Nodup)
    {e : Execution} {state : WorkerState} (own : e.current.id = id)
    (makes : MakesFor answer job id goal stop (.running e) s)
    (rule : Execution.Rule (Reply.IsOf answer) stop job e s state s') :
    MakesFor answer job id goal stop state s' := by
  subst own
  obtain ⟨comes, steady | ⟨asked, hp⟩⟩ := makes
  · have faultless (d : PassDefinition) (ctx : InvocationContext) (error : BackendError) :
        ¬Reply.IsOf answer d ctx (.error error) := by
      rintro (eq | ⟨text, eq⟩) <;> cases eq
    have stored : s.unscored.record? e.current.id = some e.current := steady.current
    have ahead := foldl_settle_of_sublist answer steady.ahead nodup stored steady.behind
    cases steady.step nodup faultless rule with
    | finished none =>
      refine ⟨comes, fun _ => ?_⟩
      rw [ComesTo, ahead, none] at comes
      exact comes
    | cancelled asked => exact ⟨comes, .inr ⟨asked, rfl⟩⟩
    | panicked _ => exact comes
    | goesOn _ steady => exact ⟨comes, .inl steady⟩
    | @settles e' pass rest _ cons settles current ahead' steady' =>
      refine ⟨?_, .inl steady'⟩
      have same : e'.current.id = e.current.id := current ▸ rfl
      have stored' : s'.unscored.record? e.current.id = some e'.current := same ▸ steady'.current
      calc job.registry.order.foldl (settle answer job e.current.id) s'.unscored
        _ = e'.ahead.foldl (settle answer job e.current.id) s'.unscored :=
          foldl_settle_of_sublist answer steady'.ahead nodup stored' steady'.behind
        _ = rest.foldl (settle answer job e.current.id)
              (settle answer job e.current.id s.unscored pass) := by
          rw [ahead', settle_of_settles steady.current settles]
        _ = e.ahead.foldl (settle answer job e.current.id) s.unscored := by
          rw [cons, List.foldl_cons]
        _ = goal := ahead.symm.trans comes
  · subst asked
    obtain ⟨rfl, rfl | ⟨pass, rfl⟩⟩ := rule.of_asked hp
    · exact ⟨comes, nofun⟩
    · exact ⟨comes, .inr ⟨rfl, rfl⟩⟩

lemma MakesFor.comesTo {goal : MemoryStore} {stop : Bool} {state : WorkerState}
    (makes : MakesFor answer job id goal stop state s) : ComesTo answer job id goal s := by
  cases state with
  | running e => exact makes.1
  | finished run => exact makes.1
  | aborted error => exact makes.elim
  | panicked text => exact makes

lemma MakesFor.asked {goal : MemoryStore} {state : WorkerState}
    (makes : MakesFor answer job id goal false state s) :
    MakesFor answer job id goal true state s := by
  cases state with
  | running e => exact ⟨makes.1, makes.2.imp_right fun h => absurd h.1 Bool.false_ne_true⟩
  | finished run => exact ⟨makes.1, nofun⟩
  | aborted error => exact makes
  | panicked text => exact makes

lemma keeps_makesFor {β : Type} {o : Outfit β} {goal : MemoryStore} {stop : Bool}
    (nodup : job.registry.order.Nodup) (answers : o.Answers (Reply.IsOf answer))
    (flag : ∀ w, o.isCancelled w = stop) :
    Keeps o job id (MakesFor answer job.plain id goal stop) := by
  have nodup' : job.plain.registry.order.Nodup := nodup
  exact keeps_of_rules answers flag fun _ _ _ _ own makes rule => makesFor_step nodup' own makes rule

/-! ### Attempts one after the other -/

/-- What holds of a world between two attempts: the record is there, and its rows come to the
goal. -/
structure Ready {β : Type} (answer : PassDefinition → InvocationContext → BackendOutput) (job : Job)
    (record : Record) (goal : MemoryStore) (w : World β) : Prop where
  wellFormed : w.store.WellFormed
  ordered : w.store.ScoresOrdered
  listed : (record.id, record.path) ∈ w.store.labels
  comes : ComesTo answer job.plain record.id goal (w.store.rowsOf record.id)

section

variable {β : Type} {w : World β} {goal : MemoryStore} {record : Record}

/-- The record is found when it is read again. -/
lemma Ready.read (ready : Ready answer job record goal w) :
    ∃ r, w.store.recordAt? record.path = some r ∧ r.id = record.id ∧
      w.store.record? record.id = some r := by
  obtain ⟨r, mem, eq⟩ := List.mem_map.1 ready.listed
  obtain ⟨sameId, samePath⟩ := Prod.mk.inj eq
  exact ⟨r, samePath ▸ ready.wellFormed.recordAt?_of_mem mem, sameId,
    sameId ▸ ready.wellFormed.record?_of_mem mem⟩

/-- A worker makes for the goal when it starts with the record as it is. -/
lemma Ready.upheld (ready : Ready answer job record goal w) {r : Record}
    (stored : w.store.record? record.id = some r) :
    Upheld record.id (MakesFor answer job.plain record.id goal false)
      (.running (.start r job.registry.order)) w where
  wellFormed := ready.wellFormed
  ordered := ready.ordered
  own := by
    rintro _ ⟨⟩
    exact (MemoryStore.record?_eq_some stored).2
  holds := by
    have eq : r.timeless.id = record.id := (MemoryStore.record?_eq_some stored).2
    refine ⟨ready.comes, .inl ?_⟩
    show Execution.Steady _ job.plain (.start r.timeless job.plain.registry.order) _
    refine Execution.steady_start ?_
    rw [eq, MemoryStore.record?_rowsOf, stored]
    rfl

/-- A worker that is never asked to stop, and whose backends do not fail, is through at some time,
and then the rows are at the goal. -/
lemma Ready.run (ready : Ready answer job record goal w) (nodup : job.registry.order.Nodup)
    {o : Outfit β} (replies : o.Answers fun d ctx reply => reply = .output (answer d ctx))
    (calm : ∀ w, o.isCancelled w = false) {r : Record}
    (stored : w.store.record? record.id = some r) :
    ∃ run, (runMissing o.environment job r w).1 = .finished run ∧
      ((runMissing o.environment job r w).2.store.rowsOf record.id).unscored = goal := by
  have begun := ready.upheld stored
  have answers : o.Answers (Reply.IsOf answer) := fun d ctx w reply mem =>
    .inl (replies d ctx w reply mem)
  obtain ⟨upheld, through⟩ := begun.run (keeps_makesFor nodup answers calm)
  have sound : Keeps o job record.id fun state _ => ∀ text, state ≠ .panicked text :=
    keeps_of_rules replies calm fun _ _ _ _ _ _ rule => rule.ne_panicked fun _ _ _ eq => nomatch eq
  obtain ⟨unbroken, -⟩ := Upheld.run { begun with holds := fun _ => nofun } sound
  have holds := upheld.holds
  have unbroken := unbroken.holds
  simp only [runMissing]
  generalize (Execution.start r job.registry.order).run o.environment job w = ended at *
  obtain ⟨state, w'⟩ := ended
  cases state with
  | running e => exact absurd rfl (through e)
  | finished run => exact ⟨run, rfl, holds.2 rfl⟩
  | aborted error => exact holds.elim
  | panicked text => exact absurd rfl (unbroken text)

/-- An attempt that is not asked to stop and is through leaves the rows at the goal. -/
lemma Ready.last (ready : Ready answer job record goal w) (nodup : job.registry.order.Nodup)
    {a : Attempt β} (answers : a.outfit.Answers (Reply.IsOf answer)) (unasked : a.asked = [])
    {r : Record} (stored : w.store.record? record.id = some r) {run : RecordRun}
    (done : (a.run job r w).1 = .finished run) :
    ((a.run job r w).2.store.rowsOf record.id).unscored = goal := by
  have calm : Keeps (a.outfit.flagged false) (a.job job) record.id
      (MakesFor answer job.plain record.id goal false) :=
    keeps_makesFor nodup answers fun _ => rfl
  have holds := ((ready.upheld stored).follow calm a.calm).holds
  have same : a.run job r w = (WorkerState.running (.start r job.registry.order)).follow
      (a.outfit.flagged false) (a.job job) w a.calm := by
    simp only [Attempt.run, unasked, WorkerState.follow_nil]
  rw [same] at done ⊢
  rw [done] at holds
  exact holds.2 rfl

/-- An attempt that is cut off leaves a world for the next one. -/
lemma Ready.attempt (ready : Ready answer job record goal w) (nodup : job.registry.order.Nodup)
    {a : Attempt β} (answers : a.outfit.Answers (Reply.IsOf answer)) {r : Record}
    (stored : w.store.record? record.id = some r) :
    Ready answer job record goal (a.run job r w).2 := by
  have calm : Keeps (a.outfit.flagged false) (a.job job) record.id
      (MakesFor answer job.plain record.id goal false) :=
    keeps_makesFor nodup answers fun _ => rfl
  have asked : Keeps (a.outfit.flagged true) (a.job job) record.id
      (MakesFor answer job.plain record.id goal true) :=
    keeps_makesFor nodup answers fun _ => rfl
  have left := (ready.upheld stored).attempt calm asked fun _ _ => MakesFor.asked
  exact {
    wellFormed := left.wellFormed
    ordered := left.ordered
    listed := (a.labels_run job r w).symm ▸ ready.listed
    comes := left.holds.comesTo }

/-- Rows at one goal agree in their record, up to times, and in their results. -/
lemma rows_of_goal {γ : Type} {w' : World γ} {id : RecordId}
    (same : (w.store.rowsOf id).unscored = (w'.store.rowsOf id).unscored) :
    (w.store.record? id).map Record.timeless = (w'.store.record? id).map Record.timeless ∧
      (w.store.resultsOf id).map PassResult.timeless =
        (w'.store.resultsOf id).map PassResult.timeless := by
  constructor
  · rw [← MemoryStore.record?_rowsOf, ← MemoryStore.record?_rowsOf]
    exact (congrArg (fun s => MemoryStore.record? s id) same :)
  · rw [← MemoryStore.resultsOf_rowsOf, ← MemoryStore.resultsOf_rowsOf]
    exact (congrArg (fun s => MemoryStore.resultsOf s id) same :)

end

namespace Attempt

variable {β γ : Type}

/-- The world behind some attempts, each with the record as it was read again. -/
def resume (job : Job) (path : String) : World β → List (Attempt β) → World β
  | w, [] => w
  | w, a :: attempts =>
    match w.store.recordAt? path with
    | some r => resume job path (a.run job r w).2 attempts
    | none => w

lemma ready_resume {w : World β} {goal : MemoryStore} {record : Record} {attempts : List (Attempt β)}
    (ready : Ready answer job record goal w) (nodup : job.registry.order.Nodup)
    (answers : ∀ a ∈ attempts, a.outfit.Answers (Reply.IsOf answer)) :
    Ready answer job record goal (resume job record.path w attempts) := by
  induction attempts generalizing w with
  | nil => exact ready
  | cons a attempts ih =>
    obtain ⟨r, found, -, stored⟩ := ready.read
    simp only [resume, found]
    exact ih (ready.attempt nodup (answers a List.mem_cons_self) stored)
      fun a mem => answers a (List.mem_cons_of_mem _ mem)

/-- Any number of attempts to take a record through its passes, each cut off anywhere and each begun
with the record as it is by then, and one that is not asked to stop and runs to its end, leave what
one run leaves that was never cut off: the same completed passes and pass index, and the same
results in the same order, up to times. The one run ends. Backends give the same outputs in all of
them, and may break down in the attempts. -/
theorem resume_eq_run {cfg : Config} (built : PassRegistry.ofConfig cfg = .ok job.registry)
    (history : List (Timestamp × Request Record RecordId)) (record : Record)
    (answer : PassDefinition → InvocationContext → BackendOutput)
    (live : record ∈ (Request.performAll MemoryStore.operations history {}).records)
    (attempts : List (Attempt β)) (last : Attempt β) (outfit : Outfit γ)
    (breaks : ∀ a ∈ last :: attempts, a.outfit.Answers (Reply.IsOf answer))
    (replies : outfit.Answers fun d ctx reply => reply = .output (answer d ctx))
    (unasked : last.asked = []) (calm : ∀ w, outfit.isCancelled w = false) (rest : β) (rest' : γ) :
    let store := Request.performAll MemoryStore.operations history {}
    let before := resume job record.path { store, rest } attempts
    let whole := runMissing outfit.environment job record { store, rest := rest' }
    ∃ again, before.store.recordAt? record.path = some again ∧
      let resumed := last.run job again before
      ∀ run, resumed.1 = .finished run → ∃ run', whole.1 = .finished run' ∧
        ∃ r r', resumed.2.store.record? record.id = some r ∧
          whole.2.store.record? record.id = some r' ∧
          r.completed = r'.completed ∧ r.passIndex = r'.passIndex ∧
          (resumed.2.store.resultsOf record.id).map PassResult.timeless =
            (whole.2.store.resultsOf record.id).map PassResult.timeless := by
  intro store before whole
  have nodup := PassRegistry.nodup_of_ofConfig built
  obtain ⟨wf, -⟩ := MemoryStore.performAll_wellFormed MemoryStore.wellFormed_empty history
  have ordered : store.ScoresOrdered :=
    MemoryStore.performAll_scoresOrdered MemoryStore.scoresOrdered_empty history
  have listed : (record.id, record.path) ∈ store.labels := List.mem_map.2 ⟨record, live, rfl⟩
  let goal := job.registry.order.foldl (settle answer job.plain record.id)
    (store.rowsOf record.id).unscored
  have whole_ready : Ready answer job record goal { store, rest := rest' } :=
    ⟨wf, ordered, listed, rfl⟩
  obtain ⟨run', ended, whole_goal⟩ := whole_ready.run nodup replies calm (wf.record?_of_mem live)
  have ready : Ready answer job record goal before :=
    ready_resume ⟨wf, ordered, listed, rfl⟩ nodup fun a mem => breaks a (List.mem_cons_of_mem _ mem)
  obtain ⟨again, found, -, stored⟩ := ready.read
  have answers := breaks last List.mem_cons_self
  refine ⟨again, found, fun run done => ⟨run', ended, ?_⟩⟩
  obtain ⟨r, -, -, storedr⟩ := (ready.attempt nodup answers stored).read
  have goals := (ready.last nodup answers unasked stored done).trans whole_goal.symm
  obtain ⟨records, results⟩ := rows_of_goal goals
  rw [storedr, Option.map_some, eq_comm, Option.map_eq_some_iff] at records
  obtain ⟨r', storedr', same⟩ := records
  refine ⟨r, r', storedr, storedr', ?_, ?_, results⟩
  · exact (congrArg Record.completed same).symm
  · exact (congrArg Record.passIndex same).symm

/-- A result was stored before its pass was completed. A first worker recovers it and breaks down
with the backend of the second pass, another is cut off while it calls that backend, and the third
runs to its end. -/
theorem resume_eq_run_of_crashes :
    let lint : PassConfig :=
      { backend := .staticTool, requires := .previousResults, command := some "lint" }
    let cfg : Config :=
      { db := ⟨""⟩
        pipeline := { order := ["facts", "lint"] }
        passes := [("facts", { backend := .staticTool, command := some "facts" }), ("lint", lint)] }
    let registry : PassRegistry :=
      { definitions :=
          [⟨"facts", 0, .staticTool ⟨"facts", [], .json, 120000, [0]⟩, .raw, none⟩,
            ⟨"lint", 1, .staticTool ⟨"lint", [], .json, 120000, [0]⟩, .previousResults, none⟩]
        scoringPass := none
        scoreFields := defaultScoreFields }
    let job : Job := ⟨registry, "", "run", false⟩
    let new : NewRecord := ⟨"a", none, "", "", .null⟩
    let record := Record.ofNew 1 new 0
    let history : List (Timestamp × Request Record RecordId) :=
      [(0, .upsert new), (0, .recordResult record ⟨"facts", "", .text "old", none, 5, 7⟩)]
    let store := Request.performAll MemoryStore.operations history {}
    let works := Outfit.constant (.output ⟨"", .text "clean", none⟩)
    let crashed : Attempt Unit := ⟨Outfit.constant (.panic "killed"), "1", List.replicate 9 (), []⟩
    let cut : Attempt Unit := ⟨works, "2", List.replicate 4 (), []⟩
    let last : Attempt Unit := ⟨works, "3", List.replicate 9 (), []⟩
    let before := resume job record.path { store, rest := () } [crashed, cut]
    let whole := runMissing works.environment job record { store, rest := () }
    PassRegistry.ofConfig cfg = .ok registry ∧ record ∈ store.records ∧
      ∃ again, before.store.recordAt? record.path = some again ∧ again.completed = ["facts"] ∧
        ∃ r r', (last.run job again before).2.store.record? record.id = some r ∧
          whole.2.store.record? record.id = some r' ∧ r'.completed = ["facts", "lint"] ∧
          r.completed = r'.completed ∧ r.passIndex = r'.passIndex ∧
          ((last.run job again before).2.store.resultsOf record.id).map PassResult.timeless =
            (whole.2.store.resultsOf record.id).map PassResult.timeless := by
  intro lint cfg registry job new record history store works crashed cut last before whole
  have built : PassRegistry.ofConfig cfg = .ok job.registry := by rfl
  have live : record ∈ store.records := List.mem_singleton_self _
  let answer : PassDefinition → InvocationContext → BackendOutput := fun _ _ =>
    ⟨"", .text "clean", none⟩
  have answers : works.Answers (Reply.IsOf answer) := Outfit.answers_constant fun _ _ => .inl rfl
  have breaks : ∀ a ∈ [last, crashed, cut], a.outfit.Answers (Reply.IsOf answer) := by
    simp only [List.forall_mem_cons]
    exact ⟨answers, Outfit.answers_constant fun _ _ => .inr ⟨_, rfl⟩, answers, nofun⟩
  obtain ⟨again, found, same⟩ := resume_eq_run built history record answer live [crashed, cut] last
    works breaks (Outfit.answers_constant fun _ _ => rfl) rfl (fun _ => rfl) () ()
  have recovered : (before.store.recordAt? record.path).map Record.completed = some ["facts"] := by
    decide +kernel
  have completed : (before.store.recordAt? record.path).bind (fun again =>
      ((last.run job again before).2.store.record? record.id).map Record.completed) =
        some ["facts", "lint"] := by
    decide +kernel
  have through : (before.store.recordAt? record.path).any (fun again =>
      match (last.run job again before).1 with
      | .finished _ => true
      | _ => false) = true := by
    decide +kernel
  rw [found] at recovered completed through
  obtain ⟨run, through⟩ : ∃ run, (last.run job again before).1 = .finished run := by
    rw [Option.any_some] at through
    split at through
    · exact ⟨_, by assumption⟩
    · cases through
  obtain ⟨-, -, r, r', stored, stored', eq, rows⟩ := same run through
  rw [Option.bind_some, stored] at completed
  refine ⟨built, live, again, found, Option.some.inj recovered, r, r', stored, stored', ?_, eq, rows⟩
  exact eq.symm.trans (Option.some.inj completed)

end Attempt

end Multipass
