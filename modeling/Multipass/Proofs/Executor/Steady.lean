import Mathlib.Data.List.Sublists
import Multipass.Proofs.Executor.Rule
import Multipass.Proofs.Registry

/-!
# Workers that nobody disturbs

A worker whose record nobody else changes. What it goes on with is then right at every step: its
record is as it is stored, and what it read of earlier results is what is stored. If its backends
never report an error, a pass that it is through with is owed no more.

Main statements: `Level.step`, which says what a step of such a worker comes to: the worker is
through, or breaks down in its backend, or goes on, and it has at most left or settled the pass at
hand; and `Steady.step` for a worker whose backends report no errors.
-/

namespace Multipass

/-- The context in which a pass of a record is to be run on what is stored. -/
def Job.contextOf (job : Job) (s : MemoryStore) (r : Record) (d : PassDefinition) :
    InvocationContext :=
  let prior := if d.requires = .previousResults then s.resultsOf r.id else []
  .build job.runId r d.requires prior job.root

/-- Holds of a pass that a record lacks and that there is something to be done about. -/
structure Owed (job : Job) (r : Record) (pass : String) (d : PassDefinition) : Prop where
  definition : job.registry.definition pass = .ok d
  runnable : d.backend.isRunnable = true
  real : job.dryRun = false
  free : pass ∉ r.completed

/-- What it means to settle an owed pass: a result that is there is recovered, and else the backend
is asked for one. -/
inductive Settles (given : PassDefinition → InvocationContext → Reply → Prop) (job : Job)
    (s : MemoryStore) (r : Record) (pass : String) : MemoryStore → Prop where
  | recover {d result} :
    Owed job r pass d →
    s.latest? r.id pass = some result →
    Settles given job s r pass (s.completed r.id pass 0)
  | commit {d output} :
    Owed job r pass d →
    s.latest? r.id pass = none →
    given d (job.contextOf s r d) (.output output) →
    Settles given job s r pass (s.committed r.id (Execution.resultOf pass output 0 0) 0)

namespace Execution

/-- The passes that are neither completed nor given up. -/
def ahead (e : Execution) : List String :=
  if e.phase.isScoring then e.remaining.tail else e.remaining

/-- What a worker goes on with in a phase of a pass of a record, as long as it is right. -/
inductive Knows (given : PassDefinition → InvocationContext → Reply → Prop) (job : Job)
    (s : MemoryStore) (r : Record) (pass : String) : Phase → Prop where
  | deciding : Knows given job s r pass .deciding
  | gathering {d} :
    job.registry.definition pass = .ok d →
    d.backend.isRunnable = true →
    d.requires = .previousResults →
    Knows given job s r pass (.gathering d)
  | checking {d} :
    Owed job r pass d →
    Knows given job s r pass (.checking d (job.contextOf s r d))
  | recovering {d result} :
    Owed job r pass d →
    s.latest? r.id pass = some result →
    Knows given job s r pass (.recovering d)
  | starting {d} :
    Owed job r pass d →
    s.latest? r.id pass = none →
    Knows given job s r pass (.starting d (job.contextOf s r d))
  | calling {d} :
    Owed job r pass d →
    s.latest? r.id pass = none →
    Knows given job s r pass (.calling d (job.contextOf s r d) 0)
  | committing {d output} :
    Owed job r pass d →
    s.latest? r.id pass = none →
    given d (job.contextOf s r d) (.output output) →
    Knows given job s r pass (.committing d (resultOf pass output 0 0))
  | scoring : Knows given job s r pass .scoring
  | saving {scores} : Knows given job s r pass (.saving scores)

/-- What holds of an execution that nobody disturbs, on the rows of its record. -/
structure Steady (given : PassDefinition → InvocationContext → Reply → Prop) (job : Job)
    (e : Execution) (s : MemoryStore) : Prop where
  current : s.record? e.current.id = some e.current
  ahead : e.ahead.Sublist job.registry.order
  fresh : ∀ pass ∈ e.ahead, pass ∉ e.current.completed
  behind : ∀ pass ∈ job.registry.order, pass ∉ e.ahead → ∀ d, ¬Owed job e.current pass d
  knows : ∀ pass ∈ e.remaining.head?, Knows given job s e.current pass e.phase

/-- What holds of an execution that nobody disturbs, whatever it has left behind. -/
structure Level (given : PassDefinition → InvocationContext → Reply → Prop) (job : Job)
    (e : Execution) (s : MemoryStore) : Prop where
  current : s.record? e.current.id = some e.current
  ahead : e.ahead.Sublist job.registry.order
  fresh : ∀ pass ∈ e.ahead, pass ∉ e.current.completed
  knows : ∀ pass ∈ e.remaining.head?, Knows given job s e.current pass e.phase

/-- Why the pass at hand is left, and how it is reported. -/
inductive Leaves (given : PassDefinition → InvocationContext → Reply → Prop) (stop : Bool)
    (job : Job) (r : Record) (pass : String) : PassOutcome → Prop where
  | cancelled :
    stop = true →
    Leaves given stop job r pass (.skipped .cancelled)
  | unknown {error} :
    job.registry.definition pass = .error error →
    Leaves given stop job r pass (.failed error.message)
  | placeholder {d} :
    job.registry.definition pass = .ok d →
    d.backend.isRunnable = false →
    Leaves given stop job r pass (.skipped .noBackend)
  | dry {d} :
    job.registry.definition pass = .ok d →
    d.backend.isRunnable = true →
    job.dryRun = true →
    Leaves given stop job r pass (.skipped .dryRun)
  | failed {d ctx error} :
    Owed job r pass d →
    given d ctx (.error error) →
    Leaves given stop job r pass (.failed error.message)

/-- What a step of a worker comes to that nobody disturbs. -/
inductive Proceeds (given : PassDefinition → InvocationContext → Reply → Prop) (stop : Bool)
    (job : Job) (e : Execution) (s : MemoryStore) : WorkerState → MemoryStore → Prop where
  | finished :
    e.ahead = [] →
    Proceeds given stop job e s (.finished { e.report with completed := e.current.completed }) s
  | panicked {pass d ctx text} :
    Owed job e.current pass d →
    given d ctx (.panic text) →
    Proceeds given stop job e s (.panicked text) s
  /-- Nothing is reported; scores may have been saved. -/
  | goesOn {e' scores} :
    e'.current = e.current →
    e'.ahead = e.ahead →
    e'.report.outcomes = e.report.outcomes →
    e'.Level given job { s with scores } →
    Proceeds given stop job e s (.running e') { s with scores }
  | leaves {pass rest outcome} :
    e.ahead = pass :: rest →
    (e.close pass outcome).ahead = rest →
    Leaves given stop job e.current pass outcome →
    (e.close pass outcome).Level given job s →
    Proceeds given stop job e s (.running (e.close pass outcome)) s
  | settles {e' pass rest s'} :
    e.ahead = pass :: rest →
    Settles given job s e.current pass s' →
    e'.current = e.current.complete pass 0 →
    e'.ahead = rest →
    e'.report.outcomes = e.report.outcomes ++ [⟨pass, .completed⟩] →
    e'.Level given job s' →
    Proceeds given stop job e s (.running e') s'

/-- What a step of a steady worker comes to. -/
inductive Comes (given : PassDefinition → InvocationContext → Reply → Prop) (stop : Bool)
    (job : Job) (e : Execution) (s : MemoryStore) : WorkerState → MemoryStore → Prop where
  | finished :
    e.ahead = [] →
    Comes given stop job e s (.finished { e.report with completed := e.current.completed }) s
  | cancelled {pass} :
    stop = true →
    Comes given stop job e s (.running (e.close pass (.skipped .cancelled))) s
  | panicked {d ctx text} :
    given d ctx (.panic text) →
    Comes given stop job e s (.panicked text) s
  /-- No pass is settled; scores may have been saved. -/
  | goesOn {e' scores} :
    e'.current = e.current →
    e'.Steady given job { s with scores } →
    Comes given stop job e s (.running e') { s with scores }
  | settles {e' pass rest s'} :
    e.ahead = pass :: rest →
    Settles given job s e.current pass s' →
    e'.current = e.current.complete pass 0 →
    e'.ahead = rest →
    e'.Steady given job s' →
    Comes given stop job e s (.running e') s'

end Execution

variable {given : PassDefinition → InvocationContext → Reply → Prop} {stop : Bool} {job : Job}
  {s s' : MemoryStore} {r : Record} {pass : String}

/-- A pass that is completed is owed no more. -/
lemma not_owed_complete (r : Record) (pass : String) (now : Timestamp) (d : PassDefinition) :
    ¬Owed job (r.complete pass now) pass d :=
  fun owed => owed.free (List.mem_append_right _ List.mem_cons_self)

/-- What is owed behind a completion was owed before. -/
lemma Owed.of_complete {now : Timestamp} {other : String} {d : PassDefinition}
    (owed : Owed job (r.complete other now) pass d) : Owed job r pass d :=
  { owed with free := fun mem => owed.free (List.mem_append_left _ mem) }

namespace Execution

variable {e : Execution} {rest : List String}

lemma ahead_eq_remaining {phase : Phase} (hp : e.phase = phase) (h : phase.isScoring = false) :
    e.ahead = e.remaining := by
  simp [ahead, hp, h]

lemma ahead_eq_tail {phase : Phase} (hp : e.phase = phase) (h : phase.isScoring = true) :
    e.ahead = e.remaining.tail := by
  simp [ahead, hp, h]

lemma ahead_eq_nil (hr : e.remaining = []) : e.ahead = [] := by
  simp [ahead, hr]

/-- A worker is level when it starts with a record as it is stored. -/
lemma level_start (stored : s.record? r.id = some r) :
    Level given job (.start r job.registry.order) s where
  current := stored
  ahead := List.filter_sublist
  fresh := by
    intro pass mem
    show pass ∉ r.completed
    simpa [Record.hasCompleted] using List.of_mem_filter mem
  knows := fun _ _ => .deciding

/-! ### Steps of a level worker -/

lemma ahead_close (hr : e.remaining = pass :: rest) (name : String) (outcome : PassOutcome) :
    (e.close name outcome).ahead = rest := by
  show e.remaining.tail = rest
  rw [hr, List.tail_cons]

lemma ahead_completed (hr : e.remaining = pass :: rest) (job : Job) (updated : Record) :
    (e.completed job pass updated).ahead = rest := by
  simp only [completed]
  split
  · show e.remaining.tail = rest
    rw [hr, List.tail_cons]
  · show e.remaining.tail = rest
    rw [hr, List.tail_cons]

lemma Level.goesOn (level : e.Level given job s) {phase : Phase}
    (hr : e.remaining = pass :: rest) (same : (e.enter phase).ahead = e.ahead)
    (knows : Knows given job s e.current pass phase) :
    Proceeds given stop job e s (.running (e.enter phase)) s := by
  have level' : (e.enter phase).Level given job { s with scores := s.scores } := by
    refine ⟨level.current, same ▸ level.ahead, same ▸ level.fresh, fun name mem => ?_⟩
    change name ∈ e.remaining.head? at mem
    rw [hr, List.head?_cons, Option.mem_some_iff] at mem
    exact mem ▸ knows
  have next : Proceeds given stop job e s (.running (e.enter phase)) { s with scores := s.scores } :=
    .goesOn rfl same rfl level'
  exact next

lemma Level.leaves (level : e.Level given job s) (hr : e.remaining = pass :: rest)
    (whole : e.ahead = e.remaining) {outcome : PassOutcome}
    (leaves : Leaves given stop job e.current pass outcome) :
    Proceeds given stop job e s (.running (e.close pass outcome)) s := by
  have cons : e.ahead = pass :: rest := whole.trans hr
  have sub : rest.Sublist e.ahead := cons ▸ List.sublist_cons_self pass rest
  have ahead := ahead_close hr pass outcome
  refine .leaves cons ahead leaves ⟨level.current, ?_, ?_, fun _ _ => .deciding⟩
  · rw [ahead]
    exact sub.trans level.ahead
  · rw [ahead]
    exact fun other mem => level.fresh other (sub.subset mem)

lemma Level.prepared (level : e.Level given job s) (hr : e.remaining = pass :: rest)
    (whole : e.ahead = e.remaining) {d : PassDefinition} {prior : List PassResult}
    (definition : job.registry.definition pass = .ok d) (runnable : d.backend.isRunnable = true)
    (right : prior = if d.requires = .previousResults then s.resultsOf e.current.id else []) :
    Proceeds given stop job e s (.running (e.prepared job d prior)) s := by
  by_cases dry : job.dryRun = true
  · simp only [Execution.prepared, dry, if_true]
    rw [(PassRegistry.mem_of_definition definition).2]
    exact level.leaves hr whole (.dry definition runnable dry)
  · simp only [Execution.prepared, dry]
    have free := level.fresh pass (by rw [whole, hr]; exact List.mem_cons_self)
    refine level.goesOn hr whole.symm ?_
    rw [right]
    exact .checking ⟨definition, runnable, by simpa using dry, free⟩

/-- A worker is level behind the completion of its pass. -/
lemma Level.settles (level : e.Level given job s) (nodup : job.registry.order.Nodup)
    (hr : e.remaining = pass :: rest) (whole : e.ahead = e.remaining)
    (settles : Settles given job s e.current pass s')
    (stored : s'.record? e.current.id = some (e.current.complete pass 0)) :
    Proceeds given stop job e s
      (.running (e.completed job pass (e.current.complete pass 0))) s' := by
  have current := completed_current e job pass (e.current.complete pass 0)
  have ahead := ahead_completed hr job (e.current.complete pass 0)
  have cons : e.ahead = pass :: rest := whole.trans hr
  have sub : rest.Sublist e.ahead := cons ▸ List.sublist_cons_self pass rest
  have notMem : pass ∉ rest := (List.nodup_cons.1 (cons ▸ nodup.sublist level.ahead)).1
  refine .settles cons settles current ahead (by rw [report_completed]; rfl)
    ⟨?_, ahead ▸ sub.trans level.ahead, ?_, fun _ _ => ?_⟩
  · rw [current]
    exact stored
  · rw [ahead, current]
    intro other mem done
    obtain done | eq := List.mem_append.1 done
    · exact level.fresh other (sub.subset mem) done
    · exact notMem (List.mem_singleton.1 eq ▸ mem)
  · simp only [Execution.completed]
    split
    · exact .scoring
    · exact .deciding

/-- A worker whose pass is scored is level when it goes on to the next one. -/
lemma Level.next (level : e.Level given job s) (half : e.ahead = e.remaining.tail)
    (report : RecordRun) (same : report.outcomes = e.report.outcomes)
    (scores : List (RecordId × Score)) :
    Proceeds given stop job e s (.running ({ e with report } : Execution).next)
      { s with scores } := by
  have ahead : ({ e with report } : Execution).next.ahead = e.ahead := half.symm
  exact .goesOn rfl ahead same {
    current := level.current
    ahead := ahead ▸ level.ahead
    fresh := ahead ▸ level.fresh
    knows := fun _ _ => .deciding }

/-- What a step of a level worker comes to. -/
theorem Level.step (level : e.Level given job s) (nodup : job.registry.order.Nodup)
    {state : WorkerState} (rule : Rule given stop job e s state s') :
    Proceeds given stop job e s state s' := by
  -- What the worker knows of the pass at the head of what remains.
  have knows {pass : String} {rest : List String} {phase : Phase} (hr : e.remaining = pass :: rest)
      (hp : e.phase = phase) : Knows given job s e.current pass phase :=
    hp ▸ level.knows pass (by rw [hr]; rfl)
  have whole {phase : Phase} (hp : e.phase = phase) (early : phase.isScoring = false) :
      e.ahead = e.remaining := ahead_eq_remaining hp early
  cases rule with
  | finish hr =>
    refine .finished ?_
    rw [ahead_eq_nil hr]
  | cancel hr hp asked => exact level.leaves hr (whole hp rfl) (.cancelled asked)
  | reject hr hp _ unknown => exact level.leaves hr (whole hp rfl) (.unknown unknown)
  | skip hr hp _ definition placeholder =>
    exact level.leaves hr (whole hp rfl) (.placeholder definition placeholder)
  | gather hr hp _ definition runnable needs =>
    exact level.goesOn hr (whole hp rfl).symm (.gathering definition runnable needs)
  | prepare hr hp _ definition runnable needs =>
    exact level.prepared hr (whole hp rfl) definition runnable (if_neg needs).symm
  | read hr hp =>
    cases knows hr hp with
    | gathering definition runnable needs =>
      exact level.prepared hr (whole hp rfl) definition runnable (if_pos needs).symm
  | find hr hp there =>
    cases knows hr hp with
    | checking owed => exact level.goesOn hr (whole hp rfl).symm (.recovering owed there)
  | miss hr hp none =>
    cases knows hr hp with
    | checking owed => exact level.goesOn hr (whole hp rfl).symm (.starting owed none)
  | call hr hp =>
    cases knows hr hp with
    | starting owed none => exact level.goesOn hr (whole hp rfl).symm (.calling owed none)
  | abandon hr hp placeholder =>
    cases knows hr hp with
    | calling owed _ => simp [owed.runnable] at placeholder
  | receive hr hp output =>
    cases knows hr hp with
    | calling owed none =>
      exact level.goesOn hr (whole hp rfl).symm (.committing owed none output)
  | fail hr hp error =>
    cases knows hr hp with
    | calling owed _ => exact level.leaves hr (whole hp rfl) (.failed owed error)
  | panic hr hp text =>
    cases knows hr hp with
    | calling owed _ => exact .panicked owed text
  | recover hr hp there free =>
    obtain rfl := Option.some.inj (level.current.symm.trans there)
    cases knows hr hp with
    | recovering owed result =>
      refine level.settles nodup hr (whole hp rfl) (.recover owed result) ?_
      rw [MemoryStore.record?_completed, level.current]
      rfl
  | recoverLate hr hp there done =>
    obtain rfl := Option.some.inj (level.current.symm.trans there)
    cases knows hr hp with
    | recovering owed _ => exact absurd done owed.free
  | recoverGone hr hp gone => exact absurd (level.current.symm.trans gone) nofun
  | commit hr hp there free =>
    obtain rfl := Option.some.inj (level.current.symm.trans there)
    cases knows hr hp with
    | committing owed none output =>
      refine level.settles nodup hr (whole hp rfl) (.commit owed none output) ?_
      rw [MemoryStore.record?_committed, level.current]
      rfl
  | commitLate hr hp there done =>
    obtain rfl := Option.some.inj (level.current.symm.trans there)
    cases knows hr hp with
    | committing owed _ _ => exact absurd done owed.free
  | commitGone hr hp gone => exact absurd (level.current.symm.trans gone) nofun
  | score hr hp scores =>
    refine level.goesOn hr ?_ .saving
    exact (ahead_eq_tail rfl rfl).trans (ahead_eq_tail hp rfl).symm
  | @refuse pass rest error hr hp refused =>
    let report := { e.report with scoreError := some error.message }
    exact level.next (ahead_eq_tail hp rfl) report rfl s.scores
  | save hr hp => exact level.next (ahead_eq_tail hp rfl) e.report rfl _

/-! ### Steps of a steady worker -/

lemma Steady.level (steady : e.Steady given job s) : e.Level given job s :=
  { steady with }

/-- A worker is steady when it starts with a record as it is stored. -/
lemma steady_start (stored : s.record? r.id = some r) :
    Steady given job (.start r job.registry.order) s :=
  { level_start stored with
    behind := by
      intro pass mem done d owed
      have free : pass ∉ r.completed := owed.free
      refine done (List.mem_filter.2 ⟨mem, ?_⟩)
      simpa [Record.hasCompleted] using free }

/-- A worker that leaves what is not owed is steady behind it. -/
lemma Steady.of_tail (steady : e.Steady given job s) {e' : Execution}
    (cons : e.ahead = pass :: rest) (ahead : e'.ahead = rest) (level : e'.Level given job s')
    (idle : ∀ d, ¬Owed job e'.current pass d)
    (less : ∀ other d, Owed job e'.current other d → Owed job e.current other d) :
    e'.Steady given job s' :=
  { level with
    behind := by
      intro other mem notMem d owed
      by_cases eq : other = pass
      · exact idle d (eq ▸ owed)
      · refine steady.behind other mem ?_ d (less other d owed)
        rw [cons, List.mem_cons, not_or]
        exact ⟨eq, ahead ▸ notMem⟩ }

/-- What a step of a steady worker comes to. -/
theorem Steady.step (steady : e.Steady given job s) (nodup : job.registry.order.Nodup)
    (faultless : ∀ d ctx error, ¬given d ctx (.error error)) {state : WorkerState}
    (rule : Rule given stop job e s state s') : Comes given stop job e s state s' := by
  cases steady.level.step nodup rule with
  | finished none => exact .finished none
  | panicked _ text => exact .panicked text
  | goesOn current ahead _ level =>
    exact .goesOn current { level with
      behind := fun pass mem notMem => current ▸ steady.behind pass mem (ahead ▸ notMem) }
  | @leaves pass rest outcome cons ahead leaves level =>
    have idles (idle : ∀ d, ¬Owed job e.current pass d) :
        Comes given stop job e s (.running (e.close pass outcome)) { s with scores := s.scores } :=
      .goesOn rfl (steady.of_tail cons ahead level idle fun _ _ owed => owed)
    cases leaves with
    | cancelled asked => exact .cancelled asked
    | unknown unknown =>
      refine idles fun d owed => ?_
      rw [owed.definition] at unknown
      cases unknown
    | placeholder definition placeholder =>
      refine idles fun d owed => ?_
      obtain rfl : _ = d := Except.ok.inj (definition.symm.trans owed.definition)
      simp [owed.runnable] at placeholder
    | dry _ _ dry => exact idles fun _ owed => by simp [owed.real] at dry
    | failed _ error => exact absurd error (faultless _ _ _)
  | settles cons settles current ahead _ level =>
    refine .settles cons settles current ahead (steady.of_tail cons ahead level ?_ ?_)
    · rw [current]
      exact not_owed_complete e.current _ 0
    · rw [current]
      exact fun _ _ owed => owed.of_complete

end Execution

end Multipass
