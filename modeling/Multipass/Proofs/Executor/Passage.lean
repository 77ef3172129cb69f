import Multipass.Proofs.Executor.Keeping
import Multipass.Proofs.Registry

/-!
# The passage of a record through one pass

A worker that is alone with its store, has its record as it is stored, and is not asked to stop takes
the record through the passes that it lacks, one after the other. What it does about one pass is
found by going along its steps: the pass is a placeholder, a result that was kept is recovered, a new
result is kept, or the backend fails.

Main statements: `Execution.passes_run`, and `run_logged` for the invocations behind it.
-/

namespace Multipass

/-!
### Logged invocations

An outfit may write down the invocations of its backends, each with its reply. Nothing but the log
tells a run with such an outfit from a run with the outfit as it was.
-/

section

/-- An invocation of a backend, and what came of it. -/
structure Invocation where
  definition : PassDefinition
  ctx : InvocationContext
  reply : Reply

variable {β : Type}

/-- A world without its log. -/
def World.bare (w : World (β × List Invocation)) : World β where
  store := w.store
  claimed := w.claimed
  rest := w.rest.1

namespace Outfit

/-- The replies of a backend, each written down. -/
def logging (reply : PassDefinition → InvocationContext → World β → Reply × β) (d : PassDefinition)
    (ctx : InvocationContext) (w : World (β × List Invocation)) : Reply × β × List Invocation :=
  let (answer, rest) := reply d ctx w.bare
  (answer, rest, w.rest.2 ++ [⟨d, ctx, answer⟩])

/-- The outfit with all invocations written down. -/
def logged (o : Outfit β) : Outfit (β × List Invocation) where
  ai := logging o.ai
  staticTool := logging o.staticTool
  clock w := o.clock w.bare
  isCancelled w := o.isCancelled w.bare

end Outfit

namespace Execution

lemma choose_logged (o : Outfit β) (job : Job) (e : Execution) (pass : String)
    (w : World (β × List Invocation)) :
    e.choose o.environment job pass w.bare = e.choose o.logged.environment job pass w := by
  have asked : o.environment.isCancelled w.bare = o.logged.environment.isCancelled w := rfl
  simp only [choose, asked]
  split
  · rfl
  · cases job.registry.definition pass with
    | error error => rfl
    | ok d => cases hb : d.backend <;> simp only [hb] <;> rfl

lemma step_logged (o : Outfit β) (job : Job) (e : Execution) (w : World (β × List Invocation)) :
    e.step o.environment job w.bare =
      ((e.step o.logged.environment job w).1, (e.step o.logged.environment job w).2.bare) := by
  simp only [step]
  cases e.remaining with
  | nil => rfl
  | cons pass rest =>
    simp only [stepPass]
    cases e.phase with
    | deciding => simp only [choose_logged]
    | gathering d => rfl
    | checking d ctx =>
      have same : o.environment.store.latest e.current.id pass w.bare =
          o.logged.environment.store.latest e.current.id pass w := rfl
      simp only [same]
      cases o.logged.environment.store.latest e.current.id pass w with
      | error error => rfl
      | ok result => cases result <;> rfl
    | recovering d => rfl
    | starting d ctx => rfl
    | calling d ctx since => cases hb : d.backend <;> simp only [hb] <;> rfl
    | committing d result => rfl
    | scoring =>
      have same : Score.ofLatest o.environment.store e.current.id pass job.registry.scoreFields
          w.bare = Score.ofLatest o.logged.environment.store e.current.id pass
            job.registry.scoreFields w := rfl
      simp only [same]
      cases Score.ofLatest o.logged.environment.store e.current.id pass job.registry.scoreFields w <;>
        rfl
    | saving scores => rfl

/-- A run with a log is the run without it. -/
theorem run_logged (o : Outfit β) (job : Job) (e : Execution) (w : World (β × List Invocation)) :
    e.run o.environment job w.bare =
      ((e.run o.logged.environment job w).1, (e.run o.logged.environment job w).2.bare) := by
  fun_induction Execution.run o.logged.environment job e w with
  | case1 e w e' w' h _ ih =>
    have step := step_logged o job e w
    rw [h] at step
    rw [← ih]
    exact run_running step
  | case2 e w ended =>
    exact run_ended (step_logged o job e w) fun e' h => ended e' _ (Prod.ext h rfl)

end Execution

end

open MemoryStore (isResultOf)

/-! ### One pass -/

/-- Holds of a result of a pass that has what a backend put out. -/
structure PassResult.Holds (result : PassResult) (pass : String) (output : BackendOutput) :
    Prop where
  pass : result.pass = pass
  input : result.input = output.input
  usage : result.usage = output.usage
  output : result.output = output.output

/-- What a worker did about a pass: what it reports, the invocations it made, and the results it
kept. -/
structure Leg where
  pass : String
  outcome : PassOutcome
  log : List Invocation
  fresh : List PassResult

def Leg.report (leg : Leg) : PassReport :=
  ⟨leg.pass, leg.outcome⟩

/-- What a worker can do about a pass that its record lacks. -/
inductive Passes (registry : PassRegistry) (r : Record) (s : MemoryStore) : Leg → Prop where
  /-- There is nothing to run. -/
  | placeholder {pass d} :
    registry.definition pass = .ok d → d.backend.isRunnable = false →
    Passes registry r s ⟨pass, .skipped .noBackend, [], []⟩
  /-- A result was kept already. -/
  | recover {pass d result} :
    registry.definition pass = .ok d → d.backend.isRunnable = true →
    s.latest? r.id pass = some result →
    Passes registry r s ⟨pass, .completed, [], []⟩
  | commit {pass d ctx output result} :
    registry.definition pass = .ok d → d.backend.isRunnable = true →
    s.latest? r.id pass = none →
    ctx.path = r.path → PassResult.Holds result pass output →
    Passes registry r s ⟨pass, .completed, [⟨d, ctx, .output output⟩], [result]⟩
  | fail {pass d ctx} (error : BackendError) :
    registry.definition pass = .ok d → d.backend.isRunnable = true →
    s.latest? r.id pass = none →
    ctx.path = r.path →
    Passes registry r s ⟨pass, .failed error.message, [⟨d, ctx, .error error⟩], []⟩

/-- A record as its worker knows it, and the store. -/
structure Station where
  current : Record
  store : MemoryStore

namespace Station

/-- The record is stored as the worker knows it. -/
structure UpToDate (x : Station) : Prop where
  wellFormed : x.store.WellFormed
  stored : x.store.record? x.current.id = some x.current

/-- The record with one more pass completed, and the store with that, with more results, and with
some scores. -/
def settle (x : Station) (pass : String) (now : Timestamp) (fresh : List PassResult)
    (scores : List (RecordId × Score)) : Station where
  current := x.current.complete pass now
  store :=
    { x.store.completed x.current.id pass now with
      results := x.store.results ++ fresh.map (x.current.id, ·)
      scores }

/-- How a record and the store come through a leg. -/
inductive Moves (leg : Leg) (x : Station) : Station → Prop where
  | stay : leg.outcome.isCompleted = false → leg.fresh = [] → Moves leg x x
  | settle (now : Timestamp) (scores : List (RecordId × Score)) :
    leg.outcome.isCompleted = true → Moves leg x (x.settle leg.pass now leg.fresh scores)

end Station

namespace MemoryStore

variable {s : MemoryStore} {r : Record} {pass : String}

lemma advance_of_stored (stored : s.record? r.id = some r) (free : pass ∉ r.completed)
    (now : Timestamp) :
    advance r pass now s = (.ok (r.complete pass now), s.completed r.id pass now) := by
  have free : r.hasCompleted pass = false := by simpa [Record.hasCompleted] using free
  simp only [advance, stored, free, Bool.false_eq_true, if_false]
  rfl

lemma commit_of_stored (stored : s.record? r.id = some r) {result : PassResult}
    (free : result.pass ∉ r.completed) (missing : s.latest? r.id result.pass = none)
    (now : Timestamp) :
    commit r result now s = (.ok (r.complete result.pass now),
      { s.completed r.id result.pass now with results := s.results ++ [(r.id, result)] }) := by
  -- nothing is replaced, since the pass has no result yet
  have none : ∀ entry ∈ s.results, (!isResultOf r.id result.pass entry) = true := by
    intro entry mem
    rw [latest?, Option.map_eq_none_iff, List.find?_eq_none] at missing
    rw [Bool.not_eq_true']
    exact Bool.eq_false_iff.2 (missing entry (List.mem_reverse.2 mem))
  have all : (s.completed r.id result.pass now).results.filter
      (fun entry => !isResultOf r.id result.pass entry) = s.results :=
    List.filter_eq_self.2 none
  simp only [commit, advance_of_stored stored free, all]

end MemoryStore

/-! ### Along the steps of a worker -/

namespace Execution

variable {β : Type} {o : Outfit β} {job : Job} {e : Execution} {w : World β} {pass : String}
  {rest : List String} {d : PassDefinition} {ctx : InvocationContext}

/-- Holds of an execution that stands before the next pass, with the outcomes of those before it. -/
structure Stands (e : Execution) (rest : List String) (current : Record)
    (outcomes : List PassReport) : Prop where
  phase : e.phase = .deciding
  remaining : e.remaining = rest
  current : e.current = current
  outcomes : e.report.outcomes = outcomes

lemma stands_close (hr : e.remaining = pass :: rest) (outcome : PassOutcome) :
    Stands (e.close pass outcome) rest e.current (e.report.outcomes ++ [⟨pass, outcome⟩]) where
  phase := rfl
  remaining := congrArg List.tail hr
  current := rfl
  outcomes := rfl

lemma step_enter (o : Outfit β) (job : Job) (w : World β) (hr : e.remaining = pass :: rest)
    (phase : Phase) :
    (e.enter phase).step o.environment job w =
      (e.enter phase).stepPass o.environment job pass w := by
  have hr' : (e.enter phase).remaining = pass :: rest := hr
  simp only [step, hr']

lemma run_skip (hr : e.remaining = pass :: rest) (hp : e.phase = .deciding)
    (calm : ∀ w, o.isCancelled w = false) (hd : job.registry.definition pass = .ok d)
    (placeholder : d.backend.isRunnable = false) :
    e.run o.environment job w = (e.close pass (.skipped .noBackend)).run o.environment job w := by
  have calm : o.environment.isCancelled w = false := calm w
  have none : o.environment.backends.for? d.backend = none := by
    rw [← Option.not_isSome_iff_eq_none, Backends.isSome_for?, placeholder]
    exact Bool.false_ne_true
  refine run_running ?_
  simp only [step, hr, stepPass, hp, choose, calm, hd, none, Bool.false_eq_true, if_false]

/-- A pass with something to run comes to the check for a result that was kept. -/
lemma run_prepare (hr : e.remaining = pass :: rest) (hp : e.phase = .deciding)
    (calm : ∀ w, o.isCancelled w = false) (real : job.dryRun = false)
    (hd : job.registry.definition pass = .ok d) (runnable : d.backend.isRunnable = true) :
    ∃ ctx, ctx.path = e.current.path ∧
      e.run o.environment job w = (e.enter (.checking d ctx)).run o.environment job w := by
  have calm : o.environment.isCancelled w = false := calm w
  obtain ⟨backend, hb⟩ : ∃ backend, o.environment.backends.for? d.backend = some backend := by
    rw [← Option.isSome_iff_exists, Backends.isSome_for?, runnable]
  have prepared (prior : List PassResult) : e.prepared job d prior =
      e.enter (.checking d (.build job.runId e.current d.requires prior job.root)) := by
    simp only [Execution.prepared, real, Bool.false_eq_true, if_false]
  -- a pass that asks for earlier results takes one step more, which reads them
  by_cases needs : d.requires = .previousResults
  · let prior := w.store.resultsOf e.current.id
    have gathers : e.step o.environment job w = (.running (e.enter (.gathering d)), w) := by
      simp only [step, hr, stepPass, hp, choose, calm, hd, hb, needs, Bool.false_eq_true, if_false,
        if_true]
    have reads : (e.enter (.gathering d)).step o.environment job w =
        (.running (e.prepared job d prior), w) := by
      rw [step_enter o job w hr]
      rfl
    refine ⟨.build job.runId e.current d.requires prior job.root, rfl, ?_⟩
    rw [run_running gathers, run_running reads, prepared]
  · refine ⟨.build job.runId e.current d.requires [] job.root, rfl, run_running ?_⟩
    simp only [step, hr, stepPass, hp, choose, calm, hd, hb, needs, Bool.false_eq_true, if_false,
      prepared]

lemma run_find (hr : e.remaining = pass :: rest) {result : PassResult}
    (found : w.store.latest? e.current.id pass = some result) :
    (e.enter (.checking d ctx)).run o.environment job w =
      (e.enter (.recovering d)).run o.environment job w := by
  have found : o.environment.store.latest e.current.id pass w = .ok (some result) :=
    congrArg Except.ok found
  refine run_running ?_
  rw [step_enter o job w hr]
  simp only [stepPass, enter, found]

lemma run_miss (hr : e.remaining = pass :: rest)
    (missing : w.store.latest? e.current.id pass = none) :
    (e.enter (.checking d ctx)).run o.environment job w =
      (e.enter (.calling d ctx (o.clock w))).run o.environment job w := by
  have missing : o.environment.store.latest e.current.id pass w = .ok none :=
    congrArg Except.ok missing
  have starts : (e.enter (.checking d ctx)).step o.environment job w =
      (.running (e.enter (.starting d ctx)), w) := by
    rw [step_enter o job w hr]
    simp only [stepPass, enter, missing]
  have calls : (e.enter (.starting d ctx)).step o.environment job w =
      (.running (e.enter (.calling d ctx (o.clock w))), w) := by
    rw [step_enter o job w hr]
    rfl
  rw [run_running starts, run_running calls]

/-- The scores of a pass are kept or refused, and then the next pass is up. -/
lemma run_scores (o : Outfit β) (job : Job) (w : World β) (hr : e.remaining = pass :: rest) :
    ∃ (e' : Execution) (scores : List (RecordId × Score)),
      (e.enter .scoring).run o.environment job w =
        e'.run o.environment job { w with store := { w.store with scores } } ∧
      Stands e' rest e.current e.report.outcomes := by
  have tail : e.remaining.tail = rest := congrArg List.tail hr
  cases read : Score.ofLatest o.environment.store e.current.id pass job.registry.scoreFields w with
  | error error =>
    have refuses : (e.enter .scoring).step o.environment job w =
        (.running (e.refuseScores error), w) := by
      rw [step_enter o job w hr]
      simp only [stepPass, enter, read]
      rfl
    exact ⟨e.refuseScores error, w.store.scores, run_running refuses, rfl, tail, rfl, rfl⟩
  | ok scores =>
    have reads : (e.enter .scoring).step o.environment job w =
        (.running (e.enter (.saving scores)), w) := by
      rw [step_enter o job w hr]
      simp only [stepPass, enter, read]
    have saves : (e.enter (.saving scores)).step o.environment job w =
        (.running e.next,
          { w with store := (MemoryStore.saveScores e.current.id scores w.store).2 }) := by
      rw [step_enter o job w hr]
      rfl
    refine ⟨e.next, (MemoryStore.saveScores e.current.id scores w.store).2.scores, ?_, rfl, tail,
      rfl, rfl⟩
    rw [run_running reads, run_running saves]
    rfl

/-- Behind a completed pass there may be scores to keep, and then the next pass is up. -/
lemma run_completed (o : Outfit β) (job : Job) (w : World β) (hr : e.remaining = pass :: rest)
    (updated : Record) :
    ∃ (e' : Execution) (scores : List (RecordId × Score)),
      (e.completed job pass updated).run o.environment job w =
        e'.run o.environment job { w with store := { w.store with scores } } ∧
      Stands e' rest updated (e.report.outcomes ++ [⟨pass, .completed⟩]) := by
  let behind : Execution := { e with current := updated, report := e.report.push pass .completed }
  have hr' : behind.remaining = pass :: rest := hr
  by_cases scoring : job.registry.isScoringPass pass = true
  · have enters : e.completed job pass updated = behind.enter .scoring := if_pos scoring
    rw [enters]
    exact run_scores o job w hr'
  · have goesOn : e.completed job pass updated = behind.next := if_neg scoring
    rw [goesOn]
    exact ⟨behind.next, w.store.scores, rfl, rfl, congrArg List.tail hr, rfl, rfl⟩

/-- A result that was kept is recovered: its pass is completed. -/
lemma run_recovering (o : Outfit β) (job : Job) (hr : e.remaining = pass :: rest)
    (stored : w.store.record? e.current.id = some e.current) (free : pass ∉ e.current.completed) :
    ∃ (e' : Execution) (now : Timestamp) (scores : List (RecordId × Score)),
      (e.enter (.recovering d)).run o.environment job w = e'.run o.environment job
        { w with store := (Station.settle ⟨e.current, w.store⟩ pass now [] scores).store } ∧
      Stands e' rest (e.current.complete pass now) (e.report.outcomes ++ [⟨pass, .completed⟩]) := by
  let now := Clock.seconds (o.clock w)
  let behind : World β := { w with store := w.store.completed e.current.id pass now }
  have advances := MemoryStore.advance_of_stored stored free now
  have recovers : (e.enter (.recovering d)).step o.environment job w =
      (.running ((e.enter (.recovering d)).completed job pass (e.current.complete pass now)),
        behind) := by
    rw [step_enter o job w hr]
    simp only [stepPass, enter, Outfit.environment, World.operations, ArtifactStore.embed,
      ArtifactStore.within, MemoryStore.operations, now, advances, afterCompletion]
    rfl
  have hr' : (e.enter (.recovering d)).remaining = pass :: rest := hr
  obtain ⟨e', scores, settles, stands⟩ :=
    run_completed o job behind hr' (e.current.complete pass now)
  refine ⟨e', now, scores, ?_, stands⟩
  rw [run_running recovers, settles, Station.settle, List.map_nil, List.append_nil]
  rfl

lemma run_committing (o : Outfit β) (job : Job) (hr : e.remaining = pass :: rest)
    {result : PassResult} (named : result.pass = pass)
    (stored : w.store.record? e.current.id = some e.current)
    (free : pass ∉ e.current.completed) (missing : w.store.latest? e.current.id pass = none) :
    ∃ (e' : Execution) (now : Timestamp) (scores : List (RecordId × Score)),
      (e.enter (.committing d result)).run o.environment job w = e'.run o.environment job
        { w with store := (Station.settle ⟨e.current, w.store⟩ pass now [result] scores).store } ∧
      Stands e' rest (e.current.complete pass now) (e.report.outcomes ++ [⟨pass, .completed⟩]) := by
  subst named
  let now := Clock.seconds (o.clock w)
  let behind : World β :=
    { w with store :=
      { w.store.completed e.current.id result.pass now with
        results := w.store.results ++ [(e.current.id, result)] } }
  have commits := MemoryStore.commit_of_stored stored free missing now
  have keeps : (e.enter (.committing d result)).step o.environment job w =
      (.running ((e.enter (.committing d result)).completed job result.pass
        (e.current.complete result.pass now)), behind) := by
    rw [step_enter o job w hr]
    simp only [stepPass, enter, Outfit.environment, World.operations, ArtifactStore.embed,
      ArtifactStore.within, MemoryStore.operations, now, commits, afterCompletion]
    rfl
  have hr' : (e.enter (.committing d result)).remaining = result.pass :: rest := hr
  obtain ⟨e', scores, settles, stands⟩ :=
    run_completed o job behind hr' (e.current.complete result.pass now)
  refine ⟨e', now, scores, ?_, stands⟩
  rw [run_running keeps, settles]
  rfl

/-! ### Invocations -/

/-- An invocation is written down with its reply, and leaves the store alone. -/
lemma step_calling (o : Outfit β) (job : Job) (w : World (β × List Invocation))
    (hr : e.remaining = pass :: rest) (runnable : d.backend.isRunnable = true)
    (ctx : InvocationContext) (since : Nat) :
    ∃ reply ∈ o.reply? d ctx w.bare, ∃ after : β,
      let w' := { w with rest := (after, w.rest.2 ++ [⟨d, ctx, reply⟩]) }
      (e.enter (.calling d ctx since)).step o.logged.environment job w =
        ((e.enter (.calling d ctx since)).afterReply d pass since (o.logged.clock w') reply, w') := by
  rw [step_enter o.logged job w hr]
  cases hb : d.backend with
  | none =>
    rw [hb] at runnable
    cases runnable
  | ai params =>
    refine ⟨_, by rw [Outfit.reply?, hb]; rfl, (o.ai d ctx w.bare).2, ?_⟩
    simp only [stepPass, enter, hb]
    rfl
  | staticTool params =>
    refine ⟨_, by rw [Outfit.reply?, hb]; rfl, (o.staticTool d ctx w.bare).2, ?_⟩
    simp only [stepPass, enter, hb]
    rfl

/-- A backend that does not break down yields a result to keep, or fails. -/
lemma run_calling (job : Job) (w : World (β × List Invocation)) (hr : e.remaining = pass :: rest)
    (runnable : d.backend.isRunnable = true)
    (sound : o.Answers fun _ _ reply => ∀ text, reply ≠ .panic text) (ctx : InvocationContext)
    (since : Nat) :
    ∃ after : β,
      (∃ output now, (e.enter (.calling d ctx since)).run o.logged.environment job w =
        (e.enter (.committing d (resultOf pass output since now))).run o.logged.environment job
          { w with rest := (after, w.rest.2 ++ [⟨d, ctx, .output output⟩]) }) ∨
      (∃ error, (e.enter (.calling d ctx since)).run o.logged.environment job w =
        (e.close pass (.failed error.message)).run o.logged.environment job
          { w with rest := (after, w.rest.2 ++ [⟨d, ctx, .error error⟩]) }) := by
  obtain ⟨reply, mem, after, calls⟩ := step_calling o job w hr runnable ctx since
  refine ⟨after, ?_⟩
  cases reply with
  | output output => exact .inl ⟨output, _, run_running calls⟩
  | error error => exact .inr ⟨error, run_running calls⟩
  | panic text => exact absurd rfl (sound d ctx w.bare _ mem text)

/-! ### The passage -/

/-- A run goes through one pass that its record lacks, and on to the next one. -/
theorem passes_run {w : World (β × List Invocation)} (hr : e.remaining = pass :: rest)
    (hp : e.phase = .deciding) (current : Station.UpToDate ⟨e.current, w.store⟩)
    (free : pass ∉ e.current.completed) (hd : job.registry.definition pass = .ok d)
    (calm : ∀ w, o.isCancelled w = false) (real : job.dryRun = false)
    (sound : o.Answers fun _ _ reply => ∀ text, reply ≠ .panic text) :
    ∃ leg y, leg.pass = pass ∧ Passes job.registry e.current w.store leg ∧
      Station.Moves leg ⟨e.current, w.store⟩ y ∧
      ∃ e' after, Stands e' rest y.current (e.report.outcomes ++ [leg.report]) ∧
        e.run o.logged.environment job w = e'.run o.logged.environment job
          { store := y.store, claimed := w.claimed, rest := (after, w.rest.2 ++ leg.log) } := by
  have calm' : ∀ w, o.logged.isCancelled w = false := fun w => calm w.bare
  cases runnable : d.backend.isRunnable with
  | false =>
    refine ⟨_, _, rfl, .placeholder hd runnable, .stay rfl rfl, _, w.rest.1,
      stands_close hr _, ?_⟩
    rw [run_skip hr hp calm' hd runnable, List.append_nil]
  | true =>
    obtain ⟨ctx, path, prepares⟩ := run_prepare (w := w) hr hp calm' real hd runnable
    rw [prepares]
    cases kept : w.store.latest? e.current.id pass with
    | some result =>
      obtain ⟨e', now, scores, recovers, stands⟩ :=
        run_recovering o.logged job (d := d) hr current.stored free
      refine ⟨_, _, rfl, .recover hd runnable kept, .settle now scores rfl, e', w.rest.1,
        stands, ?_⟩
      rw [run_find hr kept, recovers, List.append_nil]
    | none =>
      rw [run_miss hr kept]
      obtain ⟨after, ⟨output, now, calls⟩ | ⟨error, calls⟩⟩ :=
        run_calling job w hr runnable sound ctx (o.logged.clock w)
      · let result := resultOf pass output (o.logged.clock w) now
        let replied : World (β × List Invocation) :=
          { w with rest := (after, w.rest.2 ++ [⟨d, ctx, .output output⟩]) }
        have holds : result.Holds pass output := ⟨rfl, rfl, rfl, rfl⟩
        obtain ⟨e', now', scores, commits, stands⟩ := run_committing o.logged job (d := d)
          (w := replied) hr holds.pass current.stored free kept
        refine ⟨_, _, rfl, .commit hd runnable kept path holds, .settle now' scores rfl, e',
          after, stands, ?_⟩
        exact calls.trans commits
      · refine ⟨_, _, rfl, .fail error hd runnable kept path, .stay rfl rfl, _, after,
          stands_close hr _, calls⟩

end Execution

end Multipass
