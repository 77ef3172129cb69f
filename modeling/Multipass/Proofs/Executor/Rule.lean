import Multipass.Proofs.Executor.Solo

/-!
# Rules of a worker alone

What one step of a worker does to the rows of its record, with all that it found there and all that
it goes on with: one rule for each way in which a pass goes on. Where only the part of the store
matters that belongs to one record, later proofs take the cases of `Rule`.

Main statements: `Execution.rule_solo` for a worker that is alone with the rows of its record, and
`Execution.rule_step` for a worker in a world.
-/

namespace Multipass

open MemoryStore (saveScores)

/-- Holds of the phases in which the pass is completed and only its scores are missing. -/
def Phase.isScoring : Phase → Bool
  | .scoring => true
  | .saving _ => true
  | _ => false

/-- The result that is about to be committed. -/
def Phase.result? : Phase → Option PassResult
  | .committing _ result => some result
  | _ => none

/-- Holds when all replies of the backends of an outfit are among the given ones. -/
def Outfit.Answers {β : Type} (o : Outfit β)
    (given : PassDefinition → InvocationContext → Reply → Prop) : Prop :=
  ∀ d ctx w, ∀ reply ∈ o.reply? d ctx w, given d ctx.plain reply

lemma Outfit.answers_constant {given : PassDefinition → InvocationContext → Reply → Prop}
    {reply : Reply} (allowed : ∀ d ctx, given d ctx reply) : (Outfit.constant reply).Answers given := by
  intro d ctx w actual mem
  have same : actual = reply := by
    rw [Outfit.reply?] at mem
    cases h : d.backend <;> rw [h] at mem <;> cases mem <;> rfl
  exact same ▸ allowed d ctx.plain

namespace Execution

variable {β : Type}

/-- What one step can do to an execution and the rows of its record, if the backends give none but
the given replies and the flag that asks to stop is as said. -/
inductive Rule (given : PassDefinition → InvocationContext → Reply → Prop) (stop : Bool) (job : Job)
    (e : Execution) (s : MemoryStore) : WorkerState → MemoryStore → Prop where
  | finish :
    e.remaining = [] →
    Rule given stop job e s (.finished { e.report with completed := e.current.completed }) s
  /-- The worker was asked to stop. -/
  | cancel {pass rest} :
    e.remaining = pass :: rest → e.phase = .deciding →
    stop = true →
    Rule given stop job e s (.running (e.close pass (.skipped .cancelled))) s
  | reject {pass rest error} :
    e.remaining = pass :: rest → e.phase = .deciding →
    stop = false →
    job.registry.definition pass = .error error →
    Rule given stop job e s (.running (e.close pass (.failed error.message))) s
  /-- The pass is a placeholder. -/
  | skip {pass rest d} :
    e.remaining = pass :: rest → e.phase = .deciding →
    stop = false →
    job.registry.definition pass = .ok d →
    d.backend.isRunnable = false →
    Rule given stop job e s (.running (e.close pass (.skipped .noBackend))) s
  | gather {pass rest d} :
    e.remaining = pass :: rest → e.phase = .deciding →
    stop = false →
    job.registry.definition pass = .ok d →
    d.backend.isRunnable = true →
    d.requires = .previousResults →
    Rule given stop job e s (.running (e.enter (.gathering d))) s
  /-- The pass does not ask for earlier results. -/
  | prepare {pass rest d} :
    e.remaining = pass :: rest → e.phase = .deciding →
    stop = false →
    job.registry.definition pass = .ok d →
    d.backend.isRunnable = true →
    d.requires ≠ .previousResults →
    Rule given stop job e s (.running (e.prepared job d [])) s
  | read {pass rest d} :
    e.remaining = pass :: rest → e.phase = .gathering d →
    Rule given stop job e s (.running (e.prepared job d (s.resultsOf e.current.id))) s
  /-- There is a result already. -/
  | find {pass rest d ctx result} :
    e.remaining = pass :: rest → e.phase = .checking d ctx →
    s.latest? e.current.id pass = some result →
    Rule given stop job e s (.running (e.enter (.recovering d))) s
  /-- There is no result yet. -/
  | miss {pass rest d ctx} :
    e.remaining = pass :: rest → e.phase = .checking d ctx →
    s.latest? e.current.id pass = none →
    Rule given stop job e s (.running (e.enter (.starting d ctx))) s
  | call {pass rest d ctx} :
    e.remaining = pass :: rest → e.phase = .starting d ctx →
    Rule given stop job e s (.running (e.enter (.calling d ctx 0))) s
  /-- There is no backend to call. -/
  | abandon {pass rest d ctx since} :
    e.remaining = pass :: rest → e.phase = .calling d ctx since →
    d.backend.isRunnable = false →
    Rule given stop job e s (.running (e.close pass (.skipped .noBackend))) s
  | receive {pass rest d ctx since output} :
    e.remaining = pass :: rest → e.phase = .calling d ctx since →
    given d ctx (.output output) →
    Rule given stop job e s (.running (e.enter (.committing d (resultOf pass output since 0)))) s
  | fail {pass rest d ctx since error} :
    e.remaining = pass :: rest → e.phase = .calling d ctx since →
    given d ctx (.error error) →
    Rule given stop job e s (.running (e.close pass (.failed error.message))) s
  | panic {pass rest d ctx since text} :
    e.remaining = pass :: rest → e.phase = .calling d ctx since →
    given d ctx (.panic text) →
    Rule given stop job e s (.panicked text) s
  /-- The pass of a result that was there is completed. -/
  | recover {pass rest d stored} :
    e.remaining = pass :: rest → e.phase = .recovering d →
    s.record? e.current.id = some stored →
    pass ∉ stored.completed →
    Rule given stop job e s (.running (e.completed job pass (stored.complete pass 0)))
      (s.completed e.current.id pass 0)
  | recoverLate {pass rest d stored} :
    e.remaining = pass :: rest → e.phase = .recovering d →
    s.record? e.current.id = some stored →
    pass ∈ stored.completed →
    Rule given stop job e s (.running (e.close pass (.skipped .alreadyCompleted))) s
  | recoverGone {pass rest d} :
    e.remaining = pass :: rest → e.phase = .recovering d →
    s.record? e.current.id = none →
    Rule given stop job e s (.aborted (.recordNotFound e.current.path)) s
  /-- A new result is kept and its pass is completed. -/
  | commit {pass rest d result stored} :
    e.remaining = pass :: rest → e.phase = .committing d result →
    s.record? e.current.id = some stored →
    result.pass ∉ stored.completed →
    Rule given stop job e s (.running (e.completed job pass (stored.complete result.pass 0)))
      (s.committed e.current.id result 0)
  | commitLate {pass rest d result stored} :
    e.remaining = pass :: rest → e.phase = .committing d result →
    s.record? e.current.id = some stored →
    result.pass ∈ stored.completed →
    Rule given stop job e s (.running (e.close pass (.skipped .alreadyCompleted))) s
  | commitGone {pass rest d result} :
    e.remaining = pass :: rest → e.phase = .committing d result →
    s.record? e.current.id = none →
    Rule given stop job e s (.aborted (.recordNotFound e.current.path)) s
  | score {pass rest scores} :
    e.remaining = pass :: rest → e.phase = .scoring →
    Score.ofLatest MemoryStore.operations e.current.id pass job.registry.scoreFields s = .ok scores →
    Rule given stop job e s (.running (e.enter (.saving scores))) s
  | refuse {pass rest error} :
    e.remaining = pass :: rest → e.phase = .scoring →
    Score.ofLatest MemoryStore.operations e.current.id pass job.registry.scoreFields s =
      .error error →
    Rule given stop job e s (.running (e.refuseScores error)) s
  | save {pass rest scores} :
    e.remaining = pass :: rest → e.phase = .saving scores →
    Rule given stop job e s (.running e.next) (saveScores e.current.id scores s).2

variable {given : PassDefinition → InvocationContext → Reply → Prop}
  {reply : PassDefinition → InvocationContext → Reply} {stop : Bool} {job : Job} {e : Execution}
  {s : MemoryStore} {pass : String} {rest : List String}

/-- A worker breaks down only with its backend. -/
lemma Rule.ne_panicked {state : WorkerState} {s' : MemoryStore}
    (rule : Rule given stop job e s state s') (sound : ∀ d ctx text, ¬given d ctx (.panic text))
    (text : String) : state ≠ .panicked text := by
  cases rule with
  | panic _ _ allowed => exact absurd allowed (sound _ _ _)
  | _ => exact WorkerState.noConfusion

/-! ### The rule behind a step -/

lemma rule_choose (hr : e.remaining = pass :: rest) (hp : e.phase = .deciding) :
    Rule given stop job e s (.running (e.choose (.solo reply stop) job pass s)) s := by
  cases stop with
  | true => exact .cancel hr hp rfl
  | false =>
    have go : (Environment.solo reply false).isCancelled s = false := rfl
    simp only [choose, go, Bool.false_eq_true, if_false]
    cases hd : job.registry.definition pass with
    | error error => exact .reject hr hp rfl hd
    | ok d =>
      have runnable := (Environment.solo reply false).backends.isSome_for? d.backend
      cases hb : (Environment.solo reply false).backends.for? d.backend with
      | none =>
        rw [hb] at runnable
        simp only [hb]
        exact .skip hr hp rfl hd runnable.symm
      | some backend =>
        rw [hb] at runnable
        simp only [hb]
        split
        · next needs => exact .gather hr hp rfl hd runnable.symm needs
        · next needs => exact .prepare hr hp rfl hd runnable.symm needs

lemma rule_recovering {d : PassDefinition} (hr : e.remaining = pass :: rest)
    (hp : e.phase = .recovering d) :
    Rule given stop job e s (e.step (.solo reply stop) job s).1 (e.step (.solo reply stop) job s).2 := by
  simp only [step, hr, stepPass, hp, Environment.solo, MemoryStore.operations, MemoryStore.advance]
  cases h : s.record? e.current.id with
  | none => exact .recoverGone hr hp h
  | some stored =>
    simp only
    split
    · next done => exact .recoverLate hr hp h (by simpa [Record.hasCompleted] using done)
    · next free => exact .recover hr hp h (by simpa [Record.hasCompleted] using free)

lemma rule_committing {d : PassDefinition} {result : PassResult} (hr : e.remaining = pass :: rest)
    (hp : e.phase = .committing d result) :
    Rule given stop job e s (e.step (.solo reply stop) job s).1 (e.step (.solo reply stop) job s).2 := by
  simp only [step, hr, stepPass, hp, Environment.solo, MemoryStore.operations, MemoryStore.commit,
    MemoryStore.advance]
  cases h : s.record? e.current.id with
  | none => exact .commitGone hr hp h
  | some stored =>
    by_cases done : stored.hasCompleted result.pass = true
    · simp only [done, if_true]
      exact .commitLate hr hp h (by simpa [Record.hasCompleted] using done)
    · simp only [done]
      exact .commit hr hp h (by simpa [Record.hasCompleted] using done)

lemma rule_calling {d : PassDefinition} {ctx : InvocationContext} {since : Nat}
    (hr : e.remaining = pass :: rest) (hp : e.phase = .calling d ctx since)
    (allowed : d.backend.isRunnable = true → given d ctx (reply d ctx)) :
    Rule given stop job e s (e.step (.solo reply stop) job s).1 (e.step (.solo reply stop) job s).2 := by
  have replied (runnable : d.backend.isRunnable = true) :
      Rule given stop job e s (e.afterReply d pass since 0 (reply d ctx)) s := by
    have allowed := allowed runnable
    cases h : reply d ctx with
    | output output => exact .receive hr hp (h ▸ allowed)
    | error error => exact .fail hr hp (h ▸ allowed)
    | panic text => exact .panic hr hp (h ▸ allowed)
  simp only [step, hr, stepPass, hp]
  cases hb : d.backend with
  | none => exact .abandon hr hp (by rw [hb]; rfl)
  | ai params => exact replied (by rw [hb]; rfl)
  | staticTool params => exact replied (by rw [hb]; rfl)

/-- Each step of a worker that is alone with the rows of its record follows one of the rules. -/
theorem rule_solo (allowed : ∀ d ctx since, e.phase = .calling d ctx since →
      d.backend.isRunnable = true → given d ctx (reply d ctx)) :
    Rule given stop job e s (e.step (.solo reply stop) job s).1
      (e.step (.solo reply stop) job s).2 := by
  cases hr : e.remaining with
  | nil =>
    simp only [step, hr]
    exact .finish hr
  | cons pass rest =>
    cases hp : e.phase with
    | deciding =>
      simp only [step, hr, stepPass, hp]
      exact rule_choose hr hp
    | gathering d =>
      simp only [step, hr, stepPass, hp]
      exact .read hr hp
    | checking d ctx =>
      simp only [step, hr, stepPass, hp, Environment.solo, MemoryStore.operations]
      cases h : s.latest? e.current.id pass with
      | some result => exact .find hr hp h
      | none => exact .miss hr hp h
    | recovering d => exact rule_recovering hr hp
    | starting d ctx =>
      simp only [step, hr, stepPass, hp]
      exact .call hr hp
    | calling d ctx since => exact rule_calling hr hp (allowed d ctx since hp)
    | committing d result => exact rule_committing hr hp
    | scoring =>
      simp only [step, hr, stepPass, hp]
      cases h : Score.ofLatest (Environment.solo reply stop).store e.current.id pass
          job.registry.scoreFields s with
      | ok scores => exact .score hr hp h
      | error error => exact .refuse hr hp h
    | saving scores =>
      simp only [step, hr, stepPass, hp]
      exact .save hr hp

/-- Each step of a worker in a world follows one of the rules on the rows of its record. -/
theorem rule_step {o : Outfit β} (answers : o.Answers given) (job : Job) (e : Execution)
    {w : World β} (ordered : w.store.ScoresOrdered) :
    Rule given (o.isCancelled w) job.plain e.plain (w.store.rowsOf e.current.id)
      (e.step o.environment job w).1.plain
      ((e.step o.environment job w).2.store.rowsOf e.current.id) := by
  -- A reply that is given in this very step may be taken for one that is always given.
  obtain ⟨reply, agrees, allowed⟩ : ∃ reply : PassDefinition → InvocationContext → Reply,
      (∀ d ctx since, e.phase = .calling d ctx since → ∀ actual ∈ o.reply? d ctx w,
        actual = reply d ctx.plain) ∧
      ∀ d ctx since, e.plain.phase = .calling d ctx since → d.backend.isRunnable = true →
        given d ctx (reply d ctx) := by
    cases hp : e.phase with
    | calling d ctx since =>
      refine ⟨fun _ _ => (o.reply? d ctx w).getD default, ?_, ?_⟩
      · rintro _ _ _ ⟨⟩ actual mem
        rw [Option.mem_def.1 mem]
        rfl
      · intro d' ctx' since' eq runnable
        rw [phase_plain, hp] at eq
        cases eq
        have some : (o.reply? d ctx w).isSome = true := by
          rw [Outfit.reply?, Option.isSome_map, Backends.isSome_for?, runnable]
        obtain ⟨actual, h⟩ := Option.isSome_iff_exists.1 some
        rw [h]
        exact answers d ctx w actual h
    | _ =>
      refine ⟨fun _ _ => default, fun _ _ _ eq => Phase.noConfusion eq, ?_⟩
      intro d ctx since eq
      rw [phase_plain, hp] at eq
      cases eq
  have rule : Rule given (o.isCancelled w) job.plain e.plain (w.store.rowsOf e.current.id) _ _ :=
    rule_solo allowed
  rwa [step_solo job ordered agrees] at rule

end Execution

end Multipass
