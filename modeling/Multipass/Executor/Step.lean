import Multipass.Executor.Basic
import Multipass.Score.Aggregate

/-!
# Steps of a worker

A step touches the shared state once, or decides something without it. Between two steps anything
may happen to the shared state. A call of a backend takes two steps: with the first it has
started, and with the second the reply is there.

Every step brings an execution closer to its end, whatever others do to the shared state.
-/

namespace Multipass

namespace Phase

/-- The greatest number of steps left within a pass. -/
def rank : Phase → Nat
  | .deciding => 8
  | .gathering _ => 7
  | .checking .. => 6
  | .recovering _ => 5
  | .starting .. => 5
  | .calling .. => 4
  | .committing .. => 3
  | .scoring => 2
  | .saving _ => 1

end Phase

namespace Execution

variable {ω : Type}

/-- The greatest number of steps left. -/
def weight (e : Execution) : Nat :=
  9 * e.remaining.length + e.phase.rank

/-- The result of a pass, from the reply of its backend. -/
def resultOf (pass : String) (o : BackendOutput) (since now : Nat) : PassResult where
  pass := pass
  input := o.input
  output := o.output
  usage := o.usage
  durationMillis := now - since
  createdAt := (now / 1000 : Nat)

/-- The time of a clock in seconds. -/
def Clock.seconds (millis : Nat) : Timestamp :=
  (millis / 1000 : Nat)

/-- Whether to run the pass. -/
def choose (env : Environment ω) (job : Job) (e : Execution) (pass : String) (w : ω) : Execution :=
  if env.isCancelled w then e.close pass (.skipped .cancelled)
  else
    match job.registry.definition pass with
    | .error error => e.close pass (.failed error.message)
    | .ok d =>
      match env.backends.for? d.backend with
      | none => e.close pass (.skipped .noBackend)
      | some _ =>
        if d.requires = .previousResults then e.enter (.gathering d) else e.prepared job d []

/-- What follows from an answer of the store to an attempt to complete the pass. -/
def afterCompletion (job : Job) (e : Execution) (pass : String) :
    Except StoreError Record → WorkerState
  | .ok updated => .running (e.completed job pass updated)
  | .error (.duplicatePass ..) => .running (e.close pass (.skipped .alreadyCompleted))
  | .error error => .aborted error

/-- What follows from the reply of the backend. -/
def afterReply (e : Execution) (d : PassDefinition) (pass : String) (since now : Nat) :
    Reply → WorkerState
  | .output o => .running (e.enter (.committing d (resultOf pass o since now)))
  | .error error => .running (e.close pass (.failed error.message))
  | .panic text => .panicked text

/-- One step within the pass at hand. -/
def stepPass (env : Environment ω) (job : Job) (e : Execution) (pass : String) (w : ω) :
    WorkerState × ω :=
  match e.phase with
  | .deciding => (.running (choose env job e pass w), w)
  | .gathering d =>
    match env.store.results e.current.id w with
    | .ok prior => (.running (e.prepared job d prior), w)
    | .error error => (.aborted error, w)
  | .checking d ctx =>
    match env.store.latest e.current.id pass w with
    | .ok (some _) => (.running (e.enter (.recovering d)), w)
    | .ok none => (.running (e.enter (.starting d ctx)), w)
    | .error error => (.aborted error, w)
  | .recovering _ =>
    let (answer, w) := env.store.advance e.current pass (Clock.seconds (env.clock w)) w
    (afterCompletion job e pass answer, w)
  | .starting d ctx => (.running (e.enter (.calling d ctx (env.clock w))), w)
  | .calling d ctx since =>
    match env.backends.for? d.backend with
    | none => (.running (e.close pass (.skipped .noBackend)), w)
    | some backend =>
      let (reply, w) := backend.invoke d ctx w
      (afterReply e d pass since (env.clock w) reply, w)
  | .committing _ result =>
    let (answer, w) := env.store.commit e.current result (Clock.seconds (env.clock w)) w
    (afterCompletion job e pass answer, w)
  | .scoring =>
    match Score.ofLatest env.store e.current.id pass job.registry.scoreFields w with
    | .ok scores => (.running (e.enter (.saving scores)), w)
    | .error error => (.running (e.refuseScores error), w)
  | .saving scores =>
    match env.store.saveScores e.current.id scores w with
    | (.ok _, w) => (.running e.next, w)
    | (.error error, w) => (.running (e.refuseScores (.store error)), w)

/-- One step. -/
def step (env : Environment ω) (job : Job) (e : Execution) (w : ω) : WorkerState × ω :=
  match e.remaining with
  | [] => (.finished { e.report with completed := e.current.completed }, w)
  | pass :: _ => stepPass env job e pass w

/-! ### Progress -/

theorem weight_next {e : Execution} {pass : String} {rest : List String}
    (h : e.remaining = pass :: rest) : e.next.weight < e.weight := by
  have : 0 < e.phase.rank := by cases e.phase <;> simp [Phase.rank]
  simp [weight, next, h, Phase.rank]
  omega

theorem weight_close {e : Execution} {pass other : String} {rest : List String}
    {outcome : PassOutcome} (h : e.remaining = pass :: rest) :
    (e.close other outcome).weight < e.weight :=
  weight_next h

theorem weight_refuseScores {e : Execution} {pass : String} {rest : List String}
    {error : ScoreError} (h : e.remaining = pass :: rest) :
    (e.refuseScores error).weight < e.weight :=
  weight_next h

theorem weight_enter {e : Execution} {phase : Phase} (h : phase.rank < e.phase.rank) :
    (e.enter phase).weight < e.weight := by
  simp only [weight, enter]
  omega

theorem weight_completed {e : Execution} {job : Job} {pass other : String} {rest : List String}
    {updated : Record} (h : e.remaining = pass :: rest) (hr : Phase.rank .scoring < e.phase.rank) :
    (e.completed job other updated).weight < e.weight := by
  simp only [completed]
  split
  · exact weight_enter (e := { e with current := updated, report := _ }) hr
  · exact weight_next (e := { e with current := updated, report := _ }) h

theorem weight_prepared {e : Execution} {job : Job} {d : PassDefinition}
    {prior : List PassResult} {pass : String} {rest : List String}
    (h : e.remaining = pass :: rest) (hr : 6 < e.phase.rank) :
    (e.prepared job d prior).weight < e.weight := by
  simp only [prepared]
  split
  · exact weight_close h
  · exact weight_enter hr

theorem weight_choose {env : Environment ω} {job : Job} {e : Execution} {pass : String}
    {rest : List String} {w : ω} (h : e.remaining = pass :: rest) (hr : e.phase = .deciding) :
    (choose env job e pass w).weight < e.weight := by
  simp only [choose]
  split
  · exact weight_close h
  · split
    · exact weight_close h
    · split
      · exact weight_close h
      · split
        · exact weight_enter (by simp [hr, Phase.rank])
        · exact weight_prepared h (by simp [hr, Phase.rank])

theorem weight_afterCompletion {job : Job} {e e' : Execution} {pass other : String}
    {rest : List String} {answer : Except StoreError Record} (h : e.remaining = pass :: rest)
    (hr : Phase.rank .scoring < e.phase.rank)
    (hs : afterCompletion job e other answer = .running e') : e'.weight < e.weight := by
  simp only [afterCompletion] at hs
  split at hs
  · cases hs
    exact weight_completed h hr
  · cases hs
    exact weight_close h
  · cases hs

theorem weight_afterReply {e e' : Execution} {d : PassDefinition} {pass other : String}
    {rest : List String} {since now : Nat} {reply : Reply} (h : e.remaining = pass :: rest)
    (hr : 3 < e.phase.rank) (hs : afterReply e d other since now reply = .running e') :
    e'.weight < e.weight := by
  simp only [afterReply] at hs
  split at hs
  · cases hs
    exact weight_enter hr
  · cases hs
    exact weight_close h
  · cases hs

/-- A step brings an execution closer to its end. -/
theorem weight_step {env : Environment ω} {job : Job} {e e' : Execution} {w w' : ω}
    (hs : step env job e w = (.running e', w')) : e'.weight < e.weight := by
  simp only [step] at hs
  split at hs
  · cases hs
  · next pass rest h =>
    simp only [stepPass] at hs
    split at hs
    · next hp =>
      cases hs
      exact weight_choose h hp
    · next hp =>
      split at hs <;> cases hs
      exact weight_prepared h (by simp [hp, Phase.rank])
    · next hp =>
      split at hs <;> cases hs
      · exact weight_enter (by simp [hp, Phase.rank])
      · exact weight_enter (by simp [hp, Phase.rank])
    · next hp =>
      exact weight_afterCompletion h (by simp [hp, Phase.rank]) (Prod.mk.inj hs).1
    · next hp =>
      cases hs
      exact weight_enter (by simp [hp, Phase.rank])
    · next hp =>
      split at hs
      · cases hs
        exact weight_close h
      · exact weight_afterReply h (by simp [hp, Phase.rank]) (Prod.mk.inj hs).1
    · next hp =>
      exact weight_afterCompletion h (by simp [hp, Phase.rank]) (Prod.mk.inj hs).1
    · next hp =>
      split at hs <;> cases hs
      · exact weight_enter (by simp [hp, Phase.rank])
      · exact weight_refuseScores h
    · split at hs <;> cases hs
      · exact weight_next h
      · exact weight_refuseScores h

/-- Runs an execution alone. -/
def run (env : Environment ω) (job : Job) (e : Execution) (w : ω) : WorkerState × ω :=
  match h : step env job e w with
  | (.running e', w') =>
    have := weight_step h
    run env job e' w'
  | ended => ended
termination_by e.weight

end Execution

/-- Runs every pass that a record lacks. -/
def runMissing {ω : Type} (env : Environment ω) (job : Job) (record : Record) (w : ω) :
    WorkerState × ω :=
  (Execution.start record job.registry.order).run env job w

end Multipass
