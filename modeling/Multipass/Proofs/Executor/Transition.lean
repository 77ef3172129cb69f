import Mathlib.Data.List.Nodup
import Multipass.Executor.Step
import Multipass.Proofs.Executor.World
import Multipass.Proofs.Store.Change

/-!
# Transitions of an execution

What one step of a worker can do when the store is kept in memory, said once: one rule for each way
in which a pass goes on, with what the worker found in the store at that moment. Later proofs take
the cases of `Transition` and open neither the step nor the operations of the store.

Main statements: `Execution.transition_step`, which finds the rule behind each step, and
`Execution.Transition.change` for what it does to the store.
-/

namespace Multipass

/-- Holds of the phases in which a worker acts on what it found of its record before. -/
def Phase.relies : Phase → Bool
  | .recovering _ => true
  | .starting .. => true
  | .committing .. => true
  | _ => false

namespace Execution

variable {β : Type}

/-- What one step of a worker can do, from an execution and a world to those behind it. -/
inductive Transition (job : Job) (e : Execution) (w : World β) : WorkerState → World β → Prop where
  | finish :
    e.remaining = [] →
    Transition job e w (.finished { e.report with completed := e.current.completed }) w
  /-- The pass is left as it is. -/
  | leave {pass rest name outcome other} :
    e.remaining = pass :: rest →
    e.phase.relies = false →
    outcome.isCompleted = false →
    Transition job e w (.running (e.close name outcome)) { w with rest := other }
  | gather {pass rest d} :
    e.remaining = pass :: rest →
    e.phase = .deciding →
    Transition job e w (.running (e.enter (.gathering d))) w
  | prepare {pass rest d ctx} :
    e.remaining = pass :: rest →
    e.phase.relies = false →
    Transition job e w (.running (e.enter (.checking d ctx))) w
  /-- There is a result already. -/
  | find {pass rest d ctx} :
    e.remaining = pass :: rest →
    e.phase = .checking d ctx →
    (e.current.id, pass) ∈ w.store.keys →
    Transition job e w (.running (e.enter (.recovering d))) w
  /-- There is no result yet. -/
  | miss {pass rest d ctx} :
    e.remaining = pass :: rest →
    e.phase = .checking d ctx →
    (e.current.id, pass) ∉ w.store.keys →
    Transition job e w (.running (e.enter (.starting d ctx))) w
  /-- The backend is called. -/
  | call {pass rest d ctx since} :
    e.remaining = pass :: rest →
    e.phase = .starting d ctx →
    Transition job e w (.running (e.enter (.calling d ctx since))) w
  /-- The backend has replied with an output. -/
  | receive {pass rest d ctx since result other} :
    e.remaining = pass :: rest →
    e.phase = .calling d ctx since →
    result.pass = pass →
    Transition job e w (.running (e.enter (.committing d result))) { w with rest := other }
  | panic {pass rest d ctx since text other} :
    e.remaining = pass :: rest →
    e.phase = .calling d ctx since →
    Transition job e w (.panicked text) { w with rest := other }
  /-- The pass of a result that was there is completed. -/
  | recover {pass rest d stored now} :
    e.remaining = pass :: rest →
    e.phase = .recovering d →
    stored ∈ w.store.records →
    stored.id = e.current.id →
    pass ∉ stored.completed →
    Transition job e w (.running (e.completed job pass (stored.complete pass now)))
      { w with store := w.store.completed stored.id pass now }
  | recoverLate {pass rest d stored} :
    e.remaining = pass :: rest →
    e.phase = .recovering d →
    stored ∈ w.store.records →
    stored.id = e.current.id →
    pass ∈ stored.completed →
    Transition job e w (.running (e.close pass (.skipped .alreadyCompleted))) w
  | recoverGone {pass rest d error} :
    e.remaining = pass :: rest →
    e.phase = .recovering d →
    e.current.id ∉ w.store.ids →
    Transition job e w (.aborted error) w
  /-- A new result is kept and its pass is completed. -/
  | commit {pass rest d result stored now} :
    e.remaining = pass :: rest →
    e.phase = .committing d result →
    stored ∈ w.store.records →
    stored.id = e.current.id →
    result.pass ∉ stored.completed →
    Transition job e w (.running (e.completed job pass (stored.complete result.pass now)))
      { w with store := ((w.store.completed stored.id result.pass now).dropped stored.id
          result.pass).kept stored.id result }
  | commitLate {pass rest d result stored} :
    e.remaining = pass :: rest →
    e.phase = .committing d result →
    stored ∈ w.store.records →
    stored.id = e.current.id →
    result.pass ∈ stored.completed →
    Transition job e w (.running (e.close pass (.skipped .alreadyCompleted))) w
  | commitGone {pass rest d result error} :
    e.remaining = pass :: rest →
    e.phase = .committing d result →
    e.current.id ∉ w.store.ids →
    Transition job e w (.aborted error) w
  | score {pass rest scores} :
    e.remaining = pass :: rest →
    e.phase = .scoring →
    Transition job e w (.running (e.enter (.saving scores))) w
  | refuse {pass rest error} :
    e.remaining = pass :: rest →
    e.phase = .scoring →
    Transition job e w (.running (e.refuseScores error)) w
  | save {pass rest values scores} :
    e.remaining = pass :: rest →
    e.phase = .saving values →
    Transition job e w (.running e.next) { w with store := { w.store with scores } }

/-- The pass at the head of what remains is the only one. -/
lemma eq_of_head? {e : Execution} {pass name : String} {rest : List String}
    (hr : e.remaining = pass :: rest) (head : e.remaining.head? = some name) : pass = name := by
  rw [hr, List.head?_cons] at head
  exact Option.some.inj head

/-! ### The rule behind a step -/

lemma transition_close {job : Job} {e : Execution} {w : World β} {pass : String}
    {rest : List String} {outcome : PassOutcome} (hr : e.remaining = pass :: rest)
    (hp : e.phase.relies = false) (h : outcome.isCompleted = false) (name : String) :
    Transition job e w (.running (e.close name outcome)) w := by
  show Transition job e w _ { w with rest := w.rest }
  exact .leave hr hp h

lemma transition_prepared {job : Job} {e : Execution} {w : World β} {pass : String}
    {rest : List String} (hr : e.remaining = pass :: rest) (hp : e.phase.relies = false)
    (d : PassDefinition) (prior : List PassResult) :
    Transition job e w (.running (e.prepared job d prior)) w := by
  simp only [prepared]
  split
  · exact transition_close hr hp rfl _
  · exact .prepare hr hp

lemma transition_choose {o : Outfit β} {job : Job} {e : Execution} {w : World β} {pass : String}
    {rest : List String} (hr : e.remaining = pass :: rest) (hp : e.phase = .deciding) :
    Transition job e w (.running (e.choose o.environment job pass w)) w := by
  have quiet : e.phase.relies = false := by simp [hp, Phase.relies]
  simp only [choose]
  split
  · exact transition_close hr quiet rfl _
  · split
    · exact transition_close hr quiet rfl _
    · split
      · exact transition_close hr quiet rfl _
      · split
        · exact .gather hr hp
        · exact transition_prepared hr quiet _ _

lemma transition_recovering {o : Outfit β} {job : Job} {e : Execution} {w : World β}
    {pass : String} {rest : List String} {d : PassDefinition} (hr : e.remaining = pass :: rest)
    (hp : e.phase = .recovering d) :
    Transition job e w (e.step o.environment job w).1 (e.step o.environment job w).2 := by
  simp only [step, hr, stepPass, hp, Outfit.environment, World.operations, ArtifactStore.embed,
    ArtifactStore.within, MemoryStore.operations]
  obtain ⟨stored, mem, eq, free, h⟩ | ⟨stored, mem, eq, done, h⟩ | ⟨gone, h⟩ :=
    MemoryStore.advance_cases w.store e.current pass (Clock.seconds (o.clock w))
  · rw [h, ← eq]
    exact .recover hr hp mem eq free
  · rw [h]
    exact .recoverLate hr hp mem eq done
  · rw [h]
    exact .recoverGone hr hp gone

lemma transition_committing {o : Outfit β} {job : Job} {e : Execution} {w : World β}
    {pass : String} {rest : List String} {d : PassDefinition} {result : PassResult}
    (hr : e.remaining = pass :: rest) (hp : e.phase = .committing d result) :
    Transition job e w (e.step o.environment job w).1 (e.step o.environment job w).2 := by
  simp only [step, hr, stepPass, hp, Outfit.environment, World.operations, ArtifactStore.embed,
    ArtifactStore.within, MemoryStore.operations]
  obtain ⟨stored, mem, eq, free, h⟩ | ⟨stored, mem, eq, done, h⟩ | ⟨gone, h⟩ :=
    MemoryStore.commit_cases w.store e.current result (Clock.seconds (o.clock w))
  · rw [h, ← eq]
    exact .commit hr hp mem eq free
  · rw [h]
    exact .commitLate hr hp mem eq done
  · rw [h]
    exact .commitGone hr hp gone

lemma transition_calling {o : Outfit β} {job : Job} {e : Execution} {w : World β}
    {pass : String} {rest : List String} {d : PassDefinition} {ctx : InvocationContext}
    {since : Nat} (hr : e.remaining = pass :: rest) (hp : e.phase = .calling d ctx since) :
    Transition job e w (e.step o.environment job w).1 (e.step o.environment job w).2 := by
  simp only [step, hr, stepPass, hp]
  have quiet : e.phase.relies = false := by simp [hp, Phase.relies]
  split
  · exact transition_close hr quiet rfl _
  · next backend h =>
    obtain ⟨other, eq⟩ := Outfit.invoke_eq h d ctx w
    rw [eq]
    cases (backend.invoke d ctx w).1 with
    | output out => exact .receive hr hp rfl
    | error error => exact .leave hr quiet rfl
    | panic text => exact .panic hr hp

/-- Each step follows one of the rules. -/
theorem transition_step (o : Outfit β) (job : Job) (e : Execution) (w : World β) :
    Transition job e w (e.step o.environment job w).1 (e.step o.environment job w).2 := by
  cases hr : e.remaining with
  | nil =>
    simp only [step, hr]
    exact .finish hr
  | cons pass rest =>
    cases hp : e.phase with
    | deciding =>
      simp only [step, hr, stepPass, hp]
      exact transition_choose hr hp
    | gathering d =>
      simp only [step, hr, stepPass, hp]
      exact transition_prepared hr (by simp [hp, Phase.relies]) _ _
    | checking d ctx =>
      simp only [step, hr, stepPass, hp, Outfit.environment, World.operations, ArtifactStore.embed,
        MemoryStore.operations]
      cases h : w.store.latest? e.current.id pass with
      | some result => exact .find hr hp (MemoryStore.latest?_isSome.1 (by simp [h]))
      | none => exact .miss hr hp fun mem => by simpa [h] using MemoryStore.latest?_isSome.2 mem
    | recovering d => exact transition_recovering hr hp
    | starting d ctx =>
      simp only [step, hr, stepPass, hp]
      exact .call hr hp
    | calling d ctx since => exact transition_calling hr hp
    | committing d result => exact transition_committing hr hp
    | scoring =>
      simp only [step, hr, stepPass, hp]
      split
      · exact .score hr hp
      · exact .refuse hr hp
    | saving values =>
      simp only [step, hr, stepPass, hp]
      exact .save hr hp

/-! ### The change of the store -/

/-- Each rule makes one change of the store, by which at most the record of the worker gains a
pass. -/
theorem Transition.change {job : Job} {e : Execution} {w w' : World β} {state : WorkerState}
    (t : Transition job e w state w') :
    ∃ c, MemoryStore.Change w.store c w'.store ∧ ∀ k ∈ c, k.1 = e.current.id := by
  cases t with
  | recover _ _ mem eq free => exact ⟨_, .complete mem free, fun k h => by cases h; exact eq⟩
  | commit _ _ mem eq free => exact ⟨_, .commit mem free, fun k h => by cases h; exact eq⟩
  | save _ _ => exact ⟨none, .score, nofun⟩
  | _ => exact ⟨none, .same, nofun⟩

end Execution

end Multipass
