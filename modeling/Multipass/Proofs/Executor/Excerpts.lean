import Multipass.Proofs.Executor.Keeping
import Multipass.Proofs.Store.Addition

/-!
# What a pass is shown of earlier ones

A worker shows a pass that asks for earlier results everything that the store holds of its record,
read just before. A result that was kept without the completion of its pass is among them. The
worker itself keeps no result without completing its pass, so each result of a pass that is not
completed was there before the worker began.

Main statements: `keeps_informed` for the steps of a worker, and `calling_excerpts` for every
invocation of every run.
-/

namespace Multipass

open InvocationContext (excerpts)

namespace MemoryStore

/-- The results of a record whose passes it has completed, in the order they came. -/
def settled (s : MemoryStore) (id : RecordId) : List PassResult :=
  (s.resultsOf id).filter fun r => r.pass ∈ s.completedOf id

/-- The results of a record that were kept without the completion of their passes. -/
def unsettled (s : MemoryStore) (id : RecordId) : List PassResult :=
  (s.resultsOf id).filter fun r => r.pass ∉ s.completedOf id

variable {s : MemoryStore} {id : RecordId} {stored : Record}

lemma resultsOf_eq_settled_iff :
    s.resultsOf id = s.settled id ↔ s.unsettled id = [] := by
  rw [eq_comm, settled, unsettled, List.filter_eq_self, List.filter_eq_nil_iff]
  simp

lemma completedOf_completed (found : s.record? id = some stored) (pass : String) (now : Timestamp) :
    (s.completed id pass now).completedOf id = s.completedOf id ++ [pass] := by
  rw [completedOf, record?_completed, completedOf, found]
  rfl

lemma completedOf_committed (found : s.record? id = some stored) (result : PassResult)
    (now : Timestamp) :
    (s.committed id result now).completedOf id = s.completedOf id ++ [result.pass] :=
  completedOf_completed found result.pass now

lemma resultsOf_committed (s : MemoryStore) (id : RecordId) (result : PassResult)
    (now : Timestamp) :
    (s.committed id result now).resultsOf id =
      ((s.resultsOf id).filter fun r => r.pass ≠ result.pass) ++ [result] := by
  have own : ∀ entry : RecordId × PassResult,
      (entry.1 == id && !isResultOf id result.pass entry) =
        (decide (entry.2.pass ≠ result.pass) && (entry.1 == id)) := by
    intro entry
    rw [Bool.eq_iff_iff]
    simp only [isResultOf, Bool.and_eq_true, Bool.not_eq_true', Bool.and_eq_false_imp, beq_iff_eq,
      beq_eq_false_iff_ne, decide_eq_true_eq]
    exact ⟨fun h => ⟨h.2 h.1, h.1⟩, fun h => ⟨h.2, fun _ => h.1⟩⟩
  simp only [resultsOf, committed, kept, dropped, completed, modifyRecord, List.filter_append,
    List.filter_filter, List.map_append, List.filter_map, own]
  simp

lemma completedOf_rowsOf (s : MemoryStore) (id : RecordId) :
    (s.rowsOf id).completedOf id = s.completedOf id := by
  rw [completedOf, record?_rowsOf, completedOf]
  cases s.record? id <;> rfl

lemma unsettled_rowsOf (s : MemoryStore) (id : RecordId) :
    (s.rowsOf id).unsettled id = (s.unsettled id).map PassResult.timeless := by
  simp only [unsettled, resultsOf_rowsOf, completedOf_rowsOf, List.filter_map]
  rfl

end MemoryStore

/-- Holds of a phase in which earlier results that were asked for are shown as they are. -/
def Phase.Shows (prior : List PassResult) : Phase → Prop
  | .checking d ctx => d.requires = .previousResults → ctx.previous = some (excerpts prior)
  | .starting d ctx => d.requires = .previousResults → ctx.previous = some (excerpts prior)
  | .calling d ctx _ => d.requires = .previousResults → ctx.previous = some (excerpts prior)
  | _ => True

/-- Holds when the results whose passes are not completed are those that were there before. -/
def LeftOver (id : RecordId) (before : List PassResult) (s : MemoryStore) : Prop :=
  s.unsettled id = before.filter fun r => r.pass ∉ s.completedOf id

/-- What holds of a worker and the rows of its record, with the results that were there before. -/
def WorkerState.Informed (id : RecordId) (before : List PassResult) :
    WorkerState → MemoryStore → Prop
  | .running e, s => e.phase.Shows (s.resultsOf id) ∧ LeftOver id before s
  | _, s => LeftOver id before s

variable {id : RecordId} {before : List PassResult} {s s' : MemoryStore} {job : Job} {e : Execution}
  {stored : Record}

lemma leftOver_start (s : MemoryStore) (id : RecordId) : LeftOver id (s.resultsOf id) s := rfl

/-- A pass more that is completed is taken off both sides. -/
lemma LeftOver.gains (leftOver : LeftOver id before s) {pass : String}
    (completed : s'.completedOf id = s.completedOf id ++ [pass])
    (results : (s'.resultsOf id).filter (fun r => r.pass ≠ pass) =
      (s.resultsOf id).filter fun r => r.pass ≠ pass) : LeftOver id before s' := by
  have split : ∀ rs : List PassResult, (rs.filter fun r => r.pass ∉ s'.completedOf id) =
      (rs.filter fun r => r.pass ≠ pass).filter fun r => r.pass ∉ s.completedOf id := by
    intro rs
    rw [List.filter_filter]
    refine List.filter_congr fun r _ => ?_
    simp [completed]
  calc s'.unsettled id
    _ = ((s.resultsOf id).filter fun r => r.pass ≠ pass).filter
          fun r => r.pass ∉ s.completedOf id := by rw [MemoryStore.unsettled, split, results]
    _ = (s.unsettled id).filter fun r => r.pass ≠ pass := List.filter_comm _ _ _
    _ = (before.filter fun r => r.pass ∉ s.completedOf id).filter fun r => r.pass ≠ pass := by
          rw [leftOver]
    _ = before.filter fun r => r.pass ∉ s'.completedOf id := by rw [List.filter_comm, ← split]

lemma LeftOver.completed (leftOver : LeftOver id before s) (found : s.record? id = some stored)
    (pass : String) (now : Timestamp) : LeftOver id before (s.completed id pass now) :=
  leftOver.gains (MemoryStore.completedOf_completed found pass now) rfl

lemma LeftOver.committed (leftOver : LeftOver id before s) (found : s.record? id = some stored)
    (result : PassResult) (now : Timestamp) : LeftOver id before (s.committed id result now) := by
  refine leftOver.gains (MemoryStore.completedOf_committed found result now) ?_
  rw [MemoryStore.resultsOf_committed, List.filter_append, List.filter_filter]
  simp

namespace WorkerState.Informed

lemma close {pass : String} {outcome : PassOutcome} (leftOver : LeftOver id before s) :
    Informed id before (.running (e.close pass outcome)) s :=
  ⟨trivial, leftOver⟩

lemma completed {pass : String} {updated : Record} (leftOver : LeftOver id before s) :
    Informed id before (.running (e.completed job pass updated)) s := by
  refine ⟨?_, leftOver⟩
  simp only [Execution.completed]
  split <;> exact trivial

/-- A pass that asks for earlier results is shown the ones that were read. -/
lemma prepared {d : PassDefinition} {prior : List PassResult} (leftOver : LeftOver id before s)
    (all : d.requires = .previousResults → prior = s.resultsOf id) :
    Informed id before (.running (e.prepared job d prior)) s := by
  simp only [Execution.prepared]
  split
  · exact close leftOver
  · refine ⟨fun asks => ?_, leftOver⟩
    rw [← all asks, asks]
    rfl

/-- What a worker shows stays what is stored until it writes, by any rule. -/
theorem step {given : PassDefinition → InvocationContext → Reply → Prop} {stop : Bool}
    {state : WorkerState} (own : e.current.id = id) (informed : Informed id before (.running e) s)
    (rule : Execution.Rule given stop job e s state s') : Informed id before state s' := by
  subst own
  obtain ⟨shows', leftOver⟩ := informed
  cases rule with
  | finish _ => exact leftOver
  | cancel _ _ _ => exact close leftOver
  | reject _ _ _ _ => exact close leftOver
  | skip _ _ _ _ _ => exact close leftOver
  | gather _ _ _ _ _ _ => exact ⟨trivial, leftOver⟩
  | prepare _ _ _ _ _ silent => exact prepared leftOver fun asks => absurd asks silent
  | read _ _ => exact prepared leftOver fun _ => rfl
  | find _ _ _ => exact ⟨trivial, leftOver⟩
  | miss _ hp _ =>
    rw [hp] at shows'
    exact ⟨shows', leftOver⟩
  | call _ hp =>
    rw [hp] at shows'
    exact ⟨shows', leftOver⟩
  | abandon _ _ _ => exact close leftOver
  | receive _ _ _ => exact ⟨trivial, leftOver⟩
  | fail _ _ _ => exact close leftOver
  | panic _ _ _ => exact leftOver
  | recover _ _ found _ => exact completed (leftOver.completed found _ 0)
  | recoverLate _ _ _ _ => exact close leftOver
  | recoverGone _ _ _ => exact leftOver
  | commit _ _ found _ => exact completed (leftOver.committed found _ 0)
  | commitLate _ _ _ _ => exact close leftOver
  | commitGone _ _ _ => exact leftOver
  | score _ _ _ => exact ⟨trivial, leftOver⟩
  | refuse _ _ _ => exact ⟨trivial, leftOver⟩
  | save _ _ => exact ⟨trivial, leftOver⟩

end WorkerState.Informed

/-- A worker shows what is stored, whatever its backends do and whether or not it is asked to
stop. -/
theorem keeps_informed {β : Type} (o : Outfit β) (job : Job) (id : RecordId)
    (before : List PassResult) : Keeps o job id (WorkerState.Informed id before) := by
  have answers : o.Answers fun _ _ _ => True := fun _ _ _ _ _ => trivial
  exact keeps_of_all_rules answers fun _ _ _ _ _ own informed rule => informed.step own rule

section

variable {β : Type} {o : Outfit β} {w' : World β} {d : PassDefinition} {ctx : InvocationContext}
  {since : Nat}

/-- Whenever a backend is called for a pass that asks for earlier results, in a run that starts from
any store with any snapshot of a record, and with nobody else at work on the record: the pass is
shown all results of the record as they are at that moment, those of all its completed passes among
them. The others that it is shown are those that were kept before the run and whose passes are still
not completed. So it is shown exactly the results of completed passes if and only if the passes of
all results from before the run are completed by then. -/
theorem calling_excerpts (history : List (Timestamp × Request Record RecordId)) (o : Outfit β)
    (job : Job) (snapshot : Record) (order : List String) (claimed : List RecordId) (rest : β)
    (moments : List β) :
    let s := Request.performAll MemoryStore.operations history {}
    (WorkerState.running (.start snapshot order)).follow o job { store := s, claimed, rest } moments =
      (.running e, w') →
    e.phase = .calling d ctx since → d.requires = .previousResults →
    ctx.previous = some (excerpts (w'.store.resultsOf snapshot.id)) ∧
      (w'.store.unsettled snapshot.id).map PassResult.timeless =
        ((s.resultsOf snapshot.id).filter fun r =>
          r.pass ∉ w'.store.completedOf snapshot.id).map PassResult.timeless ∧
      (w'.store.resultsOf snapshot.id = w'.store.settled snapshot.id ↔
        ∀ r ∈ s.resultsOf snapshot.id, r.pass ∈ w'.store.completedOf snapshot.id) := by
  intro s reached calling asks
  let w : World β := { store := s, claimed, rest }
  obtain ⟨wf, -⟩ := MemoryStore.performAll_wellFormed MemoryStore.wellFormed_empty history
  have begun : Upheld snapshot.id
      (WorkerState.Informed snapshot.id ((s.rowsOf snapshot.id).resultsOf snapshot.id))
      (.running (.start snapshot order)) w := {
    wellFormed := wf
    ordered := MemoryStore.performAll_scoresOrdered MemoryStore.scoresOrdered_empty history
    own := by
      rintro _ ⟨⟩
      rfl
    holds := ⟨trivial, leftOver_start _ _⟩ }
  have upheld := begun.follow (keeps_informed o job snapshot.id _) moments
  rw [reached] at upheld
  obtain ⟨shows', leftOver⟩ := upheld.holds
  have shown : ctx.previous = some (excerpts ((w'.store.rowsOf snapshot.id).resultsOf snapshot.id)) := by
    rw [Execution.phase_plain, calling] at shows'
    exact shows' asks
  have untimed : ∀ rs : List PassResult, excerpts (rs.map PassResult.timeless) = excerpts rs := by
    intro rs
    simp only [excerpts, List.map_map]
    rfl
  have left : (w'.store.unsettled snapshot.id).map PassResult.timeless =
      ((s.resultsOf snapshot.id).filter fun r =>
        r.pass ∉ w'.store.completedOf snapshot.id).map PassResult.timeless := by
    rw [LeftOver, MemoryStore.unsettled_rowsOf, MemoryStore.resultsOf_rowsOf,
      MemoryStore.completedOf_rowsOf, List.filter_map] at leftOver
    exact leftOver
  refine ⟨?_, left, ?_⟩
  · rw [shown, MemoryStore.resultsOf_rowsOf, untimed]
  · rw [MemoryStore.resultsOf_eq_settled_iff, ← List.map_eq_nil_iff, left, List.map_eq_nil_iff,
      List.filter_eq_nil_iff]
    simp

/-- Of three results that were there before the run one was completed then, one is completed on the
way, and one has still to wait for its pass when the pass in between is shown all three. -/
theorem calling_excerpts_of_three :
    let tool (pass : String) (requires : Requires) : PassDefinition :=
      ⟨pass, 0, .staticTool ⟨pass, [], .text, 1000, [0]⟩, requires, none⟩
    let summary := tool "summary" .previousResults
    let job : Job := ⟨⟨[tool "lint" .raw, tool "style" .raw, summary, tool "notes" .raw], none, []⟩,
      "", "run", false⟩
    let new : NewRecord := ⟨"a", none, "", "", .null⟩
    let snapshot := Record.ofNew 1 new 0
    let text (pass : String) : PassResult := ⟨pass, "", .text "kept", none, 0, 0⟩
    let history : List (Timestamp × Request Record RecordId) :=
      [(0, .upsert new), (0, .commit snapshot (text "lint")), (0, .recordResult snapshot (text "style")),
        (0, .recordResult snapshot (text "notes"))]
    let w : World Unit := { store := Request.performAll MemoryStore.operations history {}, rest := () }
    let works := Outfit.constant (.output ⟨"", .text "fine", none⟩)
    ∃ e w' ctx since,
      (WorkerState.running (.start snapshot job.registry.order)).follow works job w
        (List.replicate 10 ()) = (.running e, w') ∧
      e.phase = .calling summary ctx since ∧ summary.requires = .previousResults ∧
      ctx.previous = some (excerpts (w'.store.resultsOf 1)) ∧
      (w'.store.resultsOf 1).map PassResult.pass = ["lint", "style", "notes"] ∧
      (w'.store.unsettled 1).map PassResult.timeless = [text "notes"] := by
  intro tool summary job new snapshot text history w works
  let ended := (WorkerState.running (.start snapshot job.registry.order)).follow works job w
    (List.replicate 10 ())
  obtain ⟨e, ctx, since, running, calling⟩ : ∃ e ctx since,
      ended.1 = .running e ∧ e.phase = .calling summary ctx since := ⟨_, _, _, rfl, rfl⟩
  have reached : ended = (.running e, ended.2) := Prod.ext running rfl
  have completed : ended.2.store.completedOf snapshot.id = ["lint", "style"] := by decide +kernel
  have before : (Request.performAll MemoryStore.operations history {}).resultsOf snapshot.id =
      [text "lint", text "style", text "notes"] := rfl
  obtain ⟨shown, left, -⟩ :=
    calling_excerpts history works job snapshot job.registry.order [] () _ reached calling rfl
  refine ⟨e, ended.2, ctx, since, reached, calling, rfl, shown, by decide +kernel, ?_⟩
  rw [before, completed] at left
  exact left

/-- A result of the second pass was kept without the completion of the pass. The first pass is shown
it, although nothing is completed. -/
theorem calling_unsettled :
    let summary : PassConfig :=
      { backend := .ai, prompt := some "Sum up", requires := .previousResults }
    let doc : PassConfig := { backend := .ai, prompt := some "Doc it" }
    let cfg : Config :=
      { db := ⟨""⟩, pipeline := { order := ["summary", "doc"] }
        passes := [("summary", summary), ("doc", doc)] }
    let new : NewRecord := ⟨"a", none, "", "", .null⟩
    let snapshot := Record.ofNew 1 new 0
    let history : List (Timestamp × Request Record RecordId) :=
      [(0, .upsert new), (0, .recordResult snapshot ⟨"doc", "prompt", .text "kept", none, 0, 0⟩)]
    let w : World Unit := { store := Request.performAll MemoryStore.operations history {}, rest := () }
    let works := Outfit.constant (.output ⟨"", .text "fine", none⟩)
    ∃ registry e w' d ctx since, PassRegistry.ofConfig cfg = .ok registry ∧
      (WorkerState.running (.start snapshot registry.order)).follow works ⟨registry, "", "run", false⟩
        w (List.replicate 4 ()) = (.running e, w') ∧
      e.phase = .calling d ctx since ∧ d.requires = .previousResults ∧
      ctx.previous = some "### doc\nkept" ∧ w'.store.completedOf snapshot.id = [] ∧
      ¬∀ r ∈ w'.store.resultsOf snapshot.id, r.pass ∈ w'.store.completedOf snapshot.id := by
  intro summary doc cfg new snapshot history w works
  refine ⟨_, _, _, _, _, _, rfl, rfl, rfl, rfl, ?_, rfl, ?_⟩
  · decide +kernel
  · decide +kernel

end

end Multipass
