import Multipass.Proofs.Executor.Exclusive
import Multipass.Proofs.Executor.Steady

/-!
# Workers that are asked to stop

A worker looks at the flag before each pass. Once it is set, the pass at hand is finished, and all
that follow are reported as cancelled and left alone.

Main statements: `orderly_step`, by which what is cancelled stands last in a report, and
`checked_step`, by which a worker that is asked to stop comes to no further call.
-/

namespace Multipass

/-- Holds of the phases between the check of the flag and the call of the backend. -/
def Phase.isChecked : Phase → Bool
  | .gathering _ => true
  | .checking .. => true
  | .starting .. => true
  | _ => false

@[simp] lemma Phase.isChecked_plain (phase : Phase) : phase.plain.isChecked = phase.isChecked := by
  cases phase <;> rfl

/-- Holds of outcomes of which the last ones are cancelled and no others. -/
def CutOff (outcomes : List PassReport) : Prop :=
  ∃ pre post, outcomes = pre ++ post ∧ (∀ o ∈ pre, o.outcome ≠ .skipped .cancelled) ∧
    ∀ o ∈ post, o.outcome = .skipped .cancelled

lemma cutOff_of_none {outcomes : List PassReport}
    (none : ∀ o ∈ outcomes, o.outcome ≠ .skipped .cancelled) : CutOff outcomes :=
  ⟨outcomes, [], (List.append_nil _).symm, none, nofun⟩

lemma CutOff.cancel {outcomes : List PassReport} (cut : CutOff outcomes) (pass : String) :
    CutOff (outcomes ++ [⟨pass, .skipped .cancelled⟩]) := by
  obtain ⟨pre, post, rfl, done, left⟩ := cut
  refine ⟨pre, post ++ [⟨pass, .skipped .cancelled⟩], List.append_assoc .., done, ?_⟩
  intro o mem
  obtain mem | mem := List.mem_append.1 mem
  · exact left o mem
  · rw [List.mem_singleton.1 mem]

namespace Execution

/-- What holds of a worker that may be asked to stop: earlier results are read for the pass at hand,
no pass is named twice, and nothing is cancelled yet, or the worker only cancels. -/
structure Orderly (stop : Bool) (e : Execution) : Prop where
  gathering : ∀ d, e.phase = .gathering d → e.remaining.head? = some d.name
  names : (e.report.outcomes.map PassReport.pass ++ e.ahead).Nodup
  cut : (∀ o ∈ e.report.outcomes, o.outcome ≠ .skipped .cancelled) ∨
    stop = true ∧ e.phase = .deciding ∧ CutOff e.report.outcomes

end Execution

/-- What holds of a worker in any state that may be asked to stop. -/
def WorkerState.Orderly (stop : Bool) : WorkerState → Prop
  | .running e => e.Orderly stop
  | .finished run => (run.outcomes.map PassReport.pass).Nodup ∧ CutOff run.outcomes
  | _ => True

/-- The flag may be set at any time. -/
lemma WorkerState.Orderly.asked {state : WorkerState} (orderly : state.Orderly false) (stop : Bool) :
    state.Orderly stop := by
  cases state with
  | running e =>
    refine { orderly with cut := .inl ?_ }
    obtain none | ⟨asked, -⟩ := Execution.Orderly.cut orderly
    · exact none
    · cases asked
  | finished run => exact orderly
  | _ => trivial

namespace Execution

variable {given : PassDefinition → InvocationContext → Reply → Prop} {stop : Bool} {job : Job}
  {e : Execution} {s s' : MemoryStore} {state : WorkerState} {pass : String} {rest : List String}

lemma orderly_start {r : Record} {order : List String} (nodup : order.Nodup) :
    (start r order).Orderly stop where
  gathering := fun _ eq => Phase.noConfusion eq
  names := nodup.sublist List.filter_sublist
  cut := .inl nofun

lemma Orderly.cutOff (orderly : e.Orderly stop) : CutOff e.report.outcomes := by
  obtain none | ⟨-, -, cut⟩ := orderly.cut
  · exact cutOff_of_none none
  · exact cut

/-- Nothing is cancelled yet if the worker is within a pass, or not asked to stop. -/
lemma Orderly.none_cancelled (orderly : e.Orderly stop) (open' : e.phase ≠ .deciding ∨ stop = false) :
    ∀ o ∈ e.report.outcomes, o.outcome ≠ .skipped .cancelled := by
  obtain none | ⟨asked, deciding, -⟩ := orderly.cut
  · exact none
  · obtain within | unasked := open'
    · exact absurd deciding within
    · rw [asked] at unasked
      cases unasked

/-- The pass that is reported is no longer ahead. -/
lemma names_push {e' : Execution} {outcome : PassOutcome} (orderly : e.Orderly stop)
    (cons : e.ahead = pass :: rest) (ahead : e'.ahead = rest)
    (outcomes : e'.report.outcomes = e.report.outcomes ++ [⟨pass, outcome⟩]) :
    (e'.report.outcomes.map PassReport.pass ++ e'.ahead).Nodup := by
  have names := orderly.names
  rw [cons] at names
  rw [outcomes, ahead, List.map_append, List.append_assoc]
  exact names

lemma orderly_enter {phase : Phase} (orderly : e.Orderly stop)
    (open' : e.phase ≠ .deciding ∨ stop = false)
    (same : (e.enter phase).ahead = e.ahead)
    (gathering : ∀ d, phase = .gathering d → e.remaining.head? = some d.name) :
    (e.enter phase).Orderly stop where
  gathering := gathering
  names := same ▸ orderly.names
  cut := .inl (orderly.none_cancelled open')

lemma orderly_close {outcome : PassOutcome} (orderly : e.Orderly stop)
    (hr : e.remaining = pass :: rest) (whole : e.ahead = e.remaining)
    (open' : e.phase ≠ .deciding ∨ stop = false) (kept : outcome ≠ .skipped .cancelled) :
    (e.close pass outcome).Orderly stop where
  gathering := fun _ eq => Phase.noConfusion eq
  names := names_push orderly (whole.trans hr) (ahead_close hr pass outcome) rfl
  cut := by
    refine .inl fun o mem => ?_
    obtain mem | mem := List.mem_append.1 mem
    · exact orderly.none_cancelled open' o mem
    · rw [List.mem_singleton.1 mem]
      exact kept

lemma orderly_cancel (orderly : e.Orderly stop) (hr : e.remaining = pass :: rest)
    (whole : e.ahead = e.remaining) (asked : stop = true) :
    (e.close pass (.skipped .cancelled)).Orderly stop where
  gathering := fun _ eq => Phase.noConfusion eq
  names := names_push orderly (whole.trans hr) (ahead_close hr pass _) rfl
  cut := .inr ⟨asked, rfl, orderly.cutOff.cancel pass⟩

lemma orderly_completed (orderly : e.Orderly stop) (hr : e.remaining = pass :: rest)
    (whole : e.ahead = e.remaining) (within : e.phase ≠ .deciding) (updated : Record) :
    (e.completed job pass updated).Orderly stop where
  gathering := by
    intro d eq
    simp only [completed] at eq
    split at eq <;> cases eq
  names := by
    have outcomes : (e.completed job pass updated).report.outcomes =
        e.report.outcomes ++ [⟨pass, .completed⟩] := by
      rw [report_completed]
      rfl
    exact names_push orderly (whole.trans hr) (ahead_completed hr job updated) outcomes
  cut := by
    rw [report_completed]
    refine .inl fun o mem => ?_
    obtain mem | mem := List.mem_append.1 mem
    · exact orderly.none_cancelled (.inl within) o mem
    · rw [List.mem_singleton.1 mem]
      exact fun eq => PassOutcome.noConfusion eq

lemma orderly_next (orderly : e.Orderly stop) (half : e.ahead = e.remaining.tail)
    (within : e.phase ≠ .deciding) (report : RecordRun) (same : report.outcomes = e.report.outcomes) :
    ({ e with report } : Execution).next.Orderly stop where
  gathering := fun _ eq => Phase.noConfusion eq
  names := by
    show (report.outcomes.map _ ++ e.remaining.tail).Nodup
    rw [same, ← half]
    exact orderly.names
  cut := by
    show (∀ o ∈ report.outcomes, _) ∨ _
    rw [same]
    exact .inl (orderly.none_cancelled (.inl within))

lemma orderly_prepared (orderly : e.Orderly stop) (hr : e.remaining = pass :: rest)
    (whole : e.ahead = e.remaining) (open' : e.phase ≠ .deciding ∨ stop = false)
    {d : PassDefinition} (name : d.name = pass) (prior : List PassResult) :
    (e.prepared job d prior).Orderly stop := by
  simp only [prepared]
  split
  · rw [name]
    exact orderly_close orderly hr whole open' (by decide)
  · exact orderly_enter orderly open' whole.symm fun _ eq => Phase.noConfusion eq

/-- Whatever it finds, a worker stays in order. -/
theorem orderly_step (orderly : e.Orderly stop) (rule : Rule given stop job e s state s') :
    state.Orderly stop := by
  have whole {phase : Phase} (hp : e.phase = phase) (early : phase.isScoring = false) :
      e.ahead = e.remaining := ahead_eq_remaining hp early
  have within {phase : Phase} (hp : e.phase = phase) (ne : phase ≠ .deciding) :
      e.phase ≠ .deciding := hp ▸ ne
  cases rule with
  | finish hr =>
    have names := orderly.names
    rw [ahead_eq_nil hr, List.append_nil] at names
    exact ⟨names, orderly.cutOff⟩
  | cancel hr hp asked => exact orderly_cancel orderly hr (whole hp rfl) asked
  | reject hr hp unasked _ => exact orderly_close orderly hr (whole hp rfl) (.inr unasked) nofun
  | skip hr hp unasked _ _ => exact orderly_close orderly hr (whole hp rfl) (.inr unasked) nofun
  | gather hr hp unasked definition _ _ =>
    refine orderly_enter orderly (.inr unasked) (whole hp rfl).symm ?_
    rintro d ⟨⟩
    rw [hr, List.head?_cons, (PassRegistry.mem_of_definition definition).2]
  | prepare hr hp unasked definition _ _ =>
    have name := (PassRegistry.mem_of_definition definition).2
    exact orderly_prepared orderly hr (whole hp rfl) (.inr unasked) name _
  | @read pass rest d hr hp =>
    have head := orderly.gathering d hp
    rw [hr, List.head?_cons] at head
    exact orderly_prepared orderly hr (whole hp rfl) (.inl (within hp nofun))
      (Option.some.inj head).symm _
  | find hr hp _ =>
    exact orderly_enter orderly (.inl (within hp nofun)) (whole hp rfl).symm
      fun _ eq => Phase.noConfusion eq
  | miss hr hp _ =>
    exact orderly_enter orderly (.inl (within hp nofun)) (whole hp rfl).symm
      fun _ eq => Phase.noConfusion eq
  | call hr hp =>
    exact orderly_enter orderly (.inl (within hp nofun)) (whole hp rfl).symm
      fun _ eq => Phase.noConfusion eq
  | receive hr hp _ =>
    exact orderly_enter orderly (.inl (within hp nofun)) (whole hp rfl).symm
      fun _ eq => Phase.noConfusion eq
  | abandon hr hp _ =>
    exact orderly_close orderly hr (whole hp rfl) (.inl (within hp nofun)) nofun
  | fail hr hp _ => exact orderly_close orderly hr (whole hp rfl) (.inl (within hp nofun)) nofun
  | recover hr hp _ _ => exact orderly_completed orderly hr (whole hp rfl) (within hp nofun) _
  | commit hr hp _ _ => exact orderly_completed orderly hr (whole hp rfl) (within hp nofun) _
  | recoverLate hr hp _ _ =>
    exact orderly_close orderly hr (whole hp rfl) (.inl (within hp nofun)) nofun
  | commitLate hr hp _ _ =>
    exact orderly_close orderly hr (whole hp rfl) (.inl (within hp nofun)) nofun
  | score hr hp _ =>
    refine orderly_enter orderly (.inl (within hp nofun)) ?_ fun _ eq => Phase.noConfusion eq
    exact (ahead_eq_tail rfl rfl).trans (ahead_eq_tail hp rfl).symm
  | @refuse pass rest error hr hp _ =>
    let report := { e.report with scoreError := some error.message }
    exact orderly_next orderly (ahead_eq_tail hp rfl) (within hp nofun) report rfl
  | save hr hp => exact orderly_next orderly (ahead_eq_tail hp rfl) (within hp nofun) e.report rfl
  | panic _ _ _ => trivial
  | recoverGone _ _ _ => trivial
  | commitGone _ _ _ => trivial

/-! ### Calls -/

lemma starts_plain (e : Execution) : e.plain.starts = e.starts := by
  simp only [starts, phase_plain, remaining_plain, id_plain]
  cases e.phase with
  | starting d ctx => cases e.remaining <;> rfl
  | _ => rfl

lemma starts_eq_nil (idle : ∀ d ctx, e.phase ≠ .starting d ctx) : e.starts = [] := by
  simp only [starts]
  split
  · next d ctx pass rest hp hr => exact absurd hp (idle d ctx)
  · rfl

/-- A worker that starts an invocation has checked the flag, and the invocation is of the pass at
hand. -/
lemma of_starts {k : RecordId × String} (mem : k ∈ e.starts) :
    e.phase.isChecked = true ∧ e.remaining.head? = some k.2 ∧ e.current.id = k.1 := by
  simp only [starts] at mem
  split at mem
  · next d ctx pass rest hp hr =>
    rw [List.mem_singleton.1 mem, hr, hp]
    exact ⟨rfl, rfl, rfl⟩
  · cases mem

lemma starts_length_le (e : Execution) : e.starts.length ≤ 1 := by
  simp only [starts]
  split
  · exact Nat.le_refl 1
  · exact Nat.zero_le 1

/-- A worker that is asked to stop stands between check and call only if it did so before, in the same
pass, and did not start the call yet. -/
theorem checked_step {e' : Execution} (rule : Rule given true job e s (.running e') s')
    (checked : e'.phase.isChecked = true) :
    e.phase.isChecked = true ∧ e.starts = [] ∧ e'.remaining = e.remaining ∧
      e'.current.id = e.current.id := by
  cases rule with
  | gather _ _ unasked _ _ _ => cases unasked
  | prepare _ _ unasked _ _ _ => cases unasked
  | @read pass rest d hr hp =>
    have idle : e.starts = [] := starts_eq_nil fun _ _ eq => Phase.noConfusion (hp.symm.trans eq)
    refine ⟨by rw [hp]; rfl, idle, ?_⟩
    simp only [prepared] at checked ⊢
    split at checked
    · cases checked
    · next real =>
      rw [if_neg real]
      exact ⟨rfl, rfl⟩
  | miss hr hp _ =>
    have idle : e.starts = [] := starts_eq_nil fun _ _ eq => Phase.noConfusion (hp.symm.trans eq)
    exact ⟨by rw [hp]; rfl, idle, rfl, rfl⟩
  | recover _ _ _ _ =>
    simp only [completed] at checked
    split at checked <;> cases checked
  | commit _ _ _ _ =>
    simp only [completed] at checked
    split at checked <;> cases checked
  | _ => cases checked

end Execution

end Multipass
