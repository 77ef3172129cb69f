import Mathlib.Data.List.Nodup
import Multipass.Batch.Report
import Multipass.Proofs.Pointwise

/-!
# Reports up to names

Two reports are alike if they differ in nothing but the names of the runs and the numbers of the
workers that broke down. A report counts the records that it lists, so reports are alike once their
records are; and records in the order of their paths do not show in which order they were done.

Main statements: `Report.alike_of_records` and `mergeSort_eq_of_perm`.
-/

namespace Multipass

/-- The words for a worker that broke down. -/
def breakdown (number : Nat) (text : String) : String :=
  let shown := Text.showQuoted text
  s!"worker panicked: task {number} panicked with message {shown}"

/-- Holds of summaries that differ only in the number of a worker that broke down. -/
structure RecordSummary.Alike (a b : RecordSummary) : Prop where
  path : a.path = b.path
  status : a.status = b.status
  outcomes : a.outcomes = b.outcomes
  completed : a.completed = b.completed
  scoreError : a.scoreError = b.scoreError
  error : a.error = b.error ∨
    ∃ text m n, a.error = some (breakdown m text) ∧ b.error = some (breakdown n text)

namespace Report

/-- The number of records that came out in a way. -/
def number (r : Report) : RecordStatus → Nat
  | .completed => r.fullyCompleted
  | .partly => r.partlyCompleted
  | .noProgress => r.noProgress
  | .errored => r.errored
  | .busy => r.busy

/-- Holds of reports that differ only in the name of the run and the numbers of workers. -/
structure Alike (a b : Report) : Prop where
  dryRun : a.dryRun = b.dryRun
  cancelled : a.cancelled = b.cancelled
  pending : a.pending = b.pending
  number : ∀ status, a.number status = b.number status
  records : List.Forall₂ RecordSummary.Alike a.records b.records

/-! ### Counting -/

/-- Holds of a report that counts the records that it lists. -/
def Counted (r : Report) : Prop :=
  ∀ status, r.number status = (r.records.map RecordSummary.status).count status

@[simp] lemma records_push (r : Report) (s : RecordSummary) :
    (r.push s).records = r.records ++ [s] := by
  simp only [push]
  cases s.status <;> rfl

@[simp] lemma dryRun_push (r : Report) (s : RecordSummary) : (r.push s).dryRun = r.dryRun := by
  simp only [push]
  cases s.status <;> rfl

@[simp] lemma cancelled_push (r : Report) (s : RecordSummary) :
    (r.push s).cancelled = r.cancelled := by
  simp only [push]
  cases s.status <;> rfl

@[simp] lemma pending_push (r : Report) (s : RecordSummary) : (r.push s).pending = r.pending := by
  simp only [push]
  cases s.status <;> rfl

lemma number_push (r : Report) (s : RecordSummary) (status : RecordStatus) :
    (r.push s).number status = r.number status + if s.status = status then 1 else 0 := by
  simp only [push]
  cases s.status <;> cases status <;> rfl

lemma Counted.push {r : Report} (counted : r.Counted) (s : RecordSummary) : (r.push s).Counted := by
  intro status
  rw [number_push, counted, records_push, List.map_append, List.count_append]
  simp [List.count_singleton]

lemma total_count (statuses : List RecordStatus) :
    statuses.count .completed + statuses.count .partly + statuses.count .noProgress +
      statuses.count .errored + statuses.count .busy = statuses.length := by
  induction statuses with
  | nil => rfl
  | cons status statuses ih =>
    cases status <;> simp only [List.count_cons, List.length_cons, beq_iff_eq, reduceCtorEq, if_true,
      if_false] <;> omega

/-- The numbers of a report that counts its records add up to all of them. -/
lemma Counted.total {r : Report} (counted : r.Counted) :
    r.fullyCompleted + r.partlyCompleted + r.noProgress + r.errored + r.busy = r.records.length := by
  rw [← List.length_map (f := RecordSummary.status), ← total_count, ← counted, ← counted, ← counted,
    ← counted, ← counted]
  rfl

lemma Counted.foldl {r : Report} (counted : r.Counted) (summaries : List RecordSummary) :
    (summaries.foldl Report.push r).Counted := by
  induction summaries generalizing r with
  | nil => exact counted
  | cons s summaries ih => exact ih (counted.push s)

lemma records_foldl (r : Report) (summaries : List RecordSummary) :
    (summaries.foldl Report.push r).records = r.records ++ summaries := by
  induction summaries generalizing r with
  | nil => exact (List.append_nil _).symm
  | cons s summaries ih => rw [List.foldl_cons, ih, records_push, List.append_assoc]; rfl

/-- What is pushed changes neither the kind of the run nor the number of selected records. -/
lemma foldl_push_fields (r : Report) (summaries : List RecordSummary) :
    let r' := summaries.foldl Report.push r
    r'.dryRun = r.dryRun ∧ r'.cancelled = r.cancelled ∧ r'.pending = r.pending := by
  induction summaries generalizing r with
  | nil => exact ⟨rfl, rfl, rfl⟩
  | cons s summaries ih =>
    obtain ⟨dry, cancelled, pending⟩ := ih (r.push s)
    exact ⟨dry.trans (dryRun_push r s), cancelled.trans (cancelled_push r s),
      pending.trans (pending_push r s)⟩

lemma Counted.sorted {r : Report} (counted : r.Counted) : r.sorted.Counted := by
  intro status
  have perm : (r.sorted.records.map RecordSummary.status).Perm (r.records.map RecordSummary.status) :=
    (List.mergeSort_perm _ _).map _
  rw [perm.count_eq]
  exact counted status

/-- Reports that count their records are alike once their records are. -/
theorem alike_of_records {a b : Report} (countedA : a.Counted) (countedB : b.Counted)
    (dryRun : a.dryRun = b.dryRun) (cancelled : a.cancelled = b.cancelled)
    (pending : a.pending = b.pending)
    (records : List.Forall₂ RecordSummary.Alike a.records b.records) : a.Alike b where
  dryRun := dryRun
  cancelled := cancelled
  pending := pending
  number := by
    intro status
    have same : a.records.map RecordSummary.status = b.records.map RecordSummary.status := by
      rw [← List.forall₂_eq_eq_eq, List.forall₂_map_left_iff, List.forall₂_map_right_iff]
      exact records.imp fun _ _ alike => alike.status
    rw [countedA, countedB, same]
  records := records

end Report

/-! ### In the order of paths -/

/-- The order of what has a path. -/
def byPath {α : Type} (path : α → String) (a b : α) : Bool :=
  !(path b < path a)

section

variable {α : Type} {path : α → String}

lemma byPath_iff {a b : α} : byPath path a b = true ↔ path a ≤ path b := by
  rw [byPath, Bool.not_eq_true', decide_eq_false_iff_not, String.not_lt]

lemma pairwise_byPath (xs : List α) :
    (xs.mergeSort (byPath path)).Pairwise fun a b => byPath path a b = true := by
  refine List.pairwise_mergeSort (fun a b c ab bc => ?_) (fun a b => ?_) xs
  · rw [byPath_iff] at *
    exact String.le_trans ab bc
  · rw [Bool.or_eq_true, byPath_iff, byPath_iff]
    exact String.le_total _ _

/-- In the order of their paths, all lists of the same items are the same. -/
theorem mergeSort_eq_of_perm {xs ys : List α} (perm : xs.Perm ys) (nodup : (xs.map path).Nodup) :
    xs.mergeSort (byPath path) = ys.mergeSort (byPath path) := by
  have perm' : (xs.mergeSort (byPath path)).Perm (ys.mergeSort (byPath path)) :=
    (List.mergeSort_perm ..).trans (perm.trans (List.mergeSort_perm ..).symm)
  refine perm'.eq_of_pairwise (fun a b memA memB le ge => ?_) (pairwise_byPath xs)
    (pairwise_byPath ys)
  rw [byPath_iff] at le ge
  refine List.inj_on_of_nodup_map nodup ?_ ?_ (String.le_antisymm le ge)
  · exact (List.mergeSort_perm ..).mem_iff.1 memA
  · exact perm.mem_iff.2 ((List.mergeSort_perm ..).mem_iff.1 memB)

end

end Multipass
