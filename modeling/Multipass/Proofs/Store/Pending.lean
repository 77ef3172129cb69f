import Mathlib.Data.List.Perm.Subperm
import Multipass.Proofs.Registry
import Multipass.Store.Memory

/-!
# Pending records

Two checks tell whether a record still needs work: one compares numbers of passes, the other looks
for a pass that is missing. They differ by the completed passes that are not in the order, which the
first one counts.

Main statement: `pending_checks`.
-/

namespace Multipass

namespace Record

variable {r : Record} {order : List String} {pass : String}

/-- The completed passes that an order does not have, such as those of an earlier order. -/
def foreign (r : Record) (order : List String) : List String :=
  r.completed.filter fun pass => !order.contains pass

lemma mem_missing : pass ∈ r.missing order ↔ pass ∈ order ∧ pass ∉ r.completed := by
  simp [missing, hasCompleted]

lemma foreign_eq_nil (own : ∀ pass ∈ r.completed, pass ∈ order) : r.foreign order = [] := by
  simpa [foreign] using own

/-- The passes of an order that are completed are the completed passes that are in the order. -/
lemma perm_shared (completed : r.completed.Nodup) (distinct : order.Nodup) :
    (order.filter fun pass => r.hasCompleted pass).Perm
      (r.completed.filter fun pass => order.contains pass) := by
  rw [List.perm_ext_iff_of_nodup (distinct.filter _) (completed.filter _)]
  intro pass
  simp [hasCompleted, and_comm]

/-- What is missing of an order and what is foreign to it make up for the difference of the two
numbers of passes. -/
lemma length_missing_add (completed : r.completed.Nodup) (distinct : order.Nodup) :
    (r.missing order).length + r.completed.length = (r.foreign order).length + order.length := by
  have ofOrder : order.length = (order.filter fun pass => r.hasCompleted pass).length +
      (r.missing order).length := List.length_eq_length_filter_add _
  have ofCompleted : r.completed.length =
      (r.completed.filter fun pass => order.contains pass).length + (r.foreign order).length :=
    List.length_eq_length_filter_add _
  have shared := (perm_shared completed distinct).length_eq
  omega

/-- The first check holds exactly if more passes are missing than are foreign. -/
lemma isPending_count_iff (completed : r.completed.Nodup) (distinct : order.Nodup) :
    r.isPending order .count = true ↔ (r.foreign order).length < (r.missing order).length := by
  have lengths := length_missing_add completed distinct
  simp only [isPending, decide_eq_true_eq]
  omega

/-- Whichever check finds a record, a pass is missing, even if the record names completed passes
twice. -/
lemma missing_ne_nil (distinct : order.Nodup) {check : PendingCheck}
    (pending : r.isPending order check = true) : r.missing order ≠ [] := by
  cases check with
  | count =>
    intro none
    have all : order ⊆ r.completed := by
      intro pass mem
      by_contra free
      have missing : pass ∈ r.missing order := mem_missing.2 ⟨mem, free⟩
      rw [none] at missing
      exact List.not_mem_nil missing
    have le := (List.subperm_of_subset distinct all).length_le
    simp only [isPending, decide_eq_true_eq] at pending
    exact absurd pending (Nat.not_lt.2 le)
  | set => exact isPending_set_iff.1 pending

end Record

/-- What the two checks say of a record whose completed passes differ, for an order of different
passes. The missing passes are those of the order, in order, that are not completed. One check finds
the record exactly if a pass is missing; the other, exactly if more passes are missing than the record
has completed outside of the order. So what the second finds the first finds as well, and they agree
if the order has all completed passes. Every record that a store finds by either check, for a
registry that was built, lacks a pass. -/
theorem pending_checks :
    (∀ (r : Record) (order : List String), r.completed.Nodup → order.Nodup →
      (r.missing order).Sublist order ∧
      (∀ pass, pass ∈ r.missing order ↔ pass ∈ order ∧ pass ∉ r.completed) ∧
      (r.isPending order .set = true ↔ r.missing order ≠ []) ∧
      (r.isPending order .count = true ↔
        (r.foreign order).length < (r.missing order).length) ∧
      (r.isPending order .count = true → r.isPending order .set = true) ∧
      ((∀ pass ∈ r.completed, pass ∈ order) →
        r.isPending order .count = r.isPending order .set)) ∧
    ∀ {σ : Type} (store : ArtifactStore σ) (s : σ) (cfg : Config) (registry : PassRegistry)
      (check : PendingCheck) (found : List Record),
      PassRegistry.ofConfig cfg = .ok registry →
      store.pending registry.order check s = .ok found →
      ∀ r ∈ found, r.missing registry.order ≠ [] := by
  refine ⟨fun r order completed distinct => ?_, ?_⟩
  · have count := Record.isPending_count_iff completed distinct
    refine ⟨List.filter_sublist, fun _ => Record.mem_missing, Record.isPending_set_iff, count, ?_, ?_⟩
    · exact fun pending => Record.isPending_set_iff.2 (Record.missing_ne_nil distinct pending)
    · intro own
      rw [Bool.eq_iff_iff, count, Record.isPending_set_iff, Record.foreign_eq_nil own,
        List.length_nil, List.length_pos_iff]
  · intro σ store s cfg registry check found built read r mem
    simp only [ArtifactStore.pending] at read
    split at read <;> cases read
    have pending := (List.mem_filter.1 mem).2
    exact Record.missing_ne_nil (PassRegistry.nodup_of_ofConfig built) pending

/-- A record that completed as many passes of an earlier order is found by one check alone. -/
theorem pending_checks_of_foreign :
    let table : PassConfig := { backend := .none }
    let cfg : Config := {
      db := ⟨"a.sqlite"⟩
      pipeline := { order := ["doc", "style", "score"] }
      passes := [("doc", table), ("style", table), ("score", table)] }
    let definitions : List PassDefinition :=
      [⟨"doc", 0, .none, .raw, none⟩, ⟨"style", 1, .none, .raw, none⟩, ⟨"score", 2, .none, .raw, none⟩]
    let registry : PassRegistry := ⟨definitions, none, defaultScoreFields⟩
    let new : NewRecord := ⟨"a.php", none, "x", "", .null⟩
    let r : Record := { Record.ofNew 1 new 0 with completed := ["style", "lint", "types"] }
    let s : MemoryStore := { nextId := 2, records := [r] }
    PassRegistry.ofConfig cfg = .ok registry ∧ r.completed.Nodup ∧ registry.order.Nodup ∧
      MemoryStore.operations.pending registry.order .set s = .ok [r] ∧
      r.missing registry.order = ["doc", "score"] ∧ r.missing registry.order ≠ [] ∧
      r.foreign registry.order = ["lint", "types"] ∧
      r.isPending registry.order .set = true ∧ ¬r.isPending registry.order .count = true := by
  intro table cfg definitions registry new r s
  have built : PassRegistry.ofConfig cfg = .ok registry := by decide +kernel
  have completed : r.completed.Nodup := by decide
  have distinct : registry.order.Nodup := PassRegistry.nodup_of_ofConfig built
  have read : MemoryStore.operations.pending registry.order .set s = .ok [r] := by rfl
  obtain ⟨checks, found⟩ := pending_checks
  obtain ⟨-, -, set, count, -, -⟩ := checks r registry.order completed distinct
  have lacks := found _ s cfg registry .set [r] built read r (List.mem_singleton_self r)
  exact ⟨built, completed, distinct, read, by decide, lacks, by decide, set.2 lacks,
    fun pending => absurd (count.1 pending) (by decide)⟩

end Multipass
