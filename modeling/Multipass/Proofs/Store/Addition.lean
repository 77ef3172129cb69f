import Mathlib.Data.List.Count
import Multipass.Proofs.Store.WellFormed

/-!
# Additions to the lists of completed passes

Which passes were added to which records, read off two states of a store alone. A change adds
exactly the pass that it is labelled with, and what was added once is spent: the number of the
record is given, and as long as the record is there the pass is on its list.

Main statements: `Change.additions_eq`, and `Change.spent` with `Spent.change` and
`Change.not_spent`, by which nothing is added twice.
-/

namespace Multipass

namespace MemoryStore

/-- The completed passes of the record of a number, or none without a record. -/
def completedOf (s : MemoryStore) (id : RecordId) : List String :=
  ((s.record? id).map Record.completed).getD []

/-- The passes that the records of the second store have completed, and that they had not completed
in the first. -/
def additions (s s' : MemoryStore) : List (RecordId × String) :=
  s'.records.flatMap fun r' =>
    (r'.completed.filter fun pass => pass ∉ s.completedOf r'.id).map fun pass => (r'.id, pass)

/-- Holds of a record and a pass that can never be added again. -/
structure Spent (s : MemoryStore) (k : RecordId × String) : Prop where
  given : k.1 < s.nextId
  listed : ∀ r ∈ s.records, r.id = k.1 → k.2 ∈ r.completed

lemma completedOf_of_mem {s : MemoryStore} (wf : s.WellFormed) {r : Record} (mem : r ∈ s.records) :
    s.completedOf r.id = r.completed := by
  simp [completedOf, wf.record?_of_mem mem]

/-- A completed pass was not on the list of its record, which is there before and behind. -/
lemma Change.of_gain {s s' : MemoryStore} {k : RecordId × String}
    (change : Change s (some k) s') :
    k.1 ∈ s'.ids ∧ ∃ r ∈ s.records, r.id = k.1 ∧ k.2 ∉ r.completed := by
  cases change with
  | complete mem free => exact ⟨by rw [ids_completed]; exact mem_ids mem, _, mem, rfl, free⟩
  | @commit stored result now mem free =>
    refine ⟨?_, _, mem, rfl, free⟩
    show stored.id ∈ (s.completed stored.id result.pass now).ids
    rw [ids_completed]
    exact mem_ids mem

/-- What is added to one record with a change. -/
lemma Change.filter_completed {s s' : MemoryStore} {c : Gain} (change : Change s c s')
    (wf : s.WellFormed) {r' : Record} (mem' : r' ∈ s'.records) :
    (r'.completed.filter fun pass => pass ∉ s.completedOf r'.id) = c.passesOf r'.id := by
  by_cases old : r'.id ∈ s.ids
  · obtain ⟨r, mem, eq⟩ := List.mem_map.1 old
    obtain ⟨-, -, grown⟩ := change.of_stays wf mem mem' eq.symm
    rw [← eq, completedOf_of_mem wf mem, grown, List.filter_append]
    have kept : (r.completed.filter fun pass => pass ∉ r.completed) = [] := by simp
    have added : ((c.passesOf r.id).filter fun pass => pass ∉ r.completed) = c.passesOf r.id := by
      rw [List.filter_eq_self]
      intro pass memp
      obtain none | ⟨name, rfl, one⟩ := c.passesOf_cases r.id
      · simp [none] at memp
      · obtain ⟨-, r₀, mem₀, eq₀, free⟩ := change.of_gain
        obtain rfl := wf.eq_of_id mem₀ mem eq₀
        rw [one, List.mem_singleton] at memp
        simpa [memp] using free
    rw [kept, added, List.nil_append]
  · obtain ⟨-, -, empty⟩ := change.of_appears mem' old
    rw [empty, List.filter_nil]
    obtain none | ⟨name, rfl, -⟩ := c.passesOf_cases r'.id
    · exact none.symm
    · obtain ⟨-, r₀, mem₀, eq₀, -⟩ := change.of_gain
      exact absurd (List.mem_map.2 ⟨r₀, mem₀, eq₀⟩) old

/-- What stands beside one record of a list stands there once. -/
lemma flatMap_one {α : Type} {rs : List Record} {id : RecordId} (nodup : (rs.map Record.id).Nodup)
    (mem : id ∈ rs.map Record.id) (a : α) :
    (rs.flatMap fun r => if r.id = id then [a] else []) = [a] := by
  induction rs with
  | nil => cases mem
  | cons r rs ih =>
    rw [List.map_cons, List.nodup_cons] at nodup
    by_cases h : r.id = id
    · have none : (rs.flatMap fun r => if r.id = id then [a] else []) = [] := by
        rw [List.flatMap_eq_nil_iff]
        intro r' mem'
        rw [if_neg]
        intro h'
        exact nodup.1 (h.trans h'.symm ▸ List.mem_map_of_mem mem')
      simp [h, none]
    · obtain rfl | mem := List.mem_cons.1 mem
      · exact absurd rfl h
      · simp [h, ih nodup.2 mem]

/-- A change adds the pass that it is labelled with, and nothing else. -/
theorem Change.additions_eq {s s' : MemoryStore} {c : Gain} (change : Change s c s')
    (wf : s.WellFormed) : s.additions s' = c.toList := by
  have step : s.additions s' =
      s'.records.flatMap fun r' => (c.passesOf r'.id).map fun pass => (r'.id, pass) := by
    simp only [additions, List.flatMap_def]
    congr 1
    refine List.map_congr_left fun r' mem' => ?_
    rw [change.filter_completed wf mem']
  rw [step]
  cases c with
  | none => simp [Gain.passesOf]
  | some k =>
    obtain ⟨mem, -⟩ := change.of_gain
    have each : ∀ r' : Record,
        ((Gain.passesOf (some k) r'.id).map fun pass => (r'.id, pass)) =
          if r'.id = k.1 then [k] else [] := by
      intro r'
      by_cases h : r'.id = k.1
      · simp [Gain.passesOf, h]
      · simp [Gain.passesOf, h, Ne.symm h]
    simp only [each]
    exact flatMap_one ((change.wellFormed wf).ascending.imp Int.ne_of_lt) mem k

/-- What is added is spent. -/
lemma Change.spent {s s' : MemoryStore} {k : RecordId × String} (change : Change s (some k) s')
    (wf : s.WellFormed) : s'.Spent k where
  given := (change.wellFormed wf).below k.1 change.of_gain.1
  listed := by
    obtain ⟨-, r, mem, eq, -⟩ := change.of_gain
    intro r' mem' eq'
    obtain ⟨-, -, grown⟩ := change.of_stays wf mem mem' (eq'.trans eq.symm)
    rw [grown]
    simp [Gain.passesOf, eq]

/-- What is spent stays so. -/
lemma Spent.change {s s' : MemoryStore} {k : RecordId × String} {c : Gain} (spent : s.Spent k)
    (change : Change s c s') (wf : s.WellFormed) : s'.Spent k where
  given := Int.lt_of_lt_of_le spent.given change.nextId_le
  listed := by
    intro r' mem' eq'
    obtain ⟨r, mem, eq, -, -, pre⟩ :=
      (change.continues wf).origin r' mem' (eq' ▸ spent.given)
    exact pre.subset (spent.listed r mem (eq.trans eq'))

/-- What is spent is not added. -/
lemma Change.not_spent {s s' : MemoryStore} {k : RecordId × String} (change : Change s (some k) s') :
    ¬ s.Spent k := by
  intro spent
  obtain ⟨-, r, mem, eq, free⟩ := change.of_gain
  exact free (spent.listed r mem eq)

end MemoryStore

end Multipass
