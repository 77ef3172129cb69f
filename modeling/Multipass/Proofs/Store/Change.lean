import Mathlib.Data.List.Nodup
import Multipass.Proofs.Store.Request
import Multipass.Store.Memory

/-!
# Changes of a store in memory

What one request can do to the contents of a store in memory, said once: every later invariant is
derived from `Change`, and no operation is opened again. A change is labelled with the record and
the pass that it completes, if it completes one.

Main statement: `MemoryStore.change_perform`, which finds the change behind each request.
-/

namespace Multipass

namespace MemoryStore

/-- The numbers of the records, in order. -/
def ids (s : MemoryStore) : List RecordId :=
  s.records.map Record.id

/-- The paths of the records, in order. -/
def paths (s : MemoryStore) : List String :=
  s.records.map Record.path

/-- The record and the pass that a result belongs to. -/
def key (entry : RecordId × PassResult) : RecordId × String :=
  (entry.1, entry.2.pass)

/-- The records and passes of the results, in order. -/
def keys (s : MemoryStore) : List (RecordId × String) :=
  s.results.map key

/-- A record that was completed for a pass, and that pass; or nothing. -/
abbrev Gain := Option (RecordId × String)

/-- The passes that a record gains. -/
def Gain.passesOf (c : Gain) (id : RecordId) : List String :=
  (c.toList.filter fun k => k.1 = id).map Prod.snd

/-- The store with a new record. -/
def inserted (s : MemoryStore) (new : NewRecord) (now : Timestamp) : MemoryStore :=
  { s with nextId := s.nextId + 1, records := s.records ++ [.ofNew s.nextId new now] }

/-- The store with a record refreshed. -/
def refreshed (s : MemoryStore) (id : RecordId) (new : NewRecord) (now : Timestamp) :
    MemoryStore :=
  s.modifyRecord id fun r => r.refresh new now

/-- The store with one more result. -/
def kept (s : MemoryStore) (id : RecordId) (result : PassResult) : MemoryStore :=
  { s with results := s.results ++ [(id, result)] }

/-- The store with a pass of a record completed. -/
def completed (s : MemoryStore) (id : RecordId) (pass : String) (now : Timestamp) : MemoryStore :=
  s.modifyRecord id fun r => r.complete pass now

/-- The store without the results of a pass of a record. -/
def dropped (s : MemoryStore) (id : RecordId) (pass : String) : MemoryStore :=
  { s with results := s.results.filter fun entry => !isResultOf id pass entry }

/-- The store without a record, its results, and its scores. -/
def removed (s : MemoryStore) (id : RecordId) : MemoryStore :=
  { s with
    records := s.records.filter fun other => other.id != id
    results := s.results.filter fun entry => entry.1 != id
    scores := s.scores.filter fun entry => entry.1 != id }

/-- What one request can do to a store, with the pass of a record that it completes. -/
inductive Change (s : MemoryStore) : Gain → MemoryStore → Prop where
  | same : Change s none s
  | insert {new now} :
    s.recordAt? new.path = none →
    Change s none (s.inserted new now)
  | refresh {old new now} :
    old ∈ s.records →
    Change s none (s.refreshed old.id new now)
  | keep {stored result} :
    stored ∈ s.records →
    result.pass ∉ stored.completed →
    (stored.id, result.pass) ∉ s.keys →
    Change s none (s.kept stored.id result)
  | complete {stored pass now} :
    stored ∈ s.records →
    pass ∉ stored.completed →
    Change s (some (stored.id, pass)) (s.completed stored.id pass now)
  | commit {stored result now} :
    stored ∈ s.records →
    result.pass ∉ stored.completed →
    Change s (some (stored.id, result.pass))
      (((s.completed stored.id result.pass now).dropped stored.id result.pass).kept
        stored.id result)
  | score {scores} :
    Change s none { s with scores }
  | delete {old} :
    old ∈ s.records →
    Change s none (s.removed old.id)

/-! ### Looking up -/

lemma record?_eq_some {s : MemoryStore} {id : RecordId} {r : Record} (h : s.record? id = some r) :
    r ∈ s.records ∧ r.id = id := by
  refine ⟨List.mem_of_find?_eq_some h, ?_⟩
  simpa using List.find?_some h

lemma recordAt?_eq_some {s : MemoryStore} {path : String} {r : Record}
    (h : s.recordAt? path = some r) : r ∈ s.records ∧ r.path = path := by
  refine ⟨List.mem_of_find?_eq_some h, ?_⟩
  simpa using List.find?_some h

lemma record?_eq_none {s : MemoryStore} {id : RecordId} : s.record? id = none ↔ id ∉ s.ids := by
  simp [record?, ids]

lemma recordAt?_eq_none {s : MemoryStore} {path : String} :
    s.recordAt? path = none ↔ path ∉ s.paths := by
  simp [recordAt?, paths]

@[simp] lemma isResultOf_iff {id : RecordId} {pass : String} {entry : RecordId × PassResult} :
    isResultOf id pass entry = true ↔ key entry = (id, pass) := by
  simp [isResultOf, key]

lemma any_isResultOf {s : MemoryStore} {id : RecordId} {pass : String} :
    s.results.any (isResultOf id pass) = true ↔ (id, pass) ∈ s.keys := by
  simp [keys, List.mem_map]

/-- There is a latest result of a pass exactly when there is one. -/
lemma latest?_isSome {s : MemoryStore} {id : RecordId} {pass : String} :
    (s.latest? id pass).isSome ↔ (id, pass) ∈ s.keys := by
  rw [latest?, Option.isSome_map, List.find?_isSome]
  simp [keys, List.mem_map]

/-! ### The change behind an operation -/

lemma change_upsert (s : MemoryStore) (new : NewRecord) (now : Timestamp) :
    Change s none (upsert new now s).2 := by
  simp only [upsert]
  split
  · next old h =>
    split
    · exact .same
    · exact .refresh (recordAt?_eq_some h).1
  · next h => exact .insert h

lemma change_recordResult (s : MemoryStore) (record : Record) (result : PassResult) :
    Change s none (recordResult record result s).2 := by
  simp only [recordResult]
  split
  · exact .same
  · next stored h =>
    obtain ⟨mem, eq⟩ := record?_eq_some h
    split
    · exact .same
    · next free =>
      rw [Bool.or_eq_true, not_or, any_isResultOf] at free
      rw [← eq] at free ⊢
      refine .keep mem ?_ free.2
      simpa [Record.hasCompleted] using free.1

/-- An attempt to complete a pass: it completes the pass of a stored record, or changes nothing. -/
lemma advance_cases (s : MemoryStore) (record : Record) (pass : String) (now : Timestamp) :
    (∃ stored ∈ s.records, stored.id = record.id ∧ pass ∉ stored.completed ∧
      advance record pass now s = (.ok (stored.complete pass now), s.completed record.id pass now)) ∨
    (∃ stored ∈ s.records, stored.id = record.id ∧ pass ∈ stored.completed ∧
      advance record pass now s = (.error (.duplicatePass record.path pass), s)) ∨
    (record.id ∉ s.ids ∧ advance record pass now s = (.error (.recordNotFound record.path), s)) := by
  simp only [advance]
  split
  · next h => exact .inr (.inr ⟨record?_eq_none.1 h, rfl⟩)
  · next stored h =>
    obtain ⟨mem, eq⟩ := record?_eq_some h
    split
    · next done => exact .inr (.inl ⟨stored, mem, eq, by simpa [Record.hasCompleted] using done, rfl⟩)
    · next free => exact .inl ⟨stored, mem, eq, by simpa [Record.hasCompleted] using free, rfl⟩

/-- An attempt to keep a result and complete its pass: it does both, or changes nothing. -/
lemma commit_cases (s : MemoryStore) (record : Record) (result : PassResult) (now : Timestamp) :
    (∃ stored ∈ s.records, stored.id = record.id ∧ result.pass ∉ stored.completed ∧
      commit record result now s = (.ok (stored.complete result.pass now),
        ((s.completed record.id result.pass now).dropped record.id result.pass).kept
          record.id result)) ∨
    (∃ stored ∈ s.records, stored.id = record.id ∧ result.pass ∈ stored.completed ∧
      commit record result now s = (.error (.duplicatePass record.path result.pass), s)) ∨
    (record.id ∉ s.ids ∧ commit record result now s = (.error (.recordNotFound record.path), s)) := by
  simp only [commit]
  obtain ⟨stored, mem, eq, free, h⟩ | ⟨stored, mem, eq, done, h⟩ | ⟨gone, h⟩ :=
    advance_cases s record result.pass now
  · exact .inl ⟨stored, mem, eq, free, by rw [h]; rfl⟩
  · exact .inr (.inl ⟨stored, mem, eq, done, by rw [h]⟩)
  · exact .inr (.inr ⟨gone, by rw [h]⟩)

lemma change_advance (s : MemoryStore) (record : Record) (pass : String) (now : Timestamp) :
    ∃ c, Change s c (advance record pass now s).2 ∧ ∀ k ∈ c, k = (record.id, pass) := by
  obtain ⟨stored, mem, eq, free, h⟩ | ⟨_, _, _, _, h⟩ | ⟨_, h⟩ := advance_cases s record pass now
  · rw [h, ← eq]
    exact ⟨_, .complete mem free, by simp⟩
  · rw [h]
    exact ⟨_, .same, by simp⟩
  · rw [h]
    exact ⟨_, .same, by simp⟩

lemma change_commit (s : MemoryStore) (record : Record) (result : PassResult) (now : Timestamp) :
    ∃ c, Change s c (commit record result now s).2 ∧ ∀ k ∈ c, k = (record.id, result.pass) := by
  obtain ⟨stored, mem, eq, free, h⟩ | ⟨_, _, _, _, h⟩ | ⟨_, h⟩ := commit_cases s record result now
  · rw [h, ← eq]
    exact ⟨_, .commit mem free, by simp⟩
  · rw [h]
    exact ⟨_, .same, by simp⟩
  · rw [h]
    exact ⟨_, .same, by simp⟩

lemma change_delete (s : MemoryStore) (path : String) : Change s none (delete path s).2 := by
  simp only [delete]
  split
  · exact .same
  · next r h => exact .delete (recordAt?_eq_some h).1

/-- Each request makes a change; a pass is completed only by a request that asks for it. -/
theorem change_perform (s : MemoryStore) (now : Timestamp) (request : Request Record RecordId) :
    ∃ c, Change s c (request.perform operations now s).2 ∧
      ∀ k ∈ c, request.Completes k.1 k.2 := by
  cases request with
  | upsert new => exact ⟨none, change_upsert s new now, by simp⟩
  | recordResult record result => exact ⟨none, change_recordResult s record result, by simp⟩
  | advance record pass =>
    obtain ⟨c, change, only⟩ := change_advance s record pass now
    refine ⟨c, change, fun k mem => ?_⟩
    rw [only k mem]
    exact ⟨rfl, rfl⟩
  | commit record result =>
    obtain ⟨c, change, only⟩ := change_commit s record result now
    refine ⟨c, change, fun k mem => ?_⟩
    rw [only k mem]
    exact ⟨rfl, rfl⟩
  | saveScores id scores => exact ⟨none, .score, by simp⟩
  | delete path => exact ⟨none, change_delete s path, by simp⟩
  | get path => exact ⟨none, .same, by simp⟩
  | list => exact ⟨none, .same, by simp⟩
  | pending order check => exact ⟨none, .same, by simp⟩
  | results id => exact ⟨none, .same, by simp⟩
  | latest id pass => exact ⟨none, .same, by simp⟩
  | scores id => exact ⟨none, .same, by simp⟩

end MemoryStore

end Multipass
