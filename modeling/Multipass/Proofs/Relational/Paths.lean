import Mathlib.Data.List.Nodup
import Multipass.Proofs.Relational.History
import Multipass.Proofs.Store.WellFormed

/-!
# Paths of kept records

A store that began empty and saw nothing but requests lists records of pairwise different paths. In
memory this is part of what makes a store well formed; in a database it is the unique key of the
table of records, which each statement keeps.

Main statement: `ArtifactStore.Kept.nodup_paths`.
-/

namespace Multipass

namespace Relational

variable {α : Type} {db : Database}

/-- Holds of a database whose records have pairwise different paths. -/
def Database.Apart (db : Database) : Prop :=
  ∀ t, db.records = some t → (t.rows.map RecordRow.path).Nodup

namespace Statement

lemma apart_of_records {db' : Database} (apart : db.Apart) (same : db'.records = db.records) :
    db'.Apart := by
  intro t h
  exact apart t (same.symm.trans h)

lemma apart_change (name : String) (apart : db.Apart) {f : Table RecordRow → Database}
    (keeps : ∀ t, (t.rows.map RecordRow.path).Nodup → (f t).Apart) :
    (change db name db.records f).2.Apart := by
  simp only [change]
  split
  · next t h => exact keeps t (apart t h)
  · exact apart

lemma apart_some {t : Table RecordRow} (nodup : (t.rows.map RecordRow.path).Nodup)
    (results : Option (Table ResultRow)) (scores : Option (List ScoreRow)) :
    (Database.mk (some t) results scores).Apart := by
  rintro _ ⟨⟩
  exact nodup

lemma nodup_modify {rows : List RecordRow} (nodup : (rows.map RecordRow.path).Nodup)
    {f : RecordRow → RecordRow} (keeps : ∀ r, (f r).path = r.path) :
    ((rows.map f).map RecordRow.path).Nodup := by
  rw [List.map_map]
  exact (List.map_congr_left fun r _ => keeps r) ▸ nodup

lemma nodup_upsert {t : Table RecordRow} (nodup : (t.rows.map RecordRow.path).Nodup) (path : String)
    (language : Option String) (source hash parsed : String) (now : Timestamp) :
    ((upsert t path language source hash parsed now).rows.map RecordRow.path).Nodup := by
  simp only [upsert]
  split
  · exact nodup_modify nodup fun r => by split <;> rfl
  · next none =>
    have fresh : ∀ r ∈ t.rows, r.path ≠ path := fun r mem eq =>
      List.find?_eq_none.1 none r mem (beq_iff_eq.2 eq)
    have new : path ∉ t.rows.map RecordRow.path := by
      intro mem
      obtain ⟨r, mem, eq⟩ := List.mem_map.1 mem
      exact fresh r mem eq
    simp only [List.map_append, List.map_cons, List.map_nil]
    rw [← List.concat_eq_append]
    exact nodup.concat new

/-- Each statement keeps the paths of the records apart. -/
theorem kept_apart : Kept Database.Apart := by
  intro s db apart
  cases s with
  | putRecord path language source hash parsed now =>
    exact apart_change _ apart fun t nodup =>
      apart_some (nodup_upsert nodup path language source hash parsed now) _ _
  | setCompleted id completed passIndex now =>
    exact apart_change _ apart fun t nodup =>
      apart_some (nodup_modify nodup fun r => by split <;> rfl) _ _
  | deleteRecord id =>
    exact apart_change _ apart fun t nodup =>
      apart_some (nodup.sublist (List.filter_sublist.map _)) _ _
  | insertResult row =>
    obtain ⟨results, eq⟩ := addResult_snd db row
    exact apart_of_records apart (by rw [run, eq])
  | deleteUncompleted id pass =>
    obtain ⟨results, eq⟩ := dropUncompleted_snd db id pass
    exact apart_of_records apart (by rw [run, eq])
  | putScore id metric value =>
    obtain ⟨scores, eq⟩ := addScore_snd db id metric value
    exact apart_of_records apart (by rw [run, eq])
  | deleteScores id => exact apart_of_records apart (change_snd Database.records _ _ fun _ => rfl)
  | deleteResults id => exact apart_of_records apart (change_snd Database.records _ _ fun _ => rfl)
  | _ => exact apart_of_records apart (congrArg Database.records (ask_snd _ _ _))

end Statement

/-- A database that was made and saw nothing but requests has one record for each path. -/
theorem apart_performAll (history : List (Timestamp × Request Record RecordId)) :
    (Request.performAll Database.operations history (Database.migrate {})).Apart := by
  refine Statement.kept_apart.performAll history ?_
  rintro _ ⟨⟩
  exact List.nodup_nil

/-! ### What is read -/

lemma RecordRow.path_record {row : RecordRow} {r : Record} (h : row.record = .ok r) :
    r.path = row.path := by
  simp only [RecordRow.record] at h
  split at h
  · cases h
  · split at h <;> cases h
    rfl

/-- Rows are read one by one. -/
lemma readAll_related {ρ : Type} {read : ρ → Except StoreError α} {rows : List ρ} {as : List α}
    (h : readAll read rows = .ok as) : List.Forall₂ (fun a row => read row = .ok a) as rows := by
  induction rows generalizing as with
  | nil =>
    cases h
    exact .nil
  | cons row rows ih =>
    simp only [readAll] at h
    split at h
    · cases h
    · next a head =>
      split at h <;> cases h
      next tail => exact .cons head (ih tail)

lemma nodup_list (apart : db.Apart) {records : List Record}
    (h : Database.operations.list db = .ok records) : (records.map Record.path).Nodup := by
  simp only [Database.operations, Database.ask, Statement.run, Statement.ask] at h
  split at h
  · next rows read =>
    split at read <;> cases read
    next t eq =>
    have same : records.map Record.path = t.rows.map RecordRow.path := by
      rw [← List.forall₂_eq_eq_eq, List.forall₂_map_left_iff, List.forall₂_map_right_iff]
      exact (readAll_related h).imp fun _ _ read => RecordRow.path_record read
    rw [same]
    exact apart t eq
  · cases h

end Relational

/-- Holds of a store, within some state, that began empty and saw nothing but requests: a store in
memory, or one in a database that was made. -/
inductive ArtifactStore.Kept {ω : Type} : ArtifactStore ω → ω → Prop where
  | memory {part : ω → MemoryStore} {replace : MemoryStore → ω → ω} {w : ω}
      (history : List (Timestamp × Request Record RecordId)) :
    part w = Request.performAll MemoryStore.operations history {} →
    Kept (MemoryStore.operations.embed part replace) w
  | database {part : ω → Relational.Database} {replace : Relational.Database → ω → ω} {w : ω}
      (history : List (Timestamp × Request Record RecordId)) :
    part w = Request.performAll Relational.Database.operations history (Relational.Database.migrate {}) →
    Kept (Relational.Database.operations.embed part replace) w

/-- No two records that a store lists have the same path. -/
theorem ArtifactStore.Kept.nodup_paths {ω : Type} {store : ArtifactStore ω} {w : ω}
    (kept : store.Kept w) {records : List Record} (h : store.list w = .ok records) :
    (records.map Record.path).Nodup := by
  cases kept with
  | memory history eq =>
    obtain ⟨wf, -⟩ := MemoryStore.performAll_wellFormed MemoryStore.wellFormed_empty history
    rw [← eq] at wf
    cases h
    exact wf.paths
  | database history eq =>
    have apart := Relational.apart_performAll history
    rw [← eq] at apart
    exact Relational.nodup_list apart h

end Multipass
