import Multipass.Proofs.Store.Scores
import Multipass.Proofs.Store.WellFormed

/-!
# The rows of one record

What a store in memory holds of one record: the record, its results and its scores, without the
times at which they were written. It is a store again, so that the operations act on it. They do on
the rows of their record what they do on the whole store, and leave the rows of other records alone.

Main statements: `advance_rowsOf`, `commit_rowsOf` and `saveScores_rowsOf` for the record that an
operation is about, and `Write.rowsOf` for the others.
-/

namespace Multipass

/-- A record without its times. -/
def Record.timeless (r : Record) : Record :=
  { r with createdAt := 0, updatedAt := 0 }

/-- A result without its times. -/
def PassResult.timeless (r : PassResult) : PassResult :=
  { r with durationMillis := 0, createdAt := 0 }

@[simp] lemma Record.id_timeless (r : Record) : r.timeless.id = r.id := rfl

@[simp] lemma Record.path_timeless (r : Record) : r.timeless.path = r.path := rfl

@[simp] lemma Record.completed_timeless (r : Record) : r.timeless.completed = r.completed := rfl

@[simp] lemma Record.timeless_complete (r : Record) (pass : String) (now : Timestamp) :
    (r.complete pass now).timeless = r.timeless.complete pass 0 := rfl

@[simp] lemma PassResult.pass_timeless (r : PassResult) : r.timeless.pass = r.pass := rfl

@[simp] lemma PassResult.output_timeless (r : PassResult) : r.timeless.output = r.output := rfl

namespace MemoryStore

/-- What a store holds of a record, without times. -/
def rowsOf (s : MemoryStore) (id : RecordId) : MemoryStore where
  nextId := id + 1
  records := (s.records.filter fun r => r.id == id).map Record.timeless
  results := (s.results.filter fun entry => entry.1 == id).map fun entry =>
    (entry.1, entry.2.timeless)
  scores := s.scores.filter fun entry => entry.1 == id

/-- A store with a result in the place of one that was there before, and its pass completed. -/
def committed (s : MemoryStore) (id : RecordId) (result : PassResult) (now : Timestamp) :
    MemoryStore :=
  ((s.completed id result.pass now).dropped id result.pass).kept id result

/-- The numbers and the paths of the records, in order. -/
def labels (s : MemoryStore) : List (RecordId × String) :=
  s.records.map fun r => (r.id, r.path)

variable {s : MemoryStore} {id other : RecordId}

lemma ids_eq_labels (s : MemoryStore) : s.ids = s.labels.map Prod.fst := by
  rw [labels, List.map_map]
  rfl

lemma labels_modifyRecord (s : MemoryStore) (id : RecordId) {f : Record → Record}
    (same : ∀ r, ((f r).id, (f r).path) = (r.id, r.path)) :
    (s.modifyRecord id f).labels = s.labels := by
  simp only [labels, modifyRecord, List.map_map]
  refine List.map_congr_left fun r _ => ?_
  simp only [Function.comp]
  split
  · exact same r
  · rfl

lemma labels_completed (s : MemoryStore) (id : RecordId) (pass : String) (now : Timestamp) :
    (s.completed id pass now).labels = s.labels :=
  s.labels_modifyRecord id fun _ => rfl

/-- Each record is found under its path. -/
lemma WellFormed.recordAt?_of_mem (wf : s.WellFormed) {r : Record} (mem : r ∈ s.records) :
    s.recordAt? r.path = some r := by
  cases h : s.recordAt? r.path with
  | none => exact absurd (List.mem_map_of_mem mem) (recordAt?_eq_none.1 h)
  | some other =>
    obtain ⟨mem', eq⟩ := recordAt?_eq_some h
    rw [List.inj_on_of_nodup_map wf.paths mem' mem eq]

/-! ### Reading -/

@[simp] lemma record?_completed (s : MemoryStore) (id : RecordId) (pass : String)
    (now : Timestamp) :
    (s.completed id pass now).record? id = (s.record? id).map fun r => r.complete pass now := by
  simp only [record?, completed, modifyRecord]
  induction s.records with
  | nil => rfl
  | cons r records ih =>
    by_cases eq : r.id = id
    · simp [eq, Record.complete]
    · simp [eq, ih]

@[simp] lemma record?_committed (s : MemoryStore) (id : RecordId) (result : PassResult)
    (now : Timestamp) :
    (s.committed id result now).record? id =
      (s.record? id).map fun r => r.complete result.pass now :=
  record?_completed s id result.pass now

lemma record?_rowsOf (s : MemoryStore) (id : RecordId) :
    (s.rowsOf id).record? id = (s.record? id).map Record.timeless := by
  simp only [record?, rowsOf, List.find?_map, List.find?_filter]
  congr 2
  funext r
  rw [Bool.eq_iff_iff]
  simp

/-- Records with the same rows agree up to times. -/
lemma timeless_of_rowsOf {s t : MemoryStore} {id : RecordId} {r r' : Record}
    (stored : s.record? id = some r) (stored' : t.record? id = some r')
    (same : s.rowsOf id = t.rowsOf id) : r.timeless = r'.timeless := by
  have records := congrArg (fun rows => rows.record? id) same
  simpa only [record?_rowsOf, stored, stored', Option.map_some, Option.some.injEq] using records

lemma resultsOf_rowsOf (s : MemoryStore) (id : RecordId) :
    (s.rowsOf id).resultsOf id = (s.resultsOf id).map PassResult.timeless := by
  simp only [resultsOf, rowsOf, List.filter_map, List.map_map, List.filter_filter]
  congr 1
  refine List.filter_congr fun entry _ => ?_
  simp

lemma latest?_rowsOf (s : MemoryStore) (id : RecordId) (pass : String) :
    (s.rowsOf id).latest? id pass = (s.latest? id pass).map PassResult.timeless := by
  have own (entry : RecordId × PassResult) :
      (entry.1 == id && isResultOf id pass (entry.1, entry.2.timeless)) =
        isResultOf id pass entry := by
    rw [Bool.eq_iff_iff]
    simp +contextual [isResultOf]
  simp only [latest?, rowsOf, ← List.map_reverse, ← List.filter_reverse, List.find?_map,
    List.find?_filter, Option.map_map, Function.comp_def, Bool.decide_and, Bool.decide_eq_true, own]

lemma scoresOf_rowsOf (s : MemoryStore) (id : RecordId) :
    (s.rowsOf id).scoresOf id = s.scoresOf id := by
  simp [scoresOf, rowsOf]

/-! ### Changing the rows -/

/-- A change of records that keeps their numbers can be made before or after a selection by number. -/
lemma filter_modifyRecord (s : MemoryStore) {id other : RecordId} {f : Record → Record}
    (same : ∀ r, (f r).id = r.id) :
    ((s.modifyRecord id f).records.filter fun r => r.id == other) =
      (s.records.filter fun r => r.id == other).map fun r => if r.id = id then f r else r := by
  simp only [modifyRecord, List.filter_map]
  congr 1
  refine List.filter_congr fun r _ => ?_
  simp only [Function.comp]
  split
  · rw [same]
  · rfl

lemma rowsOf_completed (s : MemoryStore) (id : RecordId) (pass : String) (now : Timestamp) :
    (s.completed id pass now).rowsOf id = (s.rowsOf id).completed id pass 0 := by
  simp only [rowsOf, completed, filter_modifyRecord s (f := fun r => r.complete pass now)
    (fun _ => rfl)]
  simp only [modifyRecord, List.map_map, MemoryStore.mk.injEq, true_and, and_true]
  refine List.map_congr_left fun r _ => ?_
  by_cases eq : r.id = id
  · have eq' : r.timeless.id = id := eq
    rw [Function.comp_apply, Function.comp_apply, if_pos eq, if_pos eq']
    rfl
  · have ne : r.timeless.id ≠ id := eq
    rw [Function.comp_apply, Function.comp_apply, if_neg eq, if_neg ne]

lemma rowsOf_dropped (s : MemoryStore) (id : RecordId) (pass : String) :
    (s.dropped id pass).rowsOf id = (s.rowsOf id).dropped id pass := by
  simp only [rowsOf, dropped, MemoryStore.mk.injEq, true_and, and_true, List.filter_map,
    List.filter_filter]
  congr 1
  refine List.filter_congr fun entry _ => ?_
  exact Bool.and_comm _ _

lemma rowsOf_kept (s : MemoryStore) (id : RecordId) (result : PassResult) :
    (s.kept id result).rowsOf id = (s.rowsOf id).kept id result.timeless := by
  simp [rowsOf, kept]

lemma rowsOf_completed_of_ne (ne : id ≠ other) (pass : String) (now : Timestamp) :
    (s.completed id pass now).rowsOf other = s.rowsOf other := by
  simp only [rowsOf, completed, filter_modifyRecord s (f := fun r => r.complete pass now)
    (fun _ => rfl)]
  simp only [modifyRecord, List.map_map, MemoryStore.mk.injEq, true_and, and_true]
  refine List.map_congr_left fun r mem => ?_
  have eq : r.id = other := by simpa using List.of_mem_filter mem
  simp [eq, ne.symm]

lemma rowsOf_dropped_of_ne (ne : id ≠ other) (pass : String) :
    (s.dropped id pass).rowsOf other = s.rowsOf other := by
  simp only [rowsOf, dropped, MemoryStore.mk.injEq, true_and, and_true, List.filter_filter]
  congr 1
  refine List.filter_congr fun entry _ => ?_
  by_cases h : entry.1 = other
  · subst h
    simp [isResultOf, ne.symm]
  · simp [h]

lemma rowsOf_kept_of_ne (ne : id ≠ other) (result : PassResult) :
    (s.kept id result).rowsOf other = s.rowsOf other := by
  simp [rowsOf, kept, ne]


/-! ### The operations of a worker -/

lemma advance_rowsOf (s : MemoryStore) (record : Record) (pass : String) (now : Timestamp) :
    advance record.timeless pass 0 (s.rowsOf record.id) =
      ((advance record pass now s).1.map Record.timeless,
        (advance record pass now s).2.rowsOf record.id) := by
  simp only [advance, Record.id_timeless, record?_rowsOf]
  cases s.record? record.id with
  | none => rfl
  | some stored =>
    by_cases done : stored.hasCompleted pass
    · have done' : stored.timeless.hasCompleted pass := done
      simp only [Option.map_some, done, done', if_true]
      rfl
    · have free : ¬stored.timeless.hasCompleted pass := done
      simp only [Option.map_some, done, free, Bool.false_eq_true, if_false]
      exact Prod.ext rfl (rowsOf_completed s record.id pass now).symm

lemma commit_rowsOf (s : MemoryStore) (record : Record) (result : PassResult) (now : Timestamp) :
    commit record.timeless result.timeless 0 (s.rowsOf record.id) =
      ((commit record result now s).1.map Record.timeless,
        (commit record result now s).2.rowsOf record.id) := by
  simp only [commit, PassResult.pass_timeless, advance_rowsOf s record result.pass now]
  obtain ⟨stored, -, -, -, h⟩ | ⟨stored, -, -, -, h⟩ | ⟨-, h⟩ :=
    advance_cases s record result.pass now
  · rw [h]
    refine Prod.ext rfl ?_
    show _ = (((s.completed record.id result.pass now).dropped record.id result.pass).kept
      record.id result).rowsOf record.id
    rw [rowsOf_kept, rowsOf_dropped]
    rfl
  · rw [h]
    rfl
  · rw [h]
    rfl

lemma saveScores_rowsOf (ordered : s.ScoresOrdered) (id : RecordId) (scores : List Score) :
    saveScores id scores (s.rowsOf id) =
      ((saveScores id scores s).1, (saveScores id scores s).2.rowsOf id) := by
  simp only [saveScores, rowsOf, Prod.mk.injEq, MemoryStore.mk.injEq, true_and]
  exact (filter_setScores ordered scores).symm

lemma rowsOf_advance {record : Record} (ne : record.id ≠ other) (pass : String) (now : Timestamp) :
    (advance record pass now s).2.rowsOf other = s.rowsOf other := by
  obtain ⟨_, _, _, _, h⟩ | ⟨_, _, _, _, h⟩ | ⟨_, h⟩ := advance_cases s record pass now
  · rw [h]
    exact rowsOf_completed_of_ne ne pass now
  · rw [h]
  · rw [h]

lemma rowsOf_commit {record : Record} (ne : record.id ≠ other) (result : PassResult)
    (now : Timestamp) : (commit record result now s).2.rowsOf other = s.rowsOf other := by
  obtain ⟨_, _, _, _, h⟩ | ⟨_, _, _, _, h⟩ | ⟨_, h⟩ := commit_cases s record result now
  · rw [h, rowsOf_kept_of_ne ne, rowsOf_dropped_of_ne ne, rowsOf_completed_of_ne ne]
  · rw [h]
  · rw [h]

lemma rowsOf_saveScores (ne : id ≠ other) (scores : List Score) :
    (saveScores id scores s).2.rowsOf other = s.rowsOf other := by
  simp only [saveScores, rowsOf, MemoryStore.mk.injEq, true_and]
  exact filter_setScores_of_ne ne scores

/-! ### What a worker writes -/

/-- What a worker with a record as it saw it last can make of a store. -/
inductive Write (record : Record) (s : MemoryStore) : MemoryStore → Prop where
  | none : Write record s s
  | advance (pass : String) (now : Timestamp) : Write record s (advance record pass now s).2
  | commit (result : PassResult) (now : Timestamp) : Write record s (commit record result now s).2
  | saveScores (scores : List Score) : Write record s (saveScores record.id scores s).2

variable {record : Record} {s' : MemoryStore}

lemma Write.wellFormed (write : Write record s s') (wf : s.WellFormed) : s'.WellFormed := by
  cases write with
  | none => exact wf
  | advance pass now =>
    obtain ⟨_, change, -⟩ := change_advance s record pass now
    exact change.wellFormed wf
  | commit result now =>
    obtain ⟨_, change, -⟩ := change_commit s record result now
    exact change.wellFormed wf
  | saveScores scores => exact Change.score.wellFormed wf

lemma Write.scoresOrdered (write : Write record s s') (ordered : s.ScoresOrdered) :
    s'.ScoresOrdered := by
  cases write with
  | none => exact ordered
  | advance pass now => exact ordered.advance record pass now
  | commit result now => exact ordered.commit record result now
  | saveScores scores => exact ordered.saveScores record.id scores

/-- No record appears, none goes, and each keeps its path. -/
lemma Write.labels (write : Write record s s') : s'.labels = s.labels := by
  cases write with
  | none => rfl
  | advance pass now =>
    obtain ⟨_, _, _, _, h⟩ | ⟨_, _, _, _, h⟩ | ⟨_, h⟩ := advance_cases s record pass now <;> rw [h]
    exact labels_completed s record.id pass now
  | commit result now =>
    obtain ⟨_, _, _, _, h⟩ | ⟨_, _, _, _, h⟩ | ⟨_, h⟩ := commit_cases s record result now <;> rw [h]
    exact labels_completed s record.id result.pass now
  | saveScores scores => rfl

/-- The rows of other records stay. -/
lemma Write.rowsOf (write : Write record s s') (ne : record.id ≠ other) :
    s'.rowsOf other = s.rowsOf other := by
  cases write with
  | none => rfl
  | advance pass now => exact rowsOf_advance ne pass now
  | commit result now => exact rowsOf_commit ne result now
  | saveScores scores => exact rowsOf_saveScores ne scores

end MemoryStore

end Multipass
