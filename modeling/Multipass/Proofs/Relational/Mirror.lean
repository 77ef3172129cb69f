import Multipass.Proofs.Pointwise
import Multipass.Proofs.Relational.Row
import Multipass.Proofs.Store.WellFormed
import Multipass.Store.Relational.Operations

/-!
# Databases that mirror stores in memory

When the tables of a database show the contents of a store in memory, item by item and in the same
order, under numbers that ascend in the same way. What is looked up is then found in both or in
neither.

Main definition: `Mirrors`. The reading operations are answered alike: `Mirrors.get`,
`Mirrors.list`, `Mirrors.pending`, `Mirrors.resultsOf`, `Mirrors.latest` and `Mirrors.scoresOf`.
-/

namespace Multipass.Relational

/-! ### Reading rows -/

section

variable {α β ρ : Type} {P : α → β → Prop} {S : α → ρ → Prop} {read : ρ → Except StoreError β}

/-- Rows that are read one by one are read in order. -/
lemma readAll_of_rel {as : List α} {rows : List ρ} (h : List.Forall₂ S as rows)
    (reads : ∀ a row, S a row → ∃ b, read row = .ok b ∧ P a b) :
    ∃ bs, readAll read rows = .ok bs ∧ List.Forall₂ P as bs := by
  induction h with
  | nil => exact ⟨[], rfl, .nil⟩
  | @cons a row as rows head _ ih =>
    obtain ⟨b, hb, rel⟩ := reads a row head
    obtain ⟨bs, hbs, rels⟩ := ih
    refine ⟨b :: bs, ?_, .cons rel rels⟩
    rw [readAll]
    simp only [hb, hbs]

/-- A row that is read, if there is one. -/
lemma readOption_of_rel {a : Option α} {row : Option ρ} (h : Option.Rel S a row)
    (reads : ∀ a row, S a row → ∃ b, read row = .ok b ∧ P a b) :
    ∃ b, readOption read row = .ok b ∧ Option.Rel P a b := by
  cases h with
  | none => exact ⟨none, rfl, .none⟩
  | some head =>
    obtain ⟨b, hb, rel⟩ := reads _ _ head
    exact ⟨some b, by simp only [readOption, hb], .some rel⟩

end

/-! ### The mirror -/

/-- Holds of tables that show the contents of a store in memory. -/
structure Mirrors (f : RecordId → RecordId) (s : MemoryStore) (records : Table RecordRow)
    (results : Table ResultRow) (scores : List ScoreRow) : Prop where
  keeps : KeepsOrder f
  wellFormed : s.WellFormed
  /-- Numbers that were given in memory stand for numbers that the table has given. -/
  given : ∀ id, id < s.nextId → f id ≤ records.lastId
  /-- Scores stand under numbers that were given. -/
  owned : ∀ entry ∈ s.scores, entry.1 < s.nextId
  records : List.Forall₂ (fun r row => row.Shows f r) s.records records.rows
  results : List.Forall₂ (fun entry row => row.Shows f entry) s.results results.rows
  scores : List.Forall₂ (fun entry row => row.Shows f entry) s.scores scores

/-- The database of three tables. -/
def tables (records : Table RecordRow) (results : Table ResultRow) (scores : List ScoreRow) :
    Database :=
  ⟨some records, some results, some scores⟩

section

variable {f : RecordId → RecordId} {s : MemoryStore} {records : Table RecordRow}
  {results : Table ResultRow} {scores : List ScoreRow}

/-- Tables without rows mirror a store without contents. -/
lemma mirrors_empty : Mirrors id {} {} {} [] where
  keeps := fun _ _ lt => lt
  wellFormed := MemoryStore.wellFormed_empty
  given := fun _ lt => Int.le_of_lt_add_one lt
  owned := nofun
  records := .nil
  results := .nil
  scores := .nil

lemma Mirrors.beq_iff (m : Mirrors f s records results scores) (a b : RecordId) :
    (f a == f b) = (a == b) := by
  rw [Bool.eq_iff_iff, beq_iff_eq, beq_iff_eq, m.keeps.eq_iff]

/-- The row of a number is there exactly when the record is. -/
lemma Mirrors.rowOf? (m : Mirrors f s records results scores) (id : RecordId) :
    Option.Rel (fun r row => row.Shows f r) (s.record? id) (Statement.rowOf? records (f id)) :=
  rel_find? m.records fun r row shows => by rw [shows.id, m.beq_iff]

/-- The row of a path is there exactly when the record is. -/
lemma Mirrors.rowAt? (m : Mirrors f s records results scores) (path : String) :
    Option.Rel (fun r row => row.Shows f r) (s.recordAt? path)
      (Statement.rowAt? records path) :=
  rel_find? m.records fun r row shows => by rw [shows.path]

lemma ResultRow.Shows.recordId {entry : RecordId × PassResult} {row : ResultRow}
    (shows : row.Shows f entry) : row.recordId = f entry.1 :=
  congrArg ResultRow.recordId shows.columns

lemma ResultRow.Shows.pass {entry : RecordId × PassResult} {row : ResultRow}
    (shows : row.Shows f entry) : row.pass = entry.2.pass :=
  congrArg ResultRow.pass shows.columns

lemma Mirrors.isRowOf (m : Mirrors f s records results scores) (id : RecordId) (pass : String)
    {entry : RecordId × PassResult} {row : ResultRow} (shows : row.Shows f entry) :
    MemoryStore.isResultOf id pass entry = Statement.isRowOf (f id) pass row := by
  rw [MemoryStore.isResultOf, Statement.isRowOf, shows.recordId, shows.pass, m.beq_iff]

/-! ### Reading -/

lemma Mirrors.get (m : Mirrors f s records results scores) (path : String) :
    ∃ r', Database.operations.get path (tables records results scores) = .ok r' ∧
      Option.Rel (Record.Agrees f) (s.recordAt? path) r' :=
  readOption_of_rel (m.rowAt? path) fun _ _ shows => shows.record

lemma Mirrors.list (m : Mirrors f s records results scores) :
    ∃ rs', Database.operations.list (tables records results scores) = .ok rs' ∧
      List.Forall₂ (Record.Agrees f) s.records rs' :=
  readAll_of_rel m.records fun _ _ shows => shows.record

lemma Mirrors.pending (m : Mirrors f s records results scores) (order : List String)
    (check : PendingCheck) :
    ∃ rs', Database.operations.pending order check (tables records results scores) = .ok rs' ∧
      List.Forall₂ (Record.Agrees f) (s.records.filter fun r => r.isPending order check) rs' := by
  obtain ⟨rs', hrs, rel⟩ := m.list
  refine ⟨rs'.filter fun r => r.isPending order check, by simp only [ArtifactStore.pending, hrs],
    forall₂_filter rel fun r r' agrees => ?_⟩
  cases check with
  | count => simp only [Record.isPending, agrees.completed]
  | set => simp only [Record.isPending, Record.hasCompleted, agrees.completed]

lemma Mirrors.resultsOf (m : Mirrors f s records results scores) (id : RecordId) :
    Database.operations.results (f id) (tables records results scores) = .ok (s.resultsOf id) := by
  have shown := forall₂_filter m.results
    (p := fun entry => entry.1 == id) (q := fun row => row.recordId == f id)
    fun entry row shows => by rw [shows.recordId, m.beq_iff]
  obtain ⟨rs, hrs, rel⟩ := readAll_of_rel shown (P := fun entry r => entry.2 = r)
    fun entry row shows => ⟨_, shows.result, rfl⟩
  rw [← List.forall₂_map_left_iff (f := Prod.snd), List.forall₂_eq_eq_eq] at rel
  rw [MemoryStore.resultsOf, rel]
  exact hrs

lemma Mirrors.latest (m : Mirrors f s records results scores) (id : RecordId) (pass : String) :
    Database.operations.latest (f id) pass (tables records results scores) =
      .ok (s.latest? id pass) := by
  have shown := rel_find? (List.rel_reverse m.results) fun _ _ shows => m.isRowOf id pass shows
  obtain ⟨r, hr, rel⟩ := readOption_of_rel shown (P := fun entry r => entry.2 = r)
    fun entry row shows => ⟨_, shows.result, rfl⟩
  rw [MemoryStore.latest?, map_eq_of_rel rel]
  exact hr

lemma Mirrors.scoresOf (m : Mirrors f s records results scores) (id : RecordId) :
    ∃ ss', Database.operations.scores (f id) (tables records results scores) = .ok ss' ∧
      List.Forall₂ Score.Agrees (s.scoresOf id) ss' := by
  have shown := forall₂_filter m.scores
    (p := fun entry => entry.1 == id) (q := fun row => row.recordId == f id)
    fun entry row shows => by rw [shows.row, m.beq_iff]
  exact ⟨_, rfl, List.rel_map (fun _ _ shows => shows.agrees) shown⟩

end

end Multipass.Relational
