import Multipass.Proofs.Relational.Mirror
import Multipass.Proofs.Store.Scores

/-!
# Changes of mirrors

A change of a store in memory and the change of the tables that belongs to it leave a mirror. The
renaming of numbers only changes with a new record, and then only where no number was given before.

Main statements: `Mirrors.inserted`, `Mirrors.refreshed`, `Mirrors.completed`, `Mirrors.kept`,
`Mirrors.dropped`, `Mirrors.removed` and `Mirrors.scored`.
-/

namespace Multipass.Relational

/-- The renaming behind a new record: its number, and those to come, follow the last one that the
table has given. -/
def extended (f : Int → Int) (next last id : Int) : Int :=
  if id < next then f id else last + 1 + (id - next)

lemma extended_of_lt {f : Int → Int} {next last id : Int} (lt : id < next) :
    extended f next last id = f id :=
  if_pos lt

lemma extended_self (f : Int → Int) (next last : Int) : extended f next last next = last + 1 := by
  simp [extended]

lemma keepsOrder_extended {f : Int → Int} {next last : Int} (keeps : KeepsOrder f)
    (given : ∀ id, id < next → f id ≤ last) : KeepsOrder (extended f next last) := by
  intro a b lt
  by_cases ha : a < next
  · rw [extended_of_lt ha]
    by_cases hb : b < next
    · rw [extended_of_lt hb]
      exact keeps a b lt
    · have := given a ha
      rw [extended, if_neg hb]
      omega
  · rw [extended, extended, if_neg ha, if_neg (by omega)]
    omega

section

variable {f f' : RecordId → RecordId} {s : MemoryStore} {records : Table RecordRow}
  {results : Table ResultRow} {scores : List ScoreRow}

/-! ### Changes of the mirror -/

/-- A mirror under another renaming of the numbers that were given. -/
lemma Mirrors.renamed (m : Mirrors f s records results scores) (keeps : KeepsOrder f')
    (same : ∀ id, id < s.nextId → f' id = f id) : Mirrors f' s records results scores where
  keeps := keeps
  wellFormed := m.wellFormed
  given := fun id lt => same id lt ▸ m.given id lt
  owned := m.owned
  records := by
    refine (forall₂_mem m.records).imp fun r row ⟨mem, shows⟩ => ?_
    exact { shows with id := shows.id.trans (same _ (m.wellFormed.below_of_mem mem)).symm }
  results := by
    refine (forall₂_mem m.results).imp fun entry row ⟨mem, shows⟩ => ?_
    have lt := m.wellFormed.below _ (m.wellFormed.owned _ (List.mem_map_of_mem mem))
    exact { shows with columns := same entry.1 lt ▸ shows.columns }
  scores := by
    refine (forall₂_mem m.scores).imp fun entry row ⟨mem, shows⟩ => ?_
    exact { shows with row := same entry.1 (m.owned entry mem) ▸ shows.row }

/-- A change of one record and of its row. -/
lemma Mirrors.modified (m : Mirrors f s records results scores) {id : RecordId}
    {g : Record → Record} {g' : RecordRow → RecordRow} {lastId : Int} (le : records.lastId ≤ lastId)
    (wf : (s.modifyRecord id g).WellFormed)
    (each : ∀ r ∈ s.records, r.id = id → ∀ row, row.Shows f r → (g' row).Shows f (g r)) :
    Mirrors f (s.modifyRecord id g)
      ⟨records.rows.map fun row => if row.id = f id then g' row else row, lastId⟩ results scores where
  keeps := m.keeps
  wellFormed := wf
  given := fun id lt => Int.le_trans (m.given id lt) le
  owned := m.owned
  records := by
    have shown := forall₂_mem m.records
    refine List.rel_map ?_ shown
    rintro r row ⟨mem, shows⟩
    have same : row.id = f id ↔ r.id = id := by rw [shows.id, m.keeps.eq_iff]
    by_cases h : r.id = id
    · simp only [if_pos h, if_pos (same.2 h)]
      exact each r mem h row shows
    · simp only [if_neg h, if_neg (mt same.1 h)]
      exact shows
  results := m.results
  scores := m.scores

/-- A new record on both sides. -/
lemma Mirrors.inserted (m : Mirrors f s records results scores) {new : NewRecord}
    (plain : new.parsed.Plain) (now now' : Timestamp) (free : new.path ∉ s.paths) :
    Mirrors (extended f s.nextId records.lastId) (s.inserted new now)
      ⟨records.rows ++ [{
        id := records.lastId + 1
        path := new.path
        language := new.language
        source := new.source
        hash := new.hash
        parsed := new.parsed.compact
        passIndex := 0
        completed := "[]"
        createdAt := now'
        updatedAt := now' }], records.lastId + 1⟩ results scores := by
  -- The renaming is extended first, and the new record then stands under the next number.
  have m' := m.renamed (keepsOrder_extended m.keeps m.given) fun _ lt => extended_of_lt lt
  exact {
    keeps := m'.keeps
    wellFormed := m.wellFormed.inserted now free
    given := fun id lt => by
      obtain lt | rfl := Int.lt_or_eq_of_le (Int.lt_add_one_iff.1 lt)
      · rw [extended_of_lt lt]
        exact Int.le_trans (m.given id lt) (Int.le_of_lt (Int.lt_succ _))
      · exact Int.le_of_eq (extended_self ..)
    owned := fun entry mem => Int.lt_trans (m.owned entry mem) (Int.lt_succ _)
    records := forall₂_append m'.records <| .cons (R := fun r row => RecordRow.Shows _ r row) {
      id := (extended_self ..).symm
      path := rfl
      language := rfl
      source := rfl
      hash := rfl
      parsed := rfl
      passIndex := rfl
      completed := rfl
      plain := plain } .nil
    results := m'.results
    scores := m'.scores }

/-- A record refreshed on both sides. -/
lemma Mirrors.refreshed (m : Mirrors f s records results scores) {old : Record} {new : NewRecord}
    (plain : new.parsed.Plain) (now now' : Timestamp) (mem : old ∈ s.records) :
    Mirrors f (s.refreshed old.id new now)
      ⟨records.rows.map fun row => if row.id = f old.id then
          { row with
            language := new.language
            source := new.source
            hash := new.hash
            parsed := new.parsed.compact
            updatedAt := now' }
          else row, records.lastId + 1⟩ results scores := by
  refine m.modified (Int.le_of_lt (Int.lt_succ _))
    ((MemoryStore.Change.refresh mem).wellFormed m.wellFormed) fun r _ _ row shows => ?_
  exact { shows with language := rfl, source := rfl, hash := rfl, parsed := rfl, plain := plain }

/-- The table of records with the completed passes of one record set. -/
def withCompleted (records : Table RecordRow) (id : RecordId) (names : List String)
    (passIndex : Int) (now : Timestamp) : Table RecordRow :=
  { records with rows := records.rows.map fun row =>
      if row.id = id then { row with completed := writeNames names, passIndex, updatedAt := now }
      else row }

/-- A pass completed on both sides. -/
lemma Mirrors.completed (m : Mirrors f s records results scores) {stored : Record} {pass : String}
    (now now' : Timestamp) (mem : stored ∈ s.records) (free : pass ∉ stored.completed) :
    Mirrors f (s.completed stored.id pass now)
      (withCompleted records (f stored.id) (stored.completed ++ [pass]) (stored.passIndex + 1) now')
      results scores := by
  refine m.modified (Int.le_refl _) (m.wellFormed.completed now mem free) fun r memr eq row shows => ?_
  obtain rfl := m.wellFormed.eq_of_id memr mem eq
  exact { shows with completed := rfl, passIndex := rfl }

/-- The table of results with one more. -/
def withResult (results : Table ResultRow) (id : RecordId) (result : PassResult) :
    Table ResultRow where
  rows := results.rows ++ [{ ResultRow.ofResult id result with id := results.lastId + 1 }]
  lastId := results.lastId + 1

/-- A result kept on both sides. -/
lemma Mirrors.kept (m : Mirrors f s records results scores) {id : RecordId} {result : PassResult}
    (plain : result.Plain) (mem : id ∈ s.ids) (free : (id, result.pass) ∉ s.keys) :
    Mirrors f (s.kept id result) records (withResult results (f id) result) scores := by
  have shows : ResultRow.Shows f (id, result)
      { ResultRow.ofResult (f id) result with id := results.lastId + 1 } :=
    { columns := by simp only [ResultRow.ofResult], plain := plain }
  exact { m with
    wellFormed := m.wellFormed.kept mem free
    results := forall₂_append m.results (.cons shows .nil) }

/-- The table of results without those of a pass of a record. -/
def withoutResult (results : Table ResultRow) (id : RecordId) (pass : String) : Table ResultRow :=
  { results with rows := results.rows.filter fun row => !Statement.isRowOf id pass row }

/-- The results of a pass dropped on both sides. -/
lemma Mirrors.dropped (m : Mirrors f s records results scores) (id : RecordId) (pass : String) :
    Mirrors f (s.dropped id pass) records (withoutResult results (f id) pass) scores :=
  { m with
    wellFormed := m.wellFormed.dropped id pass
    results := forall₂_filter m.results fun _ _ shows => by rw [m.isRowOf id pass shows] }

/-- A record removed on both sides, with its results and scores. -/
lemma Mirrors.removed (m : Mirrors f s records results scores) (id : RecordId) :
    Mirrors f (s.removed id)
      { records with rows := records.rows.filter fun row => row.id != f id }
      { results with rows := results.rows.filter fun row => row.recordId != f id }
      (scores.filter fun row => row.recordId != f id) where
  keeps := m.keeps
  wellFormed := m.wellFormed.removed id
  given := m.given
  owned := fun entry mem => m.owned entry (List.mem_of_mem_filter mem)
  records := forall₂_filter m.records fun r row shows => by
    rw [bne, bne, shows.id, m.beq_iff]
  results := forall₂_filter m.results fun entry row shows => by
    rw [bne, bne, shows.recordId, m.beq_iff]
  scores := forall₂_filter m.scores fun entry row shows => by
    rw [bne, bne, shows.row, m.beq_iff]

/-- A score set on both sides. -/
lemma forall₂_setScore (keeps : KeepsOrder f) {id : RecordId} {score : Score}
    (finite : score.IsFinite) {entries : List (RecordId × Score)} {rows : List ScoreRow}
    (h : List.Forall₂ (fun entry row => ScoreRow.Shows f entry row) entries rows) :
    List.Forall₂ (fun entry row => ScoreRow.Shows f entry row)
      (MemoryStore.setScore id score entries)
      (Statement.setScore ⟨f id, score.metric, Statement.stored score.value⟩ rows) := by
  have shows : ScoreRow.Shows f (id, score) ⟨f id, score.metric, Statement.stored score.value⟩ :=
    { row := rfl, finite := finite }
  induction h with
  | nil => exact .cons shows .nil
  | @cons entry row entries rows head tail ih =>
    obtain ⟨i, other⟩ := entry
    obtain rfl := head.row
    simp only [MemoryStore.setScore, Statement.setScore, keeps.lt_iff, keeps.eq_iff]
    split
    · exact .cons shows (.cons head tail)
    · split
      · exact .cons shows tail
      · exact .cons head ih

/-- A score of a record that is there, set on both sides. -/
lemma Mirrors.scored (m : Mirrors f s records results scores) {id : RecordId} {score : Score}
    (finite : score.IsFinite) (there : id ∈ s.ids) :
    Mirrors f { s with scores := MemoryStore.setScore id score s.scores } records results
      (Statement.setScore ⟨f id, score.metric, Statement.stored score.value⟩ scores) :=
  { m with
    wellFormed := MemoryStore.Change.score.wellFormed m.wellFormed
    owned := fun entry mem => by
      obtain rfl | mem := MemoryStore.mem_setScore mem
      · exact m.wellFormed.below id there
      · exact m.owned entry mem
    scores := forall₂_setScore m.keeps finite m.scores }

end

end Multipass.Relational
