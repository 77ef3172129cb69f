import Multipass.Proofs.Relational.Change
import Multipass.Proofs.Store.Agreement

/-!
# Operations on mirrors

Each operation of a database, from tables that mirror a store in memory, ends as the operation of
the store does: in an answer that agrees, and in tables that mirror the store behind it.

Main statement: `Mirrors.perform`.
-/

namespace Multipass.Relational

section

variable {f : RecordId → RecordId} {s : MemoryStore} {records : Table RecordRow}
  {results : Table ResultRow} {scores : List ScoreRow}

/-! ### Transactions on a mirror -/

section

variable {α : Type} {start db db' : Database}

lemma runFrom_require {q : Statement} {next : q.Answer → Transaction α} {a : q.Answer}
    (h : q.run db = (.ok a, db')) :
    (Transaction.require q next).runFrom start db = (next a).runFrom start db' := by
  simp only [Transaction.require, Transaction.runFrom, h]

end

/-- A score of a record that is there is set, if its value is defined. -/
lemma putScore_run {id : RecordId} {row : RecordRow} {value : Number.Double}
    (hrow : Statement.rowOf? records id = some row) (metric : String) (defined : value ≠ .nan)
    (results : Option (Table ResultRow)) (scores : List ScoreRow) :
    (Statement.putScore id metric value).run ⟨some records, results, some scores⟩ =
      (.ok (), ⟨some records, results,
        some (Statement.setScore ⟨id, metric, Statement.stored value⟩ scores)⟩) := by
  simp only [Statement.run, Statement.addScore, if_neg defined, hrow, Option.isNone_some,
    Bool.false_eq_true, if_false]
  rfl

/-- A score is set, or it is refused and all stays as it is. -/
lemma putScore_cases (records : Table RecordRow) (results : Table ResultRow) (scores : List ScoreRow)
    (id : RecordId) (metric : String) (value : Number.Double) :
    (∃ fault, (Statement.putScore id metric value).run (tables records results scores) =
      (.error fault, tables records results scores)) ∨
    (Statement.putScore id metric value).run (tables records results scores) =
      (.ok (), tables records results
        (Statement.setScore ⟨id, metric, Statement.stored value⟩ scores)) := by
  simp only [Statement.run, Statement.addScore, tables]
  split_ifs
  · exact .inl ⟨_, rfl⟩
  · exact .inl ⟨_, rfl⟩
  · exact .inr rfl

/-- The row of a record that is there. -/
lemma Mirrors.exists_row (m : Mirrors f s records results scores) {stored : Record}
    (mem : stored ∈ s.records) :
    ∃ row, Statement.rowOf? records (f stored.id) = some row ∧ row.Shows f stored := by
  have rel := m.rowOf? stored.id
  rw [m.wellFormed.record?_of_mem mem] at rel
  exact exists_of_rel_some rel

/-- A result of a pass stands in both or in neither. -/
lemma Mirrors.any_isRowOf (m : Mirrors f s records results scores) (id : RecordId)
    (pass : String) :
    results.rows.any (Statement.isRowOf (f id) pass) = true ↔ (id, pass) ∈ s.keys := by
  rw [← MemoryStore.any_isResultOf, any_eq m.results fun _ _ shows => m.isRowOf id pass shows]

/-- Appending a pass that is completed is refused. -/
lemma appendPass_of_mem {record current : Record} {pass : String} {row : RecordRow}
    (hrow : Statement.rowOf? records record.id = some row) (hcurrent : row.record = .ok current)
    (done : pass ∈ current.completed) (now : Timestamp) (start : Database) :
    (Transaction.appendPass record pass now).runFrom start (tables records results scores) =
      (.error (.duplicatePass record.path pass), start) := by
  have has : current.hasCompleted pass = true := by simpa [Record.hasCompleted] using done
  have read : (Statement.recordOf record.id).run (tables records results scores) =
      (.ok (some row), tables records results scores) := by rw [← hrow]; rfl
  refine (runFrom_require read).trans ?_
  simp only [hcurrent, has, if_true, Transaction.runFrom]

/-- A pass that is not completed is appended. -/
lemma appendPass_of_not_mem (results : Table ResultRow) (scores : List ScoreRow)
    {record current : Record} {pass : String} {row : RecordRow}
    (hrow : Statement.rowOf? records record.id = some row) (hcurrent : row.record = .ok current)
    (free : pass ∉ current.completed) (now : Timestamp) (start : Database) :
    (Transaction.appendPass record pass now).runFrom start (tables records results scores) =
      (.ok (current.complete pass now),
        tables (withCompleted records current.id (current.completed ++ [pass])
          (current.passIndex + 1) now) results scores) := by
  have has : current.hasCompleted pass = false := by simpa [Record.hasCompleted] using free
  have read : (Statement.recordOf record.id).run (tables records results scores) =
      (.ok (some row), tables records results scores) := by rw [← hrow]; rfl
  refine (runFrom_require read).trans ?_
  simp only [hcurrent, has, Bool.false_eq_true, if_false]
  exact (runFrom_require rfl).trans rfl

/-- A pass that is not completed is appended on both sides. -/
lemma Mirrors.appendPass_of_not_mem (m : Mirrors f s records results scores)
    {record stored : Record} {pass : String} {row : RecordRow} (mem : stored ∈ s.records)
    (hrow : Statement.rowOf? records record.id = some row)
    (shows : row.Shows f stored) (free : pass ∉ stored.completed) (now now' : Timestamp)
    (start : Database) :
    ∃ r' records', (Transaction.appendPass record pass now').runFrom start
        (tables records results scores) = (.ok r', tables records' results scores) ∧
      (stored.complete pass now).Agrees f r' ∧
      Mirrors f (s.completed stored.id pass now) records' results scores := by
  obtain ⟨current, hcurrent, agrees⟩ := shows.record
  have appended := Relational.appendPass_of_not_mem results scores hrow hcurrent
    (agrees.completed ▸ free) now' start
  refine ⟨current.complete pass now', _, appended, ?_, ?_⟩
  · exact { agrees with
      passIndex := congrArg (· + 1) agrees.passIndex
      completed := congrArg (· ++ [pass]) agrees.completed }
  · rw [agrees.id, agrees.completed, agrees.passIndex]
    exact m.completed now now' mem free

/-- A result of a pass that has one is refused. -/
lemma insertResult_of_any {α : Type} {record : Record} {result : PassResult}
    (taken : results.rows.any (Statement.isRowOf record.id result.pass) = true)
    (next : Transaction α) (start : Database) :
    (Transaction.insertResult record result next).runFrom start (tables records results scores) =
      (.error (.duplicatePass record.path result.pass), start) := by
  have fault : Statement.addResult (tables records results scores) (.ofResult record.id result) =
      (.error .uniqueKey, tables records results scores) := by
    simp only [Statement.addResult, tables, ResultRow.ofResult, taken, if_true]
  simp only [Transaction.insertResult, Transaction.runFrom, Statement.run, fault]

/-- A result of a pass that has none is inserted. -/
lemma insertResult_of_not_any {α : Type} {record : Record} {result : PassResult} {row : RecordRow}
    (free : results.rows.any (Statement.isRowOf record.id result.pass) = false)
    (hrow : Statement.rowOf? records record.id = some row) (next : Transaction α)
    (start : Database) :
    (Transaction.insertResult record result next).runFrom start (tables records results scores) =
      next.runFrom start (tables records
        (withResult results record.id result) scores) := by
  have done : Statement.addResult (tables records results scores) (.ofResult record.id result) =
      (.ok (), tables records
        (withResult results record.id result) scores) := by
    simp only [Statement.addResult, tables, withResult, ResultRow.ofResult, free, hrow,
      Bool.false_eq_true, if_false, Option.isNone_some]
  simp only [Transaction.insertResult, Transaction.runFrom, Statement.run, done]

section

variable {id : RecordId} {pass : String} {row : RecordRow} {names : List String}

/-- Whether a pass is listed is read off the row of its record. -/
lemma listsPass_eq (hrow : Statement.rowOf? records id = some row)
    (listed : row.completed = writeNames names) (pass : String) :
    Statement.listsPass records id pass = .ok (names.contains pass) := by
  simp only [Statement.listsPass, hrow, listed, someIsText_writeNames]

/-- The result of a pass that is completed stays. -/
lemma dropUncompleted_of_mem (hrow : Statement.rowOf? records id = some row)
    (listed : row.completed = writeNames names) (done : pass ∈ names) :
    (Statement.deleteUncompleted id pass).run (tables records results scores) =
      (.ok (), tables records results scores) := by
  have lists := listsPass_eq hrow listed pass
  rw [List.contains_iff_mem.2 done] at lists
  simp only [Statement.run, Statement.dropUncompleted, tables, lists]
  split <;> rfl

/-- The results of a pass that are not listed go. -/
lemma dropUncompleted_of_unlisted (lists : Statement.listsPass records id pass = .ok false) :
    (Statement.deleteUncompleted id pass).run (tables records results scores) =
      (.ok (), tables records (withoutResult results id pass) scores) := by
  simp only [Statement.run, Statement.dropUncompleted, tables, lists]
  split
  · rfl
  · next none =>
    have all : ∀ row ∈ results.rows, (!Statement.isRowOf id pass row) = true := by
      simpa using none
    rw [withoutResult, List.filter_eq_self.2 all]
    rfl

/-- The result of a pass that is not completed goes. -/
lemma dropUncompleted_of_not_mem (hrow : Statement.rowOf? records id = some row)
    (listed : row.completed = writeNames names) (free : pass ∉ names) :
    (Statement.deleteUncompleted id pass).run (tables records results scores) =
      (.ok (), tables records (withoutResult results id pass) scores) := by
  have lists := listsPass_eq hrow listed pass
  rw [Bool.eq_false_iff.2 (mt List.contains_iff_mem.1 free)] at lists
  exact dropUncompleted_of_unlisted lists

end

/-! ### Requests -/

/-- Holds of a request to a store in memory and a request to its mirror that end alike: in responses
that agree, and in a store and its mirror, under a renaming that keeps the numbers that were
given. -/
inductive Alike (f : RecordId → RecordId) (s : MemoryStore) :
    Response × MemoryStore → Response × Database → Prop where
  | intro {f' response response' s' records results scores} :
    (∀ id, id < s.nextId → f' id = f id) →
    Mirrors f' s' records results scores →
    response.Agrees f' response' →
    Alike f s (response, s') (response', tables records results scores)

section

variable {α : Type} {g : α → Answer} {a b : α}

/-- Questions that are answered alike. -/
lemma Mirrors.reads (m : Mirrors f s records results scores) {query : Query MemoryStore α}
    {query' : Query Database α} (h : query s = .ok a)
    (h' : query' (tables records results scores) = .ok b) (agrees : (g a).Agrees f (g b)) :
    Alike f s (Request.reading g query s)
      (Request.reading g query' (tables records results scores)) := by
  simp only [Request.reading, h, h', Except.map]
  exact .intro (fun _ _ => rfl) m (.ok agrees)

/-- Actions that are refused alike. -/
lemma Mirrors.refuses (m : Mirrors f s records results scores) {action : Action MemoryStore α}
    {action' : Action Database α} {e : StoreError} (h : action s = (.error e, s))
    (h' : action' (tables records results scores) = (.error e, tables records results scores)) :
    Alike f s (Request.answering g action s)
      (Request.answering g action' (tables records results scores)) := by
  simp only [Request.answering, h, h', Except.map]
  exact .intro (fun _ _ => rfl) m (.error e)

/-- Actions that succeed alike. -/
lemma Mirrors.acts {f' : RecordId → RecordId} {s' : MemoryStore} {db : Database}
    {records : Table RecordRow} {results : Table ResultRow} {scores : List ScoreRow}
    (m' : Mirrors f' s' records results scores) {action : Action MemoryStore α}
    {action' : Action Database α} (same : ∀ id, id < s.nextId → f' id = f id)
    (h : action s = (.ok a, s')) (h' : action' db = (.ok b, tables records results scores))
    (agrees : (g a).Agrees f' (g b)) :
    Alike f s (Request.answering g action s) (Request.answering g action' db) := by
  simp only [Request.answering, h, h', Except.map]
  exact .intro same m' (.ok agrees)

end

lemma Mirrors.perform_upsert (m : Mirrors f s records results scores) {new : NewRecord}
    (plain : new.parsed.Plain) (now now' : Timestamp) :
    Alike f s (Request.answering .outcome (MemoryStore.upsert new now) s)
      (Request.answering .outcome (Transaction.upsert new now').run
        (tables records results scores)) := by
  have rel := m.rowAt? new.path
  cases hs : s.recordAt? new.path with
  | none =>
    rw [hs] at rel
    have hrow := eq_none_of_rel_none rel
    have read : (Statement.contentOf new.path).run (tables records results scores) =
        (.ok none, tables records results scores) := by
      simp only [Statement.run, Statement.ask, tables, hrow, Option.map_none]
    refine (m.inserted plain now now' (MemoryStore.recordAt?_eq_none.1 hs)).acts
      (a := .inserted) (b := .inserted) (fun _ lt => extended_of_lt lt) ?_ ?_ (.outcome _)
    · simp only [MemoryStore.upsert, hs]
      rfl
    · refine (runFrom_require read).trans ((runFrom_require rfl).trans ?_)
      simp only [Transaction.runFrom, tables, Statement.upsert, hrow]
  | some old =>
    obtain ⟨mem, -⟩ := MemoryStore.recordAt?_eq_some hs
    rw [hs] at rel
    obtain ⟨row, hrow, shows⟩ := exists_of_rel_some rel
    have read : (Statement.contentOf new.path).run (tables records results scores) =
        (.ok (some (row.hash, row.parsed)), tables records results scores) := by
      simp only [Statement.run, Statement.ask, tables, hrow, Option.map_some]
    -- Values with the same text are the same, so that both find the same artifacts unchanged.
    have unchanged : (row.hash == new.hash && row.parsed == new.parsed.compact) =
        (old.hash == new.hash && old.parsed.same new.parsed) := by
      rw [Bool.eq_iff_iff]
      simp only [Bool.and_eq_true, beq_iff_eq, shows.hash, shows.parsed,
        Json.same_iff_compact shows.plain plain]
    cases h : old.hash == new.hash && old.parsed.same new.parsed with
    | true =>
      refine m.acts (a := .unchanged) (b := .unchanged) (fun _ _ => rfl) ?_ ?_ (.outcome _)
      · simp only [MemoryStore.upsert, hs, h, if_true]
      · refine (runFrom_require read).trans ?_
        simp only [unchanged, h, if_true, Transaction.runFrom]
    | false =>
      refine (m.refreshed plain now now' mem).acts (a := .updated) (b := .updated)
        (fun _ _ => rfl) ?_ ?_ (.outcome _)
      · simp only [MemoryStore.upsert, hs, h, Bool.false_eq_true, if_false]
        rfl
      · refine (runFrom_require read).trans ?_
        simp only [unchanged, h, Bool.false_eq_true, if_false]
        refine (runFrom_require rfl).trans ?_
        simp only [Transaction.runFrom, tables, Statement.upsert, hrow, shows.id]

lemma Mirrors.perform_recordResult (m : Mirrors f s records results scores)
    {record record' : Record} {result : PassResult} (agrees : record.Agrees f record')
    (there : record.id ∈ s.ids) (plain : result.Plain) :
    Alike f s (Request.answering (fun _ => .done) (MemoryStore.recordResult record result) s)
      (Request.answering (fun _ => .done) (Transaction.recordResult record' result).run
        (tables records results scores)) := by
  obtain ⟨stored, mem, eq⟩ := List.mem_map.1 there
  have found := m.wellFormed.record?_of_mem mem
  obtain ⟨row, hrow, shows⟩ := m.exists_row mem
  rw [eq] at found
  rw [eq, ← agrees.id] at hrow
  have any := m.any_isRowOf record.id result.pass
  rw [← agrees.id] at any
  have read : ∀ results, (Statement.completedOf record'.id).run (tables records results scores) =
      (.ok (some (writeNames stored.completed)), tables records results scores) := fun results => by
    simp only [Statement.run, Statement.ask, tables, hrow, Option.map_some, shows.completed]
  by_cases taken : (record.id, result.pass) ∈ s.keys
  · -- The unique key refuses the result before the list of the record is read.
    refine m.refuses (e := .duplicatePass record.path result.pass) ?_ ?_
    · simp only [MemoryStore.recordResult, found, MemoryStore.any_isResultOf.2 taken, Bool.or_true,
        if_true]
    · refine (insertResult_of_any (any.2 taken) _ _).trans ?_
      rw [agrees.path]
  · have none := Bool.eq_false_iff.2 (mt any.1 taken)
    have none' := Bool.eq_false_iff.2 (mt MemoryStore.any_isResultOf.1 taken)
    cases done : stored.hasCompleted result.pass with
    | true =>
      -- The result is inserted before the list is read, and is taken back.
      refine m.refuses (e := .duplicatePass record.path result.pass) ?_ ?_
      · simp only [MemoryStore.recordResult, found, done, Bool.true_or, if_true]
      · refine (insertResult_of_not_any none hrow _ _).trans ((runFrom_require (read _)).trans ?_)
        simp only [readNames_writeNames]
        rw [if_pos (by exact done), agrees.path]
        rfl
    | false =>
      rw [← eq] at there taken
      refine (m.kept plain there taken).acts (a := ()) (b := ())
        (fun _ _ => rfl) ?_ ?_ .done
      · simp only [MemoryStore.recordResult, found, done, none', Bool.or_false, Bool.false_eq_true,
          if_false, eq]
        rfl
      · refine (insertResult_of_not_any none hrow _ _).trans ((runFrom_require (read _)).trans ?_)
        simp only [readNames_writeNames]
        rw [if_neg (by simpa [Record.hasCompleted] using done), agrees.id, eq]
        rfl

lemma Mirrors.perform_advance (m : Mirrors f s records results scores) {record record' : Record}
    {pass : String} (agrees : record.Agrees f record') (there : record.id ∈ s.ids)
    (now now' : Timestamp) :
    Alike f s (Request.answering .record (MemoryStore.advance record pass now) s)
      (Request.answering .record (Transaction.advance record' pass now').run
        (tables records results scores)) := by
  obtain ⟨stored, mem, eq, free, h⟩ | ⟨stored, mem, eq, done, h⟩ | ⟨gone, -⟩ :=
    MemoryStore.advance_cases s record pass now
  · obtain ⟨row, hrow, shows⟩ := m.exists_row mem
    rw [eq, ← agrees.id] at hrow
    obtain ⟨r', records', h', same, m'⟩ := m.appendPass_of_not_mem mem hrow shows free now now'
      (tables records results scores)
    rw [eq] at m'
    exact m'.acts (fun _ _ => rfl) h h' (.record same)
  · obtain ⟨row, hrow, shows⟩ := m.exists_row mem
    rw [eq, ← agrees.id] at hrow
    obtain ⟨current, hcurrent, same⟩ := shows.record
    refine m.refuses h ?_
    rw [← agrees.path]
    exact appendPass_of_mem hrow hcurrent (same.completed ▸ done) now' _
  · exact absurd there gone

lemma Mirrors.perform_commit (m : Mirrors f s records results scores) {record record' : Record}
    {result : PassResult} (agrees : record.Agrees f record') (there : record.id ∈ s.ids)
    (plain : result.Plain) (now now' : Timestamp) :
    Alike f s (Request.answering .record (MemoryStore.commit record result now) s)
      (Request.answering .record (Transaction.commitPass record' result now').run
        (tables records results scores)) := by
  obtain ⟨stored, mem, eq, free, h⟩ | ⟨stored, mem, eq, done, h⟩ | ⟨gone, -⟩ :=
    MemoryStore.commit_cases s record result now
  · -- What was kept goes, the result is inserted, and the pass is appended; the record is changed
    -- last, and first in memory, which comes to the same.
    obtain ⟨row, hrow, shows⟩ := m.exists_row mem
    rw [eq, ← agrees.id] at hrow
    have dropped := m.dropped record.id result.pass
    have none : (record.id, result.pass) ∉ (s.dropped record.id result.pass).keys := by simp
    have kept := dropped.kept plain there none
    rw [← agrees.id] at dropped kept
    have any := Bool.eq_false_iff.2 (mt (dropped.any_isRowOf record.id result.pass).1 none)
    rw [← agrees.id] at any
    obtain ⟨r', records', h', same, m'⟩ := kept.appendPass_of_not_mem mem hrow shows free now now'
      (tables records results scores)
    rw [eq] at m'
    refine Mirrors.acts m' (fun _ _ => rfl) h ?_ (.record same)
    refine (runFrom_require (dropUncompleted_of_not_mem hrow shows.completed free)).trans ?_
    exact (insertResult_of_not_any any hrow _ _).trans h'
  · obtain ⟨row, hrow, shows⟩ := m.exists_row mem
    rw [eq, ← agrees.id] at hrow
    refine m.refuses h ?_
    rw [← agrees.path]
    refine (runFrom_require (dropUncompleted_of_mem hrow shows.completed done)).trans ?_
    -- A result of the pass stays, and the unique key refuses the new one; without a result, the
    -- list of the record refuses the pass.
    cases taken : results.rows.any (Statement.isRowOf record'.id result.pass) with
    | true => exact insertResult_of_any taken _ _
    | false =>
      obtain ⟨current, hcurrent, same⟩ := shows.record
      exact (insertResult_of_not_any taken hrow _ _).trans
        (appendPass_of_mem hrow hcurrent (same.completed ▸ done) now' _)
  · exact absurd there gone

/-- Scores are set one after the other. -/
lemma Mirrors.saveScores (m : Mirrors f s records results scores) {id : RecordId}
    (there : id ∈ s.ids) {values : List Score} (finite : ∀ score ∈ values, score.IsFinite)
    (start : Database) :
    ∃ scores', (Transaction.saveScores (f id) values).runFrom start
        (tables records results scores) = (.ok (), tables records results scores') ∧
      Mirrors f (MemoryStore.saveScores id values s).2 records results scores' := by
  induction values generalizing s scores with
  | nil => exact ⟨scores, rfl, m⟩
  | cons score values ih =>
    obtain ⟨stored, mem, eq⟩ := List.mem_map.1 there
    obtain ⟨row, hrow, -⟩ := m.exists_row mem
    rw [eq] at hrow
    have own := finite score List.mem_cons_self
    have done := putScore_run hrow score.metric own.ne_nan (some results) scores
    obtain ⟨scores', h', m'⟩ := ih (m.scored own there) there
      fun other mem => finite other (List.mem_cons_of_mem score mem)
    exact ⟨scores', (runFrom_require done).trans h', m'⟩

lemma Mirrors.perform_delete (m : Mirrors f s records results scores) (path : String) :
    Alike f s (Request.answering .deleted (MemoryStore.delete path) s)
      (Request.answering .deleted (Transaction.delete path).run
        (tables records results scores)) := by
  have rel := m.rowAt? path
  cases hs : s.recordAt? path with
  | none =>
    rw [hs] at rel
    have read : (Statement.idAt path).run (tables records results scores) =
        (.ok none, tables records results scores) := by
      simp only [Statement.run, Statement.ask, tables, eq_none_of_rel_none rel, Option.map_none]
    refine m.acts (a := false) (b := false) (fun _ _ => rfl) ?_ (runFrom_require read)
      (.deleted _)
    simp only [MemoryStore.delete, hs]
  | some old =>
    rw [hs] at rel
    obtain ⟨row, hrow, shows⟩ := exists_of_rel_some rel
    have read : (Statement.idAt path).run (tables records results scores) =
        (.ok (some (f old.id)), tables records results scores) := by
      simp only [Statement.run, Statement.ask, tables, hrow, Option.map_some, shows.id]
    refine (m.removed old.id).acts (a := true) (b := true) (fun _ _ => rfl) ?_ ?_ (.deleted _)
    · simp only [MemoryStore.delete, hs]
      rfl
    · refine (runFrom_require read).trans ?_
      refine (runFrom_require rfl).trans ((runFrom_require rfl).trans ((runFrom_require rfl).trans ?_))
      simp only [Transaction.runFrom, tables, Option.map_some, List.filter_filter, Bool.and_self]

/-- Whether a record is there is seen alike. -/
lemma Mirrors.holds (m : Mirrors f s records results scores) (id : RecordId) :
    Database.operations.holds (tables records results scores) (f id) =
      MemoryStore.operations.holds s id := by
  obtain ⟨rs', hrs, rel⟩ := m.list
  show _ = s.records.any fun r => r.id == id
  simp only [ArtifactStore.holds, hrs]
  exact (any_eq rel fun r r' agrees => by rw [agrees.id, m.beq_iff]).symm

/-- A request may be put to a store exactly when its reading may be put to a mirror. -/
lemma Mirrors.holds_subject (m : Mirrors f s records results scores)
    {request request' : Request Record RecordId} (agrees : request.Agrees f request') :
    request'.subject?.all (Database.operations.holds (tables records results scores)) =
      request.subject?.all (MemoryStore.operations.holds s) := by
  rw [agrees.subject?]
  cases request.subject? with
  | none => rfl
  | some id => exact m.holds id

/-- A request that names a record that is there ends alike in a store and in its mirror. -/
theorem Mirrors.perform (m : Mirrors f s records results scores)
    {request request' : Request Record RecordId} (agrees : request.Agrees f request')
    (plain : request.Plain) (there : ∀ id ∈ request.subject?, id ∈ s.ids) (now now' : Timestamp) :
    Alike f s (request.perform MemoryStore.operations now s)
      (request'.perform Database.operations now' (tables records results scores)) := by
  cases agrees with
  | upsert new => exact m.perform_upsert plain now now'
  | get path =>
    obtain ⟨r', h', rel⟩ := m.get path
    exact m.reads rfl h' (.record? rel)
  | list =>
    obtain ⟨rs', h', rel⟩ := m.list
    exact m.reads rfl h' (.records rel)
  | pending order check =>
    obtain ⟨rs', h', rel⟩ := m.pending order check
    exact m.reads rfl h' (.records rel)
  | recordResult result same => exact m.perform_recordResult same (there _ rfl) plain
  | advance pass same => exact m.perform_advance same (there _ rfl) now now'
  | commit result same => exact m.perform_commit same (there _ rfl) plain now now'
  | results id => exact m.reads rfl (m.resultsOf id) (.results _)
  | latest id pass => exact m.reads rfl (m.latest id pass) (.result? _)
  | saveScores id values =>
    obtain ⟨scores', h', m'⟩ := m.saveScores (there _ rfl) plain (tables records results scores)
    exact m'.acts (fun _ _ => rfl) rfl h' .done
  | scores id =>
    obtain ⟨ss', h', rel⟩ := m.scoresOf id
    exact m.reads rfl h' (.scores rel)
  | delete path => exact m.perform_delete path

end

end Multipass.Relational
