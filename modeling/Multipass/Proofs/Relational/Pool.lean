import Mathlib.Logic.Function.Basic
import Multipass.Proofs.Store.Request
import Multipass.Store.Relational.Operations

/-!
# Pools of connections

Any number of connections to one database, each with a transaction of its own, of which one
statement after the other is executed while the other connections do the same. The database lets
them read at the same time and write one at a time:

* A transaction sees the tables as they were at its first statement, with its own changes.
* Its first change takes the lock of the writer. If the transaction has read before, this fails when
  another connection holds the lock, or when a commit has made what was read out of date. If it has
  read nothing, it waits for the lock.
* The changes become visible to others with the commit, and leave no trace without it.

Apart from that, the database may refuse any statement and any commit at any time.

Main statement: `Pool.run_serial`. Whatever the connections do, the tables are those to which the
committed operations lead one at a time, in the order of the commits, with the same answers.
-/

namespace Multipass

/-- Holds of the answer that there is nothing to delete. -/
def Answer.isAbsent : Answer → Bool
  | .deleted false => true
  | _ => false

namespace Relational

/-! ### Transactions and their answers -/

namespace Transaction

variable {α β : Type}

/-- A transaction whose answer is put into another form. -/
def map (f : α → β) : Transaction α → Transaction β
  | .commit a => .commit (f a)
  | .rollback answer => .rollback (answer.map f)
  | .perform s next => .perform s fun answer => (next answer).map f

lemma runFrom_map (f : α → β) (t : Transaction α) (start db : Database) :
    (t.map f).runFrom start db = ((t.runFrom start db).1.map f, (t.runFrom start db).2) := by
  induction t generalizing db with
  | commit a => rfl
  | rollback answer => rfl
  | perform s next ih => exact ih (s.run db).1 (s.run db).2

end Transaction

/-- An operation that takes a transaction, with the time that it writes. -/
inductive Operation where
  | recordResult (record : Record) (result : PassResult)
  | advance (record : Record) (pass : String) (now : Timestamp)
  | commit (record : Record) (result : PassResult) (now : Timestamp)
  | delete (path : String)

namespace Operation

/-- Executes an operation alone. -/
def perform : Operation → Action Database Answer
  | .recordResult record result =>
    Request.answering (fun _ => .done) (Database.operations.recordResult record result)
  | .advance record pass now =>
    Request.answering .record (Database.operations.advance record pass now)
  | .commit record result now =>
    Request.answering .record (Database.operations.commit record result now)
  | .delete path => Request.answering .deleted (Database.operations.delete path)

/-- The statements of an operation. -/
def transaction : Operation → Transaction Answer
  | .recordResult record result => (Transaction.recordResult record result).map fun _ => .done
  | .advance record pass now => (Transaction.advance record pass now).map .record
  | .commit record result now => (Transaction.commitPass record result now).map .record
  | .delete path => (Transaction.delete path).map .deleted

/-- To execute an operation alone is to run its statements without others between them. -/
lemma perform_eq (op : Operation) (db : Database) : op.perform db = op.transaction.run db := by
  cases op <;> exact (Transaction.runFrom_map ..).symm

/-- Executes operations one at a time. -/
def performAll : List Operation → Database → List Response × Database
  | [], db => ([], db)
  | op :: ops, db =>
    let (answer, db) := op.perform db
    let (answers, db) := performAll ops db
    (answer :: answers, db)

lemma performAll_concat (ops : List Operation) (op : Operation) (db : Database) :
    performAll (ops ++ [op]) db =
      ((performAll ops db).1 ++ [(op.perform (performAll ops db).2).1],
        (op.perform (performAll ops db).2).2) := by
  induction ops generalizing db with
  | nil => rfl
  | cons first ops ih => simp only [List.cons_append, performAll, ih]

end Operation

/-! ### Connections -/

/-- How far a transaction is. -/
inductive Hold where
  /-- No statement was executed. -/
  | begun
  /-- It has only read, from the tables after so many commits. -/
  | reading (commits : Nat) (view : Database)
  /-- It has the lock of the writer, and sees its own changes. -/
  | writing (view : Database)

namespace Hold

/-- Holds of a transaction with the lock of the writer. -/
def isWriting : Hold → Bool
  | .writing _ => true
  | _ => false

/-- The tables that a commit makes visible. -/
def written? : Hold → Option Database
  | .writing view => some view
  | _ => none

end Hold

/-- A transaction under way. -/
structure Active where
  operation : Operation
  /-- What is still to be done. -/
  rest : Transaction Answer
  hold : Hold

/-- What a connection does when it is its turn. -/
inductive Turn where
  | wait
  | goOn (a : Active)
  | commit (answer : Answer) (written? : Option Database)
  | rollback (answer : Response)

namespace Active

/-- A transaction of which nothing is done. -/
def start (op : Operation) : Active where
  operation := op
  rest := op.transaction
  hold := .begun

/-- The transaction behind a statement that was answered. -/
def answered (a : Active) (rest : Transaction Answer) (hold : Hold) : Active :=
  { a with rest, hold }

/-- What comes next for a transaction, given the committed tables, the number of commits, and
whether some connection is writing. -/
def turn (a : Active) (db : Database) (commits : Nat) (isLocked : Bool) : Turn :=
  match a.rest with
  | .commit answer => .commit answer a.hold.written?
  | .rollback answer => .rollback answer
  | .perform s next =>
    match a.hold with
    | .begun =>
      if s.isWrite then
        if isLocked then .wait
        else .goOn (a.answered (next (s.run db).1) (.writing (s.run db).2))
      else .goOn (a.answered (next (s.run db).1) (.reading commits db))
    | .reading seen view =>
      if s.isWrite then
        if isLocked then .goOn (a.answered (next (.error .locked)) a.hold)
        else if seen ≠ commits then .goOn (a.answered (next (.error .staleSnapshot)) a.hold)
        else .goOn (a.answered (next (s.run view).1) (.writing (s.run view).2))
      else .goOn (a.answered (next (s.run view).1) a.hold)
    | .writing view => .goOn (a.answered (next (s.run view).1) (.writing (s.run view).2))

/-- A transaction of which the next statement, or the commit, is refused. -/
def refused (a : Active) (fault : DatabaseFault) : Active :=
  match a.rest with
  | .commit _ => { a with rest := .rollback (.error (.database fault)) }
  | .rollback _ => a
  | .perform _ next => { a with rest := next (.error fault) }

end Active

/-- An operation that is over. -/
structure Ended where
  connection : Nat
  operation : Operation
  answer : Response
  /-- Whether its transaction was committed. -/
  committed : Bool

/-- Connections to a database. -/
structure Pool where
  /-- The tables with all that was committed. -/
  db : Database
  /-- The number of commits. -/
  commits : Nat := 0
  /-- The connection that is writing. -/
  writer : Option Nat := none
  connections : Nat → Option Active := fun _ => none
  /-- The operations that are over, in the order in which they ended. -/
  ended : List Ended := []

/-- What happens next. -/
inductive Move where
  /-- An operation is begun on a connection. -/
  | begin (connection : Nat) (op : Operation)
  /-- The next statement of a connection is executed, or its transaction is ended. -/
  | run (connection : Nat)
  /-- The next statement of a connection, or its commit, is refused. -/
  | refuse (connection : Nat) (fault : DatabaseFault)

namespace Pool

/-- The lock of the writer once a connection has given up its transaction. -/
def released (pool : Pool) (i : Nat) : Option Nat :=
  if pool.writer = some i then none else pool.writer

/-- The pool behind a turn of a connection. -/
def take (pool : Pool) (i : Nat) (a : Active) : Turn → Pool
  | .wait => pool
  | .goOn a' =>
    { pool with
      writer := if a'.hold.isWriting then some i else pool.writer
      connections := Function.update pool.connections i (some a') }
  | .commit answer written? =>
    { db := written?.getD pool.db
      commits := if written?.isSome then pool.commits + 1 else pool.commits
      writer := pool.released i
      connections := Function.update pool.connections i none
      ended := pool.ended ++ [⟨i, a.operation, .ok answer, true⟩] }
  | .rollback answer =>
    { pool with
      writer := pool.released i
      connections := Function.update pool.connections i none
      ended := pool.ended ++ [⟨i, a.operation, answer, false⟩] }

/-- The pool behind a move; what is asked of a connection that cannot do it changes nothing. -/
def step (pool : Pool) : Move → Pool
  | .begin i op =>
    match pool.connections i with
    | none => { pool with connections := Function.update pool.connections i (some (.start op)) }
    | some _ => pool
  | .run i =>
    match pool.connections i with
    | none => pool
    | some a => pool.take i a (a.turn pool.db pool.commits pool.writer.isSome)
  | .refuse i fault =>
    match pool.connections i with
    | none => pool
    | some a =>
      { pool with connections := Function.update pool.connections i (some (a.refused fault)) }

/-- The pool behind a sequence of moves. -/
def run (pool : Pool) (moves : List Move) : Pool :=
  moves.foldl step pool

/-- The operations that were committed, in the order of the commits. -/
def kept (pool : Pool) : List Ended :=
  pool.ended.filter Ended.committed

end Pool

/-! ### Careful transactions -/

/-- A statement that only reads leaves the database alone. -/
lemma Statement.run_of_read {s : Statement} (read : s.isWrite = false) (db : Database) :
    (s.run db).2 = db := by
  have asks {ρ α : Type} (name : String) (table : Option ρ) (f : ρ → α) :
      (ask db name table f).2 = db := by
    cases table <;> rfl
  cases s with
  | putRecord => cases read
  | setCompleted => cases read
  | insertResult => cases read
  | deleteUncompleted => cases read
  | putScore => cases read
  | deleteScores => cases read
  | deleteResults => cases read
  | deleteRecord => cases read
  | _ => exact asks ..

/-- Holds of a transaction, which may have written before, that commits only if it has written, that
ends without a commit only in an error or because there is nothing to delete, and that does not go
on behind a fault. -/
inductive Careful : Bool → Transaction Answer → Prop where
  | commit {answer} : answer.isAbsent = false → Careful true (.commit answer)
  | fail {wrote error} : Careful wrote (.rollback (.error error))
  | absent {wrote answer} : answer.isAbsent = true → Careful wrote (.rollback (.ok answer))
  | perform {wrote s next} :
    (∀ answer, Careful (wrote || s.isWrite) (next (.ok answer))) →
    (∀ fault, ∃ error, next (.error fault) = .rollback (.error error)) →
    Careful wrote (.perform s next)

section

variable {α : Type} {f : α → Answer} {wrote : Bool}

lemma careful_require {s : Statement} {next : s.Answer → Transaction α}
    (goes : ∀ answer, Careful (wrote || s.isWrite) ((next answer).map f)) :
    Careful wrote ((Transaction.require s next).map f) :=
  .perform goes fun _ => ⟨_, rfl⟩

lemma careful_insertResult {record : Record} {result : PassResult} {next : Transaction α}
    (goes : Careful true (next.map f)) :
    Careful wrote ((Transaction.insertResult record result next).map f) := by
  refine .perform (fun _ => ?_) fun fault => ?_
  · rw [show Statement.isWrite (.insertResult _) = true from rfl, Bool.or_true]
    exact goes
  · cases fault <;> exact ⟨_, rfl⟩

lemma careful_appendPass (record : Record) (pass : String) (now : Timestamp) :
    Careful wrote ((Transaction.appendPass record pass now).map .record) := by
  refine careful_require fun row => ?_
  cases row with
  | none => exact .fail
  | some row =>
    simp only
    split
    · exact .fail
    · split
      · exact .fail
      · refine careful_require fun _ => ?_
        rw [show Statement.isWrite (.setCompleted ..) = true from rfl, Bool.or_true]
        exact .commit rfl

end

/-- Every operation is careful. -/
lemma Operation.careful (op : Operation) : Careful false op.transaction := by
  cases op with
  | recordResult record result =>
    refine careful_insertResult (careful_require fun completed => ?_)
    cases completed with
    | none => exact .fail
    | some text =>
      simp only
      split
      · exact .fail
      · split
        · exact .fail
        · exact .commit rfl
  | advance record pass now => exact careful_appendPass record pass now
  | commit record result now =>
    exact careful_require fun _ => careful_insertResult (careful_appendPass record result.pass now)
  | delete path =>
    refine careful_require fun id => ?_
    cases id with
    | none => exact .absent rfl
    | some id =>
      exact careful_require fun _ => careful_require fun _ => careful_require fun _ => .commit rfl

lemma Careful.of_rollback {wrote : Bool} {answer : Response}
    (careful : Careful wrote (.rollback answer)) {found : Answer} (ok : answer = .ok found) :
    found.isAbsent = true := by
  cases careful with
  | fail => cases ok
  | absent absent =>
    cases ok
    exact absent

/-! ### One turn -/

/-- What holds of a transaction under way, given the committed tables and the number of commits: it
has failed, or it comes to what its operation would come to alone on the tables that it sees, and
these are the committed ones unless there was a commit since. -/
inductive Active.Sound (db : Database) (commits : Nat) : Active → Prop where
  | begun {op} : Sound db commits (.start op)
  | failed {op hold error} : Sound db commits ⟨op, .rollback (.error error), hold⟩
  | reading {op rest seen view} :
    Careful false rest →
    seen ≤ commits → (seen = commits → view = db) →
    rest.runFrom view view = op.transaction.run view →
    Sound db commits ⟨op, rest, .reading seen view⟩
  | writing {op rest view} :
    Careful true rest →
    rest.runFrom db view = op.transaction.run db →
    Sound db commits ⟨op, rest, .writing view⟩

/-- What holds of a turn of a transaction: it stays sound, takes the lock only if the lock is free,
and does not give it up; or it commits what its operation would come to alone; or it has nothing to
commit. -/
inductive Turn.Sound (db : Database) (commits : Nat) (isLocked : Bool) (a : Active) :
    Turn → Prop where
  | wait : Sound db commits isLocked a .wait
  | goOn {rest hold} :
    (a.answered rest hold).Sound db commits →
    (hold.isWriting = true → a.hold.isWriting = true ∨ isLocked = false) →
    (a.hold.isWriting = true → hold.isWriting = true) →
    Sound db commits isLocked a (.goOn (a.answered rest hold))
  | commit {answer view} :
    answer.isAbsent = false →
    a.hold = .writing view →
    a.operation.transaction.run db = (.ok answer, view) →
    Sound db commits isLocked a (.commit answer (some view))
  | rollback {answer} :
    (∀ found, answer = .ok found → found.isAbsent = true) →
    Sound db commits isLocked a (.rollback answer)

namespace Active

variable {db : Database} {commits : Nat} {a : Active}

/-- A commit of another connection leaves a transaction sound that does not hold the lock. -/
lemma Sound.commit (sound : a.Sound db commits) (idle : a.hold.isWriting = false) (db' : Database) :
    a.Sound db' (commits + 1) := by
  cases sound with
  | begun => exact .begun
  | failed => exact .failed
  | reading careful seen _ runs =>
    exact .reading careful (Nat.le_succ_of_le seen)
      (fun now => absurd seen (by rw [now]; exact Nat.not_succ_le_self _)) runs
  | writing _ _ => cases idle

lemma Sound.careful (sound : a.Sound db commits) : ∃ wrote, Careful wrote a.rest := by
  cases sound with
  | @begun op => exact ⟨false, op.careful⟩
  | failed => exact ⟨false, .fail⟩
  | reading careful _ _ _ => exact ⟨false, careful⟩
  | writing careful _ => exact ⟨true, careful⟩

/-- A transaction fails with a statement that is refused. -/
lemma Sound.refused (sound : a.Sound db commits) (fault : DatabaseFault) :
    (a.refused fault).Sound db commits := by
  obtain ⟨wrote, careful⟩ := sound.careful
  simp only [Active.refused]
  split
  · exact .failed
  · exact sound
  · next s next h =>
    rw [h] at careful
    cases careful with
    | perform _ faults =>
      obtain ⟨error, failed⟩ := faults fault
      rw [failed]
      exact .failed

/-- A statement is answered, and the transaction follows its operation behind it, or fails. -/
lemma sound_answered {s : Statement} {next : Except DatabaseFault s.Answer → Transaction Answer}
    (faults : ∀ fault, ∃ error, next (.error fault) = .rollback (.error error)) (hold : Hold)
    {answer : Except DatabaseFault s.Answer}
    (goes : ∀ found, answer = .ok found → (a.answered (next answer) hold).Sound db commits) :
    (a.answered (next answer) hold).Sound db commits := by
  cases answer with
  | error fault =>
    obtain ⟨error, failed⟩ := faults fault
    rw [answered, failed]
    exact .failed
  | ok found => exact goes found rfl

/-- The first statement of a transaction. -/
lemma turn_begun (op : Operation) (isLocked : Bool) :
    ((start op).turn db commits isLocked).Sound db commits isLocked (start op) := by
  have careful := op.careful
  cases h : op.transaction with
  | commit answer =>
    rw [h] at careful
    cases careful
  | rollback answer =>
    rw [h] at careful
    simp only [turn, start, h]
    exact .rollback fun found ok => careful.of_rollback ok
  | perform s next =>
    rw [h] at careful
    cases careful with
    | perform goes faults =>
      have runs : (next (s.run db).1).runFrom db (s.run db).2 = op.transaction.run db := by
        rw [h]
        rfl
      simp only [turn, start, h]
      split
      · next write =>
        split
        · exact .wait
        · next free =>
          refine .goOn (sound_answered faults _ fun found ok => ?_) (fun _ => ?_) nofun
          · exact .writing (by simpa [ok, write] using goes found) runs
          · exact .inr (by simpa using free)
      · next read =>
        rw [Bool.not_eq_true] at read
        refine .goOn (sound_answered faults _ fun found ok => ?_) nofun nofun
        rw [Statement.run_of_read read] at runs
        exact .reading (by simpa [ok, read] using goes found) (Nat.le_refl _) (fun _ => rfl) runs

/-- A statement of a transaction that has only read. -/
lemma turn_reading {op : Operation} {rest : Transaction Answer} {seen : Nat} {view : Database}
    (careful : Careful false rest) (le : seen ≤ commits) (same : seen = commits → view = db)
    (runs : rest.runFrom view view = op.transaction.run view) (isLocked : Bool) :
    (turn ⟨op, rest, .reading seen view⟩ db commits isLocked).Sound db commits isLocked
      ⟨op, rest, .reading seen view⟩ := by
  cases careful with
  | fail => exact .rollback nofun
  | absent absent => exact .rollback fun found ok => Except.ok.inj ok ▸ absent
  | @perform _ s next goes faults =>
    have fails (fault : DatabaseFault) :
        (answered ⟨op, .perform s next, .reading seen view⟩ (next (.error fault))
          (.reading seen view)).Sound db commits := by
      obtain ⟨error, failed⟩ := faults fault
      rw [failed]
      exact .failed
    simp only [turn]
    split
    · next write =>
      split
      · exact .goOn (fails _) nofun nofun
      · split
        · exact .goOn (fails _) nofun nofun
        · next free current =>
          -- What was read is what is committed, so that the transaction might begin only now.
          obtain rfl := same (by simpa using current)
          refine .goOn (sound_answered faults _ fun found ok => ?_) (fun _ => ?_) nofun
          · exact .writing (by simpa [ok, write] using goes found) runs
          · exact .inr (by simpa using free)
    · next read =>
      rw [Bool.not_eq_true] at read
      have runs' : (next (s.run view).1).runFrom view (s.run view).2 = op.transaction.run view := runs
      rw [Statement.run_of_read read] at runs'
      refine .goOn (sound_answered faults _ fun found ok => ?_) nofun nofun
      exact .reading (by simpa [ok, read] using goes found) le same runs'

/-- A statement of a transaction that has the lock, or its end. -/
lemma turn_writing {op : Operation} {rest : Transaction Answer} {view : Database}
    (careful : Careful true rest) (runs : rest.runFrom db view = op.transaction.run db)
    (isLocked : Bool) :
    (turn ⟨op, rest, .writing view⟩ db commits isLocked).Sound db commits isLocked
      ⟨op, rest, .writing view⟩ := by
  cases careful with
  | commit present => exact .commit present rfl runs.symm
  | fail => exact .rollback nofun
  | absent absent => exact .rollback fun found ok => Except.ok.inj ok ▸ absent
  | @perform _ s next goes faults =>
    refine .goOn (sound_answered faults _ fun found ok => ?_) (fun _ => .inl rfl) fun _ => rfl
    exact .writing (by simpa [ok] using goes found) runs

/-- The turn of a sound transaction is sound. -/
theorem Sound.turn (sound : a.Sound db commits) (isLocked : Bool) :
    (a.turn db commits isLocked).Sound db commits isLocked a := by
  cases sound with
  | begun => exact turn_begun _ isLocked
  | failed => exact .rollback nofun
  | reading careful le same runs => exact turn_reading careful le same runs isLocked
  | writing careful runs => exact turn_writing careful runs isLocked

end Active

/-! ### Every schedule -/

/-- What holds of all connections: their transactions are sound, and the lock is with the one that
is writing. -/
structure Guarded (db : Database) (commits : Nat) (writer : Option Nat)
    (connections : Nat → Option Active) : Prop where
  active : ∀ i a, connections i = some a → a.Sound db commits
  locked : ∀ i, writer = some i ↔ ∃ a, connections i = some a ∧ a.hold.isWriting = true

namespace Guarded

variable {db : Database} {commits : Nat} {writer writer' : Option Nat}
  {connections : Nat → Option Active} {i : Nat} {a a' : Active}

lemma writes_iff (guarded : Guarded db commits writer connections) (h : connections i = some a) :
    writer = some i ↔ a.hold.isWriting = true := by
  rw [guarded.locked i]
  refine ⟨?_, fun writing => ⟨a, h, writing⟩⟩
  rintro ⟨b, hb, writing⟩
  obtain rfl := Option.some.inj (h.symm.trans hb)
  exact writing

/-- A connection takes up a transaction, or goes on with one; the others keep the lock or stay
without it. -/
lemma put (guarded : Guarded db commits writer connections) (active : a'.Sound db commits)
    (own : writer' = some i ↔ a'.hold.isWriting = true)
    (others : ∀ j, j ≠ i → (writer' = some j ↔ writer = some j)) :
    Guarded db commits writer' (Function.update connections i (some a')) where
  active := by
    intro j b hb
    obtain rfl | ne := eq_or_ne j i
    · rw [Function.update_self] at hb
      exact Option.some.inj hb ▸ active
    · rw [Function.update_of_ne ne] at hb
      exact guarded.active j b hb
  locked := by
    intro j
    obtain rfl | ne := eq_or_ne j i
    · rw [Function.update_self, own]
      simp
    · rw [Function.update_of_ne ne, others j ne]
      exact guarded.locked j

/-- A connection gives up its transaction, and the lock if it had it. -/
lemma leave (guarded : Guarded db commits writer connections) (i : Nat) :
    Guarded db commits (if writer = some i then none else writer)
      (Function.update connections i none) where
  active := by
    intro j b hb
    obtain rfl | ne := eq_or_ne j i
    · rw [Function.update_self] at hb
      cases hb
    · rw [Function.update_of_ne ne] at hb
      exact guarded.active j b hb
  locked := by
    intro j
    obtain rfl | ne := eq_or_ne j i
    · rw [Function.update_self]
      split
      · simp
      · next free => simpa using free
    · rw [Function.update_of_ne ne, ← guarded.locked j]
      split
      · next own => simp [own, ne.symm]
      · rfl

/-- A commit, while nobody is writing. -/
lemma commit (guarded : Guarded db commits none connections) (db' : Database) :
    Guarded db' (commits + 1) none connections where
  active := by
    intro j b hb
    refine (guarded.active j b hb).commit ?_ db'
    rw [← Bool.not_eq_true]
    intro writing
    cases (guarded.locked j).2 ⟨b, hb, writing⟩
  locked := guarded.locked

end Guarded

namespace Pool

/-- What holds of a pool: the committed operations lead to its tables one at a time, the operations
that were committed are those that have something to commit, and the connections are guarded. -/
structure Sound (first : Database) (pool : Pool) : Prop where
  serial : Operation.performAll (pool.kept.map Ended.operation) first =
    (pool.kept.map Ended.answer, pool.db)
  answers : ∀ e ∈ pool.ended,
    e.committed = true ↔ ∃ answer, e.answer = .ok answer ∧ answer.isAbsent = false
  guarded : Guarded pool.db pool.commits pool.writer pool.connections

variable {first : Database} {pool : Pool} {i : Nat} {a : Active}

lemma sound_start (db : Database) : Sound db { db } where
  serial := rfl
  answers := by simp
  guarded := ⟨by simp, by simp⟩

/-- An operation ends without a commit. -/
lemma Sound.rollback (sound : pool.Sound first) {answer : Response}
    (none : ∀ found, answer = .ok found → found.isAbsent = true) :
    (pool.take i a (.rollback answer)).Sound first where
  serial := by
    have same : (pool.take i a (.rollback answer)).kept = pool.kept := by simp [kept, take]
    rw [same]
    exact sound.serial
  answers := by
    intro e mem
    obtain mem | rfl := by simpa [take] using mem
    · exact sound.answers e mem
    · refine ⟨nofun, ?_⟩
      rintro ⟨found, ok, present⟩
      rw [none found ok] at present
      cases present
  guarded := sound.guarded.leave i

/-- An operation is committed. -/
lemma Sound.commit (sound : pool.Sound first) (h : pool.connections i = some a) {answer : Answer}
    {view : Database} (present : answer.isAbsent = false) (hold : a.hold = .writing view)
    (runs : a.operation.transaction.run pool.db = (.ok answer, view)) :
    (pool.take i a (.commit answer (some view))).Sound first where
  serial := by
    have one : (pool.take i a (.commit answer (some view))).kept =
        pool.kept ++ [⟨i, a.operation, .ok answer, true⟩] := by
      simp [kept, take]
    rw [one, List.map_append, List.map_append, List.map_singleton, List.map_singleton,
      Operation.performAll_concat, sound.serial, Operation.perform_eq, runs]
    rfl
  answers := by
    intro e mem
    obtain mem | rfl := by simpa [take] using mem
    · exact sound.answers e mem
    · exact ⟨fun _ => ⟨answer, rfl, present⟩, fun _ => rfl⟩
  guarded := by
    have own : pool.writer = some i := (sound.guarded.writes_iff h).2 (by rw [hold]; rfl)
    have left := sound.guarded.leave i
    rw [if_pos own] at left
    simpa [take, released, own] using left.commit view

/-- A transaction goes on, and takes the lock only if nobody has it. -/
lemma Sound.goOn (sound : pool.Sound first) (h : pool.connections i = some a) {a' : Active}
    (active : a'.Sound pool.db pool.commits)
    (takes : a'.hold.isWriting = true → a.hold.isWriting = true ∨ pool.writer.isSome = false)
    (keeps : a.hold.isWriting = true → a'.hold.isWriting = true) :
    (pool.take i a (.goOn a')).Sound first where
  serial := sound.serial
  answers := sound.answers
  guarded := by
    have own := sound.guarded.writes_iff h
    refine sound.guarded.put active ?_ fun j ne => ?_
    · simp only [take]
      split
      · next writing => simp [writing]
      · next idle =>
        rw [own]
        exact ⟨keeps, fun writing => absurd writing idle⟩
    · simp only [take]
      split
      · next writing =>
        obtain held | free := takes writing
        · simp [own.2 held]
        · have none : pool.writer = none := by simpa using free
          simp [none, ne.symm]
      · rfl

/-- Every move keeps a pool sound. -/
theorem Sound.step (sound : pool.Sound first) (move : Move) : (pool.step move).Sound first := by
  cases move with
  | begin i op =>
    simp only [Pool.step]
    split
    · next h =>
      refine { sound with guarded := sound.guarded.put .begun ?_ fun _ _ => .rfl }
      rw [sound.guarded.locked i, h]
      simp [Active.start, Hold.isWriting]
    · exact sound
  | run i =>
    simp only [Pool.step]
    split
    · exact sound
    · next a h =>
      have turn := (sound.guarded.active i a h).turn pool.writer.isSome
      generalize a.turn pool.db pool.commits pool.writer.isSome = next at turn
      cases turn with
      | wait => exact sound
      | goOn active takes keeps => exact sound.goOn h active takes keeps
      | commit present hold runs => exact sound.commit h present hold runs
      | rollback none => exact sound.rollback none
  | refuse i fault =>
    simp only [Pool.step]
    split
    · exact sound
    · next a h =>
      have same : (a.refused fault).hold = a.hold := by
        simp only [Active.refused]
        split <;> rfl
      have active := (sound.guarded.active i a h).refused fault
      refine { sound with guarded := sound.guarded.put active ?_ fun _ _ => .rfl }
      rw [same]
      exact sound.guarded.writes_iff h

theorem Sound.run (sound : pool.Sound first) (moves : List Move) : (pool.run moves).Sound first := by
  induction moves generalizing pool with
  | nil => exact sound
  | cons move moves ih => exact ih (sound.step move)

/-- A move that leaves other tables behind commits an operation. -/
lemma db_step (pool : Pool) (move : Move) :
    (pool.step move).db = pool.db ∨
      ∃ e, (pool.step move).ended = pool.ended ++ [e] ∧ e.committed = true := by
  cases move with
  | begin i op =>
    simp only [step]
    split <;> exact .inl rfl
  | run i =>
    simp only [step]
    split
    · exact .inl rfl
    · next a _ =>
      cases a.turn pool.db pool.commits pool.writer.isSome with
      | commit answer written? => exact .inr ⟨_, rfl, rfl⟩
      | _ => exact .inl rfl
  | refuse i fault =>
    simp only [step]
    split <;> exact .inl rfl

/-- Whatever any number of connections do from any tables, statement by statement, the tables are
those to which the committed operations lead if they are executed one at a time, in the order in
which they were committed, and each of them has the answer that it has there. An operation is
committed exactly if it does not end in an error and does not find that there is nothing to delete,
and only the commit of an operation changes the tables. -/
theorem run_serial (db : Database) (moves : List Move) :
    let pool := ({ db } : Pool).run moves
    Operation.performAll (pool.kept.map Ended.operation) db =
        (pool.kept.map Ended.answer, pool.db) ∧
      (∀ e ∈ pool.ended,
        e.committed = true ↔ ∃ answer, e.answer = .ok answer ∧ answer.isAbsent = false) ∧
      ∀ move, (pool.step move).db = pool.db ∨
        ∃ e, (pool.step move).ended = pool.ended ++ [e] ∧ e.committed = true := by
  intro pool
  have sound : pool.Sound db := (sound_start db).run moves
  exact ⟨sound.serial, sound.answers, pool.db_step⟩

/-- Two connections read the same list of completed passes, and both go on to write it. The one that
comes second is refused, so that no completion is lost. -/
example :
    let new : NewRecord := ⟨"a", none, "", "", .null⟩
    let db := (Database.operations.upsert new 0 ({} : Database).migrate).2
    let advance (pass : String) := Operation.advance (Record.ofNew 1 new 0) pass 0
    let pool := ({ db } : Pool).run
      [.begin 0 (advance "facts"), .begin 1 (advance "lint"), .run 0, .run 1, .run 0, .run 0,
        .run 1, .run 1]
    (pool.ended.map fun e => (e.connection, e.committed)) = [(0, true), (1, false)] ∧
      pool.db = ((advance "facts").perform db).2 := by
  decide +kernel

end Pool

end Relational

end Multipass
