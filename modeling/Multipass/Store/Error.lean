/-!
# Errors of stores

A pass that is completed already, a record that is not there, a refusal of the database below, and
a stored value that cannot be read.
-/

namespace Multipass

/-- Why the database refuses a statement. -/
inductive DatabaseFault where
  | uniqueKey
  | foreignKey
  | noSuchTable (table : String)
  | noSuchColumn (column : String)
  /-- A column that must have a value is given none. -/
  | notNull
  | malformedJson
  | integerOverflow
  /-- An integer is asked for, and there is something else. -/
  | notAnInteger
  /-- A value is asked for, and there is none. -/
  | unexpectedNull
  | cannotOpen
  | notADatabase
  | readOnly
  /-- Another connection is writing. -/
  | locked
  /-- Another transaction was committed since this one began to read. -/
  | staleSnapshot
  /-- The address of the database is none. -/
  | badAddress (reason : String)
  /-- The name of the file holds a character that no name holds. -/
  | nulInName
  /-- The database is to be reached in a way that is not known. -/
  | noSuchSystem (name : String)
  /-- A directory is to be made where a file is. -/
  | fileExists
  /-- The way to the file of the database leads nowhere. -/
  | unreachable (reason : String)
  deriving DecidableEq, Repr

/-- The words for a refused statement. -/
def DatabaseFault.message : DatabaseFault → String
  | .uniqueKey => "error returned from database: (code: 2067) UNIQUE constraint failed"
  | .foreignKey => "error returned from database: (code: 787) FOREIGN KEY constraint failed"
  | .noSuchTable table => s!"error returned from database: (code: 1) no such table: {table}"
  | .noSuchColumn column => s!"error returned from database: (code: 1) no such column: {column}"
  | .notNull => "error returned from database: (code: 1299) NOT NULL constraint failed"
  | .malformedJson => "error returned from database: (code: 1) malformed JSON"
  | .integerOverflow => "error returned from database: (code: 1) integer overflow"
  | .notAnInteger => "error occurred while decoding column: mismatched types"
  | .unexpectedNull =>
    "error occurred while decoding column: unexpected null; try decoding as an `Option`"
  | .cannotOpen => "error returned from database: (code: 14) unable to open database file"
  | .notADatabase => "error returned from database: (code: 26) file is not a database"
  | .readOnly =>
    "error returned from database: (code: 8) attempt to write a readonly database"
  | .locked => "error returned from database: (code: 5) database is locked"
  | .staleSnapshot => "error returned from database: (code: 517) database is locked"
  | .badAddress reason => s!"error with configuration: {reason}"
  | .nulInName =>
    "error communicating with database: filename passed to SQLite must not contain nul bytes"
  | .noSuchSystem name => s!"error returned from database: (code: 1) no such vfs: {name}"
  | .fileExists => "File exists (os error 17)"
  | .unreachable reason => reason

/-- Why a store refuses an operation. -/
inductive StoreError where
  | duplicatePass (path pass : String)
  | recordNotFound (path : String)
  | database (fault : DatabaseFault)
  /-- A stored value that cannot be read, with what is wrong with it. -/
  | serialization (reason : String)
  deriving DecidableEq, Repr

/-- The words for a refused operation. -/
def StoreError.message : StoreError → String
  | .duplicatePass path pass => s!"pass '{pass}' already completed for {path}"
  | .recordNotFound path => s!"analysis record not found: {path}"
  | .database fault => s!"database error: {fault.message}"
  | .serialization reason => s!"serialization error: {reason}"

end Multipass
