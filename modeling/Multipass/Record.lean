import Multipass.Config.Basic
import Multipass.Calendar
import Multipass.Json.Basic

/-!
# Records

A record is one artifact with the passes it has completed, in the order of their completion. What
is missing of a pipeline, and whether a record is pending, is read off that list alone.
-/

namespace Multipass

/-- The number of a record in its store. -/
abbrev RecordId := Int

/-- An artifact, before it is stored. -/
structure NewRecord where
  path : String
  language : Option String
  source : String
  hash : String
  parsed : Json
  deriving Repr, Inhabited

/-- A stored artifact and its completed passes. -/
structure Record where
  id : RecordId
  path : String
  language : Option String
  source : String
  hash : String
  parsed : Json
  passIndex : Int
  completed : List String
  createdAt : Timestamp
  updatedAt : Timestamp
  deriving Repr, Inhabited

namespace Record

/-- Holds when a pass is completed. -/
def hasCompleted (r : Record) (pass : String) : Bool :=
  r.completed.contains pass

/-- The record with one more completed pass. -/
def complete (r : Record) (pass : String) (now : Timestamp) : Record :=
  { r with completed := r.completed ++ [pass], passIndex := r.passIndex + 1, updatedAt := now }

/-- The record with what an artifact brings anew; completed passes stay. -/
def refresh (r : Record) (new : NewRecord) (now : Timestamp) : Record :=
  { r with
    language := new.language
    source := new.source
    hash := new.hash
    parsed := new.parsed
    updatedAt := now }

/-- The record of a new artifact. -/
def ofNew (id : RecordId) (new : NewRecord) (now : Timestamp) : Record where
  id := id
  path := new.path
  language := new.language
  source := new.source
  hash := new.hash
  parsed := new.parsed
  passIndex := 0
  completed := []
  createdAt := now
  updatedAt := now

/-- The passes of an order that are not completed, in order. -/
def missing (r : Record) (order : List String) : List String :=
  order.filter fun pass => !r.hasCompleted pass

/-- Holds when a record still needs work. -/
def isPending (r : Record) (order : List String) : PendingCheck → Bool
  | .count => r.completed.length < order.length
  | .set => order.any fun pass => !r.hasCompleted pass

/-- A pending record under the second check has a missing pass, and the other way around. -/
theorem isPending_set_iff {r : Record} {order : List String} :
    r.isPending order .set = true ↔ r.missing order ≠ [] := by
  simp [isPending, missing]

end Record

end Multipass
