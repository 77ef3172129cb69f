import Multipass.Store.Error
import Multipass.Text.Percent
import Multipass.Text.Quoted

/-!
# Locations of databases

A database is named by an address: a file, and behind a question mark a query with the ways in
which it is opened. Characters of the file may be written by their bytes. A database without a
file lives only as long as it is open.
-/

namespace Multipass.Relational

open Text

/-- Where a database is, and how it is opened. -/
structure Location where
  /-- The file, unless the database lives in memory. -/
  file : Option String
  /-- Whether nothing may be changed. -/
  readOnly : Bool := false
  /-- Whether a file that is not there is made. -/
  makesFile : Bool := true
  deriving DecidableEq, Repr

namespace Location

/-- A text without a beginning, as often as it begins with it. -/
def dropAll (beginning : List Char) : (fuel : Nat) → List Char → List Char
  | 0, s => s
  | fuel + 1, s =>
    match dropPattern? beginning s with
    | some rest => dropAll beginning fuel rest
    | none => s

/-- The scheme of addresses. -/
def scheme : List Char := "sqlite:".toList

/-- What follows the scheme in the address of a path; schemes within the path go too. -/
def behindScheme (path : String) : List Char :=
  let s := scheme ++ path.toList
  dropAll scheme s.length (dropAll (scheme ++ ['/', '/']) s.length s)

/-- A value that an option of the query does not know. -/
def unknownValue (option value : String) : DatabaseFault :=
  .badAddress s!"unknown value {showQuoted value} for `{option}`"

/-- The systems that files can be reached through. -/
def fileSystems : List String :=
  ["unix", "unix-dotfile", "unix-excl", "unix-none"]

/-- A location with an option of the query set. -/
def setOption (l : Location) (option value : String) : Except DatabaseFault Location :=
  match option, value with
  | "mode", "ro" => .ok { l with readOnly := true, makesFile := false }
  | "mode", "rw" => .ok l
  | "mode", "rwc" => .ok l
  | "mode", "memory" => .ok { l with file := none }
  | "cache", "private" => .ok l
  | "cache", "shared" => .ok l
  | "immutable", "true" => .ok { l with readOnly := true }
  | "immutable", "1" => .ok { l with readOnly := true }
  | "immutable", "false" => .ok l
  | "immutable", "0" => .ok l
  | "vfs", system =>
    if fileSystems.contains system then .ok l
    else if system = "memdb" then .ok { l with file := none }
    else .error (.noSuchSystem system)
  | option, value =>
    if ["mode", "cache", "immutable"].contains option then .error (unknownValue option value)
    else .error (.badAddress s!"unknown query parameter `{option}` while parsing connection URL")

/-- A location with the options of a query set, one after the other. -/
def setOptions (l : Location) : List (String × String) → Except DatabaseFault Location
  | [] => .ok l
  | (option, value) :: rest =>
    match l.setOption option value with
    | .ok l => l.setOptions rest
    | .error fault => .error fault

/-- The name of a file, which may stand behind a scheme of its own. -/
def fileOf (name : String) : Option String :=
  match dropPattern? "file:".toList name.toList with
  | some rest =>
    let rest := (dropPattern? ['/', '/'] rest).getD rest
    let rest := rest.takeWhile fun c => c ≠ '?' && c ≠ '#'
    if rest.isEmpty then none else some (decodeLossy (percentBytes rest))
  | none => if name.isEmpty then none else some name

/-- The location of a path. -/
def ofPath (path : String) : Except DatabaseFault Location :=
  let address := behindScheme path
  let name := address.takeWhile (· ≠ '?')
  let query := queryFields ((address.drop name.length).drop 1)
  if name = ":memory:".toList then setOptions ⟨none, false, true⟩ query
  else
    let bytes := percentBytes name
    match decode? bytes with
    | none => .error (.badAddress (malformedMessage bytes))
    | some file =>
      match setOptions ⟨fileOf file, false, true⟩ query with
      | .error fault => .error fault
      | .ok l => if bytes.contains 0 then .error .nulInName else .ok l

end Location

end Multipass.Relational
