import Multipass.Config.Setting

/-!
# TOML documents

A document as a tree of tables, and how the lines of a text build it. A table remembers what
defined it, because that decides what may still be added: a table under a header of its own is
closed to dotted keys from elsewhere, a table that dotted keys made is closed to headers, and a
table that exists only as part of a longer header may still get a header of its own. Inline tables
and plain arrays are closed to everything.
-/

namespace Multipass

open Number

namespace Toml

/-- What defined a table. -/
inductive Origin where
  | header
  | implicit
  | dotted
  deriving DecidableEq, Repr

/-- A value of a document. -/
inductive Value where
  | text (s : String)
  | int (i : Int)
  | float (x : Double)
  | bool (b : Bool)
  | date
  | array (items : List Value)
  | inline (entries : List (String × Value))
  | table (origin : Origin) (entries : List (String × Value))
  | tables (elements : List (List (String × Value)))
  deriving Inhabited

/-- The entries of a table. -/
abbrev Entries := List (String × Value)

/-- Sets an entry, at its old place if it has one. -/
def set (key : String) (value : Value) : Entries → Entries
  | [] => [(key, value)]
  | (k, v) :: rest => if k = key then (k, value) :: rest else (k, v) :: set key value rest

/-- Changes the table at the end of a path, and makes the tables that are missing on the way. The
path goes to the last element of an array of tables. -/
def descend (byDots : Bool) (change : Origin → Entries → Option Entries) :
    (path : List String) → Origin → Entries → Option Entries
  | [], origin, entries => change origin entries
  | key :: path, _, entries =>
    match List.lookup key entries with
    | none =>
      let origin := if byDots then Origin.dotted else Origin.implicit
      (descend byDots change path origin []).map fun sub => set key (.table origin sub) entries
    | some (.table origin sub) =>
      if byDots && origin == .header then none
      else (descend byDots change path origin sub).map fun sub =>
        set key (.table origin sub) entries
    | some (.tables elements) =>
      (descend byDots change path .header (elements.getLast?.getD [])).map fun sub =>
        set key (.tables (elements.dropLast ++ [sub])) entries
    | some _ => none

/-- Adds a value under a dotted key to a table. -/
def insert (path : List String) (key : String) (value : Value) (origin : Origin)
    (entries : Entries) : Option Entries :=
  descend true
    (fun reached es =>
      if (reached == .dotted) == path.isEmpty then none
      else if (List.lookup key es).isSome then none
      else some (set key value es))
    path origin entries

/-- Opens the table of a header. -/
def openTable (path : List String) (key : String) (root : Entries) : Option Entries :=
  descend false
    (fun _ es =>
      match List.lookup key es with
      | none => some (set key (.table .header []) es)
      | some (.table .implicit sub) => some (set key (.table .header sub) es)
      | some _ => none)
    path .header root

/-- Opens a new element of an array of tables. -/
def openElement (path : List String) (key : String) (root : Entries) : Option Entries :=
  descend false
    (fun _ es =>
      match List.lookup key es with
      | none => some (set key (.tables [[]]) es)
      | some (.tables elements) => some (set key (.tables (elements ++ [[]])) es)
      | some _ => none)
    path .header root

/-- Adds a value under a dotted key to the table that is open. -/
def insertWithin (current path : List String) (key : String) (value : Value) (root : Entries) :
    Option Entries :=
  descend false (fun origin es => insert path key value origin es) current .header root

mutual

/-- The setting that a value stands for. -/
def Value.setting : Value → Setting
  | .text s => .text s
  | .int i => .int i
  | .float x => .float x
  | .bool b => .bool b
  | .date => .date
  | .array items => .list (itemSettings items)
  | .inline entries => .table (entrySettings entries)
  | .table _ entries => .table (entrySettings entries)
  | .tables elements => .list (elementSettings elements)

/-- The settings of values. -/
def itemSettings : List Value → List Setting
  | [] => []
  | v :: vs => v.setting :: itemSettings vs

/-- The settings of entries. -/
def entrySettings : Entries → List (String × Setting)
  | [] => []
  | (k, v) :: es => (k, v.setting) :: entrySettings es

/-- The settings of the elements of an array of tables. -/
def elementSettings : List Entries → List Setting
  | [] => []
  | e :: es => .table (entrySettings e) :: elementSettings es

end

end Toml

end Multipass
