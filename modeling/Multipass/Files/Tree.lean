import Multipass.Files.Path

/-!
# File trees

Directories, files, and symbolic links, and what a path leads to. A path is followed from the top
of the tree or from a current directory, component by component; a point stands for the directory
at hand, two points for the one above, and a link for the path it holds. What is sealed may not be
read: it is there, and no more is seen of it.
-/

namespace Multipass

/-- A part of a file tree. -/
inductive Node where
  | file (content : List UInt8) (executable : Bool)
  /-- The entries by name, in ascending order of the names. -/
  | directory (entries : List (String × Node))
  | link (target : String)
  /-- A file that may not be read, or a directory that may neither be listed nor passed through. -/
  | sealed (isDirectory : Bool)
  deriving Inhabited

/-- Why a path leads nowhere. -/
inductive FileFault where
  | notFound
  | notADirectory
  | tooManyLinks
  | denied
  deriving DecidableEq, Repr

/-- The words for a path that leads nowhere. -/
def FileFault.message : FileFault → String
  | .notFound => "No such file or directory (os error 2)"
  | .notADirectory => "Not a directory (os error 20)"
  | .tooManyLinks => "Too many levels of symbolic links (os error 40)"
  | .denied => "Permission denied (os error 13)"

namespace Node

/-- The entry of a name. -/
def child? (name : String) : List (String × Node) → Option Node
  | [] => none
  | (k, n) :: rest => if k = name then some n else child? name rest

/-- Sets an entry, before the first name that is greater; an entry with the name is replaced. -/
def setEntry (name : String) (node : Node) : List (String × Node) → List (String × Node)
  | [] => [(name, node)]
  | (k, n) :: rest =>
    if name < k then (name, node) :: (k, n) :: rest
    else if name = k then (name, node) :: rest
    else (k, n) :: setEntry name node rest

/-- The entries of a directory; anything else has none. -/
def entries : Node → List (String × Node)
  | .directory es => es
  | _ => []

/-- The part of a tree that names lead to, without following links. -/
def get? (node : Node) : List String → Option Node
  | [] => some node
  | name :: rest =>
    match node with
    | .directory es =>
      match child? name es with
      | some child => child.get? rest
      | none => none
    | _ => none

/-- A tree with a part put in a place; missing directories on the way are made. -/
def put (part : Node) : List String → Node → Node
  | [], _ => part
  | name :: rest, node =>
    let es := node.entries
    .directory (setEntry name (put part rest ((child? name es).getD (.directory []))) es)

/-- A tree without the part in a place. -/
def erase : List String → Node → Node
  | [], node => node
  | [name], node =>
    match node with
    | .directory es => .directory (es.filter fun e => e.1 != name)
    | node => node
  | name :: rest, node =>
    match node with
    | .directory es =>
      match child? name es with
      | some child => .directory (setEntry name (erase rest child) es)
      | none => node
    | node => node

end Node

/-- The names on the way from the top of a tree, the last first. -/
abbrev Location := List String

/-- A file tree and its current directory. -/
structure FileTree where
  top : Node
  current : Location

namespace FileTree

/-- The links that may be followed on the way along one path. -/
def maxLinks : Nat := 40

/-- The components of a path; the separator at the end of a path asks for a directory, as a point
does. -/
def steps (path : String) : List String :=
  let pieces := Text.splitOnChar '/' path.toList
  let names := (pieces.filter fun p => !p.isEmpty).map String.ofList
  if path.toList.getLast? == some '/' then names ++ ["."] else names

/-- Where a path starts. -/
def start (location : Location) (path : String) : Location :=
  if Path.isAbsolute path then [] else location

/-- The place that steps lead to from a location, and what is there. With `follow`, a link at the
end is followed as links on the way are. -/
def resolveFrom (top : Node) (follow : Bool) (links : Nat) (location : Location)
    (remaining : List String) : Except FileFault (Location × Node) :=
  match remaining with
  | [] =>
    match top.get? location.reverse with
    | some node => .ok (location, node)
    | none => .error .notFound
  | name :: rest =>
    match top.get? location.reverse with
    | some (.directory es) =>
      if name = "." then resolveFrom top follow links location rest
      else if name = ".." then resolveFrom top follow links location.tail rest
      else
        match Node.child? name es with
        | none => .error .notFound
        | some (.link target) =>
          if rest.isEmpty && !follow then .ok (name :: location, .link target)
          else
            match links with
            | 0 => .error .tooManyLinks
            | links + 1 =>
              resolveFrom top follow links (start location target) (steps target ++ rest)
        | some _ => resolveFrom top follow links (name :: location) rest
    | some (.sealed true) => .error .denied
    | some _ => .error .notADirectory
    | none => .error .notFound
termination_by (links, remaining.length)

/-- The place that a path leads to, and what is there. The empty path leads nowhere. -/
def resolve (t : FileTree) (path : String) (follow : Bool) :
    Except FileFault (Location × Node) :=
  if path.isEmpty then .error .notFound
  else resolveFrom t.top follow maxLinks (start t.current path) (steps path)

/-- What a path leads to. -/
def find? (t : FileTree) (path : String) : Option Node :=
  match t.resolve path true with
  | .ok (_, node) => some node
  | .error _ => none

/-- Holds of a path that leads somewhere. -/
def exists? (t : FileTree) (path : String) : Bool :=
  (t.find? path).isSome

/-- The bytes of the file that a path leads to. -/
def read? (t : FileTree) (path : String) : Option (List UInt8) :=
  match t.find? path with
  | some (.file content _) => some content
  | _ => none

/-- Holds when the directories on the way to a path are there or can be made. -/
def canMakeParents (t : FileTree) (path : String) : Bool :=
  let rec go (node : Node) : List String → Bool
    | [] => true
    | name :: rest =>
      match node with
      | .directory es =>
        match Node.child? name es with
        | some child => go child rest
        | none => true
      | .link _ => true
      | .file .. => false
      | .sealed _ => false
  go t.top ((start t.current path).reverse ++ (steps path).dropLast)

/-- The names from the top to a path that goes through no links. -/
def place (t : FileTree) (path : String) : List String :=
  ((steps path).foldl (fun location name =>
    if name = "." then location else if name = ".." then location.tail else name :: location)
    (start t.current path)).reverse

/-- The tree with a part put in the place of a path. -/
def put (t : FileTree) (path : String) (part : Node) : FileTree :=
  { t with top := Node.put part (t.place path) t.top }

/-- The tree with a file that holds some bytes: one that a path leads to, which stays executable or
not, or a new one in its place. -/
def writeFile (t : FileTree) (path : String) (content : List UInt8) : FileTree :=
  match t.resolve path true with
  | .ok (location, .file _ executable) =>
    { t with top := Node.put (.file content executable) location.reverse t.top }
  | _ => t.put path (.file content false)

/-- The tree without the part in the place of a path. -/
def erase (t : FileTree) (path : String) : FileTree :=
  { t with top := Node.erase (t.place path) t.top }

/-- The tree with a directory made in the place of a path, if there is none. -/
def makeDirectory (t : FileTree) (path : String) : FileTree :=
  match t.find? path with
  | some (.directory _) => t
  | _ => t.put path (.directory [])

end FileTree

end Multipass
