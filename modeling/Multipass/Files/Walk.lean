import Multipass.Files.Tree

/-!
# Walking a file tree

All files below a root that may be read. Links are passed over, or followed: then a link that leads
nowhere and a link to a directory that the walk is in are faults. A directory that may not be read
is a fault in any case, and one fault ends the walk. A root that is a link to a directory is
followed in any case.
-/

namespace Multipass

/-- A file that a walk has come to: the names below the root, and the bytes. -/
structure FoundFile where
  names : List String
  content : List UInt8
  deriving Repr

/-- Why a walk ends early. -/
inductive WalkFault where
  | unreachable (path : String) (fault : FileFault)
  | loop (path ancestor : String)
  /-- A link to a directory that may not be read. -/
  | shut (path : String)
  deriving DecidableEq, Repr

/-- The words for a walk that ends early. -/
def WalkFault.message : WalkFault → String
  | .unreachable path fault => s!"IO error for operation on {path}: {fault.message}"
  | .loop path ancestor => s!"File system loop found: {path} points to an ancestor {ancestor}"
  -- The directory is opened to be compared with those the walk is in, and no path is told then.
  | .shut _ => FileFault.denied.message

namespace FileTree

/-- A walk: its tree, the text of its root, and whether it follows links. -/
structure Walk where
  tree : FileTree
  root : String
  follow : Bool

/-- The path of names below the root of a walk. -/
def Walk.pathOf (w : Walk) (names : List String) : String :=
  names.foldl Path.join w.root

/-- A directory that a walk is in: where it is, and the names that led to it. -/
structure Ancestor where
  location : Location
  names : List String

/-- The directory among some that is in a place. -/
def ancestor? (location : Location) (ancestors : List Ancestor) : Option Ancestor :=
  ancestors.find? fun a => a.location == location

mutual

/-- The files of a part of the tree, which is in a place and was reached by some names, the last
first; `links` bounds the links to directories on the way, as it does for paths. -/
def filesOf (w : Walk) (links : Nat) (ancestors : List Ancestor) (location : Location)
    (names : List String) (node : Node) : Except WalkFault (List FoundFile) :=
  match node with
  | .file content _ => .ok [⟨names.reverse, content⟩]
  | .directory es => filesOfEntries w links (⟨location, names⟩ :: ancestors) location names es
  -- There is no text to be had from a sealed file.
  | .sealed false => .ok []
  | .sealed true => .error (.unreachable (w.pathOf names.reverse) .denied)
  | .link _ =>
    if !w.follow then .ok []
    else
      let path := w.pathOf names.reverse
      match w.tree.resolve path true with
      | .error fault => .error (.unreachable path fault)
      | .ok (_, .file content _) => .ok [⟨names.reverse, content⟩]
      | .ok (_, .link _) => .error (.unreachable path .tooManyLinks)
      | .ok (_, .sealed false) => .ok []
      | .ok (_, .sealed true) => .error (.shut path)
      | .ok (location, .directory es) =>
        match ancestor? location ancestors with
        | some a => .error (.loop path (w.pathOf a.names.reverse))
        | none =>
          match links with
          | 0 => .error (.unreachable path .tooManyLinks)
          | links + 1 =>
            filesOfEntries w links (⟨location, names⟩ :: ancestors) location names es
termination_by (links, sizeOf node)

/-- The files of the entries of a directory. -/
def filesOfEntries (w : Walk) (links : Nat) (ancestors : List Ancestor) (location : Location)
    (names : List String) (es : List (String × Node)) : Except WalkFault (List FoundFile) :=
  match es with
  | [] => .ok []
  | (name, node) :: rest =>
    match filesOf w links ancestors (name :: location) (name :: names) node with
    | .error e => .error e
    | .ok files =>
      match filesOfEntries w links ancestors location names rest with
      | .error e => .error e
      | .ok more => .ok (files ++ more)
termination_by (links, sizeOf es)

end

/-- All files below a root. -/
def files (t : FileTree) (root : String) (follow : Bool) : Except WalkFault (List FoundFile) :=
  let w : Walk := ⟨t, root, follow⟩
  match t.resolve root false with
  | .error fault => .error (.unreachable root fault)
  | .ok (location, .link _) =>
    match t.resolve root true with
    | .error fault => .error (.unreachable root fault)
    | .ok (location', .directory es) =>
      filesOfEntries w maxLinks [⟨location', []⟩] location' [] es
    | .ok (_, .file content _) => if follow then .ok [⟨[], content⟩] else .ok []
    | .ok (_, .link _) => .error (.unreachable (Path.join root (location.headD "")) .tooManyLinks)
    | .ok (_, .sealed false) => .ok []
    | .ok (_, .sealed true) =>
      if follow then .error (.shut root) else .error (.unreachable root .denied)
  | .ok (location, node) => filesOf w maxLinks [] location [] node

end FileTree

end Multipass
