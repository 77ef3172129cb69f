import Multipass.Shell.Arithmetic
import Multipass.Shell.Machine

/-!
# Expansion

The words of a command are filled in: the values of parameters, what commands write, and the values
of expressions. Outside of quotes, what is filled in falls into fields, and a field with wildcards
stands for the paths that it matches, if there are some.
-/

namespace Multipass.Shell

open Work

/-! ### Paths -/

/-- The names in a directory, in ascending order, with those of the directory itself and of the one
above. -/
def directoryNames (tree : FileTree) (path : Bytes) : List Bytes :=
  let path := if path.isEmpty then bytesOf "." else path
  match tree.find? (textOf path) with
  | some (.directory es) => [[46], [46, 46]] ++ es.map fun e => bytesOf e.1
  | _ => []

/-- Holds of marked bytes with wildcards. -/
def hasWildcards (s : Marked) : Bool :=
  s.any fun (b, active) => active && (b = 42 || b = 63 || b = 91)

/-- Marked bytes between separators of directories. -/
def pathParts (s : Marked) : List Marked :=
  let rec go : Marked → Marked → List Marked → List Marked
    | [], part, done => (part.reverse :: done).reverse
    | (b, active) :: s, part, done =>
      if b = 47 then go s [] (part.reverse :: done) else go s ((b, active) :: part) done
  go s [] []

/-- The paths behind some bytes that match the parts of a pattern. -/
def pathsFrom (tree : FileTree) (front : Bytes) : List Marked → List Bytes
  | [] => []
  | part :: rest =>
    let onward (path : Bytes) : List Bytes :=
      match rest with
      | [] => if (tree.resolve (textOf path) false).toOption.isSome then [path] else []
      | rest => pathsFrom tree (path ++ [47]) rest
    if hasWildcards part then
      let pattern := wildcards part
      let hidden := part.head?.map Prod.fst = some 46
      (directoryNames tree front).flatMap fun name =>
        if (hidden || name.head? != some 46) && matchesAll pattern name then onward (front ++ name)
        else []
    else
      match part, rest with
      | [], [] => if (tree.find? (textOf front)).isSome then [front] else []
      | part, _ => onward (front ++ part.bytes)

/-- What a field stands for: the paths that it matches, or itself. -/
def fieldPaths (m : Machine) (field : Marked) : List Bytes :=
  if m.options.contains 'f' || !hasWildcards field then [field.bytes]
  else
    match pathsFrom m.tree [] (pathParts field) with
    | [] => [field.bytes]
    | paths => paths.mergeSort fun a b => decide (a ≤ b)

/-- The home of a user by a name. -/
def homeOf? (m : Machine) (user : List Char) : Option Bytes :=
  match String.ofList user with
  | "" => m.value? "HOME"
  | "root" => some (bytesOf "/root")
  | _ => none

/-- A word in which a tilde at its start, or behind a colon in an assignment, is a home. -/
def withHome (m : Machine) (assigned : Bool) (w : Word) : Word :=
  let ended (c : Char) : Bool := c = '/' || (assigned && c = ':')
  let filled (s : List Char) (last : Bool) : List Piece :=
    match s with
    | '~' :: rest =>
      let user := rest.takeWhile fun c => !ended c
      if user.length = rest.length && !last then [.text s false]
      else
        match homeOf? m user with
        | some home =>
          [.text (textOf home).toList true, .text (rest.drop user.length) false]
        | none => [.text s false]
    | s => [.text s false]
  match w with
  | .text s false :: rest =>
    if assigned then
      let parts := Text.splitOnChar ':' s
      let pieces := parts.zipIdx.map fun (part, i) =>
        filled part (i + 1 < parts.length || rest.isEmpty)
      [Piece.text [':'] false].intercalate pieces ++ rest
    else filled s rest.isEmpty ++ rest
  | w => w

/-! ### Pieces -/

/-- Bytes without the ends of lines behind them. -/
def withoutNewlines (s : Bytes) : Bytes :=
  (s.reverse.dropWhile (· == newlineByte)).reverse

/-- The value of a parameter, filled in. -/
def parameterAtoms (name : String) (quoted : Bool) : Work (List Atom) := do
  let m ← get
  if name = "@" || (name = "*" && !quoted) then return argumentAtoms quoted m.arguments
  else if name = "*" then return filledAtoms true m.joined
  else
    match m.parameter? name with
    | some value => return filledAtoms quoted value
    | none =>
      if m.options.contains 'u' then aborts s!"{name}: parameter not set"
      else return []

/-- The value of an arithmetic expression. -/
def numberAtoms (expression : Bytes) (quoted : Bool) : Work (List Atom) := do
  let m ← get
  match arithmetic (fun name => textOf ((m.parameter? name).getD [])) (textOf expression) with
  | .error reason => aborts reason
  | .ok (value, changes) =>
    for (name, i) in changes do
      assign name (bytesOf (toString i))
    return filledAtoms quoted (bytesOf (toString value))

/-- A word without the quotes around all arguments where there are none. -/
def withoutNoArguments (m : Machine) : Word → Word
  | .text [] true :: .parameter "@" .value true :: rest =>
    if m.arguments.isEmpty then withoutNoArguments m rest
    else .text [] true :: .parameter "@" .value true :: withoutNoArguments m rest
  | p :: rest => p :: withoutNoArguments m rest
  | [] => []

mutual

/-- What a piece is filled in with, given what commands write. -/
def pieceAtoms (output : Command → Work Bytes) : Piece → Work (List Atom)
  | .text s quoted =>
    return (if quoted then [Atom.quotes] else []) ++ writtenAtoms quoted (bytesOf (String.ofList s))
  | .output c quoted => do
    let s ← output c
    return filledAtoms quoted (withoutNewlines s)
  | .number w quoted => do
    let atoms ← piecesAtoms output w
    numberAtoms (wholeMarked atoms).bytes quoted
  | .parameter name use quoted => useAtoms output name quoted use

/-- What a parameter is filled in with. -/
def useAtoms (output : Command → Work Bytes) (name : String) (quoted : Bool) :
    Use → Work (List Atom)
  | .value => parameterAtoms name quoted
  | .length => do
    let atoms ← parameterAtoms name true
    return filledAtoms quoted (decimal (wholeMarked atoms).length)
  | .instead kind emptyIsNone w => do
    let value := (← get).parameter? name
    let isThere := match value with
      | some value => !(emptyIsNone && value.isEmpty)
      | none => false
    match kind with
    | .useWord => if isThere then parameterAtoms name quoted else piecesAtoms output w
    | .useWordIfSet => if isThere then piecesAtoms output w else return []
    | .assignWord =>
      if isThere then parameterAtoms name quoted
      else
        let atoms ← piecesAtoms output w
        let value := (wholeMarked atoms).bytes
        if isName name.toList then
          assign name value
          return filledAtoms quoted value
        else aborts s!"{name}: bad variable name"
    | .complain =>
      if isThere then parameterAtoms name quoted
      else
        let atoms ← piecesAtoms output w
        let usual := if emptyIsNone then "parameter not set or null" else "parameter not set"
        aborts s!"{name}: {if w.isEmpty then usual else textOf (wholeMarked atoms).bytes}"
  | .trimmed atEnd longest w => do
    let atoms ← piecesAtoms output w
    let value ← parameterAtoms name true
    return filledAtoms quoted
      (trim atEnd longest (wildcards (wholeMarked atoms)) (wholeMarked value).bytes)
  | .bad => aborts "Bad substitution"

/-- What the pieces of a word are filled in with. -/
def piecesAtoms (output : Command → Work Bytes) : List Piece → Work (List Atom)
  | [] => return []
  | p :: w => do
    let atoms ← pieceAtoms output p
    let others ← piecesAtoms output w
    return atoms ++ others

end

/-! ### Words -/

/-- What fills in the words of commands. -/
structure Filler where
  /-- What a command writes. -/
  output : Command → Work Bytes

namespace Filler

variable (f : Filler)

/-- The marked bytes of a word that stays one. -/
def marked (assigned : Bool) (w : Word) : Work Marked := do
  let atoms ← piecesAtoms f.output (withHome (← get) assigned w)
  return wholeMarked atoms

/-- The text of a word that stays one. -/
def whole (assigned : Bool) (w : Word) : Work Bytes := do
  return (← f.marked assigned w).bytes

/-- The fields of a word. -/
def wordFields (w : Word) : Work (List Bytes) := do
  let m ← get
  let atoms ← piecesAtoms f.output (withoutNoArguments m (withHome m false w))
  let m ← get
  return (fields m.separators atoms).flatMap (fieldPaths m)

/-- The fields of words. -/
def all : List Word → Work (List Bytes)
  | [] => return []
  | w :: ws => do
    let these ← f.wordFields w
    let others ← all ws
    return these ++ others

end Filler

end Multipass.Shell
