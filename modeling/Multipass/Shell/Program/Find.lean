import Multipass.Shell.Program.Files
import Multipass.Shell.Pattern

/-!
# Finding files

The program that walks below directories and writes the paths of what satisfies some tests: by the
name, the path, the kind, the size, or the depth, joined by "and", "or", and "not".
-/

namespace Multipass.Shell

/-- A test of what was found. -/
inductive FindTest where
  | always
  | name (pattern : Bytes) (anyCase : Bool)
  | path (pattern : Bytes)
  /-- A directory, a file, or a link, by its letter. -/
  | kind (letter : Char)
  | empty
  | executable
  /-- The path is written, with an end. -/
  | print (ending : UInt8)
  | not (t : FindTest)
  | both (a b : FindTest)
  | either (a b : FindTest)
  deriving Repr

/-- What was found. -/
structure Found where
  path : Bytes
  name : Bytes
  node : Node

namespace FindTest

/-- Whether a text matches a pattern. -/
def fits (anyCase : Bool) (pattern s : Bytes) : Bool :=
  let lower (b : UInt8) : UInt8 := if anyCase && 65 ≤ b && b ≤ 90 then b + 32 else b
  matchesAll (wildcards (pattern.map fun b => (lower b, true))) (s.map lower)

/-- Whether something passes a test, and what the test writes. -/
def apply (found : Found) : FindTest → Bool × Bytes
  | always => (true, [])
  | name pattern anyCase => (fits anyCase pattern found.name, [])
  | path pattern => (fits false pattern found.path, [])
  | kind letter =>
    (match found.node with
      | .file .. => letter = 'f'
      | .directory _ => letter = 'd'
      | .link _ => letter = 'l'
      | .sealed isDirectory => letter = if isDirectory then 'd' else 'f', [])
  | empty =>
    (match found.node with
      | .file content _ => content.isEmpty
      | .directory es => es.isEmpty
      | _ => false, [])
  | executable =>
    (match found.node with
      | .file _ mode => mode
      | _ => true, [])
  | print ending => (true, found.path ++ [ending])
  | not t =>
    let (passed, out) := apply found t
    (!passed, out)
  | both a b =>
    let (passed, out) := apply found a
    if passed then
      let (passed, more) := apply found b
      (passed, out ++ more)
    else (false, out)
  | either a b =>
    let (passed, out) := apply found a
    if passed then (true, out)
    else
      let (passed, more) := apply found b
      (passed, out ++ more)

/-- Holds of a test that writes. -/
def writes : FindTest → Bool
  | print _ => true
  | not t => writes t
  | both a b => writes a || writes b
  | either a b => writes a || writes b
  | _ => false

end FindTest

/-- Reads tests from arguments, or says what is wrong. -/
abbrev FindReading := StateT (List Bytes) (Except String)

mutual

/-- Reads tests of which one has to pass. -/
def findChoices : (fuel : Nat) → FindReading FindTest
  | 0 => throw "too deep"
  | fuel + 1 => do
    let a ← findRow fuel
    match ← get with
    | s :: rest =>
      if textOf s = "-o" || textOf s = "-or" then
        set rest
        return .either a (← findChoices fuel)
      else return a
    | [] => return a

/-- Reads tests that all have to pass. -/
def findRow : (fuel : Nat) → FindReading FindTest
  | 0 => throw "too deep"
  | fuel + 1 => do
    let a ← findSingle fuel
    match ← get with
    | s :: rest =>
      let op := textOf s
      if op = "-o" || op = "-or" || op = ")" then return a
      else if op = "-a" || op = "-and" then
        set rest
        return .both a (← findRow fuel)
      else return .both a (← findRow fuel)
    | [] => return a

/-- Reads a single test. -/
def findSingle : (fuel : Nat) → FindReading FindTest
  | 0 => throw "too deep"
  | fuel + 1 => do
    match ← get with
    | [] => throw "expected an expression"
    | s :: rest =>
      let op := textOf s
      set rest
      let value (make : Bytes → FindTest) : FindReading FindTest := do
        match ← get with
        | v :: rest =>
          set rest
          return make v
        | [] => throw s!"missing argument to '{op}'"
      match op with
      | "!" | "-not" => return .not (← findSingle fuel)
      | "(" =>
        let t ← findChoices fuel
        match ← get with
        | s :: rest =>
          if textOf s = ")" then
            set rest
            return t
          else throw "expected ')'"
        | [] => throw "expected ')'"
      | "-name" => value fun p => .name p false
      | "-iname" => value fun p => .name p true
      | "-path" | "-wholename" => value .path
      | "-type" => value fun p => .kind (charOf (p.headD 0))
      | "-maxdepth" | "-mindepth" => value fun _ => .always
      | "-empty" => return .empty
      | "-executable" => return .executable
      | "-print" => return .print newlineByte
      | "-print0" => return .print 0
      | "-true" => return .always
      | _ =>
        if s.head? = some 45 then throw s!"unknown predicate '{op}'"
        else throw s!"paths must precede expression: '{op}'"

end

/-- What is below a path, itself included, with the depth of each. -/
def allBelow (path name : Bytes) (depth : Nat) : Node → List (Nat × Found)
  | .file content mode => [(depth, ⟨path, name, .file content mode⟩)]
  | .link target => [(depth, ⟨path, name, .link target⟩)]
  | .sealed isDirectory => [(depth, ⟨path, name, .sealed isDirectory⟩)]
  | .directory es => (depth, ⟨path, name, .directory es⟩) :: below es
where
  below : List (String × Node) → List (Nat × Found)
    | [] => []
    | (entry, node) :: rest =>
      let own := bytesOf entry
      let front := if path.getLast? = some 47 then path else path ++ [47]
      allBelow (front ++ own) own (depth + 1) node ++ below rest

/-- Writes the paths of what passes some tests. -/
def find : Program := fun call =>
  let isPath (s : Bytes) : Bool := s.head? != some 45 && s != [33] && s != [40]
  let paths := call.arguments.takeWhile isPath
  let tests := call.arguments.dropWhile isPath
  let paths := if paths.isEmpty then [[46]] else paths
  let bound (option : String) : Option Nat :=
    match tests.dropWhile fun s => textOf s != option with
    | _ :: n :: _ => natural? n
    | _ => none
  let read : Except String FindTest :=
    if tests.isEmpty then .ok .always
    else do
      let (t, rest) ← (findChoices (8 * tests.length + 16)).run tests
      match rest with
      | [] => return t
      | s :: _ => throw s!"paths must precede expression: '{textOf s}'"
  match read with
  | .error e => Effect.complains 1 s!"find: {e}"
  | .ok t =>
    let t := if t.writes then t else .both t (.print newlineByte)
    Effect.all (paths.map fun path =>
      match lookUp call.tree (textOf path) false with
      | .error e => Effect.complains 1 s!"find: '{textOf path}': {pathComplaint e}"
      | .ok node =>
        let all := allBelow path (lastName path) 0 node
        let wanted := all.filter fun (depth, _) =>
          ((bound "-maxdepth").map fun n => decide (depth ≤ n)).getD true
            && ((bound "-mindepth").map fun n => decide (n ≤ depth)).getD true
        Effect.say (wanted.flatMap fun (_, found) => (t.apply found).2))

end Multipass.Shell
