import Multipass.Files.Tree
import Multipass.Shell.Basic
import Multipass.Text.Utf8

/-!
# Programs

What a program is: by its arguments, its input, and the files there are, it writes, changes files,
and ends with a status. The options of a program are single letters, alone or several behind one
hyphen, or words behind two.
-/

namespace Multipass.Shell

open Text (encode decodeLossy)

/-! ### Bytes -/

/-- A text as bytes. -/
def bytesOf (s : String) : Bytes :=
  encode s

/-- The text of bytes. -/
def textOf (b : Bytes) : String :=
  decodeLossy b

/-- A character of one byte. -/
def byteOf (c : Char) : UInt8 :=
  UInt8.ofNat c.toNat

/-- A byte as a character of one byte. -/
def charOf (b : UInt8) : Char :=
  Char.ofNat b.toNat

/-- A line feed. -/
def newlineByte : UInt8 := 10

/-- Holds of a byte that is a decimal digit. -/
def isDigitByte (b : UInt8) : Bool :=
  48 ≤ b && b ≤ 57

/-- The stretches of bytes that a mark ends, without it, and whether the last one has its mark. -/
def stretchesOf (mark : UInt8) (s : Bytes) : List Bytes × Bool :=
  let rec go : Bytes → Bytes → List Bytes → List Bytes × Bool
    | [], line, done =>
      if line.isEmpty then (done.reverse, true) else ((line.reverse :: done).reverse, false)
    | b :: s, line, done =>
      if b = mark then go s [] (line.reverse :: done) else go s (b :: line) done
  go s [] []

/-- Stretches with their marks. -/
def joinStretches (mark : UInt8) (stretches : List Bytes) : Bytes :=
  stretches.flatMap fun s => s ++ [mark]

/-- The lines of bytes, without their ends, and whether the last one ends. -/
def linesOf (s : Bytes) : List Bytes × Bool :=
  stretchesOf newlineByte s

/-- Lines with their ends. -/
def joinLineEnds (lines : List Bytes) : Bytes :=
  joinStretches newlineByte lines

/-- The pieces of bytes between the occurrences of one byte. -/
def splitByte (separator : UInt8) (s : Bytes) : List Bytes :=
  let rec go : Bytes → Bytes → List Bytes → List Bytes
    | [], piece, done => (piece.reverse :: done).reverse
    | b :: s, piece, done =>
      if b = separator then go s [] (piece.reverse :: done) else go s (b :: piece) done
  go s [] []

/-- The natural number that bytes spell in decimal digits, and nothing else. -/
def natural? (s : Bytes) : Option Nat :=
  if !s.isEmpty && s.all isDigitByte then
    some (s.foldl (fun n b => 10 * n + (b.toNat - 48)) 0)
  else none

/-- The integer that bytes spell, with a sign or without. -/
def signedInt? (s : Bytes) : Option Int :=
  match s with
  | 45 :: s => (natural? s).map fun n => -(n : Int)
  | 43 :: s => (natural? s).map fun n => (n : Int)
  | s => (natural? s).map fun n => (n : Int)

/-- A number in decimal digits. -/
def decimal (n : Nat) : Bytes :=
  bytesOf (toString n)

/-- Bytes filled up with blanks at the front. -/
def padFront (width : Nat) (s : Bytes) : Bytes :=
  List.replicate (width - s.length) 32 ++ s

/-! ### Calls -/

/-- How a program is called. -/
structure Call where
  arguments : List Bytes
  input : Bytes := []
  /-- Whether the input is a file. -/
  fromFile : Bool := false
  tree : FileTree
  /-- The variables that it sees. -/
  environment : List (String × Bytes) := []

/-- What a program did. -/
structure Effect where
  /-- What was written, with the descriptors, in order. -/
  written : List (Nat × Bytes) := []
  status : Nat := 0
  /-- The milliseconds it slept. -/
  slept : Nat := 0
  /-- What is left of the input, if some of it was read. -/
  left : Option Bytes := none
  /-- The files as they are behind it, if it changed some. -/
  tree : Option FileTree := none
  /-- What it goes on to write without an end, if it does. -/
  endless : Option Bytes := none

/-- A program. -/
abbrev Program := Call → Effect

namespace Effect

/-- Writes to the output. -/
def say (s : Bytes) : Effect :=
  { written := [(1, s)] }

/-- Ends with a status. -/
def ends (status : Nat) : Effect :=
  { status }

/-- Complains and fails. -/
def complains (status : Nat) (s : String) : Effect :=
  { written := [(2, bytesOf (s ++ "\n"))], status }

/-- One effect after another; the greater status counts. -/
def followedBy (a b : Effect) : Effect where
  written := a.written ++ b.written
  status := max a.status b.status
  slept := a.slept + b.slept
  left := b.left.or a.left
  tree := b.tree.or a.tree
  endless := b.endless

/-- A complaint in which a program has another name, at the start of its lines and in its advice. -/
def renamed (name title : String) (s : Bytes) : Bytes :=
  let (lines, ended) := linesOf s
  let out := lines.map fun line =>
    [("", ":"), ("Try '", " --help'"), ("Usage: ", " ")].foldl (fun line (front, behind) =>
      let before := bytesOf (front ++ name ++ behind)
      if before.isPrefixOf line then
        bytesOf (front ++ title ++ behind) ++ line.drop before.length
      else line) line
  if ended then joinLineEnds out else (joinLineEnds out).dropLast

/-- What a program does that is called by another name. -/
def titled (name title : String) (e : Effect) : Effect :=
  if name = title then e
  else { e with written := e.written.map fun (n, s) => (n, if n = 2 then renamed name title s else s) }

/-- Effects one after another. -/
def all (effects : List Effect) : Effect :=
  { written := effects.flatMap Effect.written
    status := (effects.map Effect.status).foldl max 0
    slept := (effects.map Effect.slept).foldl (· + ·) 0
    left := effects.foldl (fun left e => e.left.or left) none
    tree := effects.foldl (fun tree e => e.tree.or tree) none }

end Effect

/-! ### Files -/

/-- Why a file is not there. -/
def missing : String := "No such file or directory"

/-- The words for a path that leads nowhere. -/
def pathComplaint : FileFault → String
  | .notFound => missing
  | .notADirectory => "Not a directory"
  | .tooManyLinks => "Too many levels of symbolic links"
  | .denied => "Permission denied"

/-- The directories of the system that are always there. -/
def systemDirectories : List String :=
  ["/", "/bin", "/dev", "/etc", "/home", "/lib", "/opt", "/proc", "/root", "/run", "/sbin", "/sys",
    "/tmp", "/usr", "/usr/bin", "/usr/lib", "/usr/local", "/usr/local/bin", "/usr/sbin",
    "/usr/share", "/var", "/var/lib", "/var/log", "/var/tmp"]

/-- The devices of the system. -/
def systemDevices : List String :=
  ["/dev/full", "/dev/null", "/dev/random", "/dev/stderr", "/dev/stdin", "/dev/stdout",
    "/dev/urandom", "/dev/zero"]

/-- What a path leads to: a part of the tree, or an empty directory for one of the system. -/
def lookUp (tree : FileTree) (path : String) (follow : Bool) : Except FileFault Node :=
  match tree.resolve path follow with
  | .ok (_, node) => .ok node
  | .error e =>
    if systemDirectories.contains path then .ok (.directory []) else .error e

/-- What a file holds, or why it cannot be read. -/
def fileContent (tree : FileTree) (path : Bytes) : Except String Bytes :=
  if path = bytesOf "/dev/null" then .ok []
  else
    match lookUp tree (textOf path) true with
    | .ok (.file content _) => .ok content
    | .ok _ => .error "Is a directory"
    | .error e => .error (pathComplaint e)

/-- The name that stands for the input. -/
def inputName : Bytes := [45]

/-- What a program reads by a name: a file or its input. -/
def Call.read (call : Call) (name : Bytes) : Except String Bytes :=
  if name = inputName || name = bytesOf "/dev/stdin" then .ok call.input
  else fileContent call.tree name

/-- What is left of the input behind a program that reads all of it if one of its files is the
input. -/
def leftBehind (files : List Bytes) : Option Bytes :=
  if files.any fun f => f = inputName || f = bytesOf "/dev/stdin" then some [] else none

/-- The files of a program, or its input. -/
def orInput (files : List Bytes) : List Bytes :=
  if files.isEmpty then [inputName] else files

/-- What files hold together, and the complaints about those that cannot be read. -/
def readTogether (program : String) (status : Nat) (call : Call) (files : List Bytes) :
    Bytes × Effect :=
  let contents := files.map fun file => (file, call.read file)
  (contents.flatMap fun c => c.2.toOption.getD [],
    { Effect.all (contents.filterMap fun (file, content) =>
        match content with
        | .ok _ => none
        | .error reason =>
          some (Effect.complains status s!"{program}: {textOf file}: {reason}")) with
      left := leftBehind files })

/-- A path without the separators behind it. -/
def withoutSlashes (s : Bytes) : Bytes :=
  (s.reverse.dropWhile (· == 47)).reverse

/-- The last name of a path. -/
def lastName (s : Bytes) : Bytes :=
  let inner := withoutSlashes s
  if inner.isEmpty then s.take 1 else (splitByte 47 inner).getLastD []

/-- A path without its last name. -/
def directoryName (s : Bytes) : Bytes :=
  let inner := withoutSlashes s
  let front := (inner.reverse.dropWhile (· != 47)).reverse
  let front' := withoutSlashes front
  if inner.isEmpty then (if s.isEmpty then [46] else [47])
  else if front.isEmpty then [46]
  else if front'.isEmpty then [47]
  else front'

/-- Why nothing can be made in a place, if so. -/
def placeFault? (tree : FileTree) (path : Bytes) : Option String :=
  match lookUp tree (textOf (directoryName path)) true with
  | .ok (.directory _) => none
  | .ok _ => some "Not a directory"
  | .error e => some (pathComplaint e)

/-- Why a file cannot be written, if so. -/
def writeFault? (tree : FileTree) (path : Bytes) : Option String :=
  match lookUp tree (textOf path) true with
  | .ok (.directory _) => some "Is a directory"
  | .ok _ => none
  | .error .notFound =>
    if path.getLast? = some 47 then some "Is a directory" else placeFault? tree path
  | .error e => some (pathComplaint e)

/-- Writes a file, or complains by a reason. -/
def Call.writes (call : Call) (path content : Bytes) (complaint : String → Effect) : Effect :=
  if path = bytesOf "/dev/null" then {}
  else if path = bytesOf "/dev/stdout" then Effect.say content
  else if path = bytesOf "/dev/stderr" then { written := [(2, content)] }
  else
    match writeFault? call.tree path with
    | some reason => complaint reason
    | none => { tree := some (call.tree.writeFile (textOf path) content) }

/-! ### Options -/

/-- The options of a program: letters alone, letters with a value, and words for letters. -/
structure Options where
  name : String
  flags : List Char := []
  valued : List Char := []
  words : List (String × Char) := []
  /-- Letters with a value for which there are only words. -/
  wordValued : List Char := []
  /-- Letters with a value that may be left out, for which there are only words. -/
  wordOptional : List Char := []
  /-- The status behind a wrong option. -/
  status : Nat := 1
  /-- Whether the first operand ends the options. -/
  inOrder : Bool := false
  /-- Whether negative numbers are operands. -/
  numbers : Bool := false
  /-- What is written below a complaint. -/
  advice : String := s!"Try '{name} --help' for more information."

/-- The arguments of a program, sorted. -/
structure Given where
  options : List (Char × Bytes) := []
  operands : List Bytes := []

namespace Given

/-- Holds of a letter that was given. -/
def has (g : Given) (c : Char) : Bool :=
  g.options.any fun o => o.1 = c

/-- The value of the last option of a letter. -/
def value? (g : Given) (c : Char) : Option Bytes :=
  (g.options.reverse.find? fun o => o.1 = c).map Prod.snd

/-- The values of all options of a letter. -/
def values (g : Given) (c : Char) : List Bytes :=
  (g.options.filter fun o => o.1 = c).map Prod.snd

end Given

namespace Options

/-- A complaint about options. -/
def complaint (o : Options) (message : String) : Effect :=
  Effect.complains o.status s!"{o.name}: {message}\n{o.advice}"

/-- The letters behind one hyphen: the options, whether the last one takes the next argument, or
what is wrong. -/
def letters (o : Options) : Bytes → Except Effect (List (Char × Bytes) × Option Char)
  | [] => .ok ([], none)
  | b :: s =>
    let c := charOf b
    if o.valued.contains c then
      if s.isEmpty then .ok ([], some c) else .ok ([(c, s)], none)
    else if o.flags.contains c then do
      let (others, last) ← letters o s
      return ((c, []) :: others, last)
    else .error (o.complaint s!"invalid option -- '{c}'")

/-- The words that a word may stand for, which may be cut short, with their letters: more than one
only if they differ in their letters. -/
def meanings (o : Options) (word : String) : List (String × Char) :=
  match o.words.filter fun w => w.1 = word with
  | w :: _ => [w]
  | [] =>
    match o.words.filter fun w => word.toList.isPrefixOf w.1.toList with
    | w :: others => w :: others.filter fun other => other.2 != w.2
    | [] => []

/-- The letter of a word and its value, if it has one; whether the value is the next argument. -/
def wordOption (o : Options) (argument : Bytes) : Except Effect (Char × Option Bytes × Bool) :=
  let word := argument.drop 2
  let value := if word.contains 61 then some ((word.dropWhile (· != 61)).drop 1) else none
  match o.meanings (textOf (word.takeWhile (· != 61))) with
  | [] => .error (o.complaint s!"unrecognized option '{textOf argument}'")
  | [(full, c)] =>
    if o.valued.contains c || o.wordValued.contains c then .ok (c, value, value.isNone)
    else if value.isSome && !o.wordOptional.contains c then
      .error (o.complaint s!"option '--{full}' doesn't allow an argument")
    else .ok (c, value, false)
  | several =>
    let names := String.intercalate " " (several.map fun w => s!"'--{w.1}'")
    .error (o.complaint s!"option '{textOf argument}' is ambiguous; possibilities: {names}")

/-- Sorts arguments. -/
def sort (o : Options) : List Bytes → Except Effect Given
  | [] => .ok {}
  | a :: rest =>
    match a with
    | 45 :: 45 :: [] => .ok { operands := rest }
    | 45 :: 45 :: _ => do
      let (c, value, next) ← o.wordOption a
      match next, rest with
      | true, value :: rest =>
        let g ← sort o rest
        return { g with options := (c, value) :: g.options }
      | true, [] =>
        let full := ((o.meanings (textOf (a.drop 2))).map Prod.fst).headD ""
        .error (o.complaint s!"option '--{full}' requires an argument")
      | false, rest =>
        let g ← sort o rest
        return { g with options := (c, value.getD []) :: g.options }
    | 45 :: b :: s =>
      if o.numbers && (isDigitByte b || b = 46) then return { operands := a :: rest } else do
      let (options, last) ← o.letters (b :: s)
      match last, rest with
      | some c, value :: rest =>
        let g ← sort o rest
        return { g with options := options ++ (c, value) :: g.options }
      | some c, [] => .error (o.complaint s!"option requires an argument -- '{c}'")
      | none, rest =>
        let g ← sort o rest
        return { g with options := options ++ g.options }
    | a =>
      if o.inOrder then return { operands := a :: rest } else do
      let g ← sort o rest
      return { g with operands := a :: g.operands }

/-- A program by its sorted arguments. -/
def program (o : Options) (run : Given → Program) : Program := fun call =>
  match o.sort call.arguments with
  | .ok given => run given call
  | .error e => e

end Options

end Multipass.Shell
