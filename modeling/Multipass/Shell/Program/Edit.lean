import Multipass.Shell.Program.Edit.Editor

/-!
# Editing lines

The program that carries out the commands of a script on the lines of files, as one text or file by
file, and writes what comes of it, or puts it in the place of the files.
-/

namespace Multipass.Shell

/-- The lines of a file. -/
def inputLines (mark : UInt8) (file content : Bytes) : List InputLine :=
  let (lines, ended) := stretchesOf mark content
  let all := lines.map fun text => { text, file : InputLine }
  if ended then all
  else all.dropLast ++ all.getLast?.toList.map fun line => { line with ended := false }

/-- The options of the editor. -/
def editOptions : Options where
  name := "sed"
  flags := "bnErsuz".toList
  valued := "efl".toList
  words := [("binary", 'b'), ("regexp-extended", 'E'), ("debug", '1'), ("in-place", 'i'),
    ("expression", 'e'), ("file", 'f'), ("line-length", 'l'), ("null-data", 'z'),
    ("zero-terminated", 'z'), ("quiet", 'n'), ("posix", '2'), ("silent", 'n'), ("sandbox", '3'),
    ("separate", 's'), ("unbuffered", 'u'), ("follow-symlinks", '4')]
  wordOptional := ['i']

/-- Arguments in which the letter that asks to edit in place, with the ending of a copy behind it,
is a word. -/
def withPlaceWords (arguments : List Bytes) : List Bytes :=
  arguments.flatMap fun a =>
    match a with
    | 45 :: b :: rest =>
      if b = 45 then [a]
      else
        -- Letters in front of it that have no value.
        let front := (b :: rest).takeWhile fun b => (bytesOf "bnErsuz").contains b
        match (b :: rest).drop front.length with
        | 105 :: ending =>
          (if front.isEmpty then [] else [45 :: front])
            ++ [bytesOf "--in-place" ++ (if ending.isEmpty then [] else 61 :: ending)]
        | _ => [a]
    | a => [a]

/-- The name of the copy of a file: its name with an ending, or with the name in the place of each
star. -/
def copyName (ending file : Bytes) : Bytes :=
  let name := (splitByte 47 file).getLastD []
  let place := file.take (file.length - name.length)
  if ending.contains 42 then
    let new := ending.flatMap fun b => if b = 42 then name else [b]
    if new.contains 47 then new else place ++ new
  else file ++ ending

/-- The parts of a script, or what is wrong with a file of one. -/
def scriptParts (call : Call) : List (Char × Bytes) → (number : Nat) →
    Except String (List (ScriptPart × Bytes))
  | [], _ => .ok []
  | (c, value) :: rest, number =>
    if c = 'e' then do
      return (.argument number, value) :: (← scriptParts call rest (number + 1))
    else if c = 'f' then
      match call.read value with
      | .ok s => do
        let s := if s.getLast? = some newlineByte then s.dropLast else s
        return (.file value, s) :: (← scriptParts call rest number)
      | .error reason =>
        .error (if reason = "Is a directory" then s!"read error on {textOf value}: {reason}"
          else s!"couldn't open file {textOf value}: {reason}")
    else scriptParts call rest number

/-- What an editor leaves behind: the files that it wrote. -/
def writtenFiles (tree : FileTree) (e : Editor) : FileTree :=
  e.files.foldl (fun tree (name, k) =>
    if name = bytesOf "/dev/stderr" then tree else tree.writeFile (textOf name) k.content) tree

/-- The files that are edited so far, and what was written. -/
structure Editing where
  written : List (Nat × Bytes) := []
  status : Nat := 0
  tree : FileTree
  sink : Sink := {}
  files : List (Bytes × Sink) := []
  sources : List (Bytes × Bytes) := []
  /-- What is left of the input. -/
  left : Option Bytes := none
  endless : Bool := false
  /-- Whether no more files are edited. -/
  finished : Bool := false

/-- How files are edited. -/
structure EditPlan where
  commands : Array EditCommand
  style : EditStyle
  /-- The parts of the script. -/
  parts : Nat
  /-- The ending of copies, if files are edited in place. -/
  inPlace : Option Bytes

namespace Editing

/-- Complains about a file. -/
def complain (w : Editing) (status : Nat) (message : String) : Editing :=
  { w with written := w.written ++ [(2, bytesOf s!"sed: {message}\n")], status := max w.status status }

/-- Edits lines. -/
def run (w : Editing) (p : EditPlan) (lines : List InputLine) : Editing × Editor :=
  let (ending, e) := Editor.turns p.commands (4 * lines.length + Editor.maxCommands) false {
    style := p.style
    rest := lines
    sink := w.sink
    files := w.files
    sources := w.sources }
  let w := { w with
    sink := e.sink
    files := e.files
    sources := e.sources
    status := if e.status = 0 then w.status else e.status
    endless := ending = .endless
    finished := ending != .done }
  if ending = .noPattern then
    ({ w.complain 1 s!"-e expression #{p.parts}, char 0: no previous regular expression" with
      status := 1 }, e)
  else (w, e)

/-- Edits a file in place. -/
def editInPlace (w : Editing) (p : EditPlan) (ending : Bytes) (call : Call) (file : Bytes) : Editing :=
  match call.read file with
  | .error reason =>
    if reason = "Is a directory" then
      { w.complain 4 s!"couldn't edit {textOf file}: not a regular file" with finished := true }
    else w.complain 2 s!"can't read {textOf file}: {reason}"
  | .ok content =>
    let (after, e) := { w with sink := {} }.run p (inputLines p.style.mark file content)
    let tree := if ending.isEmpty then after.tree
      else after.tree.writeFile (textOf (copyName ending file)) content
    let tree := tree.writeFile (textOf file) e.sink.content
    { after with tree, sink := w.sink }

/-- The lines of files up to one that is a directory, and complaints about those that are not
there. -/
def gather (w : Editing) (p : EditPlan) (call : Call) : List Bytes → Editing × List InputLine × Option Bytes
  | [] => (w, [], none)
  | file :: rest =>
    match call.read file with
    | .ok content =>
      let (w, lines, stop) := gather w p call rest
      (w, inputLines p.style.mark file content ++ lines, stop)
    | .error reason =>
      if reason = "Is a directory" then (w, [], some file)
      else
        gather (w.complain 2 s!"can't read {textOf file}: {reason}") p call rest

/-- Edits files as one text. -/
def editTogether (w : Editing) (p : EditPlan) (call : Call) (files : List Bytes) : Editing :=
  let (w, lines, stop) := w.gather p call files
  let (w, e) := w.run p lines
  let w := { w with
    left := if files.contains inputName
      then some (joinStretches p.style.mark (e.rest.map InputLine.text)) else w.left }
  match stop with
  | some file =>
    if w.finished then w
    else
      { w.complain 4 s!"read error on {textOf file}: Is a directory" with status := 4, finished := true }
  | none => w

end Editing

/-- Edits lines. -/
def sed : Program := fun call =>
  editOptions.program (fun g call =>
    let given := g.options.filter fun o => o.1 = 'e' || o.1 = 'f'
    let (given, files) : List (Char × Bytes) × List Bytes := match given, g.operands with
      | [], script :: files => ([('e', script)], files)
      | given, files => (given, files)
    match scriptParts call given 1 with
    | .error e => Effect.complains 1 s!"sed: {e}"
    | .ok [] =>
      Effect.complains 1 "Usage: sed [OPTION]... \x7bscript-only-if-no-other-script\x7d [input-file]..."
    | .ok parts =>
      match readScript (g.has 'E' || g.has 'r') parts with
      | .error e => Effect.complains e.status s!"sed: {e.message}"
      | .ok commands =>
        let silent := (parts.headD (.argument 1, [])).2.take 2 = bytesOf "#n"
        let plan : EditPlan := {
          commands
          style := {
            quiet := g.has 'n' || silent
            mark := if g.has 'z' then 0 else newlineByte
            width := ((g.value? 'l').bind natural?).getD 70
            read := fun name => ((call.read name).toOption).getD [] }
          parts := given.countP fun o => o.1 = 'e'
          inPlace := if g.has 'i' then some ((g.value? 'i').getD []) else none }
        let start : Editing := { tree := call.tree }
        let named := orInput files
        let w := match plan.inPlace with
          | some ending =>
            files.foldl (fun (w : Editing) file => if w.finished then w
              else w.editInPlace plan ending { call with tree := w.tree } file) start
          | none =>
            if g.has 's' then
              named.foldl (fun (w : Editing) file =>
                if w.finished then w else w.editTogether plan call [file]) start
            else start.editTogether plan call named
        let errors := ((w.files.lookup (bytesOf "/dev/stderr")).getD {}).content
        let e : Editor := { style := plan.style, rest := [], files := w.files }
        { written := (1, w.sink.content) :: (2, errors) :: w.written
          status := w.status
          tree := if w.files.isEmpty && plan.inPlace.isNone then none else some (writtenFiles w.tree e)
          left := w.left
          endless := if w.endless then some [] else none })
    { call with arguments := withPlaceWords call.arguments }

end Multipass.Shell
