import Multipass.Shell.Program.Print

/-!
# Programs for files

Programs that list directories, make and remove files and directories, copy and move them, and
compare them.
-/

namespace Multipass.Shell

/-- Effects on a tree one after another. -/
def onTree {α : Type} (step : FileTree → α → FileTree × Option Effect) (tree : FileTree)
    (items : List α) : Effect :=
  let (tree, effects) := items.foldl (fun (tree, effects) a =>
    let (tree, e) := step tree a
    (tree, effects ++ e.toList)) (tree, ([] : List Effect))
  { Effect.all effects with tree := some tree }

/-- Holds of a path to a directory. -/
def isDirectory (tree : FileTree) (path : Bytes) : Bool :=
  match lookUp tree (textOf path) true with
  | .ok (.directory _) => true
  | _ => false

/-- Holds of a path that leads somewhere, if only to a link. -/
def isPresent (tree : FileTree) (path : Bytes) : Bool :=
  (lookUp tree (textOf path) false).toOption.isSome

/-! ### Listing -/

/-- A name with a sign for what it is. -/
def classified (node : Node) (name : Bytes) : Bytes :=
  match node with
  | .directory _ | .sealed true => name ++ [47]
  | .link _ => name ++ [64]
  | .sealed false => name
  | .file _ executable => if executable then name ++ [42] else name

/-- Lists directories and files. -/
def ls : Program :=
  let options : Options := {
    name := "ls"
    flags := "1aAdFrRpULltSsihqNBbCcfgGkmnoQuvxX".toList
    words := [("all", 'a'), ("almost-all", 'A'), ("directory", 'd'), ("classify", 'F'),
      ("reverse", 'r'), ("color", 'q')]
    status := 2 }
  options.program fun g call =>
    let tree := call.tree
    let named := if g.operands.isEmpty then [[46]] else g.operands
    let ordered (names : List Bytes) : List Bytes :=
      let sorted := names.mergeSort fun a b => decide (a ≤ b)
      if g.has 'r' then sorted.reverse else sorted
    let missingOnes := named.filter fun path => !isPresent tree path
    let faults := missingOnes.map fun path =>
      let reason := match lookUp tree (textOf path) false with
        | .error e => pathComplaint e
        | .ok _ => missing
      Effect.complains 2 s!"ls: cannot access '{textOf path}': {reason}"
    let present := ordered (named.filter (isPresent tree))
    let isListed (path : Bytes) : Bool := !g.has 'd' && isDirectory tree path
    let shown (path name : Bytes) : Bytes :=
      match lookUp tree (textOf path) false with
      | .ok node =>
        if g.has 'F' then classified node name
        else match node with
          | .directory _ => if g.has 'p' then name ++ [47] else name
          | _ => name
      | .error _ => name
    let files := (present.filter fun path => !isListed path).map fun path => shown path path
    let content (path : Bytes) : List Bytes :=
      match lookUp tree (textOf path) true with
      | .ok (.directory es) =>
        let all := es.map fun e => bytesOf e.1
        let hidden := g.has 'a' || g.has 'A'
        let visible := if hidden then all else all.filter fun name => name.head? != some 46
        let own := if g.has 'a' then [[46], [46, 46]] else []
        ordered (own ++ visible) |>.map fun name => shown (path ++ 47 :: name) name
      | _ => []
    let directories := present.filter isListed
    let titled := named.length > 1
    let blocks := directories.map fun path =>
      (if titled then path ++ [58, newlineByte] else []) ++ joinLineEnds (content path)
    let first := if files.isEmpty then [] else [joinLineEnds files]
    (Effect.all faults).followedBy (Effect.say ([newlineByte].intercalate (first ++ blocks)))

/-! ### Making and removing -/

/-- The path of each directory on the way to a path, and the path itself. -/
def wayTo (path : Bytes) : List Bytes :=
  let names := (splitByte 47 path).filter fun s => !s.isEmpty
  let front : Bytes := if path.head? = some 47 then [47] else []
  (List.range names.length).map fun i => front ++ [47].intercalate (names.take (i + 1))

/-- Makes directories. -/
def mkdir : Program :=
  let options : Options := {
    name := "mkdir", flags := "pv".toList, valued := "m".toList, words := [("parents", 'p')] }
  options.program fun g call =>
    if g.operands.isEmpty then options.complaint "missing operand"
    else
      let fault (path : Bytes) (reason : String) : Option Effect :=
        some (Effect.complains 1 s!"mkdir: cannot create directory '{textOf path}': {reason}")
      let make (tree : FileTree) (path : Bytes) : FileTree × Option Effect :=
        if isPresent tree path then (tree, fault path "File exists")
        else
          match placeFault? tree path with
          | some reason => (tree, fault path reason)
          | none => (tree.put (textOf (withoutSlashes path)) (.directory []), none)
      onTree (fun tree path =>
        if g.has 'p' then
          (wayTo path).foldl (fun (tree, e) part =>
            if e.isSome || isDirectory tree part then (tree, e)
            else if isPresent tree part then
              (tree, fault part (if part = path then "File exists" else "Not a directory"))
            else make tree part) (tree, none)
        else make tree path) call.tree g.operands

/-- Removes directories that are empty. -/
def rmdir : Program :=
  let options : Options := { name := "rmdir", flags := "pv".toList, words := [("parents", 'p')] }
  options.program fun g call =>
    if g.operands.isEmpty then options.complaint "missing operand"
    else
      onTree (fun tree path =>
        let fault (reason : String) : FileTree × Option Effect :=
          (tree, some (Effect.complains 1 s!"rmdir: failed to remove '{textOf path}': {reason}"))
        match lookUp tree (textOf path) false with
        | .ok (.directory []) => (tree.erase (textOf path), none)
        | .ok (.directory _) => fault "Directory not empty"
        | .ok _ => fault "Not a directory"
        | .error e => fault (pathComplaint e)) call.tree g.operands

/-- Removes files, and directories if asked. -/
def rm : Program :=
  let options : Options := {
    name := "rm"
    flags := "rRfdvi".toList
    words := [("recursive", 'r'), ("force", 'f'), ("dir", 'd'), ("verbose", 'v')] }
  options.program fun g call =>
    if g.operands.isEmpty then
      if g.has 'f' then Effect.ends 0 else options.complaint "missing operand"
    else
      onTree (fun tree path =>
        let fault (reason : String) : FileTree × Option Effect :=
          (tree, some (Effect.complains 1 s!"rm: cannot remove '{textOf path}': {reason}"))
        match lookUp tree (textOf path) false with
        | .ok (.directory es) =>
          if g.has 'r' || g.has 'R' || (g.has 'd' && es.isEmpty) then
            (tree.erase (textOf path), none)
          else fault "Is a directory"
        | .ok _ => (tree.erase (textOf path), none)
        | .error e => if g.has 'f' then (tree, none) else fault (pathComplaint e))
        call.tree g.operands

/-- Makes files that are missing. -/
def touch : Program :=
  let options : Options := {
    name := "touch", flags := "acmh".toList, valued := "drt".toList, words := [("no-create", 'c')] }
  options.program fun g call =>
    if g.operands.isEmpty then options.complaint "missing file operand"
    else
      onTree (fun tree path =>
        if isPresent tree path || g.has 'c' then (tree, none)
        else
          match placeFault? tree path with
          | some reason =>
            (tree, some (Effect.complains 1 s!"touch: cannot touch '{textOf path}': {reason}"))
          | none => (tree.put (textOf path) (.file [] false), none)) call.tree g.operands

/-! ### Copying and moving -/

/-- Where a source goes: into a directory, or to a path. -/
def targetPath (tree : FileTree) (source target : Bytes) : Bytes :=
  if isDirectory tree target then withoutSlashes target ++ 47 :: lastName source else target

/-- The operands of a program that copies or moves, or what is wrong with them. -/
def sourcesAndTarget (options : Options) (tree : FileTree) (operands : List Bytes) :
    Except Effect (List Bytes × Bytes) :=
  match operands.reverse with
  | [] => .error (options.complaint "missing file operand")
  | [a] => .error (options.complaint s!"missing destination file operand after '{textOf a}'")
  | target :: sources =>
    if sources.length > 1 && !isDirectory tree target then
      .error (Effect.complains 1 s!"{options.name}: target '{textOf target}' is not a directory")
    else .ok (sources.reverse, target)

/-- Copies files, and directories if asked. -/
def cp : Program :=
  let options : Options := {
    name := "cp"
    flags := "rRafpdLPvnu".toList
    words := [("recursive", 'r'), ("archive", 'a'), ("force", 'f')] }
  options.program fun g call =>
    match sourcesAndTarget options call.tree g.operands with
    | .error e => e
    | .ok (sources, target) =>
      onTree (fun tree source =>
        let fault (s : String) : FileTree × Option Effect :=
          (tree, some (Effect.complains 1 s!"cp: {s}"))
        let path := targetPath tree source target
        match lookUp tree (textOf source) true with
        | .error e => fault s!"cannot stat '{textOf source}': {pathComplaint e}"
        | .ok node =>
          match node with
          | .directory _ =>
            if g.has 'r' || g.has 'R' || g.has 'a' then (tree.put (textOf path) node, none)
            else fault s!"-r not specified; omitting directory '{textOf source}'"
          | node =>
            match placeFault? tree path, node with
            | some reason, _ => fault s!"cannot create regular file '{textOf path}': {reason}"
            | none, .file content executable =>
              if (tree.resolve (textOf path) true).toOption.map Prod.fst
                  = (tree.resolve (textOf source) true).toOption.map Prod.fst
                  && isPresent tree path then
                fault s!"'{textOf source}' and '{textOf path}' are the same file"
              else if isPresent tree path then (tree.writeFile (textOf path) content, none)
              else (tree.put (textOf path) (.file content executable), none)
            | none, _ => (tree, none)) call.tree sources

/-- Moves files and directories. -/
def mv : Program :=
  let options : Options := {
    name := "mv", flags := "fnvuT".toList, words := [("force", 'f')] }
  options.program fun g call =>
    match sourcesAndTarget options call.tree g.operands with
    | .error e => e
    | .ok (sources, target) =>
      onTree (fun tree source =>
        let fault (s : String) : FileTree × Option Effect :=
          (tree, some (Effect.complains 1 s!"mv: {s}"))
        let path := targetPath tree source target
        match lookUp tree (textOf source) false with
        | .error e => fault s!"cannot stat '{textOf source}': {pathComplaint e}"
        | .ok node =>
          match placeFault? tree path with
          | some reason => fault s!"cannot move '{textOf source}' to '{textOf path}': {reason}"
          | none =>
            if textOf source = textOf path then
              fault s!"'{textOf source}' and '{textOf path}' are the same file"
            else ((tree.erase (textOf source)).put (textOf path) node, none)) call.tree sources

/-- Makes links. -/
def ln : Program :=
  let options : Options := {
    name := "ln"
    flags := "sfnvrT".toList
    words := [("symbolic", 's'), ("force", 'f')] }
  options.program fun g call =>
    match g.operands.reverse with
    | [] => options.complaint "missing file operand"
    | target :: sources =>
      let (sources, target) : List Bytes × Bytes :=
        if sources.isEmpty then ([target], [46]) else (sources.reverse, target)
      onTree (fun tree source =>
        let kind := if g.has 's' then "symbolic" else "hard"
        let path := targetPath tree source target
        let fault (reason : String) : FileTree × Option Effect :=
          (tree, some (Effect.complains 1 s!"ln: failed to create {kind} link '{textOf path}': {reason}"))
        match if g.has 's' then some (Node.link (textOf source))
          else (lookUp tree (textOf source) true).toOption with
        | none =>
          (tree, some (Effect.complains 1 s!"ln: failed to access '{textOf source}': {missing}"))
        | some node =>
          if isPresent tree path && !g.has 'f' then fault "File exists"
          else
            match placeFault? tree path with
            | some reason => fault reason
            | none => (tree.put (textOf path) node, none)) call.tree sources

/-- Makes files executable, or not. -/
def chmod : Program :=
  let options : Options := {
    name := "chmod", flags := "Rvcfx".toList, words := [("recursive", 'R')] }
  options.program fun g call =>
    let removed := g.has 'x'
    match if removed then bytesOf "-x" :: g.operands else g.operands with
    | [] => options.complaint "missing operand"
    | [mode] => options.complaint s!"missing operand after '{textOf mode}'"
    | mode :: paths =>
      let executable : Option Bool :=
        if !mode.isEmpty && mode.all fun b => 48 ≤ b && b ≤ 55 then
          some (mode.any fun b => b % 2 = 1)
        else if mode.contains 120 || mode.contains 88 then
          some (mode.contains 43 || mode.contains 61)
        else none
      onTree (fun tree path =>
        match tree.resolve (textOf path) true with
        | .ok (location, .file content old) =>
          ({ tree with top := Node.put (.file content (executable.getD old)) location.reverse tree.top },
            none)
        | .ok _ => (tree, none)
        | .error e =>
          (tree, some (Effect.complains 1
            s!"chmod: cannot access '{textOf path}': {pathComplaint e}"))) call.tree paths

/-! ### Comparing and telling -/

/-- The first place where bytes differ, from one on, with the line it is in. -/
def difference? : Bytes → Bytes → (place line : Nat) → Option (Nat × Nat)
  | a :: as, b :: bs, place, line =>
    if a = b then difference? as bs (place + 1) (if a = newlineByte then line + 1 else line)
    else some (place, line)
  | _, _, _, _ => none

/-- Compares two files byte by byte. -/
def cmp : Program :=
  let options : Options := {
    name := "cmp", flags := "slb".toList, words := [("silent", 's'), ("quiet", 's')], status := 2 }
  options.program fun g call =>
    match g.operands with
    | [] => options.complaint "missing operand after 'cmp'"
    | a :: rest =>
      let b := rest.headD inputName
      let fault (path : Bytes) (reason : String) : Effect :=
        if g.has 's' then Effect.ends 2 else Effect.complains 2 s!"cmp: {textOf path}: {reason}"
      match call.read a, call.read b with
      | .error reason, _ => fault a reason
      | _, .error reason => fault b reason
      | .ok x, .ok y =>
        if x = y then Effect.ends 0
        else if g.has 's' then Effect.ends 1
        else
          match difference? x y 1 1 with
          | some (place, line) =>
            { Effect.say (bytesOf s!"{textOf a} {textOf b} differ: char {place}, line {line}\n") with
              status := 1 }
          | none =>
            let (short, content) := if x.length < y.length then (a, x) else (b, y)
            let lines := content.count newlineByte
            let behind := if content.isEmpty then "which is empty"
              else if content.getLast? = some newlineByte then
                s!"after byte {content.length}, line {lines}"
              else s!"after byte {content.length}, in line {lines + 1}"
            Effect.complains 1 s!"cmp: EOF on {textOf short} {behind}"

/-- A number in octal digits. -/
def octalText (n : Nat) : Bytes :=
  bytesOf (String.ofList (Nat.toDigits 8 n))

/-- Tells of a file what a format asks for. -/
def statText (path : Bytes) (node : Node) : Bytes → Bytes
  | 37 :: b :: rest =>
    let part : Bytes := match charOf b, node with
      | 'n', _ => path
      | 's', .file content _ => decimal content.length
      | 's', .directory _ => bytesOf "4096"
      | 's', .link target => decimal (bytesOf target).length
      | 'F', .file [] _ => bytesOf "regular empty file"
      | 'F', .file .. => bytesOf "regular file"
      | 'F', .directory _ => bytesOf "directory"
      | 'F', .link _ => bytesOf "symbolic link"
      | 'a', .file _ executable => bytesOf (if executable then "755" else "644")
      | 'a', .directory _ => bytesOf "755"
      | 'a', .link _ => bytesOf "777"
      | 'A', .file _ executable => bytesOf (if executable then "-rwxr-xr-x" else "-rw-r--r--")
      | 'A', .directory _ => bytesOf "drwxr-xr-x"
      | 'A', .link _ => bytesOf "lrwxrwxrwx"
      | 'U', _ => bytesOf "root"
      | 'G', _ => bytesOf "root"
      | 'u', _ => [48]
      | 'g', _ => [48]
      | 'h', _ => [49]
      | '%', _ => [37]
      | _, _ => [63]
    part ++ statText path node rest
  | b :: rest => b :: statText path node rest
  | [] => []

/-- Tells of files what a format asks for. -/
def stat : Program :=
  let options : Options := {
    name := "stat"
    flags := "Lft".toList
    valued := "cp".toList
    words := [("format", 'c'), ("printf", 'p'), ("dereference", 'L')] }
  options.program fun g call =>
    if g.operands.isEmpty then options.complaint "missing operand"
    else
      let layout := ((g.value? 'c').map fun s => s ++ [newlineByte]).or
        ((g.value? 'p').map fun s => (unescapeBytes .system .format (s.length + 1) s).1)
      Effect.all (g.operands.map fun path =>
        match lookUp call.tree (textOf path) (g.has 'L') with
        | .ok node => Effect.say (statText path node (layout.getD []))
        | .error e =>
          Effect.complains 1 s!"stat: cannot statx '{textOf path}': {pathComplaint e}")

/-- Writes the paths of programs. -/
def which (path? : Bytes → Option Bytes) : Program := fun call =>
  Effect.all (call.arguments.map fun name =>
    match path? name with
    | some path => Effect.say (path ++ [newlineByte])
    | none => Effect.ends 1)

end Multipass.Shell
