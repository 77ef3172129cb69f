import Multipass.Shell.Program.Edit.Script

/-!
# The line editor at work

An editor takes line after line and carries out its commands on each. At the end of a turn the line
is written, unless that is not wanted. A last line without an end is written without one, which is
made up for as soon as something else is written behind it.
-/

namespace Multipass.Shell

/-- A line of the input: whether its end is there, and the file that it is from. -/
structure InputLine where
  text : Bytes
  ended : Bool := true
  file : Bytes := inputName

/-- What is written to one place, the last part first. -/
structure Sink where
  out : List Bytes := []
  /-- Whether what was written last lacks the end of its line. -/
  owes : Bool := false

/-- A sink with the end of a line that it owes. -/
def Sink.settled (k : Sink) (mark : UInt8) : Sink :=
  if k.owes then { out := [mark] :: k.out } else k

/-- Writes bytes as they are. -/
def Sink.put (k : Sink) (mark : UInt8) (s : Bytes) : Sink :=
  let k := k.settled mark
  if s.isEmpty then k else { k with out := s :: k.out }

/-- Writes a line, with its end or without it. -/
def Sink.putLine (k : Sink) (mark : UInt8) (s : Bytes) (ended : Bool) : Sink :=
  let k := k.settled mark
  { out := (if ended then s ++ [mark] else s) :: k.out, owes := !ended }

/-- All that was written. -/
def Sink.content (k : Sink) : Bytes :=
  k.out.reverse.flatten

/-- How an editor works. -/
structure EditStyle where
  quiet : Bool := false
  /-- What ends a line. -/
  mark : UInt8 := newlineByte
  /-- How long the lines are that show bytes. -/
  width : Nat := 70
  /-- What a file holds. -/
  read : Bytes → Bytes

/-- An editor at work. -/
structure Editor where
  style : EditStyle
  space : Bytes := []
  /-- Whether the line at hand ends. -/
  ended : Bool := true
  kept : Bytes := []
  keptEnded : Bool := true
  number : Nat := 0
  file : Bytes := inputName
  rest : List InputLine
  sink : Sink := {}
  /-- What is written behind the line at hand, the last first. -/
  behind : List Bytes := []
  /-- The commands whose lines have begun, with the line where they end, if that is known. -/
  begun : List (Nat × Option Nat) := []
  replaced : Bool := false
  lastPattern : Option (Regex × Bool × Bool) := none
  /-- What is written to files. -/
  files : List (Bytes × Sink) := []
  /-- What is left of files that are read line by line. -/
  sources : List (Bytes × Bytes) := []
  status : Nat := 0

/-- How the commands of a turn end. -/
inductive TurnEnd where
  /-- The line is written, unless that is not wanted. -/
  | usual
  | deleted
  /-- The turn begins again without another line. -/
  | again
  | quit (silent : Bool)
  /-- A pattern was asked for that was never given. -/
  | noPattern
  | endless
  deriving DecidableEq

namespace Editor

/-- Writes bytes as they are. -/
def put (e : Editor) (s : Bytes) : Editor :=
  { e with sink := e.sink.put e.style.mark s }

/-- Writes a line. -/
def putLine (e : Editor) (s : Bytes) : Editor :=
  { e with sink := e.sink.putLine e.style.mark s true }

/-- Writes the line at hand. -/
def writeSpace (e : Editor) : Editor :=
  { e with sink := e.sink.putLine e.style.mark e.space e.ended }

/-- Writes the line at hand, unless that is not wanted. -/
def print (e : Editor) : Editor :=
  if e.style.quiet then e else e.writeSpace

/-- Writes what belongs behind the line at hand. -/
def flush (e : Editor) : Editor :=
  { e.behind.reverse.foldl put e with behind := [] }

/-- Takes the next line, if there is one. -/
def nextLine? (e : Editor) : Option (Bytes × Editor) :=
  match e.rest with
  | [] => none
  | line :: rest =>
    some (line.text, { e with
      rest
      number := e.number + 1
      ended := line.ended
      file := line.file })

/-- The pattern to use, and the editor that remembers it. -/
def usedPattern (e : Editor) (r : Option Regex) (anyCase manyLines : Bool) :
    Option (Regex × Bool × Bool) :=
  match r with
  | some r => some (r, anyCase, manyLines)
  | none => e.lastPattern

/-- Holds of an address of the line at hand. -/
def isAt (e : Editor) : Address → Bool × Editor
  | .line n => (e.number = n, e)
  | .last => (e.rest.isEmpty, e)
  | .every first step =>
    (if step = 0 then e.number = first
      else first ≤ e.number && (e.number - first) % step = 0, e)
  | .pattern r anyCase manyLines =>
    match e.usedPattern r anyCase manyLines with
    | none => (false, e)
    | some (r, anyCase, manyLines) =>
      let s : Subject := { bytes := e.space.toArray, anyCase, manyLines }
      ((s.search? r.plain 0).isSome, { e with lastPattern := some (r, anyCase, manyLines) })

/-- Holds of the line at hand if a command at a place is for it. -/
def isSelected (e : Editor) (place : Nat) (c : EditCommand) : Bool × Editor :=
  let (selected, e) : Bool × Editor := match c.first, c.second with
    | none, _ => (true, e)
    | some a, none => e.isAt a
    | some a, some b =>
      let stop (e : Editor) : Editor := { e with begun := e.begun.filter fun x => x.1 != place }
      let opened (e : Editor) (finish : Option Nat) : Editor :=
        { e with begun := (place, finish) :: e.begun }
      let isZero : Bool := match a with
        | .line 0 => e.number = 1
        | _ => false
      let goOn (e : Editor) (finish : Option Nat) : Bool × Editor :=
        match finish, b with
        | some n, _ => (e.number ≤ n, if n ≤ e.number then stop e else e)
        | none, .address b =>
          let (found, e) := e.isAt b
          (true, if found then stop e else e)
        | none, _ => (true, e)
      match e.begun.lookup place with
      | some finish => goOn e finish
      | none =>
        if isZero then goOn (opened e none) none
        else
          let (found, e) := e.isAt a
          if !found then (false, e)
          else
            let finish : Option Nat := match b with
              | .further n => some (e.number + n)
              | .multiple n => some (if n = 0 then e.number else (e.number / n + 1) * n)
              | .address (.line n) => some n
              | .address _ => none
            match finish with
            | some n => (true, if n ≤ e.number then e else opened e (some n))
            | none => (true, opened e none)
  (selected != c.negated, e)

/-- Bytes with the case of their letters changed. -/
def inCase (upper : Bool) (s : Bytes) : Bytes :=
  s.map fun b =>
    if upper then if 97 ≤ b && b ≤ 122 then b - 32 else b else lowerByte b

/-- What stands for a match. -/
def filled (s : Subject) (start : Nat) (way : Reached) (fills : List Fill) : Bytes :=
  (fills.foldl (fun (out, mode, next) f =>
    let add (t : Bytes) : Bytes × Option Char × Option Char :=
      if t.isEmpty then (out, mode, next)
      else
        let t := match mode with
          | some 'U' => inCase true t
          | some 'L' => inCase false t
          | _ => t
        let t := match next with
          | some 'u' => inCase true (t.take 1) ++ t.drop 1
          | some 'l' => inCase false (t.take 1) ++ t.drop 1
          | _ => t
        (t.reverse ++ out, mode, none)
    match f with
    | .text t => add t
    | .group 0 => add (s.between start way.place)
    | .group n =>
      match way.groups.lookup n with
      | some (a, b) => add (s.between a b)
      | none => (out, mode, next)
    | .letters c =>
      if c = 'u' || c = 'l' then (out, mode, some c)
      else (out, if c = 'E' then none else some c, none)) (([] : Bytes), none, none)).1.reverse

/-- Bytes with matches replaced from a place on, and whether there was one. An empty match right
behind another match does not count. `fuel` bounds the number of matches. -/
def replaceFrom (s : Subject) (r : Regex) (t : Substitution) :
    (fuel count place : Nat) → (last : Option Nat) → Bytes × Bool
  | 0, _, place, _ => (s.between place s.bytes.size, false)
  | fuel + 1, count, place, last =>
    match if s.bytes.size < place then none else s.search? r place with
    | none => (s.between place s.bytes.size, false)
    | some (start, way) =>
      let before := s.between place start
      let isEmpty := way.place = start
      if isEmpty && last = some start then
        let (rest, found) := replaceFrom s r t fuel count (start + 1) none
        (before ++ s.between start (start + 1) ++ rest, found)
      else
        let wanted := t.count ≤ count && (t.all || count = t.count)
        let new := if wanted then filled s start way t.fills else s.between start way.place
        if wanted && !t.all then (before ++ new ++ s.between way.place s.bytes.size, true)
        else
          let (rest, found) :=
            if isEmpty then
              let (rest, found) := replaceFrom s r t fuel (count + 1) (start + 1) none
              (s.between start (start + 1) ++ rest, found)
            else replaceFrom s r t fuel (count + 1) way.place (some way.place)
          (before ++ new ++ rest, found || wanted)

/-- Writes a line to a file. -/
def writeTo (e : Editor) (name : Bytes) (s : Bytes) (ended : Bool) : Editor :=
  if name = bytesOf "/dev/stdout" then
    { e with sink := e.sink.putLine e.style.mark s ended }
  else
    let old := (e.files.lookup name).getD {}
    { e with
      files := e.files.filter (fun f => f.1 != name) ++ [(name, old.putLine e.style.mark s ended)] }

/-- Takes the next line of a file, with its end if it has one. -/
def lineOf (e : Editor) (name : Bytes) : Bytes × Editor :=
  let s := (e.sources.lookup name).getD (e.style.read name)
  let line := s.takeWhile (· != e.style.mark)
  let taken := s.take (line.length + 1)
  (taken, { e with sources := (name, s.drop taken.length) :: e.sources.filter fun f => f.1 != name })

/-- Bytes in a form that shows each of them, in lines of limited length unless it is zero. -/
def shownBytes (width : Nat) (s : Bytes) : Bytes :=
  let one (b : UInt8) : Bytes :=
    match [(92, "\\\\"), (7, "\\a"), (8, "\\b"), (12, "\\f"), (10, "\\n"), (13, "\\r"), (9, "\\t"),
      (11, "\\v")].lookup b with
    | some t => bytesOf t
    | none =>
      if 32 ≤ b && b < 127 then [b]
      else
        let ds := Nat.toDigits 8 b.toNat
        92 :: bytesOf (String.ofList (List.replicate (3 - ds.length) '0' ++ ds))
  let (out, _) := s.foldl (fun (out, column) b =>
    let t := one b
    if 0 < width && width - 1 < column + t.length then
      (t.reverse ++ [newlineByte, 92] ++ out, t.length)
    else (t.reverse ++ out, column + t.length)) (([] : Bytes), 0)
  out.reverse ++ [36]

/-- Carries out the commands of a turn from a place on. `fuel` bounds their number. -/
def commandsFrom (commands : Array EditCommand) : (fuel place : Nat) → Editor → TurnEnd × Editor
  | 0, _, e => (.endless, e)
  | fuel + 1, place, e =>
    match commands[place]? with
    | none => (.usual, e)
    | some c =>
      let isLost (a : Option Address) : Bool := match a with
        | some (.pattern none ..) => e.lastPattern.isNone
        | _ => false
      if isLost c.first then (.noPattern, e) else
      let (selected, e) := e.isSelected place c
      let next := commandsFrom commands fuel
      match c.action, selected with
      | .block finish, false => next finish e
      | _, false => next (place + 1) e
      | .block _, true => next (place + 1) e
      | .nothing, true => next (place + 1) e
      | .substitute t, true =>
        match e.usedPattern t.pattern t.anyCase t.manyLines with
        | none => (.noPattern, e)
        | some (r, anyCase, manyLines) =>
          let s : Subject := { bytes := e.space.toArray, anyCase, manyLines }
          let uses := t.fills.any fun f => match f with
            | .group (_ + 1) => true
            | _ => false
          let (space, found) :=
            replaceFrom s (if uses then r else r.plain) t (s.bytes.size + 2) 1 0 none
          let e := { e with lastPattern := some (r, anyCase, manyLines) }
          if !found then next (place + 1) e
          else
            let e := { e with space, replaced := true }
            let e := if t.shown then e.writeSpace else e
            let e := match t.target with
              | some name => e.writeTo name e.space e.ended
              | none => e
            next (place + 1) e
      | .transliterate old new, true =>
        let space := e.space.map fun b => match old.idxOf? b with
          | some i => new.getD i b
          | none => b
        next (place + 1) { e with space }
      | .textAfter s, true => next (place + 1) { e with behind := s :: e.behind }
      | .textBefore s, true => next (place + 1) (e.put s)
      | .textInstead s, true =>
        let isInside := c.second.isSome && !c.negated && (e.begun.lookup place).isSome
        (.deleted, if isInside then e else e.put s)
      | .fileAfter name, true => next (place + 1) { e with behind := e.style.read name :: e.behind }
      | .lineAfter name, true =>
        let (line, e) := e.lineOf name
        next (place + 1) { e with behind := line :: e.behind }
      | .writeTo name firstLine, true =>
        let e :=
          if firstLine then e.writeTo name (e.space.takeWhile (· != e.style.mark)) true
          else e.writeTo name e.space e.ended
        next (place + 1) e
      | .showBytes width, true =>
        next (place + 1) (e.put (shownBytes (width.getD e.style.width) e.space ++ [newlineByte]))
      | .jump kind label, true =>
        let jumps := kind = 'b' || e.replaced == (kind = 't')
        let e := if kind = 'b' then e else { e with replaced := false }
        if !jumps then next (place + 1) e
        else if label.isEmpty then (.usual, e)
        else
          match commands.findIdx? fun c => c.label = some label with
          | some target => next target e
          | none => (.usual, e)
      | .quit silent status, true => (.quit silent, { e with status })
      | .letter sign, true =>
        match sign with
        | '=' => next (place + 1) (e.put (decimal e.number ++ [newlineByte]))
        | 'd' => (.deleted, e)
        | 'D' =>
          match e.space.dropWhile (· != e.style.mark) with
          | [] => (.deleted, e)
          | _ :: rest => (.again, { e with space := rest })
        | 'F' => next (place + 1) (e.put (e.file ++ [newlineByte]))
        | 'g' => next (place + 1) { e with space := e.kept, ended := e.keptEnded }
        | 'G' =>
          next (place + 1) { e with space := e.space ++ e.style.mark :: e.kept, ended := e.keptEnded }
        | 'h' => next (place + 1) { e with kept := e.space, keptEnded := e.ended }
        | 'H' =>
          next (place + 1) { e with kept := e.kept ++ e.style.mark :: e.space, keptEnded := e.ended }
        | 'x' =>
          next (place + 1) { e with
            space := e.kept, ended := e.keptEnded, kept := e.space, keptEnded := e.ended }
        | 'z' => next (place + 1) { e with space := [] }
        | 'p' => next (place + 1) e.writeSpace
        | 'P' => next (place + 1) (e.putLine (e.space.takeWhile (· != e.style.mark)))
        | 'n' =>
          if e.rest.isEmpty then (.quit false, e)
          else
            match e.print.flush.nextLine? with
            | some (line, e) => next (place + 1) { e with space := line }
            | none => (.quit false, e)
        | _ =>
          if e.rest.isEmpty then (.quit false, e)
          else
            match e.flush.nextLine? with
            | some (line, e) =>
              next (place + 1) { e with space := e.space ++ e.style.mark :: line }
            | none => (.quit false, e)

/-- How the work of an editor ends. -/
inductive EditEnd where
  /-- All lines were read. -/
  | done
  | quit
  | noPattern
  | endless
  deriving DecidableEq

/-- The number of commands in one turn that are taken for no end. -/
def maxCommands : Nat := 1000000

/-- Carries out turns until no line is left. `fuel` bounds their number. -/
def turns (commands : Array EditCommand) : (fuel : Nat) → (again : Bool) → Editor → EditEnd × Editor
  | 0, _, e => (.endless, e)
  | fuel + 1, again, e =>
    let start : Option Editor :=
      if again then some e
      else e.nextLine?.map fun (line, e) => { e with space := line, replaced := false }
    match start with
    | none => (.done, e)
    | some e =>
      match commandsFrom commands maxCommands 0 e with
      | (.usual, e) => turns commands fuel false e.print.flush
      | (.deleted, e) => turns commands fuel false e.flush
      | (.again, e) => turns commands fuel true e.flush
      | (.quit true, e) => (.quit, e)
      | (.quit false, e) => (.quit, e.print.flush)
      | (.noPattern, e) => (.noPattern, e)
      | (.endless, e) => (.endless, e)

end Editor

end Multipass.Shell
