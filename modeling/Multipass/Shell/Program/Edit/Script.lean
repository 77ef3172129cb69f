import Multipass.Shell.Program.Edit.Command
import Multipass.Shell.Program.Format

/-!
# Scripts of the line editor

Reading the commands of a script, which may come in several parts, each given in an argument or in a
file. What is wrong is told with the part and the place in it, or with the line of its file.
-/

namespace Multipass.Shell

/-- Where a part of a script comes from. -/
inductive ScriptPart where
  /-- An argument, counted from one. -/
  | argument (number : Nat)
  | file (name : Bytes)

/-- A script of the editor under reading. -/
structure EditSource where
  rest : Bytes
  /-- The whole script, and its parts with their lengths. -/
  whole : Bytes
  parts : List (ScriptPart × Nat)
  extended : Bool
  /-- The commands that were read, the last first. -/
  done : List EditCommand := []
  count : Nat := 0
  /-- The places of the blocks that are open. -/
  blocks : List Nat := []

/-- What is wrong with a script, and the status that the editor ends with. -/
structure ScriptFault where
  message : String
  status : Nat := 1

/-- Reads something of a script, or says what is wrong with it. -/
abbrev EditReading := StateT EditSource (Except ScriptFault)

/-- The words for a place in a script: the part that it is in, and the bytes or the lines of the
part up to there. -/
def placeWords (whole : Bytes) : List (ScriptPart × Nat) → (place : Nat) → String
  | [], place => s!"-e expression #1, char {place}"
  | (part, length) :: others, place =>
    if place ≤ length || others.isEmpty then
      match part with
      | .argument number => s!"-e expression #{number}, char {place}"
      | .file name =>
        s!"file {textOf name} line {((whole.take place).count newlineByte) + 1}"
    else placeWords (whole.drop (length + 1)) others (place - length - 1)

namespace EditReading

/-- What is wrong at the place at hand. -/
def fail {α : Type} (message : String) : EditReading α := do
  let s ← get
  let words := placeWords s.whole s.parts (s.whole.length - s.rest.length)
  throw { message := s!"{words}: {message}" }

/-- Holds at the end of a part of the script. -/
def isPartEnd : EditReading Bool := do
  let s ← get
  let rec go : List (ScriptPart × Nat) → (place : Nat) → Bool
    | [], _ => true
    | (_, length) :: others, place =>
      place = length || (length < place && go others (place - length - 1))
  return go s.parts (s.whole.length - s.rest.length)

/-- The next byte, if there is one. -/
def peek : EditReading (Option UInt8) := do
  return (← get).rest.head?

/-- Passes over some bytes. -/
def pass (n : Nat) : EditReading Unit :=
  modify fun s => { s with rest := s.rest.drop n }

/-- Takes bytes as long as they are wanted. -/
def takeWhile (wanted : UInt8 → Bool) : EditReading Bytes := do
  let taken := (← get).rest.takeWhile wanted
  pass taken.length
  return taken

/-- Passes over blanks. -/
def blanks : EditReading Unit := do
  let _ ← takeWhile fun b => b = 32 || b = 9

/-- Passes over blanks, ends of lines, and signs between commands. -/
def gaps : EditReading Unit := do
  let _ ← takeWhile fun b => b = 32 || (9 ≤ b && b ≤ 13) || b = 59

/-- A natural number, if there is one. -/
def number? : EditReading (Option Nat) := do
  return natural? (← takeWhile isDigitByte)

/-! ### Texts between delimiters -/

/-- The bytes of a bracket up to its end, and what is left; nothing if it does not end. `fuel`
bounds the length. -/
def bracketText? (first : Bool) : (fuel : Nat) → Bytes → Option (Bytes × Bytes)
  | 0, _ => none
  | _, [] => none
  | fuel + 1, b :: s =>
    if b = newlineByte then none
    else if b = 93 && !first then some ([b], s)
    else
      let class? : Option (Bytes × Bytes) := match b, s with
        | 91, c :: inner =>
          if c = 58 || c = 46 || c = 61 then
            let name := inner.takeWhile (· != c)
            match inner.drop name.length with
            | d :: 93 :: rest => some (91 :: c :: name ++ [d, 93], rest)
            | _ => none
          else none
        | _, _ => none
      match class? with
      | some (text, rest) => (bracketText? false fuel rest).map fun (t, left) => (text ++ t, left)
      | none =>
        (bracketText? (first && b = 94) fuel s).map fun (t, left) => (b :: t, left)

/-- How a text between delimiters ends. -/
inductive TextEnd where
  | closed
  /-- At the end of a line, or of the script. -/
  | broken
  deriving DecidableEq

/-- The bytes up to a delimiter that is not escaped, how they end, and what is left. In a pattern a
delimiter in brackets is not one, and an escaped delimiter stands for itself; `fuel` bounds the
length. -/
def delimited (delimiter : UInt8) (regex : Bool) : (fuel : Nat) → Bytes → Bytes × TextEnd × Bytes
  | 0, s => ([], .broken, s)
  | _, [] => ([], .broken, [])
  | fuel + 1, b :: s =>
    let put (front : Bytes) (rest : Bytes) : Bytes × TextEnd × Bytes :=
      let (text, ending, left) := delimited delimiter regex fuel rest
      (front ++ text, ending, left)
    if b = newlineByte then ([], .broken, b :: s)
    else if b = delimiter then ([], .closed, s)
    else if b = 92 then
      match s with
      | [] => ([b], .broken, [])
      | c :: rest =>
        if c = delimiter && !(c = 38 && !regex) then put [c] rest
        else if c = newlineByte && regex then put [c] rest
        else put [b, c] rest
    else if b = 91 && regex then
      match bracketText? true (s.length + 1) s with
      | some (text, rest) => put (b :: text) rest
      | none => ([], .broken, (s.dropWhile (· != newlineByte)))
    else put [b] s

/-- Takes the bytes up to a delimiter. -/
def upTo (delimiter : UInt8) (regex : Bool) (complaint : String) : EditReading Bytes := do
  let s := (← get).rest
  let (text, ending, rest) := delimited delimiter regex (s.length + 1) s
  modify fun source => { source with rest }
  if ending = .closed then return text else fail complaint

/-- The byte that a backslash with a number, or with a control letter, stands for, and what is
left. -/
def numbered? (s : Bytes) : Option (UInt8 × Bytes) :=
  let read (base : Nat) (digit? : UInt8 → Option Nat) (count : Nat) (s : Bytes) :
      Option (UInt8 × Bytes) :=
    let (value, rest) := digitsUpTo base digit? count 0 s
    if rest.length = s.length then none else some (UInt8.ofNat value, rest)
  match s with
  | 100 :: rest => read 10 (fun b => if isDigitByte b then some (b.toNat - 48) else none) 3 rest
  | 111 :: rest => read 8 octal? 3 rest
  | 120 :: rest => read 16 hexadecimal? 2 rest
  | 99 :: b :: rest =>
    let upper := if 97 ≤ b && b ≤ 122 then b - 32 else b
    some (upper ^^^ 64, rest)
  | _ => none

/-- A pattern with the bytes that its numbers stand for. `fuel` bounds the length. -/
def withBytes : (fuel : Nat) → Bytes → Bytes
  | 0, s => s
  | fuel + 1, 92 :: s =>
    match numbered? s with
    | some (b, rest) =>
      (if b = 91 || b = 92 then [92, b] else [b]) ++ withBytes fuel rest
    | none =>
      match s with
      | c :: rest => 92 :: c :: withBytes fuel rest
      | [] => [92]
  | fuel + 1, b :: s => b :: withBytes fuel s
  | _, [] => []

/-- The pattern of bytes; none stands for the last one used. -/
def pattern (s : Bytes) (flagged : Bool) : EditReading (Option Regex) := do
  if s.isEmpty then
    if flagged then fail "cannot specify modifiers on empty regexp" else return none
  else
    let spelling : Spelling := { extended := (← get).extended, controls := true, strict := true }
    match Regex.read spelling (withBytes (s.length + 1) s) with
    | .ok r => return some r
    | .error e =>
      if e = classSyntax then throw { message := e, status := 4 } else fail e

/-! ### Addresses -/

/-- An address, if there is one. -/
def address? : EditReading (Option Address) := do
  match ← peek with
  | none => return none
  | some b =>
    if isDigitByte b then
      let n := (← number?).getD 0
      if (← peek) = some 126 then
        pass 1
        let step := (← number?).getD 0
        return some (if step = 0 then .line n else .every n step)
      else return some (.line n)
    else if b = 36 then
      pass 1
      return some .last
    else if b = 47 || b = 92 then
      pass 1
      let delimiter ← if b = 47 then pure b else do
        let c := (← peek).getD 47
        pass 1
        pure c
      let text ← upTo delimiter true "unterminated address regex"
      let flags ← takeWhile fun b => b = 73 || b = 77
      let r ← pattern text (!flags.isEmpty)
      return some (.pattern r (flags.contains 73) (flags.contains 77))
    else return none

/-- The end of a range, behind its comma. -/
def addressEnd : EditReading AddressEnd := do
  blanks
  match ← peek with
  | some 43 =>
    pass 1
    return .further ((← number?).getD 0)
  | some 126 =>
    pass 1
    return .multiple ((← number?).getD 0)
  | _ =>
    match ← address? with
    | some a => return .address a
    | none =>
      pass 1
      fail "unexpected \x60,'"

/-! ### Replacements -/

/-- The parts of what stands for a match. `fuel` bounds the length. -/
def fills : (fuel : Nat) → (text : Bytes) → Bytes → List Fill
  | 0, _, _ => []
  | _, text, [] => if text.isEmpty then [] else [.text text.reverse]
  | fuel + 1, text, b :: s =>
    let close (f : Fill) (rest : Bytes) : List Fill :=
      (if text.isEmpty then [] else [Fill.text text.reverse]) ++ f :: fills fuel [] rest
    if b = 38 then close (.group 0) s
    else if b = 92 then
      match numbered? s with
      | some (e, rest) => fills fuel (e :: text) rest
      | none =>
        match s with
        | [] => fills fuel (92 :: text) []
        | c :: rest =>
          let sign := charOf c
          if isDigitByte c then close (.group (c.toNat - 48)) rest
          else if ['U', 'L', 'u', 'l', 'E'].contains sign then close (.letters sign) rest
          else
            match Regex.control? c with
            | some e => fills fuel (e :: text) rest
            | none => fills fuel (c :: text) rest
    else fills fuel (b :: text) s

/-- The groups of an expression. -/
def groupCount : Regex → Nat
  | .group n r => max n (groupCount r)
  | .cat a b => max (groupCount a) (groupCount b)
  | .alt a b => max (groupCount a) (groupCount b)
  | .star r => groupCount r
  | _ => 0

/-- The rest of a line, as the name of a file. -/
def fileName : EditReading Bytes := do
  blanks
  let name ← takeWhile (· != newlineByte)
  if name.isEmpty then fail "missing filename in r/R/w/W commands" else return name

/-- Reads the flags of a replacement. `fuel` bounds their number. -/
def flags : (fuel : Nat) → (counted : Bool) → Substitution → EditReading Substitution
  | 0, _, s => return s
  | fuel + 1, counted, s => do
    match ← peek with
    | none => return s
    | some b =>
      if isDigitByte b then
        if counted then
          pass 1
          fail "multiple number options to \x60s' command"
        let n := (← number?).getD 0
        if n = 0 then fail "number option to \x60s' command may not be zero"
        else flags fuel true { s with count := n }
      else
        match charOf b with
        | ' ' => do pass 1; flags fuel counted s
        | 'g' => do
          pass 1
          if s.all then fail "multiple \x60g' options to \x60s' command"
          flags fuel counted { s with all := true }
        | 'p' => do
          pass 1
          if s.shown then fail "multiple \x60p' options to \x60s' command"
          flags fuel counted { s with shown := true }
        | 'i' => do pass 1; flags fuel counted { s with anyCase := true }
        | 'I' => do pass 1; flags fuel counted { s with anyCase := true }
        | 'm' => do pass 1; flags fuel counted { s with manyLines := true }
        | 'M' => do pass 1; flags fuel counted { s with manyLines := true }
        | 'w' => do
          pass 1
          let name ← fileName
          return { s with target := some name }
        | c =>
          if [';', '\n', '\x7d', '#', '\t', '\r'].contains c then return s
          else do
            pass 1
            fail "unknown option to \x60s'"

/-- Reads a replacement. -/
def substitution : EditReading EditAction := do
  match ← peek with
  | none => fail "unterminated \x60s' command"
  | some delimiter =>
    pass 1
    let text ← upTo delimiter true "unterminated \x60s' command"
    let new ← upTo delimiter false "unterminated \x60s' command"
    let s ← flags ((← get).rest.length + 1) false
      { pattern := none, fills := fills (new.length + 1) [] new }
    let r ← pattern text (s.anyCase || s.manyLines)
    let groups := (r.map groupCount).getD 9
    let used := s.fills.filterMap fun f => match f with
      | .group n => if groups < n then some n else none
      | _ => none
    match used with
    | n :: _ => fail s!"invalid reference \\{n} on \x60s' command's RHS"
    | [] => return .substitute { s with pattern := r }

/-- A text in which what a backslash stands for is read. `fuel` bounds the length. -/
def plainText : (fuel : Nat) → Bytes → Bytes
  | 0, s => s
  | fuel + 1, 92 :: s =>
    match numbered? s, s with
    | some (b, rest), _ => b :: plainText fuel rest
    | none, c :: rest =>
      (match Regex.control? c with
        | some e => [e]
        | none => if c = 92 then [c] else [92, c]) ++ plainText fuel rest
    | none, [] => [92]
  | fuel + 1, b :: s => b :: plainText fuel s
  | _, [] => []

/-- Reads a replacement of bytes. -/
def transliteration : EditReading EditAction := do
  match ← peek with
  | none => fail "unterminated \x60y' command"
  | some delimiter =>
    pass 1
    let old ← upTo delimiter false "unterminated \x60y' command"
    let new ← upTo delimiter false "unterminated \x60y' command"
    let old := plainText (old.length + 1) old
    let new := plainText (new.length + 1) new
    if old.length != new.length then
      fail "strings for \x60y' command are different lengths"
    else return .transliterate old new

/-! ### Texts -/

/-- The lines of a text up to one that does not end in a backslash, and what is left. `fuel` bounds
the length. -/
def textLines : (fuel : Nat) → Bytes → Bytes × Bytes
  | 0, s => (s, [])
  | _, [] => ([], [])
  | _, [92] => ([], [])
  | fuel + 1, 92 :: c :: s =>
    let put (b : UInt8) (rest : Bytes) : Bytes × Bytes :=
      let (text, rest) := textLines fuel rest
      (b :: text, rest)
    match numbered? (c :: s) with
    | some (b, rest) => put b rest
    | none => put ((Regex.control? c).getD c) s
  | fuel + 1, b :: s =>
    if b = newlineByte then ([], s)
    else
      let (text, rest) := textLines fuel s
      (b :: text, rest)

/-- Reads the text of a command. -/
def commandText : EditReading Bytes := do
  blanks
  let start := (← get).rest
  match start with
  | [] => fail "expected \\ after \x60a', \x60c' or \x60i'"
  | [92] =>
    pass 1
    return []
  | 92 :: s =>
    let inner := s.dropWhile fun b => b = 32 || b = 9
    match inner with
    | 10 :: rest => modify fun source => { source with rest }
    | _ => modify fun source => { source with rest := s }
  | _ => if ← isPartEnd then fail "expected \\ after \x60a', \x60c' or \x60i'"
  let source ← get
  let (text, rest) := textLines (source.rest.length + 1) source.rest
  modify fun source => { source with rest }
  return text ++ [newlineByte]

/-! ### Commands -/

/-- Holds of bytes that end a label. -/
def endsLabel (b : UInt8) : Bool :=
  b = 59 || b = 32 || (9 ≤ b && b ≤ 13)

/-- Takes what may follow a command. -/
def finishCommand : EditReading Unit := do
  blanks
  match ← peek with
  | none => return ()
  | some b =>
    if b = newlineByte || b = 59 then pass 1
    else if b = 125 || b = 35 then return ()
    else
      pass 1
      fail "extra characters after command"

/-- Adds a command. -/
def add (c : EditCommand) : EditReading Unit :=
  modify fun s => { s with done := c :: s.done, count := s.count + 1 }

/-- Ends the block that was opened last. -/
def closeBlock (addressed : Bool) : EditReading Unit := do
  let s ← get
  match s.blocks with
  | [] => fail "unexpected \x60\x7d'"
  | start :: others =>
    if addressed then fail "\x60\x7d' doesn't want any addresses"
    let finish := s.count
    let done := s.done.mapIdx fun i c =>
      if s.count - 1 - i = start then { c with action := .block finish } else c
    set { s with done, blocks := others }

/-- Holds of a version that this editor has: its parts are numbers between points, and are at most
those of the version. -/
def hasVersion (s : Bytes) : Bool :=
  let parts := (splitByte 46 s).map fun p => (natural? p).getD 0
  match parts with
  | major :: rest => major < 4 || (major = 4 && rest.headD 0 ≤ 9)
  | [] => true

/-- Reads commands. `fuel` bounds their number. -/
def commands : (fuel : Nat) → EditReading Unit
  | 0 => fail "too many commands"
  | fuel + 1 => do
    gaps
    if (← get).rest.isEmpty then return ()
    else
      if let some b ← peek then
        if b = 43 || b = 126 then
          pass 1
          let _ ← number?
          fail "invalid usage of +N or ~N as first address"
      let first ← address?
      blanks
      let second ← (do
        if first.isSome && (← peek) = some 44 then
          pass 1
          return some (← addressEnd)
        else return none)
      blanks
      let zeroAllowed : Bool := match second with
        | some (.address (.pattern ..)) => true
        | _ => false
      if let some (.line 0) := first then
        if !zeroAllowed then
          pass 1
          fail "invalid usage of line address 0"
      let negated := (← peek) = some 33
      if negated then
        pass 1
        blanks
        if (← peek) = some 33 then
          pass 1
          fail "multiple \x60!'s"
      match ← peek with
      | none =>
        if first.isSome || negated then fail "missing command"
      | some b =>
        pass 1
        let put (action : EditAction) : EditReading Unit := add { first, second, negated, action }
        let sign := charOf b
        match sign with
        | '#' =>
          if first.isSome then fail "comments don't accept any addresses"
          let _ ← takeWhile (· != newlineByte)
        | '\x7b' =>
          modify fun s => { s with blocks := s.count :: s.blocks }
          put (.block 0)
        | '\x7d' =>
          closeBlock first.isSome
          finishCommand
        | ':' =>
          if first.isSome then fail ": doesn't want any addresses"
          blanks
          let label ← takeWhile fun b => !endsLabel b && b != 125
          if label.isEmpty then fail "\":\" lacks a label"
          add { action := .nothing, label := some label }
        | 's' =>
          put (← substitution)
          finishCommand
        | 'y' =>
          put (← transliteration)
          finishCommand
        | 'a' => put (.textAfter (← commandText))
        | 'i' => put (.textBefore (← commandText))
        | 'c' => put (.textInstead (← commandText))
        | 'r' => put (.fileAfter (← fileName))
        | 'R' => put (.lineAfter (← fileName))
        | 'w' => put (.writeTo (← fileName) false)
        | 'W' => put (.writeTo (← fileName) true)
        | 'v' =>
          blanks
          let version ← takeWhile fun b => !endsLabel b
          if !hasVersion version then fail "expected newer version of sed"
        | 'l' =>
          blanks
          put (.showBytes (← number?))
          finishCommand
        | sign =>
          if sign = 'q' || sign = 'Q' then
            if second.isSome then fail "command only uses one address"
            blanks
            put (.quit (sign = 'Q') ((← number?).getD 0))
            finishCommand
          else if ['b', 't', 'T'].contains sign then
            blanks
            let label ← takeWhile fun b => !endsLabel b && b != 125
            put (.jump sign label)
            finishCommand
          else if ['=', 'd', 'D', 'F', 'g', 'G', 'h', 'H', 'n', 'N', 'p', 'P', 'x', 'z'].contains
              sign then
            put (.letter sign)
            finishCommand
          else fail s!"unknown command: \x60{sign}'"
        commands fuel

end EditReading

/-- The commands of a script in parts. -/
def readScript (extended : Bool) (parts : List (ScriptPart × Bytes)) :
    Except ScriptFault (Array EditCommand) := do
  let whole := [newlineByte].intercalate (parts.map Prod.snd)
  let ((), source) ← (EditReading.commands (whole.length + 2)).run {
    rest := whole
    whole
    parts := parts.map fun p => (p.1, p.2.length)
    extended }
  if !source.blocks.isEmpty then
    throw { message := "-e expression #1, char 0: unmatched \x60\x7b'" }
  let done := source.done.reverse
  let labels := done.filterMap EditCommand.label
  let lost := done.filterMap fun c => match c.action with
    | .jump _ label => if label.isEmpty || labels.contains label then none else some label
    | _ => none
  match lost with
  | label :: _ =>
    throw { message := s!"can't find label for jump to \x60{textOf label}'", status := 4 }
  | [] => return done.toArray

end Multipass.Shell
