import Multipass.Shell.Basic

/-!
# Reading commands

Commands as they are written. A word ends at a blank or at a character that joins commands; quotes
and backslashes take from characters what they mean. Words that begin or end a command of several
parts are known by their place. A script is read line by line: what is wrong with a line shows only
when all before it has been run.

Each function is given a bound for the depth of its calls, which no script reaches.
-/

namespace Multipass.Shell

/-- What is next in a script. -/
inductive Token where
  | finish
  | newline
  /-- Characters that join commands. -/
  | sign (s : String)
  /-- A word that begins or ends a part of a command. -/
  | keyword (s : String)
  /-- The start of a redirection. -/
  | redirection (descriptor : Nat) (sign : String)
  | word (w : Word) (quoted : Bool)
  deriving Inhabited

/-- The words for a token in a complaint. -/
def Token.describe : Token → String
  | .finish => "end of file"
  | .newline => "newline"
  | .sign s => s!"\"{s}\""
  | .keyword s => s!"\"{s}\""
  | .redirection .. => "redirection"
  | .word .. => "word"

/-- A script under reading. -/
structure Source where
  rest : List Char
  line : Nat := 1
  /-- The lines that were read ahead of the end of this one. -/
  owed : Nat := 0
  /-- The token that is next, if it was read. -/
  pending : Option Token := none

/-- What is wrong with a script, and the line where it shows. -/
structure GrammarFault where
  line : Nat
  message : String
  deriving DecidableEq, Repr

/-- Reads something from a script. -/
abbrev Reading := StateT Source (Except GrammarFault)

/-- Stops reading. -/
def fault {α : Type} (message : String) : Reading α := fun s =>
  .error ⟨s.line, message⟩

/-- Stops reading at a token, which is not the one expected. -/
def unexpected {α : Type} (token : Token) (expected : Option String) : Reading α :=
  match expected with
  | some other => fault s!"{token.describe} unexpected (expecting {other})"
  | none => fault s!"{token.describe} unexpected"

/-! ### Characters -/

/-- Holds of spaces and tabs. -/
def isSpace (c : Char) : Bool :=
  c = ' ' || c = '\t'

/-- Holds of characters that end a word. -/
def endsWord (c : Char) : Bool :=
  isSpace c || [';', '&', '|', '<', '>', '(', ')', '\n'].contains c

/-- Holds of characters that start a name. -/
def startsName (c : Char) : Bool :=
  c.isAlpha || c = '_'

/-- Holds of characters within a name. -/
def isInName (c : Char) : Bool :=
  c.isAlphanum || c = '_'

/-- Holds of a name. -/
def isName (s : List Char) : Bool :=
  match s with
  | [] => false
  | c :: cs => startsName c && cs.all isInName

/-- Holds of characters that name a parameter by themselves. -/
def isSpecial (c : Char) : Bool :=
  c.isDigit || ['!', '#', '$', '*', '-', '?', '@'].contains c

/-- A text behind lines that are continued, and their number. -/
def joinLines (lines : Nat) : List Char → List Char × Nat
  | '\\' :: '\n' :: s => joinLines (lines + 1) s
  | s => (s, lines)

/-- The characters that are left. -/
def look : Reading (List Char) := fun s =>
  let (rest, lines) := joinLines 0 s.rest
  .ok (rest, { s with rest, line := s.line + lines })

/-- Passes over some characters. -/
def pass (count : Nat) : Reading Unit := fun s =>
  let lines := (s.rest.take count).count '\n'
  .ok ((), { s with
    rest := s.rest.drop count
    line := s.line + lines + if lines = 0 then 0 else s.owed
    owed := if lines = 0 then s.owed else 0 })

/-- A text at the front of a word. -/
def addText (s : List Char) (quoted : Bool) (w : Word) : Word :=
  match w with
  | .text t other :: rest =>
    if quoted = other then .text (s ++ t) quoted :: rest else .text s quoted :: w
  | w => .text s quoted :: w

/-! ### Words -/

/-- The text of a piece without quotes. -/
def plainPiece? : Piece → Option (List Char)
  | .text s false => some s
  | _ => none

/-- The text of a word without quotes and without pieces to fill in. -/
def plainText? : Word → Option String
  | [] => none
  | w => (w.mapM plainPiece?).map fun parts => String.ofList parts.flatten

/-- The text of a piece. -/
def pieceText : Piece → List Char
  | .text s _ => s
  | _ => []

/-- The name and the value of a word that is an assignment. -/
def assignment? (w : Word) : Option (String × Word) :=
  match w with
  | .text s false :: rest =>
    let name := s.takeWhile isInName
    match s.drop name.length with
    | '=' :: value =>
      if isName name then
        some (String.ofList name, if value.isEmpty then rest else .text value false :: rest)
      else none
    | _ => none
  | _ => none

/-- Where a word stands, which says what ends it and what its characters mean. -/
inductive Place where
  /-- Outside of quotes. -/
  | bare
  /-- In braces outside of quotes. -/
  | bareBraces
  /-- In double quotes. -/
  | quotes
  /-- In braces within double quotes. -/
  | quotesBraces
  /-- In a text that follows a line. -/
  | here
  /-- In braces within such a text. -/
  | hereBraces
  /-- In an expression, within some parentheses. -/
  | expression (depth : Nat)
  deriving DecidableEq

/-- Holds where single quotes quote, and double quotes begin a quotation. -/
def Place.isBare : Place → Bool
  | .bare | .bareBraces => true
  | _ => false

/-- Holds in braces. -/
def Place.isBraces : Place → Bool
  | .bareBraces | .quotesBraces | .hereBraces => true
  | _ => false

/-- The place in braces behind a parameter. -/
def Place.inBraces : Place → Place
  | .bare | .bareBraces => .bareBraces
  | .here | .hereBraces => .hereBraces
  | _ => .quotesBraces

/-- Holds of characters that lose their meaning behind a backslash. -/
def Place.escapes (p : Place) (c : Char) : Bool :=
  match p with
  | .bare | .bareBraces => true
  | .quotes | .expression _ => ['$', '\x60', '"', '\\'].contains c
  | .quotesBraces | .hereBraces => ['$', '\x60', '"', '\\', '\x7d'].contains c
  | .here => ['$', '\x60', '\\'].contains c

/-- What is wrong with a script that ends in a word. -/
def Place.unfinished : Place → Option String
  | .bare | .here => none
  | .bareBraces | .hereBraces => some "Missing '\x7d'"
  | .quotes | .quotesBraces => some "Unterminated quoted string"
  | .expression _ => some "Missing '))'"

/-- The text between backquotes, without the backslashes that it needs there, and what is left. -/
def backquoted (quoted : Bool) : List Char → Option (List Char × List Char)
  | [] => none
  | '\x60' :: s => some ([], s)
  | '\\' :: '\n' :: s => backquoted quoted s
  | '\\' :: c :: s => do
    let (t, rest) ← backquoted quoted s
    let bare := ['\\', '\x60', '$'].contains c || (quoted && c = '"')
    return (if bare then c :: t else '\\' :: c :: t, rest)
  | c :: s => do
    let (t, rest) ← backquoted quoted s
    return (c :: t, rest)

/-- Words that begin or end a part of a command. -/
def keywords : List String :=
  ["!", "case", "do", "done", "elif", "else", "esac", "fi", "for", "if", "in", "then", "until",
    "while", "\x7b", "\x7d"]

/-- Holds of a token that ends commands. -/
def Token.endsList : Token → Bool
  | .finish => true
  | .sign s => [")", ";;"].contains s
  | .keyword s => ["do", "done", "elif", "else", "esac", "fi", "then", "\x7d"].contains s
  | _ => false

/-- Holds of a keyword. -/
def Token.isKeyword (token : Token) (s : String) : Bool :=
  match token with
  | .keyword t => s = t
  | _ => false

/-- Holds of a sign. -/
def Token.isSign (token : Token) (s : String) : Bool :=
  match token with
  | .sign t => s = t
  | _ => false

/-- A word that is a keyword by its place. -/
def Token.asKeyword (token : Token) : Token :=
  match token with
  | .word w false =>
    match plainText? w with
    | some s => if keywords.contains s then .keyword s else token
    | none => token
  | token => token

/-- Gives a token back. -/
def unread (token : Token) : Reading Unit := fun s =>
  .ok ((), { s with pending := some token })

/-- The programs of the shell that functions cannot be named for. -/
def specialPrograms : List String :=
  [".", ":", "break", "continue", "eval", "exec", "exit", "export", "readonly", "return", "set",
    "shift", "times", "trap", "unset"]

/-- Passes over blanks and a comment. -/
def skipBlanks : Reading Unit := fun s =>
  let rec go : List Char → Nat → List Char × Nat
    | '\\' :: '\n' :: s, lines => go s (lines + 1)
    | '#' :: s, lines => (s.dropWhile fun c => c != '\n', lines)
    | c :: s, lines => if isSpace c then go s lines else (c :: s, lines)
    | [], lines => ([], lines)
  let (rest, lines) := go s.rest 0
  .ok ((), { s with rest, line := s.line + lines })

/-- Reads a name, or the digits of a number. -/
def nameOrDigits : Reading (List Char) := do
  let s ← look
  let name := match s with
    | c :: _ => if c.isDigit then s.takeWhile Char.isDigit else s.takeWhile isInName
    | [] => []
  pass name.length
  return name

/-- The lines of a text up to one that is a mark, and what is left behind it; `tabs` at the starts
of lines may be left out. `fuel` bounds the number of lines. -/
def hereLines (mark : List Char) (tabs : Bool) : (fuel : Nat) → List Char → List Char × Nat × List Char
  | 0, s => ([], 0, s)
  | _ + 1, [] => ([], 0, [])
  | fuel + 1, s =>
    let line := s.takeWhile (· != '\n')
    let rest := (s.drop line.length).drop 1
    let line := if tabs then line.dropWhile (· = '\t') else line
    if line = mark then ([], 1, rest)
    else
      let (text, lines, rest) := hereLines mark tabs fuel rest
      (line ++ '\n' :: text, lines + 1, rest)

/-- Takes the text that follows the line. -/
def takeHere (mark : List Char) (tabs : Bool) : Reading (List Char) := fun s =>
  let before := s.rest.takeWhile (· != '\n')
  let after := (s.rest.drop before.length).drop 1
  let (text, lines, rest) := hereLines mark tabs (after.length + 1) after
  let rest := if before.length < s.rest.length then before ++ '\n' :: rest else before
  .ok (text, { s with rest, owed := s.owed + lines })

/-- What stands for the value of a parameter, by the character that says so. -/
def instead? (c : Char) : Option Instead :=
  [('-', Instead.useWord), ('=', .assignWord), ('+', .useWordIfSet), ('?', .complain)].lookup c

mutual

/-- Reads the pieces of a word up to its end, and tells whether some of it was quoted. -/
def pieces : (fuel : Nat) → Place → Reading (Word × Bool)
  | 0, _ => fault "word too deep"
  | fuel + 1, p => do
    let s ← look
    let quoted := !p.isBare
    match s with
    | [] =>
      match p.unfinished with
      | some message => fault message
      | none => return ([], false)
    | '\\' :: [] =>
      pass 1
      let (w, q) ← pieces fuel p
      return (addText ['\\'] true w, q)
    | '\\' :: c :: _ =>
      pass 2
      let (w, _) ← pieces fuel p
      return (addText (if p.escapes c then [c] else ['\\', c]) true w, true)
    | '$' :: _ =>
      pass 1
      let piece ← dollar fuel p
      let (w, q) ← pieces fuel p
      return (piece :: w, q)
    | '\x60' :: rest =>
      match backquoted quoted rest with
      | none => fault "EOF in backquote substitution"
      | some (text, left) =>
        let line := (← get).line
        pass (s.length - left.length)
        match commands fuel false true { rest := text, line } with
        | .error e => throw e
        | .ok (c, _) =>
          let (w, q) ← pieces fuel p
          return (.output c quoted :: w, q)
    | c :: rest =>
      if c = '\'' && p.isBare then
        let text := rest.takeWhile (· != '\'')
        if text.length = rest.length then
          pass s.length
          fault "Unterminated quoted string"
        else
          pass (text.length + 2)
          let (w, _) ← pieces fuel p
          return (addText text true w, true)
      else if c = '"' && p.isBare then
        pass 1
        let (inner, _) ← pieces fuel .quotes
        let (w, _) ← pieces fuel p
        return (addText [] true (inner ++ w), true)
      else if c = '"' && p = .quotes then
        pass 1
        return ([], true)
      else if c = '"' && p != .here then
        pass 1
        pieces fuel p
      else if c = '\x7d' && p.isBraces then
        pass 1
        return ([], false)
      else if c = '\n' && p = .bareBraces then
        fault "Missing '\x7d'"
      else if p = .bare && endsWord c then return ([], false)
      else
        pass 1
        match p, c, rest with
        | .expression 0, ')', ')' :: _ =>
          pass 1
          return ([], false)
        | .expression depth, '(', _ =>
          let (w, q) ← pieces fuel (.expression (depth + 1))
          return (addText [c] true w, q)
        | .expression (depth + 1), ')', _ =>
          let (w, q) ← pieces fuel (.expression depth)
          return (addText [c] true w, q)
        | p, c, _ =>
          let (w, q) ← pieces fuel p
          return (addText [c] quoted w, q)

/-- Reads what follows a dollar sign. -/
def dollar : (fuel : Nat) → Place → Reading Piece
  | 0, _ => fault "word too deep"
  | fuel + 1, p => do
    let quoted := !p.isBare
    match ← look with
    | '(' :: '(' :: _ =>
      pass 2
      let (w, _) ← pieces fuel (.expression 0)
      return .number w quoted
    | '(' :: _ =>
      pass 1
      let c ← commands fuel false true
      let token ← next fuel false false
      if token.isSign ")" then return .output c quoted
      else unexpected token (some "\")\"")
    | '\x7b' :: _ =>
      pass 1
      braces fuel p
    | c :: _ =>
      if startsName c then
        let name ← nameOrDigits
        return .parameter (String.ofList name) .value quoted
      else if isSpecial c then
        pass 1
        return .parameter (String.ofList [c]) .value quoted
      else return .text ['$'] quoted
    | [] => return .text ['$'] quoted

/-- Reads a parameter in braces. -/
def braces : (fuel : Nat) → Place → Reading Piece
  | 0, _ => fault "word too deep"
  | fuel + 1, p => do
    let quoted := !p.isBare
    let bad : Reading Piece := do
      let _ ← pieces fuel p.inBraces
      return .parameter "" .bad quoted
    let s ← look
    match s with
    | '#' :: '\x7d' :: _ => operation fuel p ['#']
    | '#' :: c :: rest =>
      if isInName c || (isSpecial c && rest.head? = some '\x7d') then
        pass 1
        let name ← if isInName c then nameOrDigits else do
          pass 1
          pure [c]
        match ← look with
        | '\x7d' :: _ =>
          pass 1
          return .parameter (String.ofList name) .length quoted
        | _ => bad
      else operation fuel p ['#']
    | c :: _ =>
      if isInName c then operation fuel p []
      else if isSpecial c then operation fuel p [c]
      else bad
    | [] => bad

/-- Reads what is done with a parameter in braces. Its name is next unless it is given. -/
def operation : (fuel : Nat) → Place → List Char → Reading Piece
  | 0, _, _ => fault "word too deep"
  | fuel + 1, p, given => do
    let quoted := !p.isBare
    let name ← if given.isEmpty then nameOrDigits else do
      pass 1
      pure given
    let name := String.ofList name
    let emptyIsNone := (← look).head? = some ':'
    if emptyIsNone then pass 1
    match ← look with
    | [] => fault ((p.inBraces.unfinished).getD "")
    | c :: _ =>
      pass 1
      if c = '\x7d' then return .parameter name .value quoted
      else
        match instead? c with
        | some kind =>
          let (w, _) ← pieces fuel p.inBraces
          return .parameter name (.instead kind emptyIsNone w) quoted
        | none =>
          if !emptyIsNone && (c = '%' || c = '#') then
            let longest := (← look).head? = some c
            if longest then pass 1
            let (w, _) ← pieces fuel .bareBraces
            return .parameter name (.trimmed (c = '%') longest w) quoted
          else
            let _ ← pieces fuel p.inBraces
            return .parameter name .bad quoted

/-- Reads a token; ends of lines may be passed over, and a word may be a keyword. -/
def next : (fuel : Nat) → (overLines wanted : Bool) → Reading Token
  | 0, _, _ => fault "command too deep"
  | fuel + 1, overLines, wanted => do
    let state ← get
    match state.pending with
    | some token =>
      set { state with pending := none }
      match token with
      | .newline => if overLines then next fuel overLines wanted else return token
      | token => return if wanted then token.asKeyword else token
    | none =>
      skipBlanks
      match ← look with
      | [] => return .finish
      | '\n' :: _ =>
        pass 1
        if overLines then next fuel overLines wanted else return .newline
      | c :: _ =>
        if ['&', '|', ';', '(', ')'].contains c then
          pass 1
          let twice := ['&', '|', ';'].contains c && (← look).head? = some c
          if twice then pass 1
          return .sign (String.ofList (if twice then [c, c] else [c]))
        else
          let (w, quoted) ← pieces fuel .bare
          let digit : Option Nat := match w with
            | [.text [d] false] => if d.isDigit then some (d.toNat - 48) else none
            | _ => none
          match ← look with
          | c :: _ =>
            if (c = '<' || c = '>') && !quoted && (w.isEmpty || digit.isSome) then
              pass 1
              let signs := if c = '>' then ['>', '|', '&'] else ['<', '&', '>']
              let second := (← look).head?.filter signs.contains
              if second.isSome then pass 1
              let tabs := c = '<' && second = some '<' && (← look).head? = some '-'
              if tabs then pass 1
              let sign := c :: second.toList ++ if tabs then ['-'] else []
              return .redirection (digit.getD (if c = '>' then 1 else 0)) (String.ofList sign)
            else
              let token := Token.word w quoted
              return if wanted then token.asKeyword else token
          | [] =>
            let token := Token.word w quoted
            return if wanted then token.asKeyword else token

/-- Reads the rest of a redirection. -/
def redirection : (fuel : Nat) → (descriptor : Nat) → (sign : String) → Reading Redirection
  | 0, _, _ => fault "command too deep"
  | fuel + 1, descriptor, sign => do
    let token ← next fuel false false
    match token with
    | .word w quoted =>
      match sign with
      | ">" | ">|" => return .write descriptor w false
      | ">>" => return .write descriptor w true
      | "<" => return .read descriptor w
      | "<>" => return .write descriptor w true
      | "<&" | ">&" => return .duplicate descriptor w
      | _ =>
        let text ← takeHere (w.flatMap pieceText) (sign = "<<-")
        if quoted then return .here descriptor [.text text true]
        else
          match pieces fuel .here { rest := text, line := (← get).line + 1 } with
          | .error e => throw e
          | .ok ((w, _), _) => return .here descriptor w
    | token => unexpected token none

/-- Reads the redirections that follow a command of several parts. -/
def redirections : (fuel : Nat) → Reading (List Redirection)
  | 0 => fault "command too deep"
  | fuel + 1 => do
    let token ← next fuel false true
    match token with
    | .redirection descriptor sign =>
      let r ← redirection fuel descriptor sign
      let rs ← redirections fuel
      return r :: rs
    | token =>
      unread token
      return []

/-- Reads assignments, words, and redirections up to the end of a simple command. -/
def simple : (fuel : Nat) → (line : Nat) → List (String × Word) → List Word → List Redirection →
    Reading Command
  | 0, _, _, _, _ => fault "command too deep"
  | fuel + 1, line, assignments, words, changes => do
    let token ← next fuel false false
    match token with
    | .redirection descriptor sign =>
      let r ← redirection fuel descriptor sign
      simple fuel line assignments words (changes ++ [r])
    | .word w quoted =>
      match words, assignment? w with
      | [], some a => simple fuel line (assignments ++ [a]) words changes
      | _, _ =>
        -- A word of quotes alone is kept apart from no word.
        let w := if w.isEmpty && quoted then [.text [] true] else w
        simple fuel line assignments (words ++ [w]) changes
    | token =>
      match token.isSign "(", assignments, words, changes with
      | true, [], [w], [] =>
        let token ← next fuel false false
        if !token.isSign ")" then unexpected token (some "\")\"")
        else
          match plainText? w with
          | some name =>
            if isName name.toList && !specialPrograms.contains name then
              let body ← command fuel true
              return .function name body
            else fault "Bad function name"
          | none => fault "Bad function name"
      | _, _, _, _ =>
        unread token
        return .simple line assignments words changes

/-- Reads words up to the end of their line. -/
def wordList : (fuel : Nat) → Reading (List Word × Token)
  | 0 => fault "command too deep"
  | fuel + 1 => do
    let token ← next fuel false false
    match token with
    | .word w _ =>
      let (ws, last) ← wordList fuel
      return (w :: ws, last)
    | token => return ([], token)

/-- Reads a keyword that has to be there. -/
def expected : (fuel : Nat) → (overLines : Bool) → String → Reading Unit
  | 0, _, _ => fault "command too deep"
  | fuel + 1, overLines, keyword => do
    let token ← next fuel overLines true
    if token.isKeyword keyword then return () else unexpected token (some s!"\"{keyword}\"")

/-- Reads what follows the first word of a choice. -/
def branches : (fuel : Nat) → Reading Command
  | 0 => fault "command too deep"
  | fuel + 1 => do
    let condition ← commands fuel false false
    expected fuel false "then"
    let yes ← commands fuel false false
    let token ← next fuel false true
    if token.isKeyword "elif" then
      let no ← branches fuel
      return .choice condition yes no
    else if token.isKeyword "else" then
      let no ← commands fuel false false
      expected fuel false "fi"
      return .choice condition yes no
    else if token.isKeyword "fi" then return .choice condition yes .nothing
    else unexpected token (some "\"fi\"")

/-- Reads the patterns of a branch, given the token that starts them. -/
def patterns : (fuel : Nat) → Token → Reading (List Word)
  | 0, _ => fault "command too deep"
  | fuel + 1, token => do
    let w := match token with
      | .word w true => if w.isEmpty then [Piece.text [] true] else w
      | .word w false => w
      | .keyword s => [.text s.toList false]
      | _ => []
    let other ← next fuel false false
    if other.isSign "|" then
      let token ← next fuel false false
      let ws ← patterns fuel token
      return w :: ws
    else if other.isSign ")" then return [w]
    else unexpected other (some "\")\"")

/-- Reads the branches of a selection. -/
def cases : (fuel : Nat) → Reading (List (List Word × Command))
  | 0 => fault "command too deep"
  | fuel + 1 => do
    let token ← next fuel true true
    if token.isKeyword "esac" then return []
    else
      let token ← if token.isSign "(" then next fuel false false else pure token
      let ws ← patterns fuel token
      let body ← commands fuel false true
      let token ← next fuel true true
      if token.isKeyword "esac" then return [(ws, body)]
      else if token.isSign ";;" then
        let others ← cases fuel
        return (ws, body) :: others
      else unexpected token (some "\";;\"")

/-- Reads what follows the name in a command for each of some words: the words, which are the
arguments of the shell unless others are named. -/
def forWords : (fuel : Nat) → Reading (List Word)
  | 0 => fault "command too deep"
  | fuel + 1 => do
    let token ← next fuel true true
    if token.isKeyword "in" then
      let (words, last) ← wordList fuel
      match last with
      | .newline => return words
      | last => if last.isSign ";" then return words else unexpected last none
    else
      if !token.isSign ";" then unread token
      return [[.parameter "@" .value true]]

/-- Reads a command of several parts behind its first word. -/
def compound : (fuel : Nat) → (line : Nat) → String → Reading Command
  | 0, _, _ => fault "command too deep"
  | fuel + 1, line, start =>
    match start with
    | "if" => branches fuel
    | "for" => do
      let token ← next fuel false false
      match token with
      | .word w false =>
        match plainText? w with
        | some name =>
          if isName name.toList then
            let words ← forWords fuel
            expected fuel true "do"
            let body ← commands fuel false false
            expected fuel false "done"
            return .forEach line name words body
          else fault "Bad for loop variable"
        | none => fault "Bad for loop variable"
      | _ => fault "Bad for loop variable"
    | "case" => do
      let token ← next fuel false false
      match token with
      | .word w _ =>
        expected fuel true "in"
        let found ← cases fuel
        return .select line w found
      | token => unexpected token (some "word")
    | "\x7b" => do
      let c ← commands fuel false false
      expected fuel false "\x7d"
      return c
    | "(" => do
      let c ← commands fuel false false
      let token ← next fuel false true
      if token.isSign ")" then return .enclosed c else unexpected token (some "\")\"")
    | start => do
      let condition ← commands fuel false false
      expected fuel false "do"
      let body ← commands fuel false false
      expected fuel false "done"
      return .repetition (start == "until") condition body

/-- Reads a command with its redirections. -/
def command : (fuel : Nat) → (overLines : Bool) → Reading Command
  | 0, _ => fault "command too deep"
  | fuel + 1, overLines => do
    let token ← next fuel overLines true
    let line := (← get).line
    match token with
    | .word .. | .redirection .. =>
      unread token
      simple fuel line [] [] []
    | token =>
      let start := match token with
        | .keyword s =>
          if ["if", "while", "until", "for", "case", "\x7b"].contains s then some s else none
        | .sign "(" => some "("
        | _ => none
      match start with
      | none => unexpected token none
      | some start =>
        let c ← compound fuel line start
        let rs ← redirections fuel
        return if rs.isEmpty then c else .redirected line c rs

/-- Reads commands of which each reads what the one before it writes. -/
def pipeline : (fuel : Nat) → (overLines : Bool) → Reading Command
  | 0, _ => fault "command too deep"
  | fuel + 1, overLines => do
    let token ← next fuel overLines true
    if token.isKeyword "!" then
      let c ← piped fuel false
      return .negation c
    else
      unread token
      piped fuel false

/-- Reads a command and those that read what it writes. -/
def piped : (fuel : Nat) → (overLines : Bool) → Reading Command
  | 0, _ => fault "command too deep"
  | fuel + 1, overLines => do
    let a ← command fuel overLines
    let token ← next fuel false false
    if token.isSign "|" then
      let b ← piped fuel true
      return .pipe a b
    else
      unread token
      return a

/-- Reads what is joined to a command by what becomes of it. -/
def joined : (fuel : Nat) → Command → Reading Command
  | 0, _ => fault "command too deep"
  | fuel + 1, a => do
    let token ← next fuel false false
    if token.isSign "&&" then
      let b ← pipeline fuel true
      joined fuel (.both a b)
    else if token.isSign "||" then
      let b ← pipeline fuel true
      joined fuel (.either a b)
    else
      unread token
      return a

/-- Reads commands one after the other: one line of them, or all up to a token that ends them,
which may come at once where no command is needed. -/
def commands : (fuel : Nat) → (line needless : Bool) → Reading Command
  | 0, _, _ => fault "command too deep"
  | fuel + 1, line, needless => do
    let token ← next fuel (!line) true
    match token with
    | .finish =>
      unread token
      return .nothing
    | .newline => return .nothing
    | token =>
      unread token
      if needless && token.endsList then return .nothing
      else
        let a ← pipeline fuel false
        let a ← joined fuel a
        let token ← next fuel false false
        match token with
        | .finish =>
          unread token
          return a
        | .newline =>
          unread token
          let b ← commands fuel line (!line)
          return .sequence a b
        | .sign ";" =>
          let b ← commands fuel line (!line)
          return .sequence a b
        | .sign "&" =>
          let b ← commands fuel line (!line)
          return .sequence (.background a) b
        | token =>
          if line then unexpected token none
          else
            unread token
            return a

end

/-- The depth to which a script is read. -/
def Source.depth (s : Source) : Nat :=
  8 * s.rest.length + 64

/-- Holds at the end of a script. -/
def Source.isDone (s : Source) : Bool :=
  s.rest.isEmpty &&
    match s.pending with
    | none | some .finish => true
    | _ => false

/-- Reads one line of a script, with the lines that belong to its commands. -/
def readCommand (s : Source) : Except GrammarFault (Command × Source) :=
  commands s.depth true false s

end Multipass.Shell
