/-!
# Command language

The commands of a small shell. A word falls into pieces, some of which are filled in when the word
is used; what is filled in outside of quotes may fall into several words. Commands are joined,
repeated, chosen, and redirected, and may be given a name.
-/

namespace Multipass.Shell

/-- What programs read and write. -/
abbrev Bytes := List UInt8

/-- What may stand for the value of a parameter. -/
inductive Instead where
  /-- A word, if there is no value. -/
  | useWord
  /-- A word that becomes the value, if there is none. -/
  | assignWord
  /-- A word, if there is a value. -/
  | useWordIfSet
  /-- Nothing: the shell complains with a word and ends. -/
  | complain
  deriving DecidableEq, Repr

mutual

/-- A piece of a word. -/
inductive Piece where
  | text (s : List Char) (quoted : Bool)
  /-- The value of a parameter, and what is done with it. -/
  | parameter (name : String) (use : Use) (quoted : Bool)
  /-- What a command writes. -/
  | output (c : Command) (quoted : Bool)
  /-- The value of an arithmetic expression. -/
  | number (expression : List Piece) (quoted : Bool)

/-- What is done with the value of a parameter. -/
inductive Use where
  | value
  /-- The number of its characters. -/
  | length
  /-- Something else stands for it; an empty value may count as none. -/
  | instead (kind : Instead) (emptyIsNone : Bool) (word : List Piece)
  /-- It loses the shortest or longest part at its start or end that a pattern matches. -/
  | trimmed (atEnd longest : Bool) (pattern : List Piece)
  /-- Nothing that is known. -/
  | bad

/-- A change of what a descriptor stands for. -/
inductive Redirection where
  | read (descriptor : Nat) (file : List Piece)
  | write (descriptor : Nat) (file : List Piece) (append : Bool)
  /-- The descriptor becomes what another one is, or is closed. -/
  | duplicate (descriptor : Nat) (target : List Piece)
  /-- The text that follows the line. -/
  | here (descriptor : Nat) (text : List Piece)

/-- A command. -/
inductive Command where
  | nothing
  /-- Assignments, the words of a program with its arguments, and redirections. -/
  | simple (line : Nat) (assignments : List (String × List Piece)) (words : List (List Piece))
      (changes : List Redirection)
  | redirected (line : Nat) (c : Command) (changes : List Redirection)
  /-- What the first writes is read by the second. -/
  | pipe (a b : Command)
  | sequence (a b : Command)
  /-- Runs beside what comes after it. -/
  | background (c : Command)
  /-- The second only if the first succeeds. -/
  | both (a b : Command)
  /-- The second only if the first fails. -/
  | either (a b : Command)
  | negation (c : Command)
  | choice (condition yes no : Command)
  /-- Repeats the body while the condition succeeds, or while it fails. -/
  | repetition (whileFailing : Bool) (condition body : Command)
  /-- The body for each of some words. -/
  | forEach (line : Nat) (name : String) (words : List (List Piece)) (body : Command)
  /-- The first of some branches with a pattern that a word matches. -/
  | select (line : Nat) (word : List Piece) (branches : List (List (List Piece) × Command))
  /-- A command that leaves the shell as it was. -/
  | enclosed (c : Command)
  /-- Gives a command a name. -/
  | function (name : String) (body : Command)

end

/-- The pieces of a word. -/
abbrev Word := List Piece

instance : Inhabited Command := ⟨.nothing⟩
instance : Inhabited Piece := ⟨.text [] false⟩

end Multipass.Shell
