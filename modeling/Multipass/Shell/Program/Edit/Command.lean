import Multipass.Shell.Program.Regex

/-!
# Commands of the line editor

A command is carried out on the lines that its addresses select; it may change the line at hand,
write something, read on, keep text aside, or go on with another command.
-/

namespace Multipass.Shell

/-- A line or lines by a number, a place, or a pattern; no pattern stands for the last one used. -/
inductive Address where
  | line (n : Nat)
  | last
  /-- Every so many lines from one on. -/
  | every (first step : Nat)
  | pattern (r : Option Regex) (anyCase manyLines : Bool)
  deriving Repr

/-- Where lines that are selected end. -/
inductive AddressEnd where
  | address (a : Address)
  /-- So many lines further. -/
  | further (n : Nat)
  /-- At a multiple of a number. -/
  | multiple (n : Nat)
  deriving Repr

/-- A part of what stands for a match. -/
inductive Fill where
  | text (s : Bytes)
  /-- What a group took, or the whole match. -/
  | group (n : Nat)
  /-- A change of the case of letters from here on: of all to upper or lower, of the next one, or
  no more. -/
  | letters (kind : Char)
  deriving Repr

/-- A replacement of matches. -/
structure Substitution where
  pattern : Option Regex
  fills : List Fill
  anyCase : Bool := false
  manyLines : Bool := false
  /-- Whether all matches from the counted one on are replaced. -/
  all : Bool := false
  count : Nat := 1
  shown : Bool := false
  target : Option Bytes := none
  deriving Repr

/-- What a command does. -/
inductive EditAction where
  /-- The commands up to the end of a block, which is at a place. -/
  | block (finish : Nat)
  | nothing
  | substitute (s : Substitution)
  | transliterate (old new : Bytes)
  /-- A text behind the line, before it, or in its place. -/
  | textAfter (s : Bytes)
  | textBefore (s : Bytes)
  | textInstead (s : Bytes)
  /-- A file behind the line. -/
  | fileAfter (name : Bytes)
  /-- The next line of a file behind the line. -/
  | lineAfter (name : Bytes)
  | writeTo (name : Bytes) (firstLine : Bool)
  /-- Shows the bytes of the line, in lines of limited length. -/
  | showBytes (width : Option Nat)
  /-- Goes on at a label: always, or if there was a replacement, or if there was none. -/
  | jump (kind : Char) (label : Bytes)
  | quit (silent : Bool) (status : Nat)
  /-- Any other command, by its letter. -/
  | letter (c : Char)
  deriving Repr

/-- A command with the lines it is for. -/
structure EditCommand where
  first : Option Address := none
  second : Option AddressEnd := none
  negated : Bool := false
  action : EditAction
  /-- The label in front of it. -/
  label : Option Bytes := none
  deriving Repr

end Multipass.Shell
