import Multipass.Shell.Pattern

/-!
# Fields

What the pieces of a word are filled in with, byte by byte, and the fields into which the word
falls. Bytes that come from outside of quotes may separate fields. Blanks among the separators join
into one; any other separator ends a field, also an empty one.
-/

namespace Multipass.Shell

/-- A part of a word that was filled in. -/
inductive Atom where
  /-- A byte, whether it may be a wildcard, and whether it may separate fields. -/
  | byte (b : UInt8) (active separates : Bool)
  /-- Quotes, which make a field also of nothing. -/
  | quotes
  /-- The end of an argument; within quotes it ends a field also of nothing. -/
  | gap (quoted : Bool)
  deriving DecidableEq, Repr

/-- Bytes written in a word. -/
def writtenAtoms (quoted : Bool) (s : Bytes) : List Atom :=
  s.map fun b => .byte b (!quoted) false

/-- Bytes filled in for a piece. -/
def filledAtoms (quoted : Bool) (s : Bytes) : List Atom :=
  s.map fun b => .byte b (!quoted) (!quoted)

/-- Arguments filled in for a piece. -/
def argumentAtoms (quoted : Bool) (arguments : List Bytes) : List Atom :=
  let one (s : Bytes) : List Atom := (if quoted then [Atom.quotes] else []) ++ filledAtoms quoted s
  [.gap quoted].intercalate (arguments.map one)

/-- The separators unless others are set: a blank, a tab, and a line feed. -/
def usualSeparators : Bytes := [32, 9, 10]

/-- A field under construction. -/
structure Splitting where
  /-- The fields that are done, the last first. -/
  done : List Marked := []
  /-- The field at hand, its last byte first. -/
  current : Marked := []
  /-- Whether there is a field at hand, also one of nothing. -/
  started : Bool := false
  /-- Whether a blank has just ended a field. -/
  afterBlank : Bool := false

namespace Splitting

/-- Ends the field at hand. -/
def finish (s : Splitting) : Splitting :=
  { done := s.current.reverse :: s.done }

/-- Ends the field at hand, if there is one. -/
def close (s : Splitting) : Splitting :=
  if s.started then s.finish else s

/-- Goes on with one part of a word. -/
def step (separators : Bytes) (s : Splitting) : Atom → Splitting
  | .quotes => { s with started := true, afterBlank := false }
  | .gap true => s.finish
  | .gap false => s.close
  | .byte b active separates =>
    if separates && separators.contains b then
      if usualSeparators.contains b then
        if s.started then { s.finish with afterBlank := true } else s
      else if s.afterBlank then { s with afterBlank := false }
      else s.finish
    else { s with current := (b, active) :: s.current, started := true, afterBlank := false }

end Splitting

/-- The fields of a word. -/
def fields (separators : Bytes) (atoms : List Atom) : List Marked :=
  (atoms.foldl (Splitting.step separators) {}).close.done.reverse

/-- The text of a word that stays one. -/
def wholeMarked (atoms : List Atom) : Marked :=
  atoms.flatMap fun
    | .byte b active _ => [(b, active)]
    | .quotes => []
    | .gap _ => [(32, false)]

end Multipass.Shell
