/-!
# Globs

A glob is a sequence of tokens that stand for stretches of a path. Wildcards cross the separators
of a path; double stars between separators stand for whole directories.
-/

namespace Multipass.Glob

/-- A token of a glob. -/
inductive Token where
  | literal (c : Char)
  /-- One byte. -/
  | any
  /-- Any bytes. -/
  | star
  /-- Directories in front of a path. -/
  | leadingDirs
  /-- All that lies below a directory. -/
  | allBelow
  /-- A separator, or directories between two separators. -/
  | innerDirs
  /-- One byte of those that the characters and ranges are written with, or none of them. -/
  | oneOf (negated : Bool) (ranges : List (Char × Char))
  | alternates (branches : List (List Token))
  deriving Repr, Inhabited

/-- What is wrong with a glob. -/
inductive GlobError where
  | unclosedClass
  | invalidRange (first last : Char)
  | unopenedAlternates
  | unclosedAlternates
  | danglingEscape
  deriving DecidableEq, Repr

/-- The words for what is wrong with a glob. -/
def GlobError.message : GlobError → String
  | .unclosedClass => "unclosed character class; missing ']'"
  | .invalidRange first last => s!"invalid range; '{first}' > '{last}'"
  | .unopenedAlternates =>
    "unopened alternate group; missing '\x7b' (maybe escape '\x7d' with '[\x7d]'?)"
  | .unclosedAlternates =>
    "unclosed alternate group; missing '\x7d' (maybe escape '\x7b' with '[\x7b]'?)"
  | .danglingEscape => "dangling '\\'"

mutual

/-- Holds of a token that stands for no bytes, whatever is before and behind it. -/
def Token.isVoid : Token → Bool
  | .alternates branches => allVoid branches
  | _ => false

/-- Holds of a sequence of such tokens. -/
def isVoid : List Token → Bool
  | [] => true
  | t :: ts => t.isVoid && isVoid ts

/-- Holds of such sequences. -/
def allVoid : List (List Token) → Bool
  | [] => true
  | b :: bs => isVoid b && allVoid bs

end

end Multipass.Glob
