import Multipass.Glob.Basic

/-!
# Reading globs

A glob is read from left to right. Braces open groups of alternates, which may nest; a comma
parts the branches of a group and is a plain character outside of one. A backslash takes the next
character as it is. Two stars in a row stand for directories where a separator, the start, or the
end is on either side of them, and for two single stars elsewhere; the separator before them
belongs to them.
-/

namespace Multipass.Glob

/-- An open group: the tokens before it and its finished branches, each with the last first. -/
structure Group where
  before : List Token
  branches : List (List Token)

/-- Where reading stands: the tokens of the current sequence with the last first, the open groups
with the innermost first, and the character before. -/
structure State where
  tokens : List Token := []
  groups : List Group := []
  previous : Option Char := none

/-- The separator of paths. -/
def separator : Char := '/'

/-- The state with one more token. -/
def State.push (s : State) (t : Token) : State :=
  { s with tokens := t :: s.tokens }

/-- The state behind a character. -/
def State.passed (s : State) (c : Char) : State :=
  { s with previous := some c }

/-- The state with two single stars more. -/
def State.pushStars (s : State) : State :=
  (s.push .star).push .star

/-- The state with a group more. -/
def State.openGroup (s : State) : State :=
  { s with tokens := [], groups := ⟨s.tokens, []⟩ :: s.groups }

/-- The state with the current branch finished. -/
def State.nextBranch (s : State) : State :=
  match s.groups with
  | [] => s.push (.literal ',')
  | g :: gs => { s with tokens := [], groups := ⟨g.before, s.tokens.reverse :: g.branches⟩ :: gs }

/-- The state with the innermost group finished. -/
def State.closeGroup (s : State) : Except GlobError State :=
  match s.groups with
  | [] => .error .unopenedAlternates
  | g :: gs =>
    let branches := (s.tokens.reverse :: g.branches).reverse
    .ok { s with tokens := .alternates branches :: g.before, groups := gs }

/-- The place of two stars where directories may stand: at the end, or before a separator. -/
inductive Place where
  | last
  | inner

/-- The place of two stars by what follows them. -/
def place? (s : State) : List Char → Option Place
  | [] => some .last
  | c :: _ =>
    if (c = ',' ∨ c = '\x7d') ∧ s.groups ≠ [] then some .last
    else if c = separator then some .inner
    else none

/-- Holds when directories may end in front of two stars. -/
def State.afterSeparator (s : State) : Bool :=
  s.previous == some separator
    || (!s.groups.isEmpty && (s.previous == some ',' || s.previous == some '\x7b'))

/-- The token of two stars in a place, instead of the token before them. -/
def directories (place : Place) : Token → Token
  | .leadingDirs => .leadingDirs
  | .allBelow => .allBelow
  | _ =>
    match place with
    | .last => .allBelow
    | .inner => .innerDirs

/-- The state behind two stars, which `s` has not passed yet, and the rest behind the separator
that belongs to them. -/
def doubleStar (s : State) (rest : List Char) : State × List Char :=
  match s.tokens with
  | [] =>
    match rest with
    | [] => ((s.push .leadingDirs).passed '*', [])
    | c :: cs =>
      if c = separator then ((s.push .leadingDirs).passed c, cs)
      else (s.pushStars.passed '*', c :: cs)
  | t :: ts =>
    if !s.afterSeparator then (s.pushStars.passed '*', rest)
    else
      match place? s rest with
      | none => (s.pushStars.passed '*', rest)
      | some .last => ({ s with tokens := directories .last t :: ts }.passed '*', rest)
      | some .inner =>
        ({ s with tokens := directories .inner t :: ts }.passed separator, rest.drop 1)

/-- The ranges of a class with one more character, which ends the last range if one is open. -/
def addToClass (open? : Bool) (c : Char) :
    List (Char × Char) → Except GlobError (List (Char × Char))
  | [] => .ok [(c, c)]
  | (a, b) :: ranges =>
    if open? then if c < a then .error (.invalidRange a c) else .ok ((a, c) :: ranges)
    else .ok ((c, c) :: (a, b) :: ranges)

/-- Reads a class behind its bracket and its negation: the ranges, the last first, and the
rest. -/
def classRanges (first open? : Bool) (ranges : List (Char × Char)) :
    List Char → Except GlobError (List (Char × Char) × List Char)
  | [] => .error .unclosedClass
  | c :: cs =>
    if c = ']' ∧ !first then .ok (if open? then ('-', '-') :: ranges else ranges, cs)
    else if c = '-' ∧ !first ∧ !open? then classRanges false true ranges cs
    else
      match addToClass open? c ranges with
      | .error e => .error e
      | .ok ranges => classRanges false false ranges cs

/-- Reads a class behind its bracket. -/
def oneOf (cs : List Char) : Except GlobError (Token × List Char) :=
  let (negated, cs) := match cs with
    | '!' :: rest => (true, rest)
    | '^' :: rest => (true, rest)
    | cs => (false, cs)
  match classRanges true false [] cs with
  | .error e => .error e
  | .ok (ranges, rest) => .ok (.oneOf negated ranges.reverse, rest)

/-- Reads the tokens of a glob; `fuel` bounds the number of its characters. -/
def tokensFrom : (fuel : Nat) → State → List Char → Except GlobError State
  | 0, s, _ => .ok s
  | _ + 1, s, [] => .ok s
  | fuel + 1, s, c :: cs =>
    if c = '?' then tokensFrom fuel ((s.push .any).passed c) cs
    else if c = '*' then
      match cs with
      | '*' :: rest =>
        let (s, rest) := doubleStar s rest
        tokensFrom fuel s rest
      | cs => tokensFrom fuel ((s.push .star).passed c) cs
    else if c = '[' then
      match oneOf cs with
      | .error e => .error e
      | .ok (t, rest) => tokensFrom fuel ((s.push t).passed ']') rest
    else if c = '\x7b' then tokensFrom fuel (s.openGroup.passed c) cs
    else if c = '\x7d' then
      match s.closeGroup with
      | .error e => .error e
      | .ok s => tokensFrom fuel (s.passed c) cs
    else if c = ',' then tokensFrom fuel (s.nextBranch.passed c) cs
    else if c = '\\' then
      match cs with
      | [] => .error .danglingEscape
      | d :: rest => tokensFrom fuel ((s.push (.literal d)).passed d) rest
    else tokensFrom fuel ((s.push (.literal c)).passed c) cs

/-- The tokens of a glob. -/
def parse (glob : String) : Except GlobError (List Token) :=
  let cs := glob.toList
  match tokensFrom cs.length {} cs with
  | .error e => .error e
  | .ok s => if s.groups.isEmpty then .ok s.tokens.reverse else .error .unclosedAlternates

end Multipass.Glob
