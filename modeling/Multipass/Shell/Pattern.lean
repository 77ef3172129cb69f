import Multipass.Shell.Basic

/-!
# Patterns

Texts with wildcards, byte by byte. A byte that was quoted stands for itself. A pattern is matched
as a whole; the parts at the start or the end of a text that it matches can be taken away.
-/

namespace Multipass.Shell

/-- Bytes of a word, each with whether it may be a wildcard. -/
abbrev Marked := List (UInt8 × Bool)

/-- The bytes of marked bytes. -/
def Marked.bytes (s : Marked) : Bytes :=
  s.map Prod.fst

/-- What one place of a pattern stands for. -/
inductive Wildcard where
  | byte (b : UInt8)
  | any
  /-- Any number of bytes. -/
  | star
  | oneOf (negated : Bool) (ranges : List (UInt8 × UInt8))
  deriving Repr

/-- The ranges of named classes. -/
def classRanges (name : Bytes) : List (UInt8 × UInt8) :=
  let named (s : String) : Bytes := s.toUTF8.toList
  if name = named "alpha" then [(65, 90), (97, 122)]
  else if name = named "digit" then [(48, 57)]
  else if name = named "alnum" then [(48, 57), (65, 90), (97, 122)]
  else if name = named "upper" then [(65, 90)]
  else if name = named "lower" then [(97, 122)]
  else if name = named "space" then [(9, 13), (32, 32)]
  else if name = named "blank" then [(9, 9), (32, 32)]
  else if name = named "punct" then [(33, 47), (58, 64), (91, 96), (123, 126)]
  else if name = named "xdigit" then [(48, 57), (65, 70), (97, 102)]
  else if name = named "cntrl" then [(0, 31), (127, 127)]
  else if name = named "print" then [(32, 126)]
  else if name = named "graph" then [(33, 126)]
  else []

/-- The ranges up to a closing bracket, and what is left. `fuel` bounds their number. -/
def bracketRanges : (fuel : Nat) → (first : Bool) → Marked → Option (List (UInt8 × UInt8) × Marked)
  | 0, _, _ => none
  | _, _, [] => none
  | fuel + 1, first, (b, active) :: s =>
    if b = 93 && active && !first then some ([], s)
    else
      let class? : Option (List (UInt8 × UInt8) × Marked) :=
        match b = 91 && active, s with
        | true, (58, true) :: inner =>
          let name := inner.takeWhile fun x => x.1 != 58
          match inner.drop name.length with
          | (58, _) :: (93, _) :: rest => some (classRanges (name.map Prod.fst), rest)
          | _ => none
        | _, _ => none
      match class? with
      | some (ranges, rest) =>
        (bracketRanges fuel false rest).map fun (others, rest) => (ranges ++ others, rest)
      | none =>
        match s with
        | (45, true) :: (c, other) :: rest =>
          if c = 93 && other then
            (bracketRanges fuel false s).map fun (others, rest) => ((b, b) :: others, rest)
          else (bracketRanges fuel false rest).map fun (others, rest) => ((b, c) :: others, rest)
        | s => (bracketRanges fuel false s).map fun (others, rest) => ((b, b) :: others, rest)

/-- The places of a pattern; a bracket that is not closed stands for itself. `fuel` bounds their
number. -/
def wildcardsFrom : (fuel : Nat) → Marked → List Wildcard
  | 0, _ => []
  | _, [] => []
  | fuel + 1, (b, active) :: s =>
    if !active then .byte b :: wildcardsFrom fuel s
    else if b = 42 then .star :: wildcardsFrom fuel s
    else if b = 63 then .any :: wildcardsFrom fuel s
    else if b = 91 then
      let (negated, inner) := match s with
        | (33, true) :: rest => (true, rest)
        | (94, true) :: rest => (true, rest)
        | rest => (false, rest)
      match bracketRanges (inner.length + 1) true inner with
      | some (ranges, rest) => .oneOf negated ranges :: wildcardsFrom fuel rest
      | none => .byte b :: wildcardsFrom fuel s
    else .byte b :: wildcardsFrom fuel s

/-- The places of a pattern. -/
def wildcards (s : Marked) : List Wildcard :=
  wildcardsFrom (s.length + 1) s

/-- Holds of a byte in some ranges. -/
def inRanges (ranges : List (UInt8 × UInt8)) (b : UInt8) : Bool :=
  ranges.any fun r => r.1 ≤ b && b ≤ r.2

/-- Holds when what is left behind some of the bytes satisfies `rest`. -/
def afterSome (rest : Bytes → Bool) : Bytes → Bool
  | [] => rest []
  | b :: s => rest (b :: s) || afterSome rest s

/-- Holds of a text that a pattern matches as a whole. -/
def matchesAll : List Wildcard → Bytes → Bool
  | [], s => s.isEmpty
  | .star :: ps, s => afterSome (matchesAll ps) s
  | .byte b :: ps, s =>
    match s with
    | c :: s => b = c && matchesAll ps s
    | [] => false
  | .any :: ps, s =>
    match s with
    | _ :: s => matchesAll ps s
    | [] => false
  | .oneOf negated ranges :: ps, s =>
    match s with
    | c :: s => negated != inRanges ranges c && matchesAll ps s
    | [] => false

/-- A text without the shortest or longest part at its start or end that a pattern matches. -/
def trim (atEnd longest : Bool) (ps : List Wildcard) (s : Bytes) : Bytes :=
  let lengths := List.range (s.length + 1)
  let lengths := if longest then lengths.reverse else lengths
  let cut? (n : Nat) : Option Bytes :=
    if atEnd then
      let kept := s.length - n
      if matchesAll ps (s.drop kept) then some (s.take kept) else none
    else if matchesAll ps (s.take n) then some (s.drop n) else none
  (lengths.findSome? cut?).getD s

end Multipass.Shell
