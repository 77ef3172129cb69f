import Multipass.Glob.Parser
import Multipass.Text.Utf8

/-!
# Matching paths

A glob matches a path as a whole, byte for byte. The tokens are gone through from the last to the
first: of each place in the path it is known whether the tokens so far stand for all that is behind
it, so that the work is bounded by the product of both lengths. Branches that stand for no bytes are
left out of their group.

A path that ends in a point has no last name, so no glob matches it that goes by the last name or
by the extension of a path: a name below any directories, or a glob with wildcards that ends in an
extension.
-/

namespace Multipass.Glob

/-- The bytes of a character. -/
def charBytes (c : Char) : List UInt8 :=
  Text.encode (String.ofList [c])

/-- The byte of the separator. -/
def separatorByte : UInt8 := 47

/-- Holds of a byte within the bytes that two characters are written with: the leading bytes of
the first, all from its last byte to the first byte of the second, and the remaining bytes of the
second. -/
def inRange (first last : Char) (b : UInt8) : Bool :=
  if first = last then (charBytes first).contains b
  else
    let low := charBytes first
    let high := charBytes last
    low.dropLast.contains b || (low.getLastD 0 ≤ b && b ≤ high.headD 0) || high.tail.contains b

/-- Holds of a byte that a class stands for. -/
def inClass (negated : Bool) (ranges : List (Char × Char)) (b : UInt8) : Bool :=
  negated != ranges.any fun (first, last) => inRange first last b

/-- Whether something holds of what is left of a path, for each place in it: of the whole path
first, of what is behind its first byte next, and of nothing at all in the end. -/
abbrev Table := List Bool

/-- What holds of a place if a byte stands there and the table holds of the place behind it. -/
def behindByte (isByte : UInt8 → Bool) : (path : List UInt8) → Table → Table
  | [], _ => [false]
  | b :: path, table => (isByte b && table.tail.headD false) :: behindByte isByte path table.tail

/-- What holds of a place if the table holds of that place or of a later one. -/
def hereOrLater : Table → Table
  | [] => []
  | here :: later =>
    let later := hereOrLater later
    (here || later.headD false) :: later

/-- What holds of a place if one of two tables holds of it. -/
def eitherTable (a b : Table) : Table :=
  a.zipWith (· || ·) b

/-- What holds of a place if the table holds behind a separator there. -/
def behindSeparator (path : List UInt8) (table : Table) : Table :=
  behindByte (· == separatorByte) path table

/-- What holds of a place if the table holds of it or behind some later directory. -/
def behindDirs (path : List UInt8) (table : Table) : Table :=
  eitherTable table (hereOrLater (behindSeparator path table))

/-- A table that holds of no place. -/
def nowhere (path : List UInt8) : Table :=
  List.replicate (path.length + 1) false

/-- The table that holds of the end of a path. -/
def atEnd (path : List UInt8) : Table :=
  path.map (fun _ => false) ++ [true]

mutual

/-- What holds of a place if a token stands for the bytes there and the table holds behind them. -/
def Token.before (path : List UInt8) : Token → Table → Table
  | .literal c, table => (charBytes c).foldr (fun b table => behindByte (· == b) path table) table
  | .any, table => behindByte (fun _ => true) path table
  | .star, table => hereOrLater table
  | .leadingDirs, table => behindDirs path table
  | .allBelow, table => behindSeparator path (hereOrLater table)
  | .innerDirs, table => behindSeparator path (behindDirs path table)
  | .oneOf negated ranges, table => behindByte (inClass negated ranges) path table
  | .alternates branches, table =>
    if allVoid branches then table else branchesBefore path branches table

/-- What holds of a place if a sequence stands for the bytes there and the table holds behind
them. -/
def sequenceBefore (path : List UInt8) : List Token → Table → Table
  | [], table => table
  | t :: ts, table => t.before path (sequenceBefore path ts table)

/-- What holds of a place if one of some branches stands for the bytes there and the table holds
behind them. -/
def branchesBefore (path : List UInt8) : List (List Token) → Table → Table
  | [], _ => nowhere path
  | b :: bs, table =>
    let others := branchesBefore path bs table
    if isVoid b then others else eitherTable (sequenceBefore path b table) others

end

/-- Holds when a sequence stands for a path as a whole. -/
def accepts (ts : List Token) (path : List UInt8) : Bool :=
  (sequenceBefore path ts (atEnd path)).headD false

/-- Holds of a plain character. -/
def Token.isLiteral : Token → Bool
  | .literal _ => true
  | _ => false

/-- Holds of a plain character other than the separator. -/
def Token.isNameLiteral : Token → Bool
  | .literal c => c != separator
  | _ => false

/-- Holds of a sequence that any directories may precede and a text ends. -/
def endsInText : List Token → Bool
  | .leadingDirs :: .star :: ts => ts.all Token.isLiteral
  | .leadingDirs :: ts => ts.all Token.isLiteral
  | .star :: ts => ts.all Token.isLiteral
  | ts => ts.all Token.isLiteral

/-- Holds of a glob that goes by the last name of a path: one that is a name below any directories
or a star and a point, and one with wildcards of other kinds in front of a last point. -/
def goesByPoint (ts : List Token) : Bool :=
  match ts with
  | .leadingDirs :: .star :: .literal '.' :: [] => true
  | .star :: .literal '.' :: [] => true
  | .leadingDirs :: rest => if endsInText ts then rest.all Token.isNameLiteral else true
  | _ => !endsInText ts

/-- Holds of bytes that end in a point. -/
def endsInPoint (s : List UInt8) : Bool :=
  s.getLast? == some 46

/-- Holds of tokens that end in a point. -/
def literalPoint : List Token → Bool
  | ts =>
    match ts.getLast? with
    | some (.literal '.') => true
    | _ => false

/-- Holds of a path that a glob matches. -/
def isMatch (ts : List Token) (path : List UInt8) : Bool :=
  match ts with
  | [.leadingDirs] => true
  | ts =>
    if endsInPoint path && literalPoint ts && goesByPoint ts then false
    else accepts ts path

/-- Holds of a path that one of some globs matches. -/
def anyMatch (globs : List (List Token)) (path : String) : Bool :=
  let bytes := Text.encode path
  globs.any fun ts => isMatch ts bytes

/-- The tokens of some globs, or the first error with the glob it is in. -/
def parseAll : List String → Except (String × GlobError) (List (List Token))
  | [] => .ok []
  | g :: gs =>
    match parse g with
    | .error e => .error (g, e)
    | .ok ts =>
      match parseAll gs with
      | .error e => .error e
      | .ok rest => .ok (ts :: rest)

end Multipass.Glob
