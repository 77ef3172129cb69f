import Multipass.Shell.Parser

/-!
# Arithmetic

Expressions over integers of 64 bits. A name stands for the value of a variable and may be given
one. Each function is given a bound for the depth of its calls.
-/

namespace Multipass.Shell

/-- An integer within 64 bits, with the ends joined. -/
def wrap64 (i : Int) : Int :=
  i.bmod 0x10000000000000000

/-- The value of a digit to a base up to 16. -/
def digitOf? (base : Nat) (c : Char) : Option Nat :=
  let n :=
    if c.isDigit then c.toNat - 48
    else if 'a' ≤ c ∧ c ≤ 'f' then c.toNat - 87
    else if 'A' ≤ c ∧ c ≤ 'F' then c.toNat - 55
    else base
  if n < base then some n else none

/-- The number that digits to a base spell, up to the first character that is none. -/
def digitsValue (base : Nat) (s : List Char) : Nat × List Char :=
  let ds := s.takeWhile fun c => (digitOf? base c).isSome
  (ds.foldl (fun n c => base * n + (digitOf? base c).getD 0) 0, s.drop ds.length)

/-- The natural number at the start of a text, in decimal, octal, or hexadecimal digits. -/
def constant (s : List Char) : Nat × List Char :=
  match s with
  | '0' :: 'x' :: c :: rest =>
    if (digitOf? 16 c).isSome then digitsValue 16 (c :: rest) else (0, 'x' :: c :: rest)
  | '0' :: 'X' :: c :: rest =>
    if (digitOf? 16 c).isSome then digitsValue 16 (c :: rest) else (0, 'X' :: c :: rest)
  | '0' :: rest => digitsValue 8 rest
  | s => digitsValue 10 s

/-- The integer that a text spells, in any of these digits; blanks in front are passed over. -/
def integer? (s : String) : Option Int :=
  let s := s.toList.dropWhile fun c => c.isWhitespace
  let read (s : List Char) : Option Nat :=
    match s with
    | c :: _ =>
      if c.isDigit then
        match constant s with
        | (n, []) => some n
        | _ => none
      else none
    | [] => none
  match s with
  | [] => some 0
  | '-' :: s => (read s).map fun n => wrap64 (-n)
  | '+' :: s => (read s).map fun n => wrap64 n
  | s => (read s).map fun n => wrap64 n

/-- An expression under evaluation. -/
structure Calculation where
  rest : List Char
  /-- The value of a variable. -/
  lookup : String → String
  /-- The variables that were set, the last first. -/
  changes : List (String × Int) := []

/-- A step of an evaluation, or what is wrong with the expression. -/
abbrev Calculating := StateT Calculation (Except String)

/-- Operators of two operands by how closely they bind, the loosest first. -/
def operatorLevels : List (List String) :=
  [["||"], ["&&"], ["|"], ["^"], ["&"], ["==", "!="], ["<=", ">=", "<", ">"], ["<<", ">>"],
    ["+", "-"], ["*", "/", "%"]]

/-- Signs that are longer than an operator that they begin with, or assign. -/
def longerSigns : List String :=
  ["||", "&&", "<<=", ">>=", "<<", ">>", "<=", ">=", "==", "!=", "|=", "^=", "&=", "+=", "-=",
    "*=", "/=", "%="]

/-- The operators that assign, each with the one it does before. -/
def assignments : List (String × String) :=
  [("=", ""), ("+=", "+"), ("-=", "-"), ("*=", "*"), ("/=", "/"), ("%=", "%"), ("<<=", "<<"),
    (">>=", ">>"), ("&=", "&"), ("^=", "^"), ("|=", "|")]

/-- The value of an operator. -/
def operate (op : String) (a b : Int) : Except String Int :=
  let holds (p : Bool) : Except String Int := .ok (if p then 1 else 0)
  let word (i : Int) : UInt64 := UInt64.ofNat (i % 0x10000000000000000).toNat
  let signed (w : UInt64) : Except String Int := .ok (wrap64 w.toNat)
  let shift := (b % 64).toNat
  match op with
  | "||" => holds (a != 0 || b != 0)
  | "&&" => holds (a != 0 && b != 0)
  | "|" => signed (word a ||| word b)
  | "^" => signed (word a ^^^ word b)
  | "&" => signed (word a &&& word b)
  | "==" => holds (a == b)
  | "!=" => holds (a != b)
  | "<=" => holds (a ≤ b)
  | ">=" => holds (b ≤ a)
  | "<" => holds (a < b)
  | ">" => holds (b < a)
  | "<<" => .ok (wrap64 (a * Nat.pow 2 shift))
  | ">>" => .ok (a.fdiv (Nat.pow 2 shift))
  | "+" => .ok (wrap64 (a + b))
  | "-" => .ok (wrap64 (a - b))
  | "*" => .ok (wrap64 (a * b))
  | "/" => if b = 0 then .error "division by zero" else .ok (wrap64 (a.tdiv b))
  | "%" => if b = 0 then .error "division by zero" else .ok (wrap64 (a.tmod b))
  | _ => .ok b

/-- The characters that are left, without blanks in front. -/
def expressionRest : Calculating (List Char) := fun s =>
  let rest := s.rest.dropWhile Char.isWhitespace
  .ok (rest, { s with rest })

/-- Passes over some characters. -/
def passOver (count : Nat) : Calculating Unit := fun s =>
  .ok ((), { s with rest := s.rest.drop count })

/-- Holds of a text that begins with a sign. -/
def beginsWith (s : List Char) (sign : String) : Bool :=
  sign.toList.isPrefixOf s

/-- The sign at the start of a text: the longest there is. -/
def signOf (s : List Char) : String :=
  match longerSigns.find? (beginsWith s) with
  | some sign => sign
  | none => String.ofList (s.take 1)

/-- Sets a variable. -/
def setVariable (name : String) (i : Int) : Calculating Unit := fun s =>
  .ok ((), { s with changes := (name, i) :: s.changes })

/-- The value of a variable. -/
def variableValue (name : String) : Calculating Int := fun s =>
  match s.changes.lookup name with
  | some i => .ok (i, s)
  | none =>
    let text := s.lookup name
    match integer? text with
    | some i => .ok (i, s)
    | none => .error s!"Illegal number: {text}"

mutual

/-- The value of an assignment or a conditional expression; `live` unless it is passed over. -/
def assigned : (fuel : Nat) → (live : Bool) → Calculating Int
  | 0, _ => throw "expecting primary"
  | fuel + 1, live => do
    let s ← expressionRest
    let name := s.takeWhile isInName
    let sign := signOf ((s.drop name.length).dropWhile Char.isWhitespace)
    match isName name, assignments.lookup sign with
    | true, some op =>
      passOver name.length
      let _ ← expressionRest
      passOver sign.length
      let b ← assigned fuel live
      if !live then return b
      else
        let a ← if op.isEmpty then pure 0 else variableValue (String.ofList name)
        let value ← operate op a b
        setVariable (String.ofList name) value
        return value
    | _, _ => conditional fuel live

/-- The value of a condition and two expressions, or of an expression alone. -/
def conditional : (fuel : Nat) → (live : Bool) → Calculating Int
  | 0, _ => throw "expecting primary"
  | fuel + 1, live => do
    let a ← level fuel live operatorLevels
    match ← expressionRest with
    | '?' :: _ =>
      passOver 1
      let yes ← assigned fuel (live && a != 0)
      match ← expressionRest with
      | ':' :: _ =>
        passOver 1
        let no ← conditional fuel (live && a = 0)
        return if a != 0 then yes else no
      | _ => throw "expecting ':'"
    | _ => return a

/-- The value of an expression whose operators bind as some levels do. -/
def level : (fuel : Nat) → (live : Bool) → List (List String) → Calculating Int
  | 0, _, _ => throw "expecting primary"
  | fuel + 1, live, [] => operand fuel live
  | fuel + 1, live, ops :: levels => do
    let a ← level fuel live levels
    levelFrom fuel live ops levels a

/-- The value of an expression that goes on from its first operand. -/
def levelFrom : (fuel : Nat) → (live : Bool) → List String → List (List String) → Int →
    Calculating Int
  | 0, _, _, _, _ => throw "expecting primary"
  | fuel + 1, live, ops, levels, a => do
    let op := signOf (← expressionRest)
    if ops.contains op then
      passOver op.length
      let live' := live && !(op = "||" && a != 0) && !(op = "&&" && a = 0)
      let b ← level fuel live' levels
      let value ← if live' then operate op a b else if op = "||" then pure 1 else pure 0
      levelFrom fuel live ops levels (if live then value else 0)
    else return a

/-- The value of a number, a variable, an operator of one operand, or an expression in
parentheses. -/
def operand : (fuel : Nat) → (live : Bool) → Calculating Int
  | 0, _ => throw "expecting primary"
  | fuel + 1, live => do
    match ← expressionRest with
    | '(' :: _ =>
      passOver 1
      let a ← assigned fuel live
      match ← expressionRest with
      | ')' :: _ =>
        passOver 1
        return a
      | _ => throw "expecting ')'"
    | '-' :: _ =>
      passOver 1
      let a ← operand fuel live
      return wrap64 (-a)
    | '+' :: _ =>
      passOver 1
      operand fuel live
    | '!' :: _ =>
      passOver 1
      let a ← operand fuel live
      return if a = 0 then 1 else 0
    | '~' :: _ =>
      passOver 1
      let a ← operand fuel live
      return -a - 1
    | c :: s =>
      if c.isDigit then
        let (n, rest) := constant (c :: s)
        passOver ((c :: s).length - rest.length)
        return wrap64 n
      else if startsName c then
        let name := (c :: s).takeWhile isInName
        passOver name.length
        if live then variableValue (String.ofList name) else return 0
      else throw "expecting primary"
    | [] => throw "expecting primary"

end

/-- The value of an arithmetic expression and the variables that it sets, or what is wrong with
it. An empty expression is zero. -/
def arithmetic (lookup : String → String) (s : String) : Except String (Int × List (String × Int)) :=
  let rest := s.toList
  if rest.all Char.isWhitespace then .ok (0, [])
  else
    let complaint (reason : String) : String :=
      if reason.startsWith "Illegal" then reason
      else s!"arithmetic expression: {reason}: \"{s}\""
    match assigned (24 * rest.length + 24) true { rest, lookup } with
    | .error reason => .error (complaint reason)
    | .ok (value, left) =>
      if left.rest.all Char.isWhitespace then .ok (value, left.changes.reverse)
      else .error (complaint "expecting EOF")

end Multipass.Shell
