import Multipass.Shell.Program.Regex

/-!
# Expressions in arguments

The value of an expression of which each operator and each operand is an argument: choices,
comparisons, sums, products, matches, and parts of texts. A text that spells an integer counts as
one where numbers are compared or calculated with.
-/

namespace Multipass.Shell

/-- Reads arguments, or says what is wrong with them. The state holds the arguments that are left
and the last one that was read. -/
abbrev Evaluating := StateT (List Bytes × Bytes) (Except String)

/-- The integer that an operand spells. -/
def exprInteger? (s : Bytes) : Option Int :=
  match s with
  | 43 :: _ => none
  | s => signedInt? s

/-- Holds of an operand that counts as false. -/
def isNull (s : Bytes) : Bool :=
  s.isEmpty || exprInteger? s = some 0

/-- The integer of an operand, which has to be one. -/
def exprInteger (s : Bytes) : Evaluating Int :=
  match exprInteger? s with
  | some i => return i
  | none => throw "non-integer argument"

/-- An integer as an operand. -/
def exprText (i : Int) : Bytes :=
  bytesOf (toString i)

/-- A truth as an operand. -/
def exprTruth (b : Bool) : Bytes :=
  if b then [49] else [48]

/-- Takes an argument if it is one of some operators. -/
def exprOperator? (ops : List String) : Evaluating (Option String) := do
  match ← get with
  | (a :: rest, _) =>
    let op := textOf a
    if ops.contains op then
      set (rest, a)
      return some op
    else return none
  | ([], _) => return none

/-- Takes an argument, which has to be there. -/
def exprArgument : Evaluating Bytes := do
  match ← get with
  | (a :: rest, _) =>
    set (rest, a)
    return a
  | ([], last) => throw s!"syntax error: missing argument after '{textOf last}'"

/-- What a regular expression matches at the start of a text: its first group, or its length. -/
def exprMatch (s pattern : Bytes) : Evaluating Bytes :=
  match (Regex.read {} pattern) with
  | .error e => throw e
  | .ok r =>
    let subject : Subject := { bytes := s.toArray }
    let grouped := r.withoutGroups != r
    match subject.longestFrom? r 0 with
    | some way =>
      if grouped then
        match way.groups.lookup 1 with
        | some (start, finish) => return subject.between start finish
        | none => return []
      else return decimal way.place
    | none => return if grouped then [] else [48]

/-- The value of an operator between two operands. -/
def exprOperate (op : String) (a b : Bytes) : Evaluating Bytes := do
  match op with
  | "|" => return if isNull a then (if isNull b then [48] else b) else a
  | "&" => return if isNull a || isNull b then [48] else a
  | "+" => return exprText ((← exprInteger a) + (← exprInteger b))
  | "-" => return exprText ((← exprInteger a) - (← exprInteger b))
  | "*" => return exprText ((← exprInteger a) * (← exprInteger b))
  | "/" =>
    let x ← exprInteger a
    let y ← exprInteger b
    if y = 0 then throw "division by zero" else return exprText (x.tdiv y)
  | "%" =>
    let x ← exprInteger a
    let y ← exprInteger b
    if y = 0 then throw "division by zero" else return exprText (x.tmod y)
  | ":" => exprMatch a b
  | op =>
    let order : Ordering := match exprInteger? a, exprInteger? b with
      | some x, some y => compare x y
      | _, _ => compare a b
    return exprTruth (match op with
      | "<" => order == .lt
      | "<=" => order != .gt
      | "=" | "==" => order == .eq
      | "!=" => order != .eq
      | ">=" => order != .lt
      | _ => order == .gt)

/-- The operators between operands by how closely they bind, the loosest first. -/
def exprLevels : List (List String) :=
  [["|"], ["&"], ["<", "<=", "=", "==", "!=", ">=", ">"], ["+", "-"], ["*", "/", "%"], [":"]]

mutual

/-- The value of an expression whose operators bind as some levels do. -/
def exprLevel : (fuel : Nat) → List (List String) → Evaluating Bytes
  | 0, _ => throw "too deep"
  | fuel + 1, [] => exprOperand fuel
  | fuel + 1, ops :: levels => do
    let a ← exprLevel fuel levels
    exprFrom fuel ops levels a

/-- The value of an expression that goes on from its first operand. -/
def exprFrom : (fuel : Nat) → List String → List (List String) → Bytes → Evaluating Bytes
  | 0, _, _, _ => throw "too deep"
  | fuel + 1, ops, levels, a => do
    match ← exprOperator? ops with
    | some op =>
      let b ← exprLevel fuel levels
      exprFrom fuel ops levels (← exprOperate op a b)
    | none => return a

/-- The value of an operand: an argument, a part of a text, or an expression in parentheses. -/
def exprOperand : (fuel : Nat) → Evaluating Bytes
  | 0 => throw "too deep"
  | fuel + 1 => do
    match ← exprOperator? ["(", "match", "substr", "index", "length", "+"] with
    | none =>
      let a ← exprArgument
      if a = bytesOf ")" then throw "syntax error: unexpected ')'" else return a
    | some "(" =>
      let a ← exprLevel fuel exprLevels
      match ← get with
      | ([41] :: rest, _) =>
        set (rest, ([41] : Bytes))
        return a
      | (other :: _, _) => throw s!"syntax error: expecting ')' instead of '{textOf other}'"
      | ([], last) => throw s!"syntax error: expecting ')' after '{textOf last}'"
    | some "+" => exprArgument
    | some "length" => return decimal (← exprOperand fuel).length
    | some "match" =>
      let a ← exprOperand fuel
      let b ← exprOperand fuel
      exprMatch a b
    | some "index" =>
      let a ← exprOperand fuel
      let b ← exprOperand fuel
      return decimal (((a.findIdx? b.contains).map (· + 1)).getD 0)
    | some _ =>
      let a ← exprOperand fuel
      let start := exprInteger? (← exprOperand fuel)
      let count := exprInteger? (← exprOperand fuel)
      match start, count with
      | some start, some count =>
        return if start ≤ 0 || count ≤ 0 then []
          else (a.drop (start.toNat - 1)).take count.toNat
      | _, _ => return []

end

/-- Writes the value of an expression; one that counts as false is a failure. -/
def expr : Program := fun call =>
  let arguments := match call.arguments with
    | [45, 45] :: rest => rest
    | arguments => arguments
  if arguments.isEmpty then
    Effect.complains 2 "expr: missing operand\nTry 'expr --help' for more information."
  else
    match (exprLevel (16 * arguments.length + 16) exprLevels).run (arguments, []) with
    | .error message => Effect.complains 2 s!"expr: {message}"
    | .ok (value, rest, _) =>
      match rest with
      | [] => { Effect.say (value ++ [newlineByte]) with status := if isNull value then 1 else 0 }
      | other :: _ => Effect.complains 2 s!"expr: syntax error: unexpected argument '{textOf other}'"

end Multipass.Shell
