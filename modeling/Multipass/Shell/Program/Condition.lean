import Multipass.Shell.Program.Format

/-!
# Conditions

The truth of conditions on texts, numbers, and files: operators before one operand or between two,
joined by "and" and "or", turned around, and in parentheses. What an argument is depends on those
that follow it, since an operand may look like an operator.
-/

namespace Multipass.Shell

/-- The operators that stand between two operands. -/
def binaryOperators : List String :=
  ["=", "!=", "<", ">", "-eq", "-ne", "-ge", "-gt", "-le", "-lt", "-nt", "-ot", "-ef"]

/-- The operators that stand before one operand. -/
def unaryOperators : List String :=
  ["-r", "-w", "-x", "-e", "-f", "-d", "-c", "-b", "-p", "-u", "-g", "-k", "-s", "-t", "-z", "-n",
    "-h", "-O", "-G", "-L", "-S"]

/-- What an argument is. -/
inductive Mark where
  | finish
  | operand
  | unary (op : String)
  | binary (op : String)
  | negation
  | conjunction
  | disjunction
  | opening
  | closing
  deriving DecidableEq, Repr

/-- Holds of an operator between two operands. -/
def isBinary (s : Bytes) : Bool :=
  binaryOperators.contains (textOf s)

/-- What the first argument is, by those that follow it. -/
def markOf (arguments : List Bytes) : Mark :=
  match arguments with
  | [] => .finish
  | a :: rest =>
    let s := textOf a
    let isOperand : Bool := match rest with
      | [] => true
      | [_] => false
      | b :: _ => isBinary b
    if s = "!" then if isOperand then .operand else .negation
    else if s = "-a" then .conjunction
    else if s = "-o" then .disjunction
    else if s = "(" then if rest.isEmpty then .operand else .opening
    else if s = ")" then .closing
    else if binaryOperators.contains s then .binary s
    else if unaryOperators.contains s then if isOperand then .operand else .unary s
    else .operand

/-- The integer of an operand. -/
def operandInteger (s : Bytes) : Except String Int :=
  let isBlank (b : UInt8) : Bool := b = 32 || (9 ≤ b && b ≤ 13)
  let trimmed := ((s.dropWhile isBlank).reverse.dropWhile isBlank).reverse
  match signedInt? trimmed with
  | some i => .ok i
  | none => .error s!"Illegal number: {textOf s}"

/-- The truth of an operator before an operand. -/
def unaryTruth (tree : FileTree) (op : String) (s : Bytes) : Bool :=
  let path := textOf s
  let device := systemDevices.contains path
  let found := (lookUp tree path true).toOption
  match op with
  | "-z" => s.isEmpty
  | "-n" => !s.isEmpty
  | "-e" | "-r" | "-w" | "-O" | "-G" => device || found.isSome
  | "-c" => device
  | "-h" | "-L" =>
    match tree.resolve path false with
    | .ok (_, .link _) => true
    | _ => false
  | op =>
    match found with
    | some (.file content executable) =>
      op = "-f" || (op = "-x" && executable) || (op = "-s" && !content.isEmpty)
    | some (.directory _) => op = "-d" || op = "-x" || op = "-s"
    | _ => false

/-- The truth of an operator between two operands. -/
def binaryTruth (tree : FileTree) (op : String) (a b : Bytes) : Except String Bool :=
  let numbers (holds : Int → Int → Bool) : Except String Bool := do
    let x ← operandInteger a
    let y ← operandInteger b
    return holds x y
  let place (s : Bytes) : Option Location := (tree.resolve (textOf s) true).toOption.map Prod.fst
  match op with
  | "=" => .ok (a == b)
  | "!=" => .ok (a != b)
  | "<" => .ok (a < b)
  | ">" => .ok (b < a)
  | "-eq" => numbers fun x y => x == y
  | "-ne" => numbers fun x y => x != y
  | "-ge" => numbers fun x y => y ≤ x
  | "-gt" => numbers fun x y => y < x
  | "-le" => numbers fun x y => x ≤ y
  | "-lt" => numbers fun x y => x < y
  | "-ef" => .ok ((place a).isSome && place a == place b)
  | _ => .ok false

mutual

/-- The truth of conditions of which one has to hold, and the arguments from the last one that was
used on. -/
def someTruth (tree : FileTree) : (fuel : Nat) → List Bytes → Except String (Bool × List Bytes)
  | 0, _ => .error "too deep"
  | fuel + 1, arguments => do
    let (a, rest) ← allTruth tree fuel arguments
    match markOf (rest.drop 1) with
    | .disjunction =>
      let (b, rest) ← someTruth tree fuel (rest.drop 2)
      return (a || b, rest)
    | _ => return (a, rest)

/-- The truth of conditions that all have to hold. -/
def allTruth (tree : FileTree) : (fuel : Nat) → List Bytes → Except String (Bool × List Bytes)
  | 0, _ => .error "too deep"
  | fuel + 1, arguments => do
    let (a, rest) ← turnedTruth tree fuel arguments
    match markOf (rest.drop 1) with
    | .conjunction =>
      let (b, rest) ← allTruth tree fuel (rest.drop 2)
      return (a && b, rest)
    | _ => return (a, rest)

/-- The truth of a condition that may be turned around. -/
def turnedTruth (tree : FileTree) : (fuel : Nat) → List Bytes → Except String (Bool × List Bytes)
  | 0, _ => .error "too deep"
  | fuel + 1, arguments =>
    match markOf arguments with
    | .negation => do
      let rest := if arguments.length > 1 then arguments.drop 1 else arguments
      let (a, rest) ← turnedTruth tree fuel rest
      return (!a, rest)
    | mark => singleTruth tree fuel mark arguments

/-- The truth of a single condition whose first argument is known. -/
def singleTruth (tree : FileTree) :
    (fuel : Nat) → Mark → List Bytes → Except String (Bool × List Bytes)
  | 0, _, _ => .error "too deep"
  | fuel + 1, mark, arguments =>
    match mark, arguments with
    | .finish, rest => return (false, rest)
    | .opening, _ :: inner =>
      match markOf inner with
      | .closing => return (false, inner)
      | _ => do
        let (a, rest) ← someTruth tree fuel inner
        match markOf (rest.drop 1) with
        | .closing => return (a, rest.drop 1)
        | _ => throw "closing paren expected"
    | .unary op, _ :: rest =>
      match rest with
      | [] => throw s!"{op}: argument expected"
      | s :: _ => return (unaryTruth tree op s, rest)
    | _, a :: rest =>
      match rest with
      | op :: rest' =>
        if isBinary op then
          match rest' with
          | [] => throw s!"{textOf op}: argument expected"
          | b :: _ => do
            let truth ← binaryTruth tree (textOf op) a b
            return (truth, rest')
        else return (!a.isEmpty, arguments)
      | [] => return (!a.isEmpty, arguments)
    | _, [] => return (false, [])

end

/-- The truth of a condition, or what is wrong with it. -/
def conditionTruth (tree : FileTree) (arguments : List Bytes) : Except String Bool :=
    let whole (arguments : List Bytes) (operandFirst : Bool) : Except String Bool := do
    let fuel := 8 * arguments.length + 16
    let (truth, rest) ←
      if operandFirst then
        (do
          let (a, rest) ← singleTruth tree fuel .operand arguments
          match markOf (rest.drop 1) with
          | .conjunction =>
            let (b, rest) ← allTruth tree fuel (rest.drop 2)
            return (a && b, rest)
          | _ => return (a, rest))
      else someTruth tree fuel arguments
    match rest with
    | a :: _ :: _ =>
      throw (if a.isEmpty then "unexpected operator" else s!"{textOf a}: unexpected operator")
    | _ => return truth
  let rec go : (fuel : Nat) → List Bytes → Except String Bool
    | 0, _ => .error "too deep"
    | fuel + 1, arguments =>
      let short := arguments.length = 3 || arguments.length = 4
      let isMiddle := match arguments with
        | [_, op, _] => isBinary op
        | _ => false
      if arguments.isEmpty then return false
      else if isMiddle then whole arguments true
      else if short && arguments.head? = some (bytesOf "(") && arguments.getLast? = some (bytesOf ")") then
        whole (arguments.drop 1).dropLast false
      else if short && arguments.head? = some (bytesOf "!") then do
        return !(← go fuel (arguments.drop 1))
      else whole arguments false
  go (arguments.length + 1) arguments

/-- What a program of the system says about a condition that is wrong. -/
def systemComplaint (arguments : List Bytes) (message : String) : String :=
  let cut (s : String) (ending : String) : Option String :=
    if s.endsWith ending then some (String.ofList (s.toList.take (s.length - ending.length))) else none
  match cut message ": argument expected", cut message ": unexpected operator" with
  | some op, _ => s!"missing argument after '{op}'"
  | _, some _ =>
    match arguments with
    | [a, b] =>
      if a.length = 2 && a.head? = some 45 then s!"'{textOf a}': unary operator expected"
      else s!"missing argument after '{textOf b}'"
    | [_, op, _] => s!"'{textOf op}': binary operator expected"
    | _ => s!"extra argument '{textOf ((arguments.drop 1).headD [])}'"
  | _, _ =>
    match Text.dropPattern? "Illegal number: ".toList message.toList with
    | some number => s!"invalid integer '{String.ofList number}'"
    | none => message

/-- The program for conditions, which may have to end with a bracket. -/
def condition (style : Dialect) (name voice : String) : Program := fun call =>
  let complaint (message : String) : Effect := Effect.complains 2 s!"{voice}{name}: {message}"
  let arguments : Option (List Bytes) :=
    if name != "[" then some call.arguments
    else if call.arguments.getLast? = some (bytesOf "]") then some call.arguments.dropLast
    else none
  match arguments with
  | none => complaint (if style = .shell then "missing ]" else "missing ']'")
  | some arguments =>
    let arguments := match style, arguments with
      | .system, [a, [61, 61], b] => [a, [61], b]
      | _, arguments => arguments
    match conditionTruth call.tree arguments with
    | .ok truth => Effect.ends (if truth then 0 else 1)
    | .error message =>
      complaint (if style = .shell then message else systemComplaint arguments message)

end Multipass.Shell
