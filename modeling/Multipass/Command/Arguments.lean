import Multipass.Command.Basic

/-!
# Command lines

A command line names a command, which has flags, options with a value, and places of its own. The
option for the configuration may stand anywhere. An option is given once; two hyphens end the
options; a value of its own does not start with a hyphen, but one behind an equals sign may.
-/

namespace Multipass.Arguments

/-- What a command line asks for. -/
inductive Request where
  | command (config : String) (c : Command)
  | version
  | help
  deriving DecidableEq, Repr

/-- The file of the configuration, unless another is named. -/
def defaultConfig : String := "./config/passline.toml"

/-- The option that names the file of the configuration. -/
def configOption : String := "--config"

/-- Arguments, sorted. -/
structure Sorted where
  flags : List String := []
  options : List (String × String) := []
  places : List String := []
  deriving DecidableEq, Repr

/-- The flags and options that a command takes, and the number of its places. -/
structure Grammar where
  flags : List String := []
  options : List String := []
  places : Nat := 0

/-- How reading arguments ends. -/
inductive Outcome where
  | sorted (s : Sorted)
  | help
  | refused
  deriving DecidableEq, Repr

/-- Holds of an argument that is taken for a flag or an option. -/
def isFlagLike (a : String) : Bool :=
  a.toList.head? == some '-' && a != "-"

/-- Holds of short flags behind one hyphen of which the first is `letter`. -/
def startsWithFlag (letter : Char) (a : String) : Bool :=
  match a.toList with
  | '-' :: c :: _ => c == letter
  | _ => false

/-- An argument as the name of an option and the value behind its equals sign. -/
def nameAndValue (a : String) : String × Option String :=
  match Text.splitAt? ['='] a.toList with
  | some (name, value) => (String.ofList name, some (String.ofList value))
  | none => (a, none)

/-- Sets an option, if it was not set before and the value will do. -/
def Sorted.setOption (s : Sorted) (name value : String) : Option Sorted :=
  if (s.options.lookup name).isSome || (name == configOption && value.isEmpty) then none
  else some { s with options := (name, value) :: s.options }

/-- Sorts the arguments of a command. -/
def sort (g : Grammar) (s : Sorted) : List String → Outcome
  | [] => if s.places.length = g.places then .sorted s else .refused
  | "--" :: rest =>
    if s.places.length + rest.length = g.places then
      .sorted { s with places := s.places ++ rest }
    else .refused
  | a :: rest =>
    if a == "--help" || startsWithFlag 'h' a then .help
    else if isFlagLike a then
      let (name, value) := nameAndValue a
      if g.flags.contains name then
        if value.isSome || s.flags.contains name then .refused
        else sort g { s with flags := name :: s.flags } rest
      else if g.options.contains name || name == configOption then
        match value, rest with
        | some value, rest =>
          match s.setOption name value with
          | some s => sort g s rest
          | none => .refused
        | none, value :: rest =>
          if isFlagLike value then .refused
          else
            match s.setOption name value with
            | some s => sort g s rest
            | none => .refused
        | none, [] => .refused
      else .refused
    else if s.places.length < g.places then sort g { s with places := s.places ++ [a] } rest
    else .refused

/-- A number of 64 bits, a plus sign allowed. -/
def count? (s : String) : Option Nat :=
  let digits := match s.toList with
    | '+' :: rest => rest
    | cs => cs
  if digits.isEmpty || !digits.all Char.isDigit then none
  else
    match (String.ofList digits).toNat? with
    | some n => if n < 0x10000000000000000 then some n else none
    | none => none

/-- The names of ways to tell of a batch. -/
def progressModes : List (String × ProgressMode) :=
  [("off", .off), ("human", .human), ("json", .json)]

/-- The value of an option, if it is given; nothing at all if it is given and will not do. -/
def optionValue {α : Type} (s : Sorted) (name : String) (read : String → Option α) :
    Option (Option α) :=
  match s.options.lookup name with
  | none => some none
  | some value => (read value).map some

/-- The grammar of a command by its name. -/
def grammar? (name : String) : Option Grammar :=
  match name with
  | "init" | "passes" | "status" => some {}
  | "ingest" => some { flags := ["--dry-run"] }
  | "run" => some {
      flags := ["--dry-run", "--json"]
      options := ["--concurrency", "--limit", "--progress"] }
  | "show" => some { flags := ["--json"], places := 1 }
  | "forget" => some { places := 1 }
  | _ => none

/-- The command of a name and its sorted arguments. -/
def command? (name : String) (s : Sorted) : Option Command := do
  let path := s.places.headD ""
  match name with
  | "init" => return .prepare
  | "passes" => return .passes
  | "status" => return .status
  | "ingest" => return .ingest (s.flags.contains "--dry-run")
  | "run" => return .run {
      dryRun := s.flags.contains "--dry-run"
      concurrency := ← optionValue s "--concurrency" count?
      limit := ← optionValue s "--limit" count?
      progress := ← optionValue s "--progress" fun name => progressModes.lookup name
      json := s.flags.contains "--json" }
  | "show" => return .detail path (s.flags.contains "--json")
  | "forget" => return .forget path
  | _ => none

/-- The request behind the name of a command, given the configuration named before it. -/
def requestOf? (config : Option String) (name : String) (rest : List String) : Option Request :=
  if name == "help" then
    match rest with
    | [] => some .help
    | [other] => if (grammar? other).isSome || other == "help" then some .help else none
    | _ => none
  else
    match grammar? name with
    | none => none
    | some g =>
      match sort g {} rest with
      | .refused => none
      | .help => some .help
      | .sorted s =>
        let file := (s.options.lookup configOption).getD (config.getD defaultConfig)
        (command? name s).map fun c => .command file c

/-- The request of a command line, given the configuration named so far; none if it is refused. -/
def requestFrom? (config : Option String) : List String → Option Request
  | [] => none
  | a :: rest =>
    if a == "--help" || startsWithFlag 'h' a then some .help
    else if a == "--version" || startsWithFlag 'V' a then some .version
    else if isFlagLike a then
      let (name, value) := nameAndValue a
      if name != configOption || config.isSome then none
      else
        match value, rest with
        | some value, rest => if value.isEmpty then none else requestFrom? (some value) rest
        | none, value :: rest =>
          if isFlagLike value || value.isEmpty then none else requestFrom? (some value) rest
        | none, [] => none
    else requestOf? config a rest

/-- The request of a command line; none if it is refused. -/
def request? (arguments : List String) : Option Request :=
  requestFrom? none arguments

end Multipass.Arguments
