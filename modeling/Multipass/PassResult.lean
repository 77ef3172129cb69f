import Multipass.Calendar
import Multipass.Json.Printer
import Multipass.Json.Shape

/-!
# Results of passes

What one successful run of a pass leaves: text or findings, the input that led to it, the tokens
it took. Two columns hold an output, its kind and its body. Findings are written in compact form,
and a body under that kind that is no JSON is read as text.
-/

namespace Multipass

/-- The tokens that a completion took. -/
structure Usage where
  model : String := ""
  promptTokens : Nat := 0
  completionTokens : Nat := 0
  totalTokens : Nat := 0
  deriving DecidableEq, Repr, Inhabited

/-- What a pass yields. -/
inductive PassOutput where
  | text (s : String)
  | findings (j : Json)
  deriving Repr, Inhabited

/-- The result of one pass on one record. -/
structure PassResult where
  pass : String
  /-- The prompt of a completion, or the command line of a tool. -/
  input : String
  output : PassOutput
  usage : Option Usage
  durationMillis : Nat
  createdAt : Timestamp
  deriving Repr, Inhabited

namespace PassOutput

/-- The word for the kind of an output. -/
def kind : PassOutput → String
  | .text _ => "text"
  | .findings _ => "findings"

/-- The column that holds the body of an output. -/
def body : PassOutput → String
  | .text s => s
  | .findings j => j.compact

/-- An output as text for later passes. -/
def asText : PassOutput → String
  | .text s => s
  | .findings j => j.pretty

/-- The output of its two columns. -/
def ofColumns (kind body : String) : PassOutput :=
  if kind = "findings" then
    match Json.parse body with
    | .ok j => .findings j
    | .error _ => .text body
  else .text body

/-- An output as a JSON value, with its kind. -/
def toJson : PassOutput → Json
  | .text s => .obj [("kind", .str "text"), ("value", .str s)]
  | .findings j => .obj [("kind", .str "findings"), ("value", j)]

end PassOutput

namespace Usage

/-- A usage as a JSON value, its fields in order. -/
def toJson (u : Usage) : Json :=
  .obj [("model", .str u.model), ("prompt_tokens", .nat u.promptTokens),
    ("completion_tokens", .nat u.completionTokens), ("total_tokens", .nat u.totalTokens)]

/-- A usage in compact form. -/
def column (u : Usage) : String :=
  u.toJson.compact

/-- A text among the fields of a usage. -/
def textField : Json.Reader Json := fun s => do
  let (text, rest) ← Json.textValue s
  .ok (.str text, rest)

/-- A count among the fields of a usage. -/
def countField : Json.Reader Json := fun s => do
  let (n, rest) ← Json.countValue s
  .ok (.nat n, rest)

/-- The shape of a usage. -/
def shape : Shape where
  title := "struct Usage"
  fields := [("model", textField), ("prompt_tokens", countField),
    ("completion_tokens", countField), ("total_tokens", countField)]

/-- The usage of the values of its fields. -/
def ofValues : List Json → Usage
  | [model, prompt, completion, total] => {
      model := model.str?.getD ""
      promptTokens := prompt.nat?.getD 0
      completionTokens := completion.nat?.getD 0
      totalTokens := total.nat?.getD 0 }
  | _ => {}

/-- The usage of its column, or what is wrong with it. -/
def ofColumn (s : String) : Except String Usage :=
  (Json.parseAs shape.read s).map ofValues

end Usage

/-- A result as a JSON value, its fields in order. -/
def PassResult.toJson (r : PassResult) : Json :=
  .obj [("pass_name", .str r.pass), ("input", .str r.input), ("output", r.output.toJson),
    ("usage", (r.usage.map Usage.toJson).getD .null), ("duration_ms", .nat r.durationMillis),
    ("created_at", .int r.createdAt)]

end Multipass
