import Multipass.Config.Basic
import Multipass.Files.Path
import Multipass.PassResult
import Multipass.Record

/-!
# Invocation contexts

What a backend may know of one record for one pass: the inputs the pass asks for, and nothing
else. Earlier results stand under a heading each, in the order they were stored.
-/

namespace Multipass

/-- The inputs of one invocation; those that were not asked for are absent. -/
structure InvocationContext where
  runId : String
  path : String
  /-- The file of the artifact. -/
  file : String
  language : Option String
  source : Option String
  parsed : Option String
  previous : Option String
  deriving DecidableEq, Repr

namespace InvocationContext

/-- The line between two parts of a text. -/
def gap : String := "\n\n"

/-- One earlier result under its heading. -/
def excerpt (r : PassResult) : String :=
  s!"### {r.pass}\n{r.output.asText}"

/-- Earlier results, each under its heading. -/
def excerpts (prior : List PassResult) : String :=
  gap.intercalate (prior.map excerpt)

/-- The context of a record for the inputs a pass asks for. -/
def build (runId : String) (record : Record) (requires : Requires) (prior : List PassResult)
    (root : String) : InvocationContext where
  runId := runId
  path := record.path
  file := Path.join root record.path
  language := record.language
  source :=
    match requires with
    | .raw | .both => some record.source
    | _ => none
  parsed :=
    match requires with
    | .parsed | .both => some record.parsed.pretty
    | _ => none
  previous :=
    match requires with
    | .previousResults => some (excerpts prior)
    | _ => none

/-- An input under its title. -/
def titled (title : String) : Option String → List String
  | some s => [s!"{title}:\n{s}"]
  | none => []

/-- All inputs in one text, in a fixed order. -/
def combined (ctx : InvocationContext) : String :=
  gap.intercalate
    (titled "Source" ctx.source ++ titled "Parsed structure" ctx.parsed
      ++ titled "Previous analysis" ctx.previous)

end InvocationContext

end Multipass
