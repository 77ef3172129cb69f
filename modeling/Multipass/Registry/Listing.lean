import Multipass.Registry
import Multipass.Text.Pad

/-!
# Listing of passes

The table of a pipeline, a line to a pass.
-/

namespace Multipass

open Text

/-- The word for the input of a pass, as the table shows it. -/
def Requires.listed : Requires → String
  | .raw => "raw"
  | .parsed => "parsed"
  | .both => "both"
  | .previousResults => "previousresults"

/-- What the table says about a backend. -/
def BackendSpec.details : BackendSpec → String
  | .ai p => s!"model={p.model} max_tokens={p.maxTokens}"
  | .staticTool p =>
    let args := " ".intercalate p.args
    s!"{p.command} {args} (timeout {p.timeoutSeconds}s)"
  | .none => "placeholder"

namespace PassRegistry

/-- A line of the table. -/
def row (number pass backend requires details : String) : String :=
  s!"{padRight 4 number} {padRight 24 pass} {padRight 12 backend} {padRight 18 requires} {details}"

/-- The line of a pass. -/
def passRow (r : PassRegistry) (d : PassDefinition) : String :=
  let marker := if r.isScoringPass d.name then " [scoring]" else ""
  row (toString (d.position + 1)) d.name d.backend.label d.requires.listed
    (d.backend.details ++ marker)

/-- The table of a pipeline. -/
def listing (r : PassRegistry) : String :=
  lines (row "#" "PASS" "BACKEND" "REQUIRES" "DETAILS" :: r.definitions.map r.passRow)

end PassRegistry

/-- The listing of a configuration; without an order there is nothing to list. -/
def Config.listing (cfg : Config) : Except ConfigurationError String :=
  match PassRegistry.ofConfig cfg with
  | .ok r => .ok r.listing
  | .error .emptyPassOrder =>
    .ok (lines ["No passes configured. Add [pipeline].order to the config."])
  | .error e => .error e

end Multipass
