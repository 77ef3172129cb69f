import Multipass.Json.Printer
import Multipass.Number.Decimal
import Multipass.Text.Pad

/-!
# Progress

What is told of a batch while it runs, one line to an event: in words, as a JSON object, or not at
all.
-/

namespace Multipass

/-- An event of a batch. -/
inductive ProgressEvent where
  /-- Records were selected. -/
  | started (runId : String) (total : Nat)
  /-- The `n`-th of `total` records is done, with its completed and failed passes. -/
  | finished (path : String) (n total completed failed : Nat)
  /-- A record is held by another worker. -/
  | busy (path : String)
  deriving DecidableEq, Repr

/-- How events are told. -/
inductive ProgressMode where
  | off
  | human
  | json
  deriving DecidableEq, Repr

namespace ProgressEvent

open Number

/-- An event in words. -/
def sentence : ProgressEvent → String
  | .started runId total => s!"run {runId}  {grouped total} pending records"
  | .finished path n total completed failed =>
    let failures := if failed = 0 then "" else s!", {failed} failed"
    s!"run  {grouped n} / {grouped total}  {path}  {completed} completed{failures}"
  | .busy path => s!"run  {path}  busy, skipped"

/-- An event as an object. -/
def toJson : ProgressEvent → Json
  | .started runId total =>
    .obj [("event", .str "started"), ("run_id", .str runId), ("total", .nat total)]
  | .finished path n total completed failed =>
    .obj [("artifact", .str path), ("completed", .nat completed), ("event", .str "record"),
      ("failed", .nat failed), ("n", .nat n), ("total", .nat total)]
  | .busy path => .obj [("artifact", .str path), ("event", .str "busy")]

/-- The lines for an event. -/
def lines (mode : ProgressMode) (event : ProgressEvent) : List String :=
  match mode with
  | .off => []
  | .human => [event.sentence]
  | .json => [event.toJson.compact]

/-- The text for some events. -/
def text (mode : ProgressMode) (events : List ProgressEvent) : String :=
  Text.lines (events.flatMap (lines mode))

end ProgressEvent

end Multipass
