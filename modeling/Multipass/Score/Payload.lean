import Multipass.Json.Parser
import Multipass.Json.Printer
import Multipass.Store.Error
import Multipass.Text.Blank
import Multipass.Text.Find

/-!
# Score payloads

The scoring pass answers with a JSON object that holds one number for each metric. In free text
the object is looked for in two places: the first fenced block wins if the whole of it is an
object; otherwise the first opening brace from which an object can be read, so that braces in prose
are passed over. Fields beyond the metrics are ignored, and one bad field refuses the whole payload.
-/

namespace Multipass

open Number Text

/-- The value of one metric. -/
structure Score where
  metric : String
  value : Double
  deriving DecidableEq, Repr

/-- Why there are no scores. -/
inductive ScoreError where
  | missingScoringResult (pass : String)
  | invalidJson (reason : String)
  | missingField (field : String)
  | notNumeric (field value : String)
  | store (error : StoreError)
  deriving DecidableEq, Repr

/-- The words for missing scores. -/
def ScoreError.message : ScoreError → String
  | .missingScoringResult pass => s!"no result recorded for scoring pass '{pass}'"
  | .invalidJson reason => s!"scoring payload is not a JSON object: {reason}"
  | .missingField field => s!"scoring payload is missing required field '{field}'"
  | .notNumeric field value => s!"scoring field '{field}' is not numeric: {value}"
  | .store error => error.message

namespace Score

/-- The mark that opens and closes a fenced block. -/
def fence : List Char := ['`', '`', '`']

/-- The body of the first fenced block, behind the line of the fence. -/
def fencedBlock? (text : List Char) : Option (List Char) :=
  match splitAt? fence text with
  | none => none
  | some (_, after) =>
    match splitAt? ['\n'] after with
    | none => none
    | some (_, body) => (splitAt? fence body).map Prod.fst

/-- The object that the first fenced block is. -/
def fencedObject? (text : List Char) : Option Json :=
  match fencedBlock? text with
  | none => none
  | some body =>
    match Json.whole (trimChars body) with
    | .ok (.obj fields) => some (.obj fields)
    | _ => none

/-- The words for a fault in the last text that was tried. -/
def lastFault : Option (List Char × Json.Fault) → String
  | none => "no JSON object found"
  | some (text, fault) => fault.message (String.ofList text)

/-- The first object that can be read from an opening brace of a text; `last` is what was wrong
with the last brace before. -/
def firstObject (last : Option (List Char × Json.Fault)) :
    List Char → Except ScoreError Json
  | [] => .error (.invalidJson (lastFault last))
  | c :: text =>
    if c = '\x7b' then
      match Json.first (c :: text) with
      | .ok (.obj fields, _) => .ok (.obj fields)
      | .ok _ => firstObject last text
      | .error fault => firstObject (some (c :: text, fault)) text
    else firstObject last text

/-- The object in a free text. -/
def extractObject (text : String) : Except ScoreError Json :=
  match fencedObject? text.toList with
  | some j => .ok j
  | none => firstObject none text.toList

/-- The number of one metric among the fields of a payload. -/
def read (fields : List (String × Json)) (metric : String) : Except ScoreError Score :=
  match Json.lookup metric fields with
  | none => .error (.missingField metric)
  | some j =>
    match j.number? with
    | some value => .ok ⟨metric, value⟩
    | none => .error (.notNumeric metric j.compact)

/-- The number of each metric, in the order of the metrics. -/
def readAll (fields : List (String × Json)) : List String → Except ScoreError (List Score)
  | [] => .ok []
  | metric :: metrics =>
    match read fields metric with
    | .error e => .error e
    | .ok score =>
      match readAll fields metrics with
      | .error e => .error e
      | .ok scores => .ok (score :: scores)

/-- The scores of a payload. -/
def ofPayload (payload : Json) (metrics : List String) : Except ScoreError (List Score) :=
  match payload with
  | .obj fields => readAll fields metrics
  | _ => .error (.invalidJson "payload is not an object")

end Score

end Multipass
