import Multipass.Completion.Basic

/-!
# Exchanges with a completion service

A request goes out as a JSON object. A service that is not reached, that asks to come back later,
or that is out of order is asked again, after waits that double up to 32 seconds; any other
reaction settles the matter.
-/

namespace Multipass

/-- How a service reacts to a request. -/
inductive Reaction where
  /-- It was not reached. -/
  | unreached (reason : String)
  | response (status : Nat) (body : String)
  deriving DecidableEq, Repr

/-- A service within a shared state: one exchange, and a wait of some seconds. -/
structure Service (ω : Type) where
  post : Json → ω → Reaction × ω
  wait : Nat → ω → ω

namespace Exchange

/-! ### The request -/

/-- A message of a conversation. -/
def message (role content : String) : Json :=
  .obj [("content", .str content), ("role", .str role)]

/-- The body of a request. -/
def requestBody (r : CompletionRequest) : Json :=
  let system := (r.system.map fun s => message "system" s).toList
  .obj [("max_tokens", .nat r.maxTokens),
    ("messages", .arr (system ++ [message "user" r.prompt])),
    ("model", .str r.model),
    ("temperature", .float (r.temperature.convert .double))]

/-! ### The answer -/

/-- A number among the tokens that were taken. -/
def tokenCount (answer : Json) (field : String) : Nat :=
  (((answer.field? "usage").bind fun u => u.field? field).bind Json.nat?).getD 0

/-- The first item of an array, or the field of an object that is named like its place. -/
def firstItem (choices : Json) : Option Json :=
  match choices with
  | .obj _ => choices.field? "0"
  | choices => choices.item? 0

/-- The text of the first choice. -/
def choiceText (answer : Json) : Option String := do
  let choices ← answer.field? "choices"
  let first ← firstItem choices
  let message ← first.field? "message"
  let content ← message.field? "content"
  content.str?

/-- The completion in an answer; an answer that names no model is that of the model asked. -/
def completion (model : String) (answer : Json) : Except BackendError Completion :=
  match choiceText answer with
  | none =>
    .error (.invocation Completion.name
      "malformed response: missing choices[0].message.content")
  | some text =>
    .ok {
      text
      usage := {
        model := ((answer.field? "model").bind Json.str?).getD model
        promptTokens := tokenCount answer "prompt_tokens"
        completionTokens := tokenCount answer "completion_tokens"
        totalTokens := tokenCount answer "total_tokens" } }

/-! ### Reactions -/

/-- The standard words for a status. -/
def statusPhrase : Nat → String
  | 100 => "Continue" | 101 => "Switching Protocols" | 102 => "Processing"
  | 200 => "OK" | 201 => "Created" | 202 => "Accepted"
  | 203 => "Non Authoritative Information" | 204 => "No Content" | 205 => "Reset Content"
  | 206 => "Partial Content" | 207 => "Multi-Status" | 208 => "Already Reported" | 226 => "IM Used"
  | 300 => "Multiple Choices" | 301 => "Moved Permanently" | 302 => "Found" | 303 => "See Other"
  | 304 => "Not Modified" | 305 => "Use Proxy" | 307 => "Temporary Redirect"
  | 308 => "Permanent Redirect"
  | 400 => "Bad Request" | 401 => "Unauthorized" | 402 => "Payment Required"
  | 403 => "Forbidden" | 404 => "Not Found" | 405 => "Method Not Allowed"
  | 406 => "Not Acceptable" | 407 => "Proxy Authentication Required" | 408 => "Request Timeout"
  | 409 => "Conflict" | 410 => "Gone" | 411 => "Length Required" | 412 => "Precondition Failed"
  | 413 => "Payload Too Large" | 414 => "URI Too Long" | 415 => "Unsupported Media Type"
  | 416 => "Range Not Satisfiable" | 417 => "Expectation Failed" | 418 => "I'm a teapot"
  | 421 => "Misdirected Request" | 422 => "Unprocessable Entity" | 423 => "Locked"
  | 424 => "Failed Dependency" | 425 => "Too Early" | 426 => "Upgrade Required"
  | 428 => "Precondition Required" | 429 => "Too Many Requests"
  | 431 => "Request Header Fields Too Large" | 451 => "Unavailable For Legal Reasons"
  | 500 => "Internal Server Error" | 501 => "Not Implemented" | 502 => "Bad Gateway"
  | 503 => "Service Unavailable" | 504 => "Gateway Timeout" | 505 => "HTTP Version Not Supported"
  | 506 => "Variant Also Negotiates" | 507 => "Insufficient Storage" | 508 => "Loop Detected"
  | 510 => "Not Extended" | 511 => "Network Authentication Required"
  | _ => "<unknown status code>"

/-- What a reaction means. -/
inductive Verdict where
  | settled (answer : Except BackendError Completion)
  /-- It is worth asking again; if not, this is the error. -/
  | again (error : BackendError)

/-- Holds of a status that means success. -/
def isSuccess (status : Nat) : Bool :=
  status / 100 == 2

/-- Holds of a status after which it is worth asking again. -/
def isPassing (status : Nat) : Bool :=
  status == 429 || status / 100 == 5

/-- What a reaction means to the one who asked for a model. -/
def judge (model : String) : Reaction → Verdict
  | .unreached reason => .again (.invocation Completion.name reason)
  | .response status body =>
    if isSuccess status then
      match Json.parse body with
      | .ok answer => .settled (completion model answer)
      | .error _ =>
        .settled (.error (.invocation Completion.name
          "malformed response: error decoding response body"))
    else
      let error := BackendError.invocation Completion.name
        s!"API error {status} {statusPhrase status}: {body}"
      if isPassing status then .again error else .settled (.error error)

/-- The seconds to wait before asking again for the `i`-th time, counted from zero. -/
def delay (i : Nat) : Nat :=
  Nat.pow 2 (min i 5)

/-- Asks, and asks again up to `retries` times; `i` times were asked again before. -/
def askFrom {ω : Type} (service : Service ω) (body : Json) (model : String) :
    (retries i : Nat) → ω → Except BackendError Completion × ω
  | 0, _, world =>
    match service.post body world with
    | (reaction, world) =>
      match judge model reaction with
      | .settled answer => (answer, world)
      | .again error => (.error error, world)
  | retries + 1, i, world =>
    match service.post body world with
    | (reaction, world) =>
      match judge model reaction with
      | .settled answer => (answer, world)
      | .again _ => askFrom service body model retries (i + 1) (service.wait (delay i) world)

/-- The client of a service that asks again up to `retries` times. -/
def client {ω : Type} (service : Service ω) (retries : Nat) : Client ω := fun request world =>
  askFrom service (requestBody request) request.model retries 0 world

end Exchange

end Multipass
