import Mathlib.Data.ENat.Lattice
import Multipass.Completion.Exchange
import Multipass.Proofs.Json.Path

/-!
# Requests that are repeated

A client asks until a reaction settles the matter or it may not ask again. Which reactions a service
gives is read off its course: the states in which it finds itself if it is asked again and again.
What the client does is the beginning of that course, and what it returns comes of the last reaction:
an error, or what the answer tells at the paths of its text, its model and its counts.

Main statements: `means_iff` for one reaction, `client_eq`, which cuts the course of any service at
its end, and `client_of_reactions` for every sequence of reactions.
-/

namespace Multipass

/-- Holds of a reaction that settles the matter: the service was reached, it does not ask to come
back later, and it is not out of order. -/
def Reaction.Settles : Reaction → Prop
  | .unreached _ => False
  | .response status _ => status ≠ 429 ∧ ¬(500 ≤ status ∧ status < 600)

namespace Exchange

/-! ### What reactions mean -/

/-- Holds of what an answer gives at a path, and of a value in its place if it gives none. -/
def Gives {α : Type} (answer : Json) (path : List String) (form : α → Json) (instead a : α) : Prop :=
  answer.At path (form a) ∨ a = instead ∧ ∀ b, ¬answer.At path (form b)

/-- The path of the text in an answer. -/
def textPath : List String :=
  ["choices", "0", "message", "content"]

/-- Holds of an answer to a request for a model and of the completion that it tells. -/
structure Tells (asked : String) (answer : Json) (c : Completion) : Prop where
  text : answer.At textPath (.str c.text)
  model : Gives answer ["model"] .str asked c.usage.model
  prompt : Gives answer ["usage", "prompt_tokens"] .nat 0 c.usage.promptTokens
  completion : Gives answer ["usage", "completion_tokens"] .nat 0 c.usage.completionTokens
  total : Gives answer ["usage", "total_tokens"] .nat 0 c.usage.totalTokens

/-- Holds of a reaction to a request for a model, and of what comes of it if it is the last one. -/
inductive Means (asked : String) : Reaction → Except BackendError Completion → Prop where
  | unreached {reason} :
    Means asked (.unreached reason) (.error (.invocation "ai" reason))
  | refused {status body} :
    ¬(200 ≤ status ∧ status < 300) →
    Means asked (.response status body)
      (.error (.invocation "ai" s!"API error {status} {statusPhrase status}: {body}"))
  | malformed {status body} :
    200 ≤ status ∧ status < 300 →
    (∀ answer, Json.parse body ≠ .ok answer) →
    Means asked (.response status body)
      (.error (.invocation "ai" "malformed response: error decoding response body"))
  | textless {status body answer} :
    200 ≤ status ∧ status < 300 →
    Json.parse body = .ok answer →
    (∀ text, ¬answer.At textPath (.str text)) →
    Means asked (.response status body)
      (.error (.invocation "ai" "malformed response: missing choices[0].message.content"))
  | completed {status body answer c} :
    200 ≤ status ∧ status < 300 →
    Json.parse body = .ok answer →
    Tells asked answer c →
    Means asked (.response status body) (.ok c)

/-- What comes of a reaction that is the last one, whether it is worth asking again or not. -/
def Verdict.result : Verdict → Except BackendError Completion
  | .settled answer => answer
  | .again error => .error error

/-! ### Looking into an answer -/

section

variable {answer j k : Json} {path : List String}

lemma str?_iff {text : String} : j.str? = some text ↔ j = .str text := by
  cases j <;> simp [Json.str?]

lemma nat?_iff {n : Nat} : j.nat? = some n ↔ j = .nat n := by
  cases j with
  | int i =>
    rw [Json.nat?, Json.nat, Json.int.injEq]
    split
    · rw [Option.some.injEq]
      omega
    · simp only [reduceCtorEq, false_iff]
      omega
  | _ => simp [Json.nat?, Json.nat]

/-- What stands behind `0` stands in the first item. -/
lemma first_iff (ordered : j.Ordered) :
    j.At ("0" :: path) k ↔ ∃ l, firstItem j = some l ∧ l.At path k := by
  constructor
  · intro stands
    cases stands with
    | field mem stands =>
      cases ordered with
      | obj ascending _ => exact ⟨_, (Json.mem_iff_lookup ascending).1 mem, stands⟩
    | first stands => exact ⟨_, rfl, stands⟩
  · rintro ⟨l, found, stands⟩
    cases ordered with
    | obj ascending _ => exact .field ((Json.mem_iff_lookup ascending).2 found) stands
    | @arr js _ =>
      cases js with
      | nil => cases found
      | cons =>
        cases found
        exact .first stands
    | _ => cases found

lemma ordered_of_firstItem (ordered : j.Ordered) (found : firstItem j = some k) : k.Ordered := by
  cases ordered with
  | obj ascending each => exact (Json.Ordered.obj ascending each).of_field? found
  | @arr js each =>
    cases js with
    | nil => cases found
    | cons =>
      cases found
      exact each _ List.mem_cons_self
  | _ => cases found

/-- What stands at the end of two keys. -/
lemma inner_iff {outer inner : String} (ordered : answer.Ordered) (name : outer ≠ "0")
    (name' : inner ≠ "0") :
    answer.At [outer, inner] k ↔ ((answer.field? outer).bind fun u => u.field? inner) = some k := by
  rw [Json.At.field_iff ordered name, Option.bind_eq_some_iff]
  refine exists_congr fun u => and_congr_right fun found => ?_
  rw [Json.At.field_iff (ordered.of_field? found) name']
  simp only [Json.At.end_iff, exists_eq_right]

lemma choiceText_iff {text : String} (ordered : answer.Ordered) :
    choiceText answer = some text ↔ answer.At textPath (.str text) := by
  simp only [choiceText, Option.bind_eq_bind, Option.bind_eq_some_iff, str?_iff]
  rw [textPath, Json.At.field_iff ordered (by decide)]
  refine exists_congr fun choices => and_congr_right fun found => ?_
  have ordered := ordered.of_field? found
  rw [first_iff ordered]
  refine exists_congr fun first => and_congr_right fun found => ?_
  have ordered := ordered_of_firstItem ordered found
  rw [inner_iff ordered (by decide) (by decide), Option.bind_eq_some_iff]
  simp only [exists_eq_right]

/-- What is looked up at a path, or else is put in its place, is what the answer gives. -/
lemma gives_iff {α : Type} {form : α → Json} {instead a : α} {found : Option α}
    (finds : ∀ b, found = some b ↔ answer.At path (form b)) :
    Gives answer path form instead a ↔ found.getD instead = a := by
  simp only [Gives, ← finds]
  cases found with
  | none => simp [eq_comm]
  | some b => simp

lemma tokenCount_iff {field : String} {n : Nat} (ordered : answer.Ordered) (name : field ≠ "0") :
    Gives answer ["usage", field] .nat 0 n ↔ tokenCount answer field = n := by
  refine gives_iff fun m => ?_
  rw [inner_iff ordered (by decide) name, Option.bind_eq_some_iff]
  simp only [nat?_iff, exists_eq_right]

/-- The completion in an answer is the one that it tells. -/
theorem completion_iff {asked : String} {c : Completion} (ordered : answer.Ordered) :
    completion asked answer = .ok c ↔ Tells asked answer c := by
  have model : Gives answer ["model"] .str asked c.usage.model ↔
      ((answer.field? "model").bind Json.str?).getD asked = c.usage.model := by
    refine gives_iff fun name => ?_
    rw [Json.At.field_iff ordered (by decide), Option.bind_eq_some_iff]
    simp only [str?_iff, Json.At.end_iff]
  have counts (field : String) (name : field ≠ "0") (n : Nat) :=
    tokenCount_iff (n := n) ordered name
  constructor
  · intro read
    unfold completion at read
    split at read
    · cases read
    · next text found =>
      cases read
      exact ⟨(choiceText_iff ordered).1 found, model.2 rfl, (counts _ (by decide) _).2 rfl,
        (counts _ (by decide) _).2 rfl, (counts _ (by decide) _).2 rfl⟩
  · intro tells
    simp only [completion, (choiceText_iff ordered).2 tells.text, model.1 tells.model,
      (counts _ (by decide) _).1 tells.prompt, (counts _ (by decide) _).1 tells.completion,
      (counts _ (by decide) _).1 tells.total]

lemma completion_of_textless (asked : String) (ordered : answer.Ordered)
    (none : ∀ text, ¬answer.At textPath (.str text)) :
    completion asked answer =
      .error (.invocation "ai" "malformed response: missing choices[0].message.content") := by
  unfold completion
  split
  · rfl
  · next text found => exact absurd ((choiceText_iff ordered).1 found) (none text)

end

/-! ### Single reactions -/

section

variable {reaction : Reaction}

lemma isSuccess_iff {status : Nat} : isSuccess status = true ↔ 200 ≤ status ∧ status < 300 := by
  simp only [isSuccess, beq_iff_eq]
  omega

lemma isPassing_iff {status : Nat} :
    isPassing status = true ↔ status = 429 ∨ 500 ≤ status ∧ status < 600 := by
  simp only [isPassing, Bool.or_eq_true, beq_iff_eq]
  omega

/-- A success is not worth another request, whatever its body. -/
lemma settles_of_success {status : Nat} (success : 200 ≤ status ∧ status < 300) (body : String) :
    (Reaction.response status body).Settles :=
  ⟨by omega, by omega⟩

lemma judge_of_settles (model : String) (settles : reaction.Settles) :
    ∃ result, judge model reaction = .settled result := by
  cases reaction with
  | unreached reason => exact settles.elim
  | response status body =>
    obtain ⟨later, order⟩ := settles
    have passing : isPassing status = false :=
      Bool.eq_false_iff.2 fun h => (isPassing_iff.1 h).elim later order
    simp only [judge, passing]
    split
    · split
      · exact ⟨_, rfl⟩
      · exact ⟨_, rfl⟩
    · exact ⟨_, rfl⟩

lemma judge_of_not_settles (model : String) (passing : ¬ reaction.Settles) :
    ∃ error, judge model reaction = .again error := by
  cases reaction with
  | unreached reason => exact ⟨_, rfl⟩
  | response status body =>
    have failure : ¬(200 ≤ status ∧ status < 300) :=
      fun success => passing (settles_of_success success body)
    have passing : isPassing status = true := by
      rw [isPassing_iff]
      by_contra other
      obtain ⟨later, order⟩ := not_or.1 other
      exact passing ⟨later, order⟩
    simp only [judge, isSuccess_iff, failure, passing, if_true, if_false]
    exact ⟨_, rfl⟩

/-- A success with a JSON body means the completion that is read of it, or that there is no text. -/
lemma means_completion {asked body : String} {status : Nat} {answer : Json}
    (success : 200 ≤ status ∧ status < 300) (parsed : Json.parse body = .ok answer) :
    Means asked (.response status body) (completion asked answer) := by
  have ordered := Json.ordered_of_parse parsed
  by_cases told : ∃ text, answer.At textPath (.str text)
  · obtain ⟨text, told⟩ := told
    cases read : completion asked answer with
    | ok c => exact .completed success parsed ((completion_iff ordered).1 read)
    | error e =>
      simp only [completion, (choiceText_iff ordered).2 told, reduceCtorEq] at read
  · have none := not_exists.1 told
    rw [completion_of_textless asked ordered none]
    exact .textless success parsed none

/-- A reaction means what its verdict results in, and nothing else. -/
theorem means_iff {asked : String} {result : Except BackendError Completion} :
    Means asked reaction result ↔ (judge asked reaction).result = result := by
  constructor
  · intro means
    cases means with
    | unreached => rfl
    | refused failure =>
      simp only [judge, isSuccess_iff, failure, if_false]
      split <;> rfl
    | @malformed status body success none =>
      simp only [judge, isSuccess_iff, success, and_self, if_true]
      split
      · next answer parsed => exact absurd parsed (none answer)
      · rfl
    | textless success parsed none =>
      simp only [judge, isSuccess_iff, success, and_self, if_true, parsed]
      exact completion_of_textless asked (Json.ordered_of_parse parsed) none
    | completed success parsed tells =>
      simp only [judge, isSuccess_iff, success, and_self, if_true, parsed]
      exact (completion_iff (Json.ordered_of_parse parsed)).2 tells
  · rintro rfl
    cases reaction with
    | unreached reason => exact .unreached
    | response status body =>
      simp only [judge, isSuccess_iff]
      split
      · next success =>
        split
        · next answer parsed => exact means_completion success parsed
        · next parsed =>
          refine .malformed success fun answer parsed' => ?_
          rw [parsed] at parsed'
          cases parsed'
      · next failure =>
        split
        · exact .refused failure
        · exact .refused failure

end

/-! ### The course of a service -/

section

variable {ω : Type} (service : Service ω) (body : Json) (world : ω)

/-- The state of a service behind some requests and the waits that follow them. -/
def worldAt : Nat → ω
  | 0 => world
  | i + 1 => service.wait (2 ^ min i 5) (service.post body (worldAt i)).2

/-- The reaction to each request. -/
def reactions (i : Nat) : Reaction :=
  (service.post body (worldAt service body world i)).1

variable {service body world}

/-- A client on the course of a service goes on until the first reaction that settles the matter, or
until it may not ask again. -/
lemma askFrom_worldAt {model : String} {retries i n : Nat} (le : i ≤ n) (bound : n ≤ i + retries)
    (before : ∀ j, i ≤ j → j < n → ¬(reactions service body world j).Settles)
    (stops : n = i + retries ∨ (reactions service body world n).Settles) :
    askFrom service body model retries i (worldAt service body world i) =
      ((judge model (reactions service body world n)).result,
        (service.post body (worldAt service body world n)).2) := by
  -- On the requests that are left; the client stands at place `i` of the course.
  induction retries generalizing i with
  | zero =>
    obtain rfl : i = n := Nat.le_antisymm le bound
    simp only [askFrom, reactions]
    cases judge model (service.post body (worldAt service body world i)).1 with
    | settled => rfl
    | again => rfl
  | succ retries ih =>
    simp only [askFrom]
    by_cases settles : (reactions service body world i).Settles
    · obtain rfl : i = n := by
        obtain lt | eq := Nat.lt_or_eq_of_le le
        · exact absurd settles (before i (Nat.le_refl i) lt)
        · exact eq
      obtain ⟨result, judged⟩ := judge_of_settles model settles
      simp only [reactions] at judged ⊢
      rw [judged]
      rfl
    · obtain ⟨error, judged⟩ := judge_of_not_settles model settles
      have lt : i < n := by
        refine Nat.lt_of_le_of_ne le ?_
        rintro rfl
        obtain eq | settles' := stops
        · omega
        · exact settles settles'
      have later : ∀ j, i + 1 ≤ j → j < n → ¬(reactions service body world j).Settles :=
        fun j le' lt' => before j (Nat.le_of_succ_le le') lt'
      have rest := ih lt (by omega) later (stops.imp_left fun eq => by omega)
      simp only [reactions] at judged
      rw [judged]
      exact rest

end

/-! ### The last request -/

/-- The place of the first reaction that settles the matter, counted from zero. -/
noncomputable def firstSettling (script : Nat → Reaction) : ℕ∞ :=
  ⨅ (i : Nat) (_ : (script i).Settles), (i : ℕ∞)

lemma firstSettling_le {script : Nat → Reaction} {i : Nat} (settles : (script i).Settles) :
    firstSettling script ≤ i :=
  iInf₂_le i settles

/-- The last request is the first one with a reaction that settles the matter, or the last one that
is allowed. -/
lemma exists_last (script : Nat → Reaction) (retries : Nat) :
    ∃ n : Nat, (n : ℕ∞) = min (retries : ℕ∞) (firstSettling script) ∧ n ≤ retries ∧
      (∀ i < n, ¬(script i).Settles) ∧ (n = retries ∨ (script n).Settles) := by
  classical
  by_cases some : ∃ i, (script i).Settles
  · have first : firstSettling script = (Nat.find some : ℕ∞) := by
      refine le_antisymm (firstSettling_le (Nat.find_spec some)) (le_iInf₂ fun i settles => ?_)
      exact Nat.cast_le.2 (Nat.find_min' some settles)
    refine ⟨min retries (Nat.find some), ?_, Nat.min_le_left _ _, fun i lt => ?_, ?_⟩
    · rw [first]
      exact Monotone.map_min Nat.mono_cast
    · exact Nat.find_min some (Nat.lt_of_lt_of_le lt (Nat.min_le_right _ _))
    · obtain le | le := Nat.le_total retries (Nat.find some)
      · exact .inl (Nat.min_eq_left le)
      · rw [Nat.min_eq_right le]
        exact .inr (Nat.find_spec some)
  · have none : ∀ i, ¬(script i).Settles := not_exists.1 some
    have first : firstSettling script = ⊤ := by
      simp only [firstSettling, none, iInf_false, iInf_top]
    refine ⟨retries, ?_, Nat.le_refl _, fun i _ => none i, .inl rfl⟩
    rw [first, min_top_right]

/-- What a client does is the course of its service up to the last request. -/
theorem client_eq {ω : Type} (service : Service ω) (retries : Nat) (request : CompletionRequest)
    (world : ω) :
    let body := requestBody request
    let script := reactions service body world
    ∃ n : Nat, (n : ℕ∞) = min (retries : ℕ∞) (firstSettling script) ∧
      client service retries request world =
        ((judge request.model (script n)).result,
          (service.post body (worldAt service body world n)).2) := by
  intro body script
  obtain ⟨n, last, le, before, stops⟩ := exists_last script retries
  refine ⟨n, last, ?_⟩
  exact askFrom_worldAt (Nat.zero_le n) (by rwa [Nat.zero_add]) (fun j _ lt => before j lt)
    (by rwa [Nat.zero_add])

/-! ### Services that keep a log -/

/-- What a client does. -/
inductive Act where
  | sent (body : Json)
  | waited (seconds : Nat)

/-- Holds of a request. -/
def Act.isSent : Act → Bool
  | .sent _ => true
  | .waited _ => false

/-- The service that gives one reaction of a sequence after the other, and keeps a log of what was
done. -/
def scripted (script : Nat → Reaction) : Service (List Act) where
  post body log := (script (log.countP Act.isSent), log ++ [.sent body])
  wait seconds log := log ++ [.waited seconds]

/-- The log of a body that is sent once and then some more times, each time after a wait. -/
def schedule (body : Json) (again : Nat) : List Act :=
  .sent body :: (List.range again).flatMap fun i => [.waited (2 ^ min i 5), .sent body]

lemma schedule_succ (body : Json) (n : Nat) :
    schedule body (n + 1) = schedule body n ++ [.waited (2 ^ min n 5)] ++ [.sent body] := by
  simp [schedule, List.range_succ]

/-- The first request apart, each one is sent after its wait. -/
lemma countP_schedule (body : Json) (n : Nat) : (schedule body n).countP Act.isSent = n + 1 := by
  induction n with
  | zero => rfl
  | succ n ih => simp [schedule_succ, ih, Act.isSent]

/-- The log at a request, and with it. -/
lemma scripted_worldAt (script : Nat → Reaction) (body : Json) (n : Nat) :
    (worldAt (scripted script) body [] n).countP Act.isSent = n ∧
      worldAt (scripted script) body [] n ++ [.sent body] = schedule body n := by
  induction n with
  | zero => exact ⟨rfl, rfl⟩
  | succ n ih =>
    have log : worldAt (scripted script) body [] (n + 1) =
        schedule body n ++ [.waited (2 ^ min n 5)] :=
      congrArg (· ++ [Act.waited (2 ^ min n 5)]) ih.2
    refine ⟨?_, ?_⟩
    · rw [log, List.countP_append, countP_schedule]
      rfl
    · rw [log, schedule_succ]

lemma reactions_scripted (script : Nat → Reaction) (body : Json) :
    reactions (scripted script) body [] = script := by
  funext n
  exact congrArg script (scripted_worldAt script body n).1

lemma waited_le_of_mem_schedule {body : Json} {n seconds : Nat}
    (mem : .waited seconds ∈ schedule body n) : seconds ≤ 32 := by
  simp only [schedule, List.mem_cons, List.mem_flatMap, reduceCtorEq, false_or, Act.waited.injEq,
    List.not_mem_nil, or_false] at mem
  obtain ⟨i, -, rfl⟩ := mem
  have le : 2 ^ min i 5 ≤ 2 ^ 5 := Nat.pow_le_pow_right (by decide) (Nat.min_le_right i 5)
  exact le

/-- For every sequence of reactions, let `k` be the place of the first one that settles the matter.
A client that may ask again up to `retries` times sends `1 + min retries k` requests of one body, and
waits `2 ^ min i 5` seconds, so never longer than 32, before it asks again for the `i`-th time. It
returns what the last reaction means: an error if none settles the matter, and the completion that the
answer tells if it is a success with one; behind a success it never asks again. All this depends on
the reactions alone: every service that gives these reactions is led through the same course. -/
theorem client_of_reactions (script : Nat → Reaction) (retries : Nat)
    (request : CompletionRequest) :
    let body := requestBody request
    let k := firstSettling script
    let (returned, log) := client (scripted script) retries request []
    ∃ n : Nat, (n : ℕ∞) = min (retries : ℕ∞) k ∧
      log = schedule body n ∧
      (log.countP Act.isSent : ℕ∞) = 1 + min (retries : ℕ∞) k ∧
      (∀ seconds, .waited seconds ∈ log → seconds ≤ 32) ∧
      (∀ result, Means request.model (script n) result ↔ returned = result) ∧
      (retries < k → ∃ error, returned = .error error) ∧
      (∀ i status text, script i = .response status text → 200 ≤ status ∧ status < 300 → n ≤ i) ∧
      ∀ {ω : Type} (service : Service ω) (world : ω), reactions service body world = script →
        client service retries request world =
          (returned, (service.post body (worldAt service body world n)).2) := by
  intro body k
  obtain ⟨n, last, eq⟩ := client_eq (scripted script) retries request []
  rw [reactions_scripted] at last eq
  rw [eq]
  have log : ((scripted script).post body (worldAt (scripted script) body [] n)).2 =
      schedule body n := (scripted_worldAt script body n).2
  refine ⟨n, last, log, ?_, ?_, fun _ => means_iff, fun exhausted => ?_, ?_, ?_⟩
  · rw [log, countP_schedule, ← last, Nat.cast_add, Nat.cast_one, add_comm]
  · rw [log]
    exact fun seconds mem => waited_le_of_mem_schedule mem
  · have passing : ¬(script n).Settles := by
      intro settles
      have le : k ≤ n := firstSettling_le settles
      rw [last, min_eq_left exhausted.le] at le
      exact absurd exhausted (not_lt.2 le)
    obtain ⟨error, judged⟩ := judge_of_not_settles request.model passing
    exact ⟨error, congrArg Verdict.result judged⟩
  · intro i status text given success
    have le : k ≤ i := firstSettling_le (given ▸ settles_of_success success text)
    have bound : (n : ℕ∞) ≤ i := last ▸ (min_le_right _ _).trans le
    exact Nat.cast_le.1 bound
  · intro ω service world same
    obtain ⟨m, last', eq'⟩ := client_eq service retries request world
    rw [same] at last' eq'
    obtain rfl : m = n := Nat.cast_injective (R := ℕ∞) (last'.trans last.symm)
    exact eq'

/-- A service is not reached, is out of order, and then answers: it is asked three times of four,
after one second and after two. A body that is no JSON is an error, and one that names neither its
model nor the tokens of the completion leaves the model asked and a zero in their place. -/
theorem client_of_reactions_of_three :
    let request : CompletionRequest := ⟨"m", none, "Doc it", 64, Number.Binary.zero .single false⟩
    let script (last : String) : Nat → Reaction
      | 0 => .unreached "error sending request"
      | 1 => .response 503 "down"
      | _ => .response 200 last
    let message : Json := .obj [("content", .str "Adds."), ("role", .str "assistant")]
    let usage : Json := .obj [("prompt_tokens", .int 7), ("total_tokens", .int 9)]
    let answer : Json :=
      .obj [("choices", .arr [.obj [("index", .int 0), ("message", message)]]), ("usage", usage)]
    let body := requestBody request
    let log : List Act := [.sent body, .waited 1, .sent body, .waited 2, .sent body]
    (∀ last, firstSettling (script last) = 2) ∧
      client (scripted (script "done")) 3 request [] =
        (.error (.invocation "ai" "malformed response: error decoding response body"), log) ∧
      client (scripted (script answer.compact)) 3 request [] =
        (.ok ⟨"Adds.", ⟨"m", 7, 0, 9⟩⟩, log) := by
  intro request script message usage answer body log
  have first (last : String) : firstSettling (script last) = 2 := by
    refine le_antisymm ?_ (le_iInf₂ fun i settles => ?_)
    · exact firstSettling_le (i := 2) (settles_of_success (by decide) last)
    · match i with
      | 0 => exact settles.elim
      | 1 => exact absurd ⟨by decide, by decide⟩ settles.2
      | i + 2 => exact Nat.cast_le.2 (Nat.le_add_left 2 i)
  have run (last : String) {result : Except BackendError Completion}
      (means : Means "m" (.response 200 last) result) :
      client (scripted (script last)) 3 request [] = (result, log) := by
    obtain ⟨n, place, done, -, -, returned, -⟩ := client_of_reactions (script last) 3 request
    obtain rfl : n = 2 := by
      refine Nat.cast_injective (R := ℕ∞) (place.trans ?_)
      rw [first]
      rfl
    exact Prod.ext ((returned result).1 means) done
  have plain : answer.Plain := by
    have outer : ["choices", "usage"].Pairwise (· < ·) := by decide
    have choice : ["index", "message"].Pairwise (· < ·) := by decide
    have spoken : ["content", "role"].Pairwise (· < ·) := by decide
    have counts : ["prompt_tokens", "total_tokens"].Pairwise (· < ·) := by decide
    refine ⟨⟨outer, ⟨⟨choice, ?_, ⟨spoken, trivial, trivial, trivial⟩, trivial⟩, trivial⟩,
      ⟨counts, ?_, ?_, trivial⟩, trivial⟩, Nat.le_of_ble_eq_true rfl⟩
    all_goals exact ⟨by decide, by decide⟩
  have parsed := Json.parse_compact plain
  have tells : Tells "m" answer ⟨"Adds.", ⟨"m", 7, 0, 9⟩⟩ :=
    (completion_iff (Json.ordered_of_parse parsed)).1 rfl
  refine ⟨first, run _ (.malformed (by decide) fun answer parsed => ?_), run _ ?_⟩
  · cases parsed
  · exact .completed (by decide) parsed tells

end Exchange

end Multipass
