import Mathlib.Data.List.Forall2
import Multipass.Proofs.Json.Shape
import Multipass.Proofs.Pointwise
import Multipass.Proofs.Store.Request

/-!
# Answers that agree

What two stores are asked alike, and when their answers are the same: numbers of records may differ
by a renaming, times may differ, and the values of scores are compared as numbers.

The domain of the requests is that of the values that programs hold: the counts of a usage and the
integers in a JSON value have 64 bits, and objects have their fields in order. Beyond that, JSON
values hold no other numbers than integers and nest within what a reader reads, durations are below
`2 ^ 63`, and the values of scores are finite.

Main definitions: `Response.Agrees`, `Request.Plain`, and `session?` for whole sequences of requests.
-/

namespace Multipass

/-- A result that a column can hold. -/
structure PassResult.Plain (r : PassResult) : Prop where
  findings : ∀ j, r.output = .findings j → j.Plain
  usage : ∀ u ∈ r.usage, u.Fits
  duration : r.durationMillis < 0x8000000000000000

/-- Holds of a score with a finite value. -/
def Score.IsFinite (score : Score) : Prop :=
  match score.value with
  | .finite .. => True
  | _ => False

lemma Score.IsFinite.ne_nan {score : Score} (finite : score.IsFinite) : score.value ≠ .nan := by
  intro undefined
  rw [Score.IsFinite, undefined] at finite
  exact finite

/-- Holds of a request with values that columns can hold. -/
def Request.Plain {ρ ι : Type} : Request ρ ι → Prop
  | .upsert new => new.parsed.Plain
  | .recordResult _ result => result.Plain
  | .commit _ result => result.Plain
  | .saveScores _ values => ∀ score ∈ values, score.IsFinite
  | _ => True

/-- Holds of a renaming that keeps the order of numbers. -/
def KeepsOrder (f : Int → Int) : Prop :=
  ∀ a b, a < b → f a < f b

/-- Two records that differ by a renaming of numbers, and in their times. -/
structure Record.Agrees (f : RecordId → RecordId) (r r' : Record) : Prop where
  id : r'.id = f r.id
  path : r'.path = r.path
  language : r'.language = r.language
  source : r'.source = r.source
  hash : r'.hash = r.hash
  parsed : r'.parsed = r.parsed
  passIndex : r'.passIndex = r.passIndex
  completed : r'.completed = r.completed

/-- Two scores of one metric with values that are equal as numbers. -/
structure Score.Agrees (score score' : Score) : Prop where
  metric : score'.metric = score.metric
  value : score.value.eq score'.value = true

/-- Two answers that differ by a renaming of numbers, and in times. -/
inductive Answer.Agrees (f : RecordId → RecordId) : Answer → Answer → Prop where
  | outcome (o) : Agrees f (.outcome o) (.outcome o)
  | done : Agrees f .done .done
  | deleted (found) : Agrees f (.deleted found) (.deleted found)
  | record {r r'} : r.Agrees f r' → Agrees f (.record r) (.record r')
  | record? {r r'} : Option.Rel (Record.Agrees f) r r' → Agrees f (.record? r) (.record? r')
  | records {rs rs'} :
    List.Forall₂ (Record.Agrees f) rs rs' → Agrees f (.records rs) (.records rs')
  | result? (r) : Agrees f (.result? r) (.result? r)
  | results (rs) : Agrees f (.results rs) (.results rs)
  | scores {ss ss'} : List.Forall₂ Score.Agrees ss ss' → Agrees f (.scores ss) (.scores ss')

/-- Two responses that agree: both stores refuse with the same error, or give answers that agree. -/
inductive Response.Agrees (f : RecordId → RecordId) : Response → Response → Prop where
  | error (e) : Agrees f (.error e) (.error e)
  | ok {a a'} : a.Agrees f a' → Agrees f (.ok a) (.ok a')

/-- Requests about records that agree. -/
inductive Request.Agrees (f : RecordId → RecordId) :
    Request Record RecordId → Request Record RecordId → Prop where
  | upsert (new) : Agrees f (.upsert new) (.upsert new)
  | get (path) : Agrees f (.get path) (.get path)
  | list : Agrees f .list .list
  | pending (order check) : Agrees f (.pending order check) (.pending order check)
  | recordResult {r r'} (result) :
    r.Agrees f r' → Agrees f (.recordResult r result) (.recordResult r' result)
  | advance {r r'} (pass) : r.Agrees f r' → Agrees f (.advance r pass) (.advance r' pass)
  | commit {r r'} (result) : r.Agrees f r' → Agrees f (.commit r result) (.commit r' result)
  | results (id) : Agrees f (.results id) (.results (f id))
  | latest (id pass) : Agrees f (.latest id pass) (.latest (f id) pass)
  | saveScores (id values) : Agrees f (.saveScores id values) (.saveScores (f id) values)
  | scores (id) : Agrees f (.scores id) (.scores (f id))
  | delete (path) : Agrees f (.delete path) (.delete path)

/-! ### Renamings that keep the order -/

lemma KeepsOrder.lt_iff {f : Int → Int} (keeps : KeepsOrder f) {a b : Int} : f a < f b ↔ a < b := by
  refine ⟨fun lt => ?_, keeps a b⟩
  obtain h | rfl | h := Int.lt_trichotomy a b
  · exact h
  · exact absurd lt (Int.lt_irrefl _)
  · exact absurd lt (Int.lt_asymm (keeps b a h))

lemma KeepsOrder.eq_iff {f : Int → Int} (keeps : KeepsOrder f) {a b : Int} : f a = f b ↔ a = b := by
  refine ⟨fun eq => ?_, fun eq => eq ▸ rfl⟩
  obtain h | h | h := Int.lt_trichotomy a b
  · exact absurd eq (Int.ne_of_lt (keeps a b h))
  · exact h
  · exact absurd eq.symm (Int.ne_of_lt (keeps b a h))

/-! ### Other renamings -/

/-- Only the numbers of the records that are there count. -/
lemma Record.Agrees.of_eq {f f' : RecordId → RecordId} {r r' : Record} (h : r.Agrees f r')
    (eq : f' r.id = f r.id) : r.Agrees f' r' :=
  { h with id := h.id.trans eq.symm }

/-!
### Sessions

A script is a sequence of requests that name records by where they were seen: by an earlier answer,
and a place among the records in it. What was seen may be stale by then. One script can be put to
two stores, which number their records in their own ways. A session ends early if a record is asked
for that was not seen, or that is gone.
-/

section

/-- Where a record was seen: in which answer, and at which place in it. -/
structure Ref where
  answer : Nat
  place : Nat

/-- The records in an answer. -/
def Answer.shown : Answer → List Record
  | .record r => [r]
  | .record? r => r.toList
  | .records rs => rs
  | _ => []

/-- The records in a response. -/
def Response.shown : Response → List Record
  | .ok answer => answer.shown
  | .error _ => []

/-- The record that was seen at a place. -/
def Ref.record? (seen : List Response) (ref : Ref) : Option Record :=
  (seen[ref.answer]?).bind fun response => response.shown[ref.place]?

namespace Request

/-- A request with the records that were seen in the places of the references to them. -/
def resolve? (seen : List Response) : Request Ref Ref → Option (Request Record RecordId)
  | .upsert new => some (.upsert new)
  | .get path => some (.get path)
  | .list => some .list
  | .pending order check => some (.pending order check)
  | .recordResult ref result => (ref.record? seen).map fun r => .recordResult r result
  | .advance ref pass => (ref.record? seen).map fun r => .advance r pass
  | .commit ref result => (ref.record? seen).map fun r => .commit r result
  | .results ref => (ref.record? seen).map fun r => .results r.id
  | .latest ref pass => (ref.record? seen).map fun r => .latest r.id pass
  | .saveScores ref values => (ref.record? seen).map fun r => .saveScores r.id values
  | .scores ref => (ref.record? seen).map fun r => .scores r.id
  | .delete path => some (.delete path)

/-- The number of the record that a request is about. -/
def subject? : Request Record RecordId → Option RecordId
  | .recordResult r _ | .advance r _ | .commit r _ => some r.id
  | .results id | .latest id _ | .saveScores id _ | .scores id => some id
  | .upsert _ | .get _ | .list | .pending .. | .delete _ => none

end Request

/-- Whether a store has a record of a number. -/
def ArtifactStore.holds {σ : Type} (store : ArtifactStore σ) (s : σ) (id : RecordId) : Bool :=
  match store.list s with
  | .ok records => records.any fun r => r.id == id
  | .error _ => false

/-- The responses to a script behind those that were seen, each request put at the time that the
clock then shows; none if a record was not seen or is gone. -/
def session? {σ : Type} (store : ArtifactStore σ) (clock : Nat → Timestamp) :
    List (Request Ref Ref) → List Response → σ → Option (List Response)
  | [], seen, _ => some seen
  | request :: script, seen, s =>
    match request.resolve? seen with
    | none => none
    | some request =>
      if request.subject?.all (store.holds s) then
        let after := request.perform store (clock seen.length) s
        session? store clock script (seen ++ [after.1]) after.2
      else none

/-! ### What agrees -/

section

variable {f : RecordId → RecordId}

lemma Answer.Agrees.shown {a a' : Answer} (h : a.Agrees f a') :
    List.Forall₂ (Record.Agrees f) a.shown a'.shown := by
  cases h with
  | record same => exact .cons same .nil
  | record? same =>
    cases same with
    | none => exact .nil
    | some same => exact .cons same .nil
  | records same => exact same
  | _ => exact .nil

lemma Response.Agrees.shown {r r' : Response} (h : r.Agrees f r') :
    List.Forall₂ (Record.Agrees f) r.shown r'.shown := by
  cases h with
  | error e => exact .nil
  | ok same => exact same.shown

/-- What was seen at a place agrees. -/
lemma Ref.record?_agrees {seen seen' : List Response}
    (h : List.Forall₂ (Response.Agrees f) seen seen') (ref : Ref) :
    Option.Rel (Record.Agrees f) (ref.record? seen) (ref.record? seen') :=
  rel_bind (rel_getElem? h ref.answer) fun _ _ same => rel_getElem? same.shown ref.place

/-- A request agrees in its two readings. -/
lemma Request.resolve?_agrees {seen seen' : List Response}
    (h : List.Forall₂ (Response.Agrees f) seen seen') (request : Request Ref Ref) :
    Option.Rel (Request.Agrees f) (request.resolve? seen) (request.resolve? seen') := by
  have each (ref : Ref) := ref.record?_agrees h
  cases request with
  | upsert new => exact .some (.upsert new)
  | get path => exact .some (.get path)
  | list => exact .some .list
  | pending order check => exact .some (.pending order check)
  | recordResult ref result => exact rel_map (each ref) fun _ _ same => .recordResult result same
  | advance ref pass => exact rel_map (each ref) fun _ _ same => .advance pass same
  | commit ref result => exact rel_map (each ref) fun _ _ same => .commit result same
  | results ref => exact rel_map (each ref) fun _ _ same => same.id ▸ .results _
  | latest ref pass => exact rel_map (each ref) fun _ _ same => same.id ▸ .latest _ pass
  | saveScores ref values => exact rel_map (each ref) fun _ _ same => same.id ▸ .saveScores _ values
  | scores ref => exact rel_map (each ref) fun _ _ same => same.id ▸ .scores _
  | delete path => exact .some (.delete path)

/-- The numbers that two requests are about agree. -/
lemma Request.Agrees.subject? {request request' : Request Record RecordId}
    (h : request.Agrees f request') : request'.subject? = request.subject?.map f := by
  cases h with
  | recordResult result same => exact congrArg some same.id
  | advance pass same => exact congrArg some same.id
  | commit result same => exact congrArg some same.id
  | _ => rfl

/-- What was read of a request that columns can hold is one. -/
lemma Request.Plain.of_resolve? {seen : List Response} {request : Request Ref Ref}
    (plain : request.Plain) {request' : Request Record RecordId}
    (h : request.resolve? seen = some request') : request'.Plain := by
  cases request with
  | upsert new => obtain rfl := Option.some.inj h; exact plain
  | get path => obtain rfl := Option.some.inj h; exact plain
  | list => obtain rfl := Option.some.inj h; exact plain
  | pending order check => obtain rfl := Option.some.inj h; exact plain
  | delete path => obtain rfl := Option.some.inj h; exact plain
  | _ =>
    obtain ⟨r, -, rfl⟩ := Option.map_eq_some_iff.1 h
    exact plain

end

end

end Multipass
