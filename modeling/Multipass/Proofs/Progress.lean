import Multipass.Progress
import Multipass.Proofs.Json.RoundTrip
import Multipass.Proofs.Json.Unbroken
import Multipass.Proofs.Text.Find

/-!
# Progress read back

What is told of a batch as JSON is a stream of lines, and whoever takes it apart at the line feeds
finds one line to an event, in order. Each line is an object that holds all of its event, whatever
characters stand in the names of runs and files.

Main statement: `ProgressEvent.text_readBack`.
-/

namespace Multipass

namespace Text

lemma lines_cons (s : String) (items : List String) :
    (lines (s :: items)).toList = s.toList ++ '\n' :: (lines items).toList := by
  simp [lines, String.toList_join]

/-- Lines without line feeds of their own are the pieces between the line feeds, and behind the last
of these there is nothing. -/
lemma splitOnChar_lines {items : List String} (unbroken : ∀ s ∈ items, '\n' ∉ s.toList) :
    splitOnChar '\n' (lines items).toList = items.map String.toList ++ [[]] := by
  induction items with
  | nil => rfl
  | cons s items ih =>
    obtain ⟨first, others⟩ := List.forall_mem_cons.1 unbroken
    rw [lines_cons, splitOnChar_append, splitOnChar_of_notMem first, ih others]
    rfl

end Text

namespace Json

@[simp] lemma str?_str (s : String) : (str s).str? = some s := rfl

@[simp] lemma nat?_nat (n : Nat) : (nat n).nat? = some n := by
  simp [nat, nat?]

lemma exact_nat {n : Nat} (small : n < 2 ^ 64) : (nat n).Exact := by
  simp only [nat, Exact]
  omega

end Json

namespace ProgressEvent

/-! ### Events and objects -/

/-- Holds of an event with numbers of at most 64 bits. -/
def Fits : ProgressEvent → Prop
  | started _ total => total < 2 ^ 64
  | finished _ n total completed failed =>
    n < 2 ^ 64 ∧ total < 2 ^ 64 ∧ completed < 2 ^ 64 ∧ failed < 2 ^ 64
  | busy _ => True

/-- The text of a field. -/
def textOf? (fields : List (String × Json)) (key : String) : Option String :=
  (Json.lookup key fields).bind Json.str?

/-- The number of a field. -/
def countOf? (fields : List (String × Json)) (key : String) : Option Nat :=
  (Json.lookup key fields).bind Json.nat?

/-- The event that the fields of an object tell of. -/
def ofFields? (fields : List (String × Json)) : Option ProgressEvent := do
  let kind ← textOf? fields "event"
  if kind = "started" then
    return started (← textOf? fields "run_id") (← countOf? fields "total")
  else if kind = "record" then
    return finished (← textOf? fields "artifact") (← countOf? fields "n")
      (← countOf? fields "total") (← countOf? fields "completed") (← countOf? fields "failed")
  else if kind = "busy" then
    return busy (← textOf? fields "artifact")
  else none

/-- An event is told as an object, from which it is recovered. -/
lemma exists_fields (e : ProgressEvent) :
    ∃ fields, e.toJson = .obj fields ∧ ofFields? fields = some e := by
  cases e <;> exact ⟨_, rfl, by simp [ofFields?, textOf?, countOf?, Json.lookup]⟩

/-- An event with such numbers is told as a value that a text can hold. -/
lemma plain_toJson {e : ProgressEvent} (fits : e.Fits) : e.toJson.Plain := by
  refine ⟨?_, by cases e <;> exact Nat.le_of_ble_eq_true rfl⟩
  cases e with
  | started runId total =>
    have ascending : ["event", "run_id", "total"].Pairwise (· < ·) := by decide
    exact ⟨ascending, trivial, trivial, Json.exact_nat fits, trivial⟩
  | finished path n total completed failed =>
    have ascending :
        ["artifact", "completed", "event", "failed", "n", "total"].Pairwise (· < ·) := by decide
    obtain ⟨n_lt, total_lt, completed_lt, failed_lt⟩ := fits
    exact ⟨ascending, trivial, Json.exact_nat completed_lt, trivial, Json.exact_nat failed_lt,
      Json.exact_nat n_lt, Json.exact_nat total_lt, trivial⟩
  | busy path =>
    have ascending : ["artifact", "event"].Pairwise (· < ·) := by decide
    exact ⟨ascending, trivial, trivial, trivial⟩

/-! ### Lines -/

/-- Events that are told as JSON are read back from the lines of the text: it falls into as many
lines as there are events, each with its line feed, and each line is an object from which the event
in its place is recovered. -/
theorem text_readBack {events : List ProgressEvent} (fits : ∀ e ∈ events, e.Fits) :
    ∃ lines, Text.splitOnChar '\n' (text .json events).toList = lines ++ [[]] ∧
      List.Forall₂ (fun e line => ∃ fields, Json.parse (String.ofList line) = .ok (.obj fields) ∧
        ofFields? fields = some e) events lines := by
  have written : text .json events = Text.lines (events.map fun e => e.toJson.compact) := by
    rw [text, List.map_eq_flatMap]
    rfl
  have unbroken : ∀ s ∈ events.map fun e => e.toJson.compact, '\n' ∉ s.toList := by
    intro s mem
    obtain ⟨e, -, rfl⟩ := List.mem_map.1 mem
    rw [Json.compact, String.toList_ofList]
    exact (Json.unbroken_compactChars _).lineFeed_notMem
  refine ⟨_, by rw [written, Text.splitOnChar_lines unbroken], ?_⟩
  rw [List.map_map, List.forall₂_map_right_iff, List.forall₂_same]
  intro e mem
  obtain ⟨fields, told, back⟩ := exists_fields e
  refine ⟨fields, ?_, back⟩
  rw [Function.comp_apply, String.ofList_toList, ← told]
  exact Json.parse_compact (plain_toJson (fits e mem))

/-- Neither a break in the name of a file nor the greatest of the numbers gets in the way. -/
theorem text_readBack_awkward :
    let events := [started "a\"\n\t" 18446744073709551615, finished "\\n\x00\x7f😀" 1 2 3 0,
      busy "\n\r\n"]
    (∀ e ∈ events, e.Fits) ∧
      ∃ lines, Text.splitOnChar '\n' (text .json events).toList = lines ++ [[]] ∧
        List.Forall₂ (fun e line => ∃ fields, Json.parse (String.ofList line) = .ok (.obj fields) ∧
          ofFields? fields = some e) events lines := by
  intro events
  have fits : ∀ e ∈ events, e.Fits := by simp [events, Fits]
  exact ⟨fits, text_readBack fits⟩

/-- A break in the name of a file is told as an escape. -/
example : text .json [busy "a\nb"] =
    "\x7b\"artifact\":\"a\\nb\",\"event\":\"busy\"\x7d\n" := by
  decide +kernel

end ProgressEvent

end Multipass
