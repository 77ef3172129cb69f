import Multipass.PassResult
import Multipass.Proofs.Json.RoundTrip

/-!
# Columns of usages read back

The tokens of a completion are written as an object with its fields in a fixed order, and are read
back field by field.

Main statement: `Usage.ofColumn_column`.
-/

namespace Multipass

namespace Json

open Number

lemma isSpace_quote : isSpace '"' = false := rfl

/-- A text is read back by a reader of texts. -/
lemma textValue_quoted (s : String) (rest : List Char) :
    textValue (quoted s ++ rest) = .ok (s, rest) := by
  have written : quoted s ++ rest = '"' :: (s.toList.flatMap escapeChar ++ '"' :: rest) := by
    simp [quoted]
  rw [written]
  simp only [textValue, skipSpace_cons isSpace_quote, string_quoted]

/-- A natural number is read back by a reader of counts. -/
lemma countValue_digitChars {n : Nat} {rest : List Char} (ends : Ends rest)
    (h : n ≤ maxSignificand) : countValue (digitChars n ++ rest) = .ok (n, rest) := by
  have read := number_digitChars false ends h
  have start := (begins_digitChars n).append rest
  cases hd : digitChars n with
  | nil => exact absurd hd Nat.toDigits_ne_nil
  | cons c cs =>
    have digit := isDigit_of_mem_digitChars (hd ▸ List.mem_cons_self)
    have minus : c ≠ '-' := by
      rintro rfl
      exact absurd digit (by decide)
    rw [hd, List.cons_append] at read start
    simp only [List.cons_append, countValue, start.skipSpace, minus, digit, read, false_or,
      if_true, if_false, bind, Except.bind]
    simp [integer]

end Json

/-- A field that a shape knows, and that was not found before, is read and added. -/
lemma Shape.addField_reads {shape : Shape} {found : List (String × Json)} {key : String}
    {read : Json.Reader Json} {s rest : List Char} {j : Json}
    (known : addField.lookup key shape.fields = some read) (new : Json.lookup key found = none)
    (reads : read s = .ok (j, rest)) :
    ∃ reader, shape.addField found key (':' :: s) = .ok reader ∧
      reader s = .ok ((key, j) :: found, rest) := by
  simp only [addField, known, new, Option.isSome_none, Bool.false_eq_true, if_false]
  refine ⟨_, rfl, ?_⟩
  simp only [reads, bind, Except.bind]

namespace Usage

open Json Number

/-- Holds when each count fits in 64 bits. -/
structure Fits (u : Usage) : Prop where
  prompt : u.promptTokens ≤ maxSignificand
  completion : u.completionTokens ≤ maxSignificand
  total : u.totalTokens ≤ maxSignificand

lemma textField_quoted (s : String) (rest : List Char) :
    textField (quoted s ++ rest) = .ok (.str s, rest) := by
  simp only [textField, textValue_quoted, bind, Except.bind]

lemma countField_digitChars {n : Nat} {rest : List Char} (ends : Ends rest)
    (h : n ≤ maxSignificand) : countField (digitChars n ++ rest) = .ok (.nat n, rest) := by
  simp only [countField, countValue_digitChars ends h, bind, Except.bind]

/-- The fields of a usage are read back in their order. -/
lemma read_shape {u : Usage} (fits : u.Fits) :
    shape.read (compactChars u.toJson) =
      .ok ([.str u.model, .nat u.promptTokens, .nat u.completionTokens, .nat u.totalTokens],
        []) := by
  let last := keyed "total_tokens" (digitChars u.totalTokens ++ ['\x7d'])
  let third := keyed "completion_tokens" (digitChars u.completionTokens ++ ',' :: '"' :: last)
  let second := keyed "prompt_tokens" (digitChars u.promptTokens ++ ',' :: '"' :: third)
  let first := keyed "model" (quoted u.model ++ ',' :: '"' :: second)
  have layout : compactChars u.toJson = '\x7b' :: '"' :: first := by
    have plain (n : Nat) : compactChars (.nat n) = digitChars n := by
      simp [Json.nat, compactChars, intChars, signed]
    simp only [toJson, compactChars, compactFields, plain]
    simp [quoted, keyed, first, second, third, last]
  -- The fuel is the length of the text, of which four fields take four.
  obtain ⟨fuel, enough⟩ : ∃ fuel, first.length + 1 = fuel + 4 := by
    refine ⟨first.length - 3, ?_⟩
    have : 3 ≤ first.length := by simp [first, keyed, escapeChar]
    omega
  have ends : Ends ['\x7d'] := ends_cons [] (by decide)
  have endsThird : Ends (',' :: '"' :: last) := ends_cons _ (by decide)
  have endsSecond : Ends (',' :: '"' :: third) := ends_cons _ (by decide)
  have model := textField_quoted u.model (',' :: '"' :: second)
  have prompt := countField_digitChars endsSecond fits.prompt
  have completion := countField_digitChars endsThird fits.completion
  have total := countField_digitChars ends fits.total
  have knownModel : Shape.addField.lookup "model" shape.fields = some textField := rfl
  have knownPrompt : Shape.addField.lookup "prompt_tokens" shape.fields = some countField := rfl
  have knownCompletion :
      Shape.addField.lookup "completion_tokens" shape.fields = some countField := rfl
  have knownTotal : Shape.addField.lookup "total_tokens" shape.fields = some countField := rfl
  let found₁ : List (String × Json) := [("model", .str u.model)]
  let found₂ := ("prompt_tokens", Json.nat u.promptTokens) :: found₁
  let found₃ := ("completion_tokens", Json.nat u.completionTokens) :: found₂
  let found₄ := ("total_tokens", Json.nat u.totalTokens) :: found₃
  have new₀ : Json.lookup "model" [] = none := rfl
  have new₁ : Json.lookup "prompt_tokens" found₁ = none := rfl
  have new₂ : Json.lookup "completion_tokens" found₂ = none := rfl
  have new₃ : Json.lookup "total_tokens" found₃ = none := rfl
  obtain ⟨reader₁, hf₁, read₁⟩ := Shape.addField_reads knownModel new₀ model
  obtain ⟨reader₂, hf₂, read₂⟩ := Shape.addField_reads knownPrompt new₁ prompt
  obtain ⟨reader₃, hf₃, read₃⟩ := Shape.addField_reads knownCompletion new₂ completion
  obtain ⟨reader₄, hf₄, read₄⟩ := Shape.addField_reads knownTotal new₃ total
  have fields : object shape.addField [] ('"' :: first) = .ok (found₄, []) := by
    simp only [object, skipSpace_cons isSpace_quote, enough]
    rw [members_next hf₁ read₁, members_next hf₂ read₂, members_next hf₃ read₃]
    exact members_last hf₄ read₄
  have values : Shape.valuesOf found₄ (shape.fields.map Prod.fst) =
      .ok [.str u.model, .nat u.promptTokens, .nat u.completionTokens, .nat u.totalTokens] := rfl
  have brace : isSpace '\x7b' = false := rfl
  rw [layout]
  simp only [Shape.read, skipSpace_cons brace, fields, values, bind, Except.bind]

/-- A usage is read back from its column. -/
theorem ofColumn_column {u : Usage} (fits : u.Fits) : ofColumn u.column = .ok u := by
  have read := entire_of_reads (read_shape fits)
  rw [ofColumn, parseAs, column, compact, String.toList_ofList, read]
  rfl

end Usage

end Multipass
