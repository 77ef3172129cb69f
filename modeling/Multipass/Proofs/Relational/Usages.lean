import Multipass.Proofs.Relational.Names
import Multipass.Store.Relational.Overview

/-!
# Usages in columns

The tokens of a completion are written as an object with its fields in a fixed order. The database
reads this text in its own way and finds the number of all tokens in it: as an integer if it fits in
64 bits with a sign, and as a rounded number otherwise.

Main statements: `readJson_column` and `tokensOf_usage`.
-/

namespace Multipass.Relational

open Json Number

namespace JsonText

/-! ### Numbers -/

lemma digits?_of_leads {ds rest : List Char} (negative : Bool) (leads : Leads ds) (ends : Ends rest) :
    digits? negative (ds ++ rest) = some (.decimal negative ds, rest) := by
  obtain ⟨taken, left⟩ := ends.stops.span leads.digits
  have some : ds.isEmpty = false := by simpa using leads.nonempty
  simp only [digits?, taken, left, some]
  obtain rfl | ⟨c, rest, rfl, mem⟩ := ends
  · rfl
  · simp only [List.mem_cons, List.not_mem_nil, or_false] at mem
    obtain rfl | rfl | rfl := mem <;> rfl

/-- Digits are read as an integer, if what follows ends the value. -/
lemma number?_of_leads {ds rest : List Char} (leads : Leads ds) (ends : Ends rest) :
    number? false false (ds ++ rest) = some (.decimal false ds, rest) := by
  have read := digits?_of_leads false leads ends
  cases ds with
  | nil => exact absurd rfl leads.nonempty
  | cons c cs =>
    by_cases zero : c = '0'
    · -- A zero in front is all that there is of the digits.
      obtain ⟨-, rfl⟩ := List.cons.inj (leads.head (by rw [zero, List.head?_cons]))
      subst zero
      obtain rfl | ⟨d, rest, rfl, mem⟩ := ends
      · exact read
      · simp only [List.mem_cons, List.not_mem_nil, or_false] at mem
        cases rest with
        | nil => obtain rfl | rfl | rfl := mem <;> exact read
        | cons e rest => obtain rfl | rfl | rfl := mem <;> exact read
    · rw [← read]
      simp only [List.cons_append]
      unfold number?
      split
      · next eq => exact absurd (List.cons.inj eq).1 zero
      · next eq => exact absurd (List.cons.inj eq).1 zero
      · simp
      · next eq => cases eq

lemma isBlank_of_isDigit {c : Char} (digit : c.isDigit = true) : isBlank c = false := by
  have ne {d : Char} (other : d.isDigit = false) : ¬c = d := by
    rintro rfl
    exact Bool.false_ne_true (other.symm.trans digit)
  have below : c.toNat ≤ 57 := (Char.isDigit_iff_toNat.1 digit).2
  have range : ¬(0x2000 ≤ c.toNat ∧ c.toNat ≤ 0x200a) := by omega
  simp only [isBlank, isSpace, Bool.or_eq_false_iff, Bool.and_eq_false_iff,
    decide_eq_false_iff_not, ← not_and_or, range, not_false_eq_true, and_true, and_assoc]
  exact ⟨ne rfl, ne rfl, ne rfl, ne rfl, ne rfl, ne rfl, ne rfl, ne rfl, ne rfl, ne rfl, ne rfl,
    ne rfl, ne rfl, ne rfl⟩

/-- A natural number is read as its digits. -/
lemma value?_digitChars (depth n : Nat) {rest : List Char} (ends : Ends rest) :
    value? depth (digitChars n ++ rest) = some (.decimal false (digitChars n), rest) := by
  have read := number?_of_leads (leads_digitChars n) ends
  cases hd : digitChars n with
  | nil => exact absurd hd Nat.toDigits_ne_nil
  | cons c cs =>
    rw [hd, List.cons_append] at read
    have digit : c.isDigit = true := isDigit_of_mem_digitChars (hd ▸ List.mem_cons_self)
    have ne {d : Char} (other : d.isDigit = false) : c ≠ d := by
      rintro rfl
      exact Bool.false_ne_true (other.symm.trans digit)
    have plain : plain? (c :: (cs ++ rest)) = some (.decimal false (c :: cs), rest) := by
      unfold plain?
      split
      · next eq => cases eq
      · next eq => exact absurd (List.cons.inj eq).1 (ne rfl)
      · next eq => exact absurd (List.cons.inj eq).1 (ne rfl)
      · next eq => exact absurd (List.cons.inj eq).1 (ne rfl)
      · next eq => exact absurd (List.cons.inj eq).1 (ne rfl)
      · next eq =>
        obtain ⟨rfl, rfl⟩ := List.cons.inj eq
        rw [if_pos digit]
        exact read
    rw [List.cons_append]
    unfold value?
    rw [skip_cons (isBlank_of_isDigit digit) (ne rfl)]
    split
    · next eq => exact absurd (List.cons.inj eq).1 (ne rfl)
    · next eq => exact absurd (List.cons.inj eq).1 (ne rfl)
    · exact plain

/-! ### Fields -/

section

variable {value : List Char → Option (LooseJson × List Char)} {key : String} {j : LooseJson}
  {s rest : List Char}

lemma quoted_colon (key : String) (s : List Char) :
    quoted key ++ ':' :: s = '"' :: (key.toList.flatMap escapeChar ++ '"' :: ':' :: s) := by
  simp [quoted]

/-- A field is read, and another one follows. -/
lemma fields?_next (fuel : Nat) (reads : value s = some (j, ',' :: rest)) :
    fields? value (fuel + 1) (quoted key ++ ':' :: s) =
      (fields? value fuel rest).map fun (fs, rest) => ((key.toList.map pieceOf, j) :: fs, rest) := by
  have start : skip ('"' :: (key.toList.flatMap escapeChar ++ '"' :: ':' :: s)) = _ :=
    skip_cons (show isBlank '"' = false by decide) (by decide) _
  have colon : skip (':' :: s) = ':' :: s :=
    skip_cons (show isBlank ':' = false by decide) (by decide) _
  have comma : skip (',' :: rest) = ',' :: rest :=
    skip_cons (show isBlank ',' = false by decide) (by decide) _
  rw [quoted_colon]
  conv_lhs => simp only [fields?, start]
  split
  · next brace => exact absurd (List.cons.inj brace).1 (by decide)
  · simp only [name?, text?_quoted, colon, reads, comma]

/-- The last field is read, and the object ends. -/
lemma fields?_last (fuel : Nat) (reads : value s = some (j, '\x7d' :: rest)) :
    fields? value (fuel + 1) (quoted key ++ ':' :: s) =
      some ([(key.toList.map pieceOf, j)], rest) := by
  have start : skip ('"' :: (key.toList.flatMap escapeChar ++ '"' :: ':' :: s)) = _ :=
    skip_cons (show isBlank '"' = false by decide) (by decide) _
  have colon : skip (':' :: s) = ':' :: s :=
    skip_cons (show isBlank ':' = false by decide) (by decide) _
  have brace : skip ('\x7d' :: rest) = '\x7d' :: rest :=
    skip_cons (show isBlank '\x7d' = false by decide) (by decide) _
  rw [quoted_colon]
  simp only [fields?, start]
  split
  · next eq => exact absurd (List.cons.inj eq).1 (by decide)
  · simp only [name?, text?_quoted, colon, reads, brace]

end

/-! ### Usages -/

/-- The value that the database reads of a usage. -/
def shownUsage (u : Usage) : LooseJson :=
  .object
    [("model".toList.map pieceOf, shownText u.model),
      ("prompt_tokens".toList.map pieceOf, .decimal false (digitChars u.promptTokens)),
      ("completion_tokens".toList.map pieceOf, .decimal false (digitChars u.completionTokens)),
      ("total_tokens".toList.map pieceOf, .decimal false (digitChars u.totalTokens))]

lemma compactChars_nat (n : Nat) : compactChars (.nat n) = digitChars n := by
  simp [Json.nat, compactChars, intChars, signed]

lemma value?_usage (depth : Nat) (u : Usage) :
    value? (depth + 1) (compactChars u.toJson) = some (shownUsage u, []) := by
  let last := quoted "total_tokens" ++ ':' :: (digitChars u.totalTokens ++ ['\x7d'])
  let third := quoted "completion_tokens" ++ ':' :: (digitChars u.completionTokens ++ ',' :: last)
  let second := quoted "prompt_tokens" ++ ':' :: (digitChars u.promptTokens ++ ',' :: third)
  let first := quoted "model" ++ ':' :: (quoted u.model ++ ',' :: second)
  have layout : compactChars u.toJson = '\x7b' :: first := by
    simp only [Usage.toJson, compactChars, compactFields, compactChars_nat]
    simp [first, second, third, last]
  -- The fuel is the length of the text, of which four fields take four.
  obtain ⟨fuel, enough⟩ : ∃ fuel, first.length + 1 = fuel + 4 := by
    refine ⟨first.length - 3, ?_⟩
    have : 3 ≤ first.length := by simp [first, quoted, escapeChar]
    omega
  have fields : fields? (value? depth) (first.length + 1) first =
      some ([("model".toList.map pieceOf, shownText u.model),
        ("prompt_tokens".toList.map pieceOf, .decimal false (digitChars u.promptTokens)),
        ("completion_tokens".toList.map pieceOf, .decimal false (digitChars u.completionTokens)),
        ("total_tokens".toList.map pieceOf, .decimal false (digitChars u.totalTokens))], []) := by
    rw [enough, fields?_next _ (value?_quoted depth u.model _),
      fields?_next _ (value?_digitChars depth u.promptTokens (ends_cons _ (by decide))),
      fields?_next _ (value?_digitChars depth u.completionTokens (ends_cons _ (by decide))),
      fields?_last _ (value?_digitChars depth u.totalTokens (ends_cons _ (by decide)))]
    rfl
  have blank : isBlank '\x7b' = false := by decide
  rw [layout]
  unfold value?
  rw [skip_cons blank (by decide)]
  simp only [fields]
  rfl

end JsonText

lemma ne_nul_of_mem_digitChars {n : Nat} {d : Char} (mem : d ∈ digitChars n) : d ≠ '\x00' := by
  rintro rfl
  exact absurd (isDigit_of_mem_digitChars mem) (by decide)

lemma ne_nul_of_mem_usage {u : Usage} {d : Char} (mem : d ∈ compactChars u.toJson) :
    d ≠ '\x00' := by
  simp only [Usage.toJson, compactChars, compactFields, JsonText.compactChars_nat, List.cons_append,
    List.append_nil, List.mem_cons, List.mem_append, List.not_mem_nil, or_false] at mem
  rintro rfl
  have text {s : String} : '\x00' ∉ quoted s := fun mem => ne_nul_of_mem_quoted mem rfl
  have count {n : Nat} : '\x00' ∉ digitChars n := fun mem => ne_nul_of_mem_digitChars mem rfl
  simp [text, count] at mem

/-- The database reads a usage as the object of its fields. -/
theorem readJson_column (u : Usage) : readJson u.column = some (JsonText.shownUsage u) := by
  have whole : u.column.toList.takeWhile (· ≠ '\x00') = compactChars u.toJson := by
    rw [Usage.column, compact, String.toList_ofList]
    exact takeWhile_eq_self fun d mem => by simpa using ne_nul_of_mem_usage mem
  have depth : JsonText.maxDepth = 999 + 1 := rfl
  simp only [readJson, whole, depth, JsonText.value?_usage]
  rfl

/-! ### Tokens -/

open Aggregate

/-- All tokens of a usage, as the database adds them up. -/
def Aggregate.Tokens.ofNat (n : Nat) : Tokens :=
  if n < 2 ^ 63 then .int n else .real

lemma foldl_digits (ds : List Char) (n : Nat) :
    ds.foldl (fun n c => 10 * n + (c.toNat - 48)) n = Nat.ofDigitChars 10 ds n := by
  induction ds generalizing n with
  | nil => rfl
  | cons d ds ih => rw [List.foldl_cons, ih, Nat.ofDigitChars_cons]; rfl

lemma ofScalar_digitChars (n : Nat) :
    Tokens.ofScalar (LooseJson.decimalScalar false (digitChars n)) = .ofNat n := by
  have value : Nat.ofDigitChars 10 (digitChars n) 0 = n := Nat.ofDigitChars_ten_toDigits
  simp only [LooseJson.decimalScalar, foldl_digits, value, Bool.false_eq_true, if_false, Tokens.ofNat]
  by_cases small : n < 2 ^ 63
  · have both : -0x8000000000000000 ≤ (n : Int) ∧ (n : Int) < 0x8000000000000000 := by omega
    rw [if_pos both, if_pos small]
    rfl
  · have large : ¬(-0x8000000000000000 ≤ (n : Int) ∧ (n : Int) < 0x8000000000000000) := by omega
    rw [if_neg large, if_neg small]
    rfl

/-- The database finds all tokens of a usage in its column. -/
theorem tokensOf_usage {row : ResultRow} {usage : Option Usage}
    (h : row.usage = usage.map Usage.column) :
    tokensOf row = .ok (usage.elim .absent fun u => .ofNat u.totalTokens) := by
  cases usage with
  | none => simp only [tokensOf, h, Option.map_none, Option.elim_none]
  | some u =>
    have field : (JsonText.shownUsage u).field? "total_tokens" =
        some (.decimal false (digitChars u.totalTokens)) := rfl
    simp only [tokensOf, h, Option.map_some, readJson_column, field, LooseJson.scalar?,
      ofScalar_digitChars, Option.elim_some]

end Multipass.Relational
