import Mathlib.Algebra.Group.Nat.Defs
import Multipass.Json.Parser
import Multipass.Json.Printer

/-!
# Reading written integers and texts

An integer and a text in quotes are read back from their written forms, whatever follows that ends a
value. Digits are gathered into the number that they spell, and each escape is read as the character
that it stands for.

Main statements: `Json.number_digitChars` and `Json.string_quoted`.
-/

namespace Multipass.Json

open Number Text

/-- Holds of what may follow a value: nothing, or what ends an item or a field. -/
def Ends (s : List Char) : Prop :=
  s = [] ∨ ∃ c rest, s = c :: rest ∧ c ∈ [',', ']', '\x7d']

lemma ends_nil : Ends [] := .inl rfl

lemma ends_cons {c : Char} (rest : List Char) (h : c ∈ [',', ']', '\x7d']) : Ends (c :: rest) :=
  .inr ⟨c, rest, rfl, h⟩

/-! ### Digits -/

lemma isDigit_of_mem_digitChars {n : Nat} {c : Char} (h : c ∈ digitChars n) : c.isDigit = true :=
  Nat.isDigit_of_mem_toDigits (by decide) (by decide) h

/-- Only zero is written with a zero in front. -/
lemma eq_zero_of_head?_digitChars {n : Nat} (h : (digitChars n).head? = some '0') : n = 0 := by
  induction n using Nat.strongRecOn with
  | ind n ih =>
    by_cases small : n < 10
    · have digits : ∀ m < 10, [m.digitChar].head? = some '0' → m = 0 := by decide
      rw [digitChars, Nat.toDigits_of_lt_base small] at h
      exact digits n small h
    · have large : 10 ≤ n := Nat.le_of_not_lt small
      have front : (digitChars (n / 10)).head? = some '0' := by
        rw [digitChars, Nat.toDigits_of_base_le (by decide) large, List.head?_append] at h
        cases hd : Nat.toDigits 10 (n / 10) with
        | nil => exact absurd hd Nat.toDigits_ne_nil
        | cons c cs =>
          rw [hd] at h
          rw [digitChars, hd]
          exact h
      have := ih (n / 10) (Nat.div_lt_self (by omega) (by decide)) front
      omega

lemma le_ofDigitChars (ds : List Char) (n : Nat) : n ≤ Nat.ofDigitChars 10 ds n := by
  rw [Nat.ofDigitChars_eq_ofDigitChars_zero]
  have : 1 * n ≤ 10 ^ ds.length * n := Nat.mul_le_mul_right n (Nat.pow_pos (by decide))
  omega

lemma ofDigitChars_cons_digitValue (d : Char) (ds : List Char) (n : Nat) :
    Nat.ofDigitChars 10 (d :: ds) n = Nat.ofDigitChars 10 ds (n * 10 + digitValue d) := by
  rw [Nat.ofDigitChars_cons, Nat.mul_comm]
  rfl

/-- Digits are gathered into the number that they spell, as long as it fits. -/
lemma gather_eq {ds : List Char} {n : Nat} (h : Nat.ofDigitChars 10 ds n ≤ maxSignificand) :
    gather n ds = (Nat.ofDigitChars 10 ds n, ds.length, 0) := by
  induction ds generalizing n with
  | nil => simp [gather]
  | cons d ds ih =>
    rw [ofDigitChars_cons_digitValue] at h
    have fits : ¬ maxSignificand < n * 10 + digitValue d :=
      Nat.not_lt_of_le (Nat.le_trans (le_ofDigitChars ds _) h)
    rw [gather, if_neg fits, ih h, ofDigitChars_cons_digitValue, List.length_cons]

/-- What is gathered of digits, with zeros for those that are left out, is not above what they
spell. -/
lemma gather_le (ds : List Char) {n : Nat} (fits : n ≤ maxSignificand) :
    (gather n ds).1 ≤ maxSignificand ∧ (gather n ds).2.1 + (gather n ds).2.2 = ds.length ∧
      (gather n ds).1 * 10 ^ (gather n ds).2.2 ≤ Nat.ofDigitChars 10 ds n := by
  induction ds generalizing n with
  | nil => simp [gather, fits]
  | cons d ds ih =>
    simp only [gather]
    split
    · refine ⟨fits, Nat.zero_add _, ?_⟩
      rw [Nat.ofDigitChars_eq_ofDigitChars_zero, List.length_cons, Nat.mul_comm]
      exact Nat.le_add_right _ _
    · next h =>
      obtain ⟨small, count, le⟩ := ih (Nat.not_lt.1 h)
      rw [ofDigitChars_cons_digitValue]
      refine ⟨small, ?_, le⟩
      rw [List.length_cons, ← count]
      exact Nat.add_right_comm _ 1 _

/-- Holds of a text that does not begin with a digit. -/
def Stops (s : List Char) : Prop :=
  ∀ c ∈ s.head?, c.isDigit = false

/-- What ends a value begins with no digit. -/
lemma Ends.stops {rest : List Char} (ends : Ends rest) : Stops rest := by
  obtain rfl | ⟨c, rest, rfl, mem⟩ := ends
  · exact nofun
  · simp only [List.mem_cons, List.not_mem_nil, or_false] at mem
    obtain rfl | rfl | rfl := mem <;> (rintro c ⟨⟩; rfl)

/-- Digits end where a text stops. -/
lemma Stops.span {ds rest : List Char} (stops : Stops rest) (digits : ∀ d ∈ ds, d.isDigit = true) :
    (ds ++ rest).takeWhile Char.isDigit = ds ∧ (ds ++ rest).dropWhile Char.isDigit = rest := by
  have none : rest.takeWhile Char.isDigit = [] ∧ rest.dropWhile Char.isDigit = rest := by
    cases rest with
    | nil => exact ⟨rfl, rfl⟩
    | cons c rest => simp [stops c rfl]
  rw [List.takeWhile_append_of_pos digits, List.dropWhile_append_of_pos digits, none.1, none.2,
    List.append_nil]
  exact ⟨rfl, rfl⟩

/-- Holds of the digits that may stand before a point: only zero begins with a zero. -/
structure Leads (ds : List Char) : Prop where
  nonempty : ds ≠ []
  digits : ∀ d ∈ ds, d.isDigit = true
  head : ds.head? = some '0' → ds = ['0']

lemma leads_digitChars (n : Nat) : Leads (digitChars n) where
  nonempty := Nat.toDigits_ne_nil
  digits := fun _ => isDigit_of_mem_digitChars
  head := by
    intro zero
    rw [eq_zero_of_head?_digitChars zero]
    rfl

/-- The digits in front of a number are taken off, and the rest of it is read. -/
lemma number_of_leads {ds rest : List Char} (negative : Bool) (leads : Leads ds) (stops : Stops rest) :
    number negative (ds ++ rest) = number.finish negative ds rest := by
  obtain ⟨taken, left⟩ := stops.span leads.digits
  cases ds with
  | nil => exact absurd rfl leads.nonempty
  | cons c cs =>
    have first := leads.digits c List.mem_cons_self
    rw [List.cons_append] at taken left ⊢
    by_cases zero : c = '0'
    · -- A zero in front is all that there is of the digits.
      obtain ⟨-, rfl⟩ := List.cons.inj (leads.head (by rw [zero, List.head?_cons]))
      subst zero
      cases rest with
      | nil => rfl
      | cons d rest =>
        simp only [List.nil_append, number, first, Bool.not_true, Bool.false_eq_true, if_false,
          if_true, stops d rfl, and_false]
    · simp only [number, first, Bool.not_true, Bool.false_eq_true, if_false, zero, taken, left,
        false_and]
      split <;> rfl

lemma finish_of_ends {ds rest : List Char} (negative : Bool) (ends : Ends rest)
    (h : Nat.ofDigitChars 10 ds 0 ≤ maxSignificand) :
    number.finish negative ds rest = .ok (integer negative (Nat.ofDigitChars 10 ds 0), rest) := by
  simp only [number.finish, gather_eq h]
  obtain rfl | ⟨c, rest, rfl, mem⟩ := ends
  · rfl
  · simp only [List.mem_cons, List.not_mem_nil, or_false] at mem
    obtain rfl | rfl | rfl := mem <;> rfl

/-- A written natural number is read back behind its sign. -/
theorem number_digitChars {n : Nat} {rest : List Char} (negative : Bool) (ends : Ends rest)
    (h : n ≤ maxSignificand) :
    number negative (digitChars n ++ rest) = .ok (integer negative n, rest) := by
  have value : Nat.ofDigitChars 10 (digitChars n) 0 = n := Nat.ofDigitChars_ten_toDigits
  rw [number_of_leads negative (leads_digitChars n) ends.stops,
    finish_of_ends negative ends (value.symm ▸ h), value]

/-! ### Texts -/

lemma hexValue?_hexDigit {n : Nat} (h : n < 16) : hexValue? (hexDigit n) = some n := by
  have all : ∀ m < 16, hexValue? (hexDigit m) = some m := by decide
  exact all n h

lemma one_le_utf8Size (c : Char) : 1 ≤ c.utf8Size :=
  Char.utf8Size_pos c

/-- The four digits of a control character are read as its code point. -/
lemma hexEscape_control {c : Char} (h : c.toNat < 0x20) (rest : List Char) :
    hexEscape ('0' :: '0' :: hexDigit (c.toNat / 16) :: hexDigit (c.toNat % 16) :: rest) =
      .ok (c.toNat, rest) := by
  have enough : ¬ byteCount ('0' :: '0' :: hexDigit (c.toNat / 16) ::
      hexDigit (c.toNat % 16) :: rest) < 4 := by
    simp only [byteCount_cons]
    have := one_le_utf8Size (hexDigit (c.toNat / 16))
    have := one_le_utf8Size (hexDigit (c.toNat % 16))
    have : '0'.utf8Size = 1 := rfl
    omega
  have zero : hexValue? '0' = some 0 := rfl
  have high := hexValue?_hexDigit (show c.toNat / 16 < 16 by omega)
  have low := hexValue?_hexDigit (show c.toNat % 16 < 16 by omega)
  have whole : ((0 * 16 + 0) * 16 + c.toNat / 16) * 16 + c.toNat % 16 = c.toNat := by omega
  simp only [hexEscape, if_neg enough, zero, high, low, whole]

lemma unicodeEscape_control {c : Char} (h : c.toNat < 0x20) (rest : List Char) :
    unicodeEscape ('0' :: '0' :: hexDigit (c.toNat / 16) :: hexDigit (c.toNat % 16) :: rest) =
      .ok (c, rest) := by
  have high : ¬ (0xdc00 ≤ c.toNat ∧ c.toNat ≤ 0xdfff) := by omega
  have low : c.toNat < 0xd800 ∨ 0xdbff < c.toNat := by omega
  simp only [unicodeEscape, hexEscape_control h]
  show (if 0xdc00 ≤ c.toNat ∧ c.toNat ≤ 0xdfff then _ else _) = _
  rw [if_neg high, if_pos low, Char.ofNat_toNat]

/-- An escape is read as one character. -/
lemma characters_escape {fuel : Nat} {c : Char} {s rest : List Char} (h : escape s = .ok (c, rest)) :
    characters (fuel + 1) ('\\' :: s) = (do
      let (cs, rest) ← characters fuel rest
      .ok (c :: cs, rest)) := by
  simp only [characters, h]
  rfl

/-- The written form of a character is read as that character. -/
lemma characters_escapeChar (fuel : Nat) (c : Char) (rest : List Char) :
    characters (fuel + 1) (escapeChar c ++ rest) = (do
      let (cs, rest) ← characters fuel rest
      .ok (c :: cs, rest)) := by
  simp only [escapeChar]
  split
  · next h => exact characters_escape (by rw [h]; rfl)
  · next quote =>
    split
    · next h => exact characters_escape (by rw [h]; rfl)
    · next backslash =>
      split
      · next h => exact characters_escape (by rw [h]; rfl)
      · split
        · next h => exact characters_escape (by rw [h]; rfl)
        · split
          · next h => exact characters_escape (by rw [h]; rfl)
          · split
            · next h => exact characters_escape (by rw [h]; rfl)
            · split
              · next h => exact characters_escape (by rw [h]; rfl)
              · split
                · next control => exact characters_escape (unicodeEscape_control control rest)
                · next plain =>
                  simp only [List.cons_append, List.nil_append, characters, if_neg quote,
                    if_neg backslash, if_neg plain]

/-- A text is read back from behind its opening quote. -/
lemma characters_flatMap {fuel : Nat} (cs rest : List Char) (h : cs.length < fuel) :
    characters fuel (cs.flatMap escapeChar ++ '"' :: rest) = .ok (cs, rest) := by
  induction cs generalizing fuel with
  | nil =>
    obtain ⟨fuel, rfl⟩ := Nat.exists_eq_succ_of_ne_zero (Nat.ne_of_gt h)
    rfl
  | cons c cs ih =>
    obtain ⟨fuel, rfl⟩ := Nat.exists_eq_succ_of_ne_zero (Nat.ne_of_gt (Nat.lt_of_le_of_lt (Nat.zero_le _) h))
    rw [List.flatMap_cons, List.append_assoc, characters_escapeChar,
      ih (Nat.lt_of_succ_lt_succ h)]
    rfl

lemma length_le_flatMap_escapeChar (cs : List Char) :
    cs.length ≤ (cs.flatMap escapeChar).length := by
  induction cs with
  | nil => exact Nat.le_refl _
  | cons c cs ih =>
    have : 1 ≤ (escapeChar c).length := by
      simp only [escapeChar]
      repeat' split
      all_goals simp
    rw [List.flatMap_cons, List.length_append, List.length_cons]
    omega

/-- A text in quotes is read back from behind its opening quote. -/
theorem string_quoted (s : String) (rest : List Char) :
    string (s.toList.flatMap escapeChar ++ '"' :: rest) = .ok (s, rest) := by
  have enough : s.toList.length <
      (s.toList.flatMap escapeChar ++ '"' :: rest).length + 1 := by
    have := length_le_flatMap_escapeChar s.toList
    rw [List.length_append]
    omega
  simp only [string, characters_flatMap s.toList rest enough]
  show Except.ok (String.ofList s.toList, rest) = _
  rw [String.ofList_toList]

end Multipass.Json
