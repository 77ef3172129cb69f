import Mathlib.Data.List.Basic
import Multipass.Proofs.Json.Scalar

/-!
# JSON text in one line

The compact form of a value holds no control character, so that it takes up one line: within strings
such characters are escaped, and outside of them none is written.

Main statement: `Json.unbroken_compactChars`.
-/

namespace Multipass.Json

open Number

/-- Holds of a text without characters below the blank, among them the line feed. -/
def Unbroken (s : List Char) : Prop :=
  ∀ c ∈ s, 0x20 ≤ c.toNat

namespace Unbroken

variable {c : Char} {s t : List Char}

@[simp] lemma nil : Unbroken [] := nofun

@[simp] lemma cons_iff : Unbroken (c :: s) ↔ 0x20 ≤ c.toNat ∧ Unbroken s :=
  List.forall_mem_cons

@[simp] lemma append_iff : Unbroken (s ++ t) ↔ Unbroken s ∧ Unbroken t :=
  List.forall_mem_append

lemma subset (unbroken : Unbroken t) (sub : s ⊆ t) : Unbroken s :=
  fun c mem => unbroken c (sub mem)

lemma replicate (n : Nat) (printed : 0x20 ≤ c.toNat) : Unbroken (List.replicate n c) := by
  intro d mem
  rwa [List.eq_of_mem_replicate mem]

lemma flatMap {write : Char → List Char} (each : ∀ c, Unbroken (write c)) (s : List Char) :
    Unbroken (s.flatMap write) := by
  intro d mem
  obtain ⟨c, -, mem⟩ := List.mem_flatMap.1 mem
  exact each c d mem

lemma lineFeed_notMem (unbroken : Unbroken s) : '\n' ∉ s :=
  fun mem => absurd (unbroken '\n' mem) (by decide)

end Unbroken

/-! ### Numbers -/

lemma unbroken_of_isDigit {ds : List Char} (digits : ∀ d ∈ ds, d.isDigit = true) :
    Unbroken ds := by
  intro d mem
  have digit := digits d mem
  simp only [Char.isDigit, Bool.and_eq_true, decide_eq_true_eq] at digit
  have least : 48 ≤ d.toNat := UInt32.le_iff_toNat_le.1 digit.1
  omega

lemma unbroken_digitChars (n : Nat) : Unbroken (digitChars n) :=
  unbroken_of_isDigit fun _ => isDigit_of_mem_digitChars

lemma unbroken_signed {s : List Char} (negative : Bool) (unbroken : Unbroken s) :
    Unbroken (signed negative s) := by
  cases negative with
  | false => exact unbroken
  | true => exact Unbroken.cons_iff.2 ⟨by decide, unbroken⟩

lemma stripZeros_subset (ds : List Char) : stripZeros ds ⊆ ds := by
  intro d mem
  rw [stripZeros, List.mem_reverse] at mem
  exact List.mem_reverse.1 ((List.dropWhile_sublist _).subset mem)

lemma unbroken_shortest (fmt : Format) (m : Nat) (e : Int) : Unbroken (shortest fmt m e).digits := by
  rw [shortest]
  split
  · simp
  · exact (unbroken_digitChars _).subset (stripZeros_subset _)

lemma unbroken_positional {d : Digits} (digits : Unbroken d.digits) : Unbroken d.positional := by
  have zeros (n : Nat) : Unbroken (List.replicate n '0') := .replicate n (by decide)
  simp only [Digits.positional]
  split
  · simp [zeros, digits]
  · split
    · simp [zeros, digits]
    · have front := digits.subset (List.take_subset d.point.toNat _)
      have back := digits.subset (List.drop_subset d.point.toNat _)
      simp [front, back]

lemma unbroken_scientific {d : Digits} (digits : Unbroken d.digits) : Unbroken d.scientific := by
  obtain ⟨ds, point⟩ := d
  have exponent :
      Unbroken (['e', if point - 1 < 0 then '-' else '+'] ++ digitChars (point - 1).natAbs) := by
    refine Unbroken.append_iff.2 ⟨?_, unbroken_digitChars _⟩
    split <;> simp
  cases ds with
  | nil => exact exponent
  | cons c cs =>
    obtain ⟨first, others⟩ := Unbroken.cons_iff.1 digits
    cases cs with
    | nil => exact Unbroken.cons_iff.2 ⟨first, exponent⟩
    | cons c' cs =>
      simp only [Digits.scientific, List.append_assoc, List.cons_append]
      exact Unbroken.cons_iff.2 ⟨first, Unbroken.cons_iff.2 ⟨by decide,
        Unbroken.append_iff.2 ⟨others, exponent⟩⟩⟩

lemma unbroken_digitsChars {d : Digits} (digits : Unbroken d.digits) : Unbroken (digitsChars d) := by
  have positional := unbroken_positional digits
  simp only [digitsChars]
  split
  · split
    · exact positional
    · simp [positional]
  · exact unbroken_scientific digits

lemma unbroken_floatChars (x : Double) : Unbroken (floatChars x) := by
  cases x with
  | nan => simp [floatChars]
  | infinite negative => simp [floatChars]
  | finite negative m e =>
    refine unbroken_signed negative ?_
    split
    · simp
    · exact unbroken_digitsChars (unbroken_shortest _ m e)

lemma unbroken_intChars (i : Int) : Unbroken (intChars i) :=
  unbroken_signed _ (unbroken_digitChars _)

/-! ### Strings -/

lemma unbroken_hexDigit {n : Nat} (h : n < 16) : 0x20 ≤ (hexDigit n).toNat := by
  have all : ∀ m < 16, 0x20 ≤ (hexDigit m).toNat := by decide
  exact all n h

/-- A character below the blank is written as an escape, and an escape holds none. -/
lemma unbroken_escapeChar (c : Char) : Unbroken (escapeChar c) := by
  simp only [escapeChar]
  split_ifs with _ _ _ _ _ _ _ control
  all_goals try simp
  · exact ⟨unbroken_hexDigit (by omega), unbroken_hexDigit (by omega)⟩
  · omega

lemma unbroken_quoted (s : String) : Unbroken (quoted s) := by
  have inside := Unbroken.flatMap unbroken_escapeChar s.toList
  simp [quoted, inside]

/-! ### Values -/

mutual

/-- The compact form of a value holds no character below the blank. -/
theorem unbroken_compactChars (j : Json) : Unbroken (compactChars j) := by
  cases j with
  | null => simp [compactChars]
  | bool b => cases b <;> simp [compactChars, boolChars]
  | int i => exact unbroken_intChars i
  | float x => exact unbroken_floatChars x
  | str s => exact unbroken_quoted s
  | arr js =>
    cases js with
    | nil => simp [compactChars]
    | cons j js => simp [compactChars, unbroken_compactChars j, unbroken_compactItems js]
  | obj fs =>
    cases fs with
    | nil => simp [compactChars]
    | cons f fs =>
      obtain ⟨k, j⟩ := f
      simp [compactChars, unbroken_quoted k, unbroken_compactChars j, unbroken_compactFields fs]

lemma unbroken_compactItems (js : List Json) : Unbroken (compactItems js) := by
  cases js with
  | nil => simp [compactItems]
  | cons j js => simp [compactItems, unbroken_compactChars j, unbroken_compactItems js]

lemma unbroken_compactFields (fs : List (String × Json)) : Unbroken (compactFields fs) := by
  cases fs with
  | nil => simp [compactFields]
  | cons f fs =>
    obtain ⟨k, j⟩ := f
    simp [compactFields, unbroken_quoted k, unbroken_compactChars j, unbroken_compactFields fs]

end

end Multipass.Json
