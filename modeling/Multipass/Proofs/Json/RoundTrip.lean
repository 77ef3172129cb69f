import Mathlib.Data.List.Forall2
import Multipass.Proofs.Json.Float
import Multipass.Proofs.Json.Readable

/-!
# JSON values read back

The compact form of a value is read within as many levels as it nests: what was read once and
written is read again. A value whose numbers are integers is read back as it was, so the compact form
tells such values apart, as the equality of values does.

Main statements: `Json.exists_parse_compact`, `Json.parse_compact` and `Json.same_iff_compact`.
-/

namespace Multipass.Json

open Number

mutual

/-- The levels that arrays and objects nest. -/
def nesting : Json → Nat
  | .arr js => nestingItems js + 1
  | .obj fs => nestingFields fs + 1
  | _ => 0

/-- The levels that items nest. -/
def nestingItems : List Json → Nat
  | [] => 0
  | j :: js => max (nesting j) (nestingItems js)

/-- The levels that the values of fields nest. -/
def nestingFields : List (String × Json) → Nat
  | [] => 0
  | (_, j) :: fs => max (nesting j) (nestingFields fs)

end

mutual

/-- Holds of a value in which each number is an integer of 64 bits, with a sign or without, and each
object has its fields in ascending order. -/
def Exact : Json → Prop
  | .int i => -0x8000000000000000 ≤ i ∧ i ≤ 0xffffffffffffffff
  | .float _ => False
  | .arr js => ExactItems js
  | .obj fs => (fs.map Prod.fst).Pairwise (· < ·) ∧ ExactFields fs
  | _ => True

/-- Holds of items that are such values. -/
def ExactItems : List Json → Prop
  | [] => True
  | j :: js => Exact j ∧ ExactItems js

/-- Holds of fields with such values. -/
def ExactFields : List (String × Json) → Prop
  | [] => True
  | (_, j) :: fs => Exact j ∧ ExactFields fs

end

lemma ExactItems.of_mem {js : List Json} (exact : ExactItems js) {j : Json} (mem : j ∈ js) :
    j.Exact ∧ j.nesting ≤ nestingItems js := by
  induction js with
  | nil => cases mem
  | cons i js ih =>
    obtain ⟨head, tail⟩ := exact
    simp only [nestingItems]
    obtain rfl | mem := List.mem_cons.1 mem
    · exact ⟨head, Nat.le_max_left ..⟩
    · exact ⟨(ih tail mem).1, Nat.le_trans (ih tail mem).2 (Nat.le_max_right ..)⟩

lemma ExactFields.of_mem {fs : List (String × Json)} (exact : ExactFields fs) {f : String × Json}
    (mem : f ∈ fs) : f.2.Exact ∧ f.2.nesting ≤ nestingFields fs := by
  induction fs with
  | nil => cases mem
  | cons g fs ih =>
    obtain ⟨head, tail⟩ := exact
    simp only [nestingFields]
    obtain rfl | mem := List.mem_cons.1 mem
    · exact ⟨head, Nat.le_max_left ..⟩
    · exact ⟨(ih tail mem).1, Nat.le_trans (ih tail mem).2 (Nat.le_max_right ..)⟩

/-! ### How written values begin -/

lemma skipSpace_cons {c : Char} (h : isSpace c = false) (s : List Char) :
    skipSpace (c :: s) = c :: s := by
  simp [skipSpace, h]

/-- Holds of a text that begins with neither a blank nor the end of an array. -/
def Begins (s : List Char) : Prop :=
  ∃ c rest, s = c :: rest ∧ isSpace c = false ∧ c ≠ ']'

lemma Begins.append {s : List Char} (begins : Begins s) (rest : List Char) :
    Begins (s ++ rest) := by
  obtain ⟨c, s, rfl, space, bracket⟩ := begins
  exact ⟨c, s ++ rest, rfl, space, bracket⟩

lemma Begins.skipSpace {s : List Char} (begins : Begins s) : skipSpace s = s := by
  obtain ⟨c, s, rfl, space, -⟩ := begins
  simp [Json.skipSpace, space]

lemma begins_of_isDigit {c : Char} (h : c.isDigit = true) (rest : List Char) :
    Begins (c :: rest) := by
  refine ⟨c, rest, rfl, ?_, ?_⟩
  · simp only [isSpace, Bool.or_eq_false_iff, decide_eq_false_iff_not]
    refine ⟨⟨⟨?_, ?_⟩, ?_⟩, ?_⟩ <;> (rintro rfl; exact absurd h (by decide))
  · rintro rfl
    exact absurd h (by decide)

lemma begins_digitChars (n : Nat) : Begins (digitChars n) := by
  cases hd : digitChars n with
  | nil => exact absurd hd Nat.toDigits_ne_nil
  | cons c cs =>
    exact begins_of_isDigit (isDigit_of_mem_digitChars (hd ▸ List.mem_cons_self)) cs

/-- What is read as a number begins with a digit. -/
lemma isDigit_of_number {negative : Bool} {s : List Char} {p : Json × List Char}
    (h : number negative s = .ok p) : ∃ c rest, s = c :: rest ∧ c.isDigit = true := by
  cases s with
  | nil => cases h
  | cons c rest =>
    cases digit : c.isDigit with
    | true => exact ⟨c, rest, rfl, digit⟩
    | false => simp [number, digit] at h

lemma begins_floatChars {x : Double} (held : Binary.Representable .double x) :
    Begins (floatChars x) := by
  have starts {c : Char} {rest : List Char} (space : isSpace c = false) (bracket : c ≠ ']') :
      Begins (c :: rest) := ⟨c, rest, rfl, space, bracket⟩
  cases x with
  | nan => exact starts rfl (by decide)
  | infinite negative => exact starts rfl (by decide)
  | finite negative m e =>
    simp only [floatChars, signed]
    split
    · exact starts rfl (by decide)
    · obtain ⟨j, read⟩ := number_finite false held ends_nil
      rw [List.append_nil] at read
      obtain ⟨c, rest, eq, digit⟩ := isDigit_of_number read
      rw [eq]
      exact begins_of_isDigit digit rest

lemma begins_compactChars {depth : Nat} {j : Json} (readable : Readable depth j) :
    Begins (compactChars j) := by
  have starts {c : Char} {rest : List Char} (space : isSpace c = false) (bracket : c ≠ ']') :
      Begins (c :: rest) := ⟨c, rest, rfl, space, bracket⟩
  cases readable with
  | null => exact starts rfl (by decide)
  | @bool _ b => cases b <;> exact starts rfl (by decide)
  | @int _ i =>
    simp only [compactChars, intChars, signed]
    split
    · exact starts rfl (by decide)
    · exact begins_digitChars _
  | float held _ => exact begins_floatChars held
  | str => exact starts rfl (by decide)
  | @arr _ js => cases js <;> exact starts rfl (by decide)
  | @obj _ fs => cases fs <;> exact starts rfl (by decide)

/-! ### Values that hold no others -/

lemma value_of_isDigit {c : Char} {s : List Char} (depth : Nat) (h : c.isDigit = true) :
    value depth (c :: s) = number false (c :: s) := by
  have skip := (begins_of_isDigit h s).skipSpace
  unfold value
  rw [skip]
  split
  · next eq => cases eq
  · next eq => cases eq; exact absurd h (by decide)
  · next eq => cases eq; exact absurd h (by decide)
  · next eq => cases eq; exact absurd h (by decide)
  · next eq => cases eq; exact absurd h (by decide)
  · next eq => cases eq; exact absurd h (by decide)
  · next eq => cases eq; exact absurd h (by decide)
  · next eq => cases eq; exact absurd h (by decide)
  · next eq =>
    cases eq
    rw [if_pos h]

lemma value_minus (depth : Nat) (s : List Char) : value depth ('-' :: s) = number true s := by
  unfold value
  rfl

lemma value_int {i : Int} {rest : List Char} (depth : Nat) (ends : Ends rest)
    (low : -0x8000000000000000 ≤ i) (high : i ≤ 0xffffffffffffffff) :
    value depth (compactChars (.int i) ++ rest) = .ok (.int i, rest) := by
  by_cases negative : i < 0
  · have fits : i.natAbs ≤ maxSignificand := by simp only [maxSignificand]; omega
    have written : compactChars (.int i) = '-' :: digitChars i.natAbs := by
      simp [compactChars, intChars, signed, negative]
    have inside : ¬ (i.natAbs = 0 ∨ 0x8000000000000000 < i.natAbs) := by omega
    have back : -(i.natAbs : Int) = i := by omega
    rw [written, List.cons_append, value_minus, number_digitChars true ends fits]
    simp only [integer, Bool.not_true, Bool.false_eq_true, if_false, if_neg inside, back]
  · have fits : i.natAbs ≤ maxSignificand := by simp only [maxSignificand]; omega
    have written : compactChars (.int i) = digitChars i.natAbs := by
      simp [compactChars, intChars, signed, negative]
    have back : (i.natAbs : Int) = i := by omega
    have read := number_digitChars false ends fits
    rw [written]
    cases hd : digitChars i.natAbs with
    | nil => exact absurd hd Nat.toDigits_ne_nil
    | cons c cs =>
      rw [hd, List.cons_append] at read
      rw [List.cons_append,
        value_of_isDigit depth (isDigit_of_mem_digitChars (hd ▸ List.mem_cons_self)), read]
      simp only [integer, Bool.not_false, if_true, back]

lemma value_quoted (depth : Nat) (s : String) (rest : List Char) :
    value depth (quoted s ++ rest) = .ok (.str s, rest) := by
  have written : quoted s ++ rest = '"' :: (s.toList.flatMap escapeChar ++ '"' :: rest) := by
    simp [quoted]
  have read : value depth ('"' :: (s.toList.flatMap escapeChar ++ '"' :: rest)) =
      (string (s.toList.flatMap escapeChar ++ '"' :: rest)).bind fun p => .ok (.str p.1, p.2) := by
    unfold value
    rfl
  rw [written, read, string_quoted]
  rfl

/-- A double is read, if not always as itself. -/
lemma exists_value_float {x : Double} {rest : List Char} (depth : Nat) (ends : Ends rest)
    (held : Binary.Representable .double x) :
    ∃ k, value depth (compactChars (.float x) ++ rest) = .ok (k, rest) := by
  have none : ∃ k, value depth (['n', 'u', 'l', 'l'] ++ rest) = .ok (k, rest) := by
    unfold value
    exact ⟨_, rfl⟩
  cases x with
  | nan => exact none
  | infinite negative => exact none
  | finite negative m e =>
    simp only [compactChars, floatChars, signed]
    split
    · rw [List.cons_append, value_minus]
      exact number_finite true held ends
    · obtain ⟨k, read⟩ := number_finite false held ends
      obtain ⟨c, s, eq, digit⟩ := isDigit_of_number read
      rw [eq] at read ⊢
      exact ⟨k, (value_of_isDigit depth digit).trans read⟩

/-! ### Arrays and objects -/

/-- Items are read from their written forms, each as something that is related to it, given that each
of them is. -/
lemma items_written {α β : Type} {item : Reader β} {write : α → List Char} {R : α → β → Prop}
    {fuel : Nat} {a : α} {as : List α} (rest : List Char)
    (reads : ∀ b ∈ a :: as, ∀ rest, Ends rest → ∃ c, item (write b ++ rest) = .ok (c, rest) ∧ R b c)
    (begins : ∀ b ∈ as, Begins (write b)) (enough : as.length < fuel) :
    ∃ cs, items item fuel (write a ++ ((as.flatMap fun b => ',' :: write b) ++ ']' :: rest)) =
      .ok (cs, rest) ∧ List.Forall₂ R (a :: as) cs := by
  induction as generalizing a fuel with
  | nil =>
    obtain ⟨fuel, rfl⟩ := Nat.exists_eq_succ_of_ne_zero (Nat.ne_of_gt enough)
    have ends : Ends (']' :: rest) := ends_cons rest (by decide)
    obtain ⟨c, read, related⟩ := reads a List.mem_cons_self _ ends
    refine ⟨[c], ?_, .cons related .nil⟩
    simp only [items, List.flatMap_nil, List.nil_append, read]
    rfl
  | cons b bs ih =>
    obtain ⟨fuel, rfl⟩ := Nat.exists_eq_succ_of_ne_zero
      (Nat.ne_of_gt (Nat.lt_of_le_of_lt (Nat.zero_le _) enough))
    obtain ⟨cs, next, others⟩ := ih (fun c mem => reads c (List.mem_cons_of_mem a mem))
      (fun c mem => begins c (List.mem_cons_of_mem b mem)) (Nat.lt_of_succ_lt_succ enough)
    have start := (begins b List.mem_cons_self).append
      ((bs.flatMap fun b => ',' :: write b) ++ ']' :: rest)
    have layout : ((b :: bs).flatMap fun b => ',' :: write b) ++ ']' :: rest =
        ',' :: (write b ++ ((bs.flatMap fun b => ',' :: write b) ++ ']' :: rest)) := by
      simp [List.flatMap_cons]
    rw [layout]
    generalize write b ++ ((bs.flatMap fun b => ',' :: write b) ++ ']' :: rest) = tail at next start
    have ends : Ends (',' :: tail) := ends_cons tail (by decide)
    have comma : isSpace ',' = false := by decide
    obtain ⟨c, read, related⟩ := reads a List.mem_cons_self _ ends
    refine ⟨c :: cs, ?_, .cons related others⟩
    simp only [items, read, bind, Except.bind, skipSpace_cons comma, start.skipSpace]
    -- Behind the comma begins an item, which does not close the array.
    obtain ⟨c, s, rfl, -, bracket⟩ := start
    split
    · next eq => cases eq
    · next eq => cases eq; exact absurd rfl bracket
    · rw [next]

/-- Written items with commas between them. -/
def separated {α : Type} (write : α → List Char) : List α → List Char
  | [] => []
  | a :: as => write a ++ as.flatMap fun b => ',' :: write b

lemma length_le_flatMap_comma {α : Type} (write : α → List Char) (as : List α) :
    as.length ≤ (as.flatMap fun b => ',' :: write b).length := by
  induction as with
  | nil => exact Nat.le_refl _
  | cons a as ih =>
    rw [List.flatMap_cons, List.length_append, List.length_cons, List.length_cons]
    omega

/-- An array is read from behind its bracket. -/
lemma array_separated {α β : Type} {item : Reader β} {write : α → List Char} {R : α → β → Prop}
    {as : List α} (rest : List Char)
    (reads : ∀ b ∈ as, ∀ rest, Ends rest → ∃ c, item (write b ++ rest) = .ok (c, rest) ∧ R b c)
    (begins : ∀ b ∈ as, Begins (write b)) :
    ∃ cs, array item (separated write as ++ ']' :: rest) = .ok (cs, rest) ∧ List.Forall₂ R as cs := by
  cases as with
  | nil => exact ⟨[], rfl, .nil⟩
  | cons a as =>
    have layout : separated write (a :: as) ++ ']' :: rest =
        write a ++ ((as.flatMap fun b => ',' :: write b) ++ ']' :: rest) := by
      simp [separated]
    have start := (begins a List.mem_cons_self).append
      ((as.flatMap fun b => ',' :: write b) ++ ']' :: rest)
    have enough : as.length <
        (write a ++ ((as.flatMap fun b => ',' :: write b) ++ ']' :: rest)).length := by
      have := length_le_flatMap_comma write as
      simp only [List.length_append, List.length_cons]
      omega
    obtain ⟨cs, read, related⟩ := items_written rest reads
      (fun b mem => begins b (List.mem_cons_of_mem a mem)) enough
    refine ⟨cs, ?_, related⟩
    rw [layout]
    generalize write a ++ ((as.flatMap fun b => ',' :: write b) ++ ']' :: rest) = tail
      at read start
    simp only [array]
    rw [start.skipSpace]
    obtain ⟨c, s, rfl, -, bracket⟩ := start
    split
    · next eq => cases eq
    · next eq => cases eq; exact absurd rfl bracket
    · exact read

lemma compactItems_eq (js : List Json) :
    compactItems js = js.flatMap fun j => ',' :: compactChars j := by
  induction js with
  | nil => rfl
  | cons j js ih => simp [compactItems, ih]

lemma compactChars_arr (js : List Json) :
    compactChars (.arr js) = '[' :: separated compactChars js ++ [']'] := by
  cases js with
  | nil => rfl
  | cons j js => simp [compactChars, separated, compactItems_eq]

/-- A key without its opening quote, and what follows its colon. -/
def keyed (key : String) (s : List Char) : List Char :=
  key.toList.flatMap escapeChar ++ '"' :: ':' :: s

lemma keyed_append (key : String) (s t : List Char) : keyed key s ++ t = keyed key (s ++ t) := by
  simp [keyed]

section Members

variable {α : Type} {field : α → String → List Char → Except Fault (Reader α)} {reader : Reader α}
  {fuel : Nat} {gathered gathered' : α} {key : String} {s rest : List Char}

/-- The last field is read, and the object ends. -/
lemma members_last (hf : field gathered key (':' :: s) = .ok reader)
    (reads : reader s = .ok (gathered', '\x7d' :: rest)) :
    members field (fuel + 1) gathered (keyed key s) = .ok (gathered', rest) := by
  have colon : isSpace ':' = false := rfl
  have brace : isSpace '\x7d' = false := rfl
  simp only [members, keyed, string_quoted, bind, Except.bind, hf, reads, skipSpace_cons colon,
    skipSpace_cons brace]

/-- A field is read, and another one follows. -/
lemma members_next (hf : field gathered key (':' :: s) = .ok reader)
    (reads : reader s = .ok (gathered', ',' :: '"' :: rest)) :
    members field (fuel + 1) gathered (keyed key s) = members field fuel gathered' rest := by
  have colon : isSpace ':' = false := rfl
  have comma : isSpace ',' = false := rfl
  have quote : isSpace '"' = false := rfl
  conv_lhs => simp only [members, keyed, string_quoted, bind, Except.bind, hf, reads,
    skipSpace_cons colon, skipSpace_cons comma, skipSpace_cons quote]

end Members

/-- The written form of a field, without the opening quote of its key. -/
def fieldChars (f : String × Json) : List Char :=
  keyed f.1 (compactChars f.2)

lemma compactFields_eq (fs : List (String × Json)) :
    compactFields fs = fs.flatMap fun f => ',' :: '"' :: fieldChars f := by
  induction fs with
  | nil => rfl
  | cons f fs ih => simp [compactFields, quoted, fieldChars, keyed, ih]

/-- A field with a key above all others goes to the end. -/
lemma insertField_append {fs : List (String × Json)} {key : String} (j : Json)
    (above : ∀ f ∈ fs, f.1 < key) : insertField key j fs = fs ++ [(key, j)] := by
  induction fs with
  | nil => rfl
  | cons f fs ih =>
    have lt := above f List.mem_cons_self
    have ne : key ≠ f.1 := fun eq => String.lt_irrefl key (eq ▸ lt)
    rw [insertField, if_neg (String.lt_asymm lt), if_neg ne,
      ih fun g mem => above g (List.mem_cons_of_mem f mem)]
    rfl

/-- Where keys ascend, those in front are below the next one. -/
lemma lt_of_ascending {f : String × Json} {fs gathered : List (String × Json)}
    (ascending : ((gathered ++ f :: fs).map Prod.fst).Pairwise (· < ·)) :
    ∀ g ∈ gathered, g.1 < f.1 := by
  intro g mem
  rw [List.map_append, List.pairwise_append] at ascending
  exact ascending.2.2 g.1 (List.mem_map_of_mem mem) f.1 (List.mem_map_of_mem List.mem_cons_self)

/-- The fields that are gathered, behind those that were before. -/
def gatherFields (gathered fs : List (String × Json)) : List (String × Json) :=
  fs.foldl (fun acc f => insertField f.1 f.2 acc) gathered

/-- Fields in the order of their keys are gathered as they are. -/
lemma gatherFields_of_ascending {fs gathered : List (String × Json)}
    (ascending : ((gathered ++ fs).map Prod.fst).Pairwise (· < ·)) :
    gatherFields gathered fs = gathered ++ fs := by
  induction fs generalizing gathered with
  | nil => simp [gatherFields]
  | cons f fs ih =>
    have shift : gathered ++ f :: fs = (gathered ++ [f]) ++ fs := by simp
    have next := ih (shift ▸ ascending)
    rw [shift, ← next, gatherFields, List.foldl_cons, insertField_append _ (lt_of_ascending ascending)]
    rfl

lemma setField_reads {item : Reader Json} {k : Json} {s rest : List Char} (key : String)
    (gathered : List (String × Json)) (reads : item s = .ok (k, rest)) :
    ∃ reader, setField item gathered key (':' :: s) = .ok reader ∧
      reader s = .ok (insertField key k gathered, rest) := by
  refine ⟨_, rfl, ?_⟩
  simp only [reads, bind, Except.bind]

section Fields

variable {item : Reader Json} {R : Json → Json → Prop}

/-- Fields are read from behind the first quote, each value as something that is related to it, given
that each of them is. -/
lemma members_written {fuel : Nat} {f : String × Json} {fs : List (String × Json)}
    (gathered : List (String × Json)) (rest : List Char)
    (reads : ∀ g ∈ f :: fs, ∀ rest, Ends rest →
      ∃ k, item (compactChars g.2 ++ rest) = .ok (k, rest) ∧ R g.2 k)
    (enough : fs.length < fuel) :
    ∃ gs, members (setField item) fuel gathered
        (fieldChars f ++ ((fs.flatMap fun g => ',' :: '"' :: fieldChars g) ++ '\x7d' :: rest)) =
        .ok (gatherFields gathered gs, rest) ∧
      List.Forall₂ (fun f g => g.1 = f.1 ∧ R f.2 g.2) (f :: fs) gs := by
  induction fs generalizing f gathered fuel with
  | nil =>
    obtain ⟨fuel, rfl⟩ := Nat.exists_eq_succ_of_ne_zero (Nat.ne_of_gt enough)
    have ends : Ends ('\x7d' :: rest) := ends_cons rest (by decide)
    obtain ⟨k, first, related⟩ := reads f List.mem_cons_self _ ends
    obtain ⟨reader, hf, read⟩ := setField_reads f.1 gathered first
    refine ⟨[(f.1, k)], ?_, .cons ⟨rfl, related⟩ .nil⟩
    rw [List.flatMap_nil, List.nil_append, fieldChars, keyed_append]
    exact members_last hf read
  | cons g fs ih =>
    obtain ⟨fuel, rfl⟩ := Nat.exists_eq_succ_of_ne_zero
      (Nat.ne_of_gt (Nat.lt_of_le_of_lt (Nat.zero_le _) enough))
    let next :=
      fieldChars g ++ ((fs.flatMap fun g => ',' :: '"' :: fieldChars g) ++ '\x7d' :: rest)
    have layout : ((g :: fs).flatMap fun g => ',' :: '"' :: fieldChars g) ++ '\x7d' :: rest =
        ',' :: '"' :: next := by
      simp [next]
    have ends : Ends (',' :: '"' :: next) := ends_cons _ (by decide)
    obtain ⟨k, first, related⟩ := reads f List.mem_cons_self _ ends
    obtain ⟨reader, hf, read⟩ := setField_reads f.1 gathered first
    obtain ⟨gs, others, relatedOthers⟩ := ih (insertField f.1 k gathered)
      (fun h mem => reads h (List.mem_cons_of_mem f mem)) (Nat.lt_of_succ_lt_succ enough)
    refine ⟨(f.1, k) :: gs, ?_, .cons ⟨rfl, related⟩ relatedOthers⟩
    rw [layout, fieldChars, keyed_append, members_next hf read]
    exact others

lemma length_le_flatMap_fields (fs : List (String × Json)) :
    fs.length ≤ (fs.flatMap fun g => ',' :: '"' :: fieldChars g).length := by
  induction fs with
  | nil => exact Nat.le_refl _
  | cons f fs ih =>
    rw [List.flatMap_cons, List.length_append, List.length_cons, List.length_cons,
      List.length_cons]
    omega

/-- An object is read from behind its brace. -/
lemma object_written {fs : List (String × Json)} {s : List Char} (rest : List Char)
    (written : compactChars (.obj fs) ++ rest = '\x7b' :: s)
    (reads : ∀ g ∈ fs, ∀ rest, Ends rest →
      ∃ k, item (compactChars g.2 ++ rest) = .ok (k, rest) ∧ R g.2 k) :
    ∃ gs, object (setField item) [] s = .ok (gatherFields [] gs, rest) ∧
      List.Forall₂ (fun f g => g.1 = f.1 ∧ R f.2 g.2) fs gs := by
  cases fs with
  | nil =>
    cases written
    exact ⟨[], rfl, .nil⟩
  | cons f fs =>
    have layout : compactChars (.obj (f :: fs)) ++ rest = '\x7b' :: '"' ::
        (fieldChars f ++ ((fs.flatMap fun g => ',' :: '"' :: fieldChars g) ++ '\x7d' :: rest)) := by
      simp [compactChars, quoted, fieldChars, keyed, compactFields_eq]
    rw [layout] at written
    cases written
    have enough := length_le_flatMap_fields fs
    refine members_written [] rest reads ?_
    simp only [List.length_append, List.length_cons]
    omega

end Fields

/-! ### Whole values -/

/-- Holds of what a value may be read as: an exact value is read back. -/
def ReadAs (j k : Json) : Prop :=
  j.Exact → k = j

lemma ExactItems.readAs {js ks : List Json} (exact : ExactItems js) (read : List.Forall₂ ReadAs js ks) :
    ks = js := by
  induction read with
  | nil => rfl
  | cons first _ ih => rw [first exact.1, ih exact.2]

lemma ExactFields.readAs {fs gs : List (String × Json)} (exact : ExactFields fs)
    (read : List.Forall₂ (fun f g => g.1 = f.1 ∧ ReadAs f.2 g.2) fs gs) : gs = fs := by
  induction read with
  | nil => rfl
  | cons first _ ih => rw [ih exact.2, Prod.ext first.1 (first.2 exact.1)]

/-- A readable value is read from its compact form. -/
theorem exists_value {depth : Nat} {j : Json} {rest : List Char} (readable : Readable depth j)
    (ends : Ends rest) :
    ∃ k, value depth (compactChars j ++ rest) = .ok (k, rest) ∧ ReadAs j k := by
  induction readable generalizing rest with
  | null =>
    unfold value
    exact ⟨_, rfl, fun _ => rfl⟩
  | @bool _ b =>
    unfold value
    cases b <;> exact ⟨_, rfl, fun _ => rfl⟩
  | @int depth i low high => exact ⟨_, value_int depth ends low high, fun _ => rfl⟩
  | @float depth x held _ =>
    obtain ⟨k, read⟩ := exists_value_float depth ends held
    exact ⟨k, read, False.elim⟩
  | @str depth s => exact ⟨_, value_quoted depth s rest, fun _ => rfl⟩
  | @arr depth js readable ih =>
    obtain ⟨ks, read, related⟩ := array_separated rest (fun j mem _ ends => ih j mem ends)
      fun j mem => begins_compactChars (readable j mem)
    refine ⟨.arr ks, ?_, fun exact => ?_⟩
    · have layout : compactChars (.arr js) ++ rest =
          '[' :: (separated compactChars js ++ ']' :: rest) := by
        simp [compactChars_arr]
      have bracket : isSpace '[' = false := rfl
      rw [layout]
      unfold value
      simp only [skipSpace_cons bracket, read, bind, Except.bind]
    · rw [ExactItems.readAs exact related]
  | @obj depth fs readable ih =>
    obtain ⟨s, layout⟩ : ∃ s, compactChars (.obj fs) ++ rest = '\x7b' :: s := by
      cases fs <;> exact ⟨_, rfl⟩
    obtain ⟨gs, read, related⟩ := object_written rest layout fun f mem _ ends => ih f mem ends
    refine ⟨.obj (gatherFields [] gs), ?_, fun exact => ?_⟩
    · have brace : isSpace '\x7b' = false := rfl
      rw [layout]
      unfold value
      simp only [skipSpace_cons brace, read, bind, Except.bind]
    · obtain ⟨ascending, exact⟩ := exact
      rw [ExactFields.readAs exact related, gatherFields_of_ascending (by exact ascending), List.nil_append]

/-- An exact value is readable within as many levels as it nests. -/
lemma Exact.readable {depth : Nat} {j : Json} (exact : j.Exact) (nests : j.nesting ≤ depth) :
    Readable depth j := by
  induction depth using Nat.strongRecOn generalizing j with
  | ind depth ih =>
    cases j with
    | null => exact .null
    | bool b => exact .bool
    | int i => exact .int exact.1 exact.2
    | float x => exact exact.elim
    | str s => exact .str
    | arr js =>
      cases depth with
      | zero => exact absurd nests (Nat.not_succ_le_zero _)
      | succ depth =>
        refine .arr fun i mem => ?_
        obtain ⟨exactItem, le⟩ := ExactItems.of_mem exact mem
        exact ih depth (Nat.lt_succ_self depth) exactItem
          (Nat.le_trans le (Nat.le_of_succ_le_succ nests))
    | obj fs =>
      cases depth with
      | zero => exact absurd nests (Nat.not_succ_le_zero _)
      | succ depth =>
        refine .obj fun f mem => ?_
        obtain ⟨exactField, le⟩ := ExactFields.of_mem exact.2 mem
        exact ih depth (Nat.lt_succ_self depth) exactField
          (Nat.le_trans le (Nat.le_of_succ_le_succ nests))

/-- An exact value is read back within as many levels as it nests. -/
theorem value_compactChars {depth : Nat} {j : Json} {rest : List Char} (exact : j.Exact)
    (nests : j.nesting ≤ depth) (ends : Ends rest) :
    value depth (compactChars j ++ rest) = .ok (j, rest) := by
  obtain ⟨k, read, back⟩ := exists_value (exact.readable nests) ends
  rw [read, back exact]

/-- Holds of a value that a text can hold: exact, and not nested too deeply. -/
structure Plain (j : Json) : Prop where
  exact : j.Exact
  nesting : j.nesting ≤ maxDepth

/-- What a reader reads of a whole text is all that the text holds. -/
lemma entire_of_reads {α : Type} {read : Reader α} {s : List Char} {a : α}
    (h : read s = .ok (a, [])) : entire read s = .ok a := by
  simp only [entire, h, bind, Except.bind]
  rfl

/-- A value that nests no more levels than may be read is read from its compact text. -/
theorem exists_parse_compact {j : Json} (readable : Readable maxDepth j) :
    ∃ k, parse j.compact = .ok k := by
  obtain ⟨k, read, -⟩ := exists_value readable ends_nil
  rw [List.append_nil] at read
  refine ⟨k, ?_⟩
  rw [parse, compact, String.toList_ofList]
  exact entire_of_reads read

/-- A value is read back from its compact text. -/
theorem parse_compact {j : Json} (plain : j.Plain) : parse j.compact = .ok j := by
  have read := value_compactChars plain.exact plain.nesting ends_nil
  rw [List.append_nil] at read
  rw [parse, compact, String.toList_ofList]
  exact entire_of_reads read

lemma parseNamed_of_parse {text : String} {j : Json} (h : parse text = .ok j) :
    parseNamed text = .ok j := by
  rw [parse, whole] at h
  rw [parseNamed, parseAs, h]
  rfl

theorem parseNamed_compact {j : Json} (plain : j.Plain) : parseNamed j.compact = .ok j :=
  parseNamed_of_parse (parse_compact plain)

/-- The compact text tells values apart. -/
lemma compact_injective {a b : Json} (plain : a.Plain) (plain' : b.Plain)
    (h : a.compact = b.compact) : a = b := by
  have read := parse_compact plain
  rw [h, parse_compact plain'] at read
  exact (Except.ok.inj read).symm

/-! ### Equality of values -/

lemma sameItems_iff {as bs : List Json} (each : ∀ a ∈ as, ∀ b, same a b = true ↔ a = b) :
    sameItems as bs = true ↔ as = bs := by
  induction as generalizing bs with
  | nil => cases bs <;> simp [sameItems]
  | cons a as ih =>
    cases bs with
    | nil => simp [sameItems]
    | cons b bs =>
      rw [sameItems, Bool.and_eq_true, each a List.mem_cons_self b,
        ih fun c mem => each c (List.mem_cons_of_mem a mem), List.cons.injEq]

lemma sameFields_iff {fs gs : List (String × Json)}
    (each : ∀ f ∈ fs, ∀ b, same f.2 b = true ↔ f.2 = b) :
    sameFields fs gs = true ↔ fs = gs := by
  induction fs generalizing gs with
  | nil => cases gs <;> simp [sameFields]
  | cons f fs ih =>
    cases gs with
    | nil => simp [sameFields]
    | cons g gs =>
      rw [sameFields, Bool.and_eq_true, Bool.and_eq_true, each f List.mem_cons_self g.2,
        ih fun h mem => each h (List.mem_cons_of_mem f mem), List.cons.injEq, beq_iff_eq,
        Prod.ext_iff]

/-- Values without numbers that are no integers are the same when they are equal. -/
theorem same_iff {a b : Json} (exact : a.Exact) : same a b = true ↔ a = b := by
  induction h : a.nesting using Nat.strongRecOn generalizing a b with
  | ind n ih =>
    subst h
    cases a with
    | null => cases b <;> simp [same]
    | bool x => cases b <;> simp [same]
    | int i => cases b <;> simp [same]
    | float x => exact exact.elim
    | str s => cases b <;> simp [same]
    | arr js =>
      have each : ∀ i ∈ js, ∀ b, same i b = true ↔ i = b := by
        intro i mem b
        obtain ⟨exactItem, le⟩ := ExactItems.of_mem exact mem
        exact ih i.nesting (Nat.lt_succ_of_le le) exactItem rfl
      cases b with
      | arr is => simp [same, sameItems_iff each]
      | _ => simp [same]
    | obj fs =>
      have each : ∀ f ∈ fs, ∀ b, same f.2 b = true ↔ f.2 = b := by
        intro f mem b
        obtain ⟨exactField, le⟩ := ExactFields.of_mem exact.2 mem
        exact ih f.2.nesting (Nat.lt_succ_of_le le) exactField rfl
      cases b with
      | obj gs => simp [same, sameFields_iff each]
      | _ => simp [same]

/-- Values are the same exactly when their compact texts are. -/
theorem same_iff_compact {a b : Json} (plain : a.Plain) (plain' : b.Plain) :
    same a b = true ↔ a.compact = b.compact := by
  rw [same_iff plain.exact]
  exact ⟨fun eq => eq ▸ rfl, compact_injective plain plain'⟩

end Multipass.Json
