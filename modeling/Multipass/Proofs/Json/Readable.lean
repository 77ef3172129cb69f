import Multipass.Proofs.Json.Scalar
import Multipass.Proofs.Number.Rounding

/-!
# Values that are read

What is read of a text nests as many levels as may be read, and its numbers are integers of 64 bits
or doubles, of which none is undefined.

Main statement: `readable_of_parse`.
-/

namespace Multipass.Json

open Number

/-- Holds of a value with numbers that are integers of 64 bits, with a sign or without, or defined
doubles, and with no more than some levels. -/
inductive Readable : Nat → Json → Prop where
  | null {depth} :
    Readable depth .null
  | bool {depth b} :
    Readable depth (.bool b)
  | int {depth i} :
    -0x8000000000000000 ≤ i →
    i ≤ 0xffffffffffffffff →
    Readable depth (.int i)
  | float {depth x} :
    Binary.Representable .double x →
    x ≠ .nan →
    Readable depth (.float x)
  | str {depth s} :
    Readable depth (.str s)
  | arr {depth js} :
    (∀ j ∈ js, Readable depth j) →
    Readable (depth + 1) (.arr js)
  | obj {depth fs} :
    (∀ f ∈ fs, Readable depth f.2) →
    Readable (depth + 1) (.obj fs)

variable {depth : Nat} {j : Json} {s rest : List Char} {negative : Bool}

/-! ### Numbers -/

lemma representable_ofNat (n : Nat) : Binary.Representable .double (Double.ofNat n) :=
  Binary.representable_ofQuotient Format.proper_double false n 1

/-- The powers of ten that a reader scales with are numbers, and not zero. -/
lemma exists_powerOfTen {n : Nat} (le : n ≤ 308) :
    ∃ s m e, powerOfTen n = .finite s m e ∧ m ≠ 0 := by
  have table : ∀ n < 309, (powerOfTen n).isInfinite = false ∧ (powerOfTen n).isZero = false := by
    decide +kernel
  obtain ⟨bounded, positive⟩ := table n (Nat.lt_succ_of_le le)
  have defined : powerOfTen n ≠ .nan := Binary.ofQuotient_ne_nan _ _ _ _
  cases power : powerOfTen n with
  | nan => exact absurd power defined
  | infinite s =>
    rw [power] at bounded
    cases bounded
  | finite s m e =>
    refine ⟨s, m, e, rfl, fun zero => ?_⟩
    rw [power, zero] at positive
    cases positive

lemma scaleDown_ne_nan {x : Double} (defined : x ≠ .nan) (n : Nat) : scaleDown x n ≠ .nan := by
  induction n using Nat.strongRecOn generalizing x with
  | ind n ih =>
    rw [scaleDown]
    split
    · next le =>
      obtain ⟨s, m, e, power, ne⟩ := exists_powerOfTen le
      rw [power]
      exact Binary.div_ne_nan defined ne
    · split
      · exact defined
      · obtain ⟨s, m, e, power, ne⟩ := exists_powerOfTen (le_refl 308)
        rw [power]
        exact ih _ (by omega) (Binary.div_ne_nan defined ne)

lemma scale?_ne_nan {significand : Nat} {exponent : Int} {x : Double}
    (h : scale? significand exponent = some x) : x ≠ .nan := by
  have defined : Double.ofNat significand ≠ .nan := Binary.ofQuotient_ne_nan _ _ _ _
  simp only [scale?] at h
  split at h
  · cases h
    exact scaleDown_ne_nan defined _
  · split at h
    · split at h <;> cases h
      exact defined
    · split at h <;> cases h
      obtain ⟨s, m, e, power, ne⟩ := exists_powerOfTen (n := exponent.toNat) (by omega)
      rw [power]
      exact Binary.mul_ne_nan defined ne

lemma representable_scaleDown {x : Double} (held : Binary.Representable .double x) (n : Nat) :
    Binary.Representable .double (scaleDown x n) := by
  induction n using Nat.strongRecOn generalizing x with
  | ind n ih =>
    rw [scaleDown]
    split
    · exact Binary.representable_div Format.proper_double _ _
    · split
      · exact held
      · exact ih _ (by omega) (Binary.representable_div Format.proper_double _ _)

lemma representable_scale? {significand : Nat} {exponent : Int} {x : Double}
    (h : scale? significand exponent = some x) : Binary.Representable .double x := by
  simp only [scale?] at h
  split at h
  · cases h
    exact representable_scaleDown (representable_ofNat _) _
  · split at h
    · split at h <;> cases h
      exact representable_ofNat _
    · split at h <;> cases h
      exact Binary.representable_mul Format.proper_double _ _

lemma readable_floatReading {significand : Nat} {exponent : Int}
    (h : floatReading negative significand exponent s = .ok (j, rest)) : Readable depth j := by
  simp only [floatReading] at h
  split at h
  · next x scaled =>
    cases h
    split
    · exact .float (representable_scale? scaled).neg (Binary.neg_ne_nan (scale?_ne_nan scaled))
    · exact .float (representable_scale? scaled) (scale?_ne_nan scaled)
  · cases h

lemma readable_exponent {significand : Nat} {start : Int}
    (h : exponent negative significand start s = .ok (j, rest)) : Readable depth j := by
  simp only [exponent] at h
  split at h
  · cases h
  · split at h
    · split at h
      · exact readable_floatReading h
      · split_ifs at h
        cases h
        exact .float (Binary.representable_zero Format.proper_double negative) Binary.noConfusion
    · cases h

lemma readable_afterDigits {significand : Nat} {start : Int}
    (h : afterDigits negative significand start s = .ok (j, rest)) : Readable depth j := by
  simp only [afterDigits] at h
  split at h
  · exact readable_exponent h
  · exact readable_exponent h
  · exact readable_floatReading h

lemma readable_fraction {significand : Nat} {start : Int}
    (h : fraction negative significand start s = .ok (j, rest)) : Readable depth j := by
  simp only [fraction] at h
  split at h
  · cases h
  · cases h
  · exact readable_afterDigits h

lemma readable_integer {n : Nat} (fits : n ≤ maxSignificand) : Readable depth (integer negative n) := by
  simp only [maxSignificand] at fits
  simp only [integer]
  split
  · exact .int (by omega) (by omega)
  · split
    · exact .float (representable_ofNat n).neg
        (Binary.neg_ne_nan (Binary.ofQuotient_ne_nan _ _ _ _))
    · exact .int (by omega) (by omega)

lemma readable_finish {ds : List Char} (h : number.finish negative ds s = .ok (j, rest)) :
    Readable depth j := by
  simp only [number.finish] at h
  split at h
  · exact readable_fraction h
  · exact readable_exponent h
  · exact readable_exponent h
  · split at h
    · cases h
      exact readable_integer (gather_le ds (Nat.zero_le _)).1
    · exact readable_floatReading h

lemma readable_number (h : number negative s = .ok (j, rest)) : Readable depth j := by
  simp only [number] at h
  split at h
  · cases h
  · split at h
    · cases h
    · split at h
      · split at h
        · cases h
        · exact readable_finish h
      · exact readable_finish h

/-! ### Arrays and objects -/

lemma bind_eq_ok {ε α β : Type} {x : Except ε α} {f : α → Except ε β} {b : β} :
    (x >>= f) = .ok b ↔ ∃ a, x = .ok a ∧ f a = .ok b := by
  cases x <;> simp [bind, Except.bind]

/-- What holds of each value that is read holds of the items of an array. -/
lemma forall_items {α : Type} {item : Reader α} {P : α → Prop} {fuel : Nat} {as : List α}
    (each : ∀ s a rest, item s = .ok (a, rest) → P a) (h : items item fuel s = .ok (as, rest)) :
    ∀ a ∈ as, P a := by
  induction fuel generalizing s rest as with
  | zero => cases h
  | succ fuel ih =>
    rw [items, bind_eq_ok] at h
    obtain ⟨⟨a, s'⟩, first, h⟩ := h
    have first := each _ _ _ first
    dsimp only at h
    split at h
    · cases h
    · cases h
      simpa using first
    · split at h
      · cases h
      · cases h
      · obtain ⟨⟨bs, s''⟩, others, h⟩ := bind_eq_ok.1 h
        cases h
        rw [List.forall_mem_cons]
        exact ⟨first, ih others⟩
    · cases h

lemma forall_array {α : Type} {item : Reader α} {P : α → Prop} {as : List α}
    (each : ∀ s a rest, item s = .ok (a, rest) → P a) (h : array item s = .ok (as, rest)) :
    ∀ a ∈ as, P a := by
  simp only [array] at h
  split at h
  · cases h
  · cases h
    exact fun _ mem => absurd mem List.not_mem_nil
  · exact forall_items each h

lemma forall_insertField {P : Json → Prop} (key : String) {fs : List (String × Json)} (hj : P j)
    (all : ∀ f ∈ fs, P f.2) : ∀ f ∈ insertField key j fs, P f.2 := by
  induction fs with
  | nil => simpa [insertField] using hj
  | cons f fs ih =>
    obtain ⟨first, others⟩ := List.forall_mem_cons.1 all
    rw [insertField]
    split
    · exact List.forall_mem_cons.2 ⟨hj, all⟩
    · split
      · exact List.forall_mem_cons.2 ⟨hj, others⟩
      · exact List.forall_mem_cons.2 ⟨first, ih others⟩

/-- What each field that is read adds to keeps what holds of the fields of an object. -/
lemma keeps_members {item : Reader Json} {K : List (String × Json) → Prop} {fuel : Nat}
    {fs gathered : List (String × Json)}
    (each : ∀ key gathered s j rest, item s = .ok (j, rest) → K gathered →
      K (insertField key j gathered))
    (held : K gathered) (h : members (setField item) fuel gathered s = .ok (fs, rest)) : K fs := by
  induction fuel generalizing s rest gathered with
  | zero => cases h
  | succ fuel ih =>
    rw [members, bind_eq_ok] at h
    obtain ⟨⟨key, s₁⟩, -, h⟩ := h
    obtain ⟨reader, field, h⟩ := bind_eq_ok.1 h
    cases field
    split at h
    · cases h
    · obtain ⟨⟨gathered', s₂⟩, value, h⟩ := bind_eq_ok.1 h
      obtain ⟨⟨j, s₃⟩, read, value⟩ := bind_eq_ok.1 value
      cases value
      have held := each key gathered _ _ _ read held
      dsimp only at h
      split at h
      · cases h
      · cases h
        exact held
      · split at h
        · cases h
        · exact ih held h
        · cases h
        · cases h
      · cases h
    · cases h

lemma keeps_object {item : Reader Json} {K : List (String × Json) → Prop}
    {fs : List (String × Json)}
    (each : ∀ key gathered s j rest, item s = .ok (j, rest) → K gathered →
      K (insertField key j gathered))
    (none : K []) (h : object (setField item) [] s = .ok (fs, rest)) : K fs := by
  simp only [object] at h
  split at h
  · cases h
  · cases h
    exact none
  · exact keeps_members each none h
  · cases h

/-- What holds of each value that is read holds of the fields of an object. -/
lemma forall_object {item : Reader Json} {P : Json → Prop} {fs : List (String × Json)}
    (each : ∀ s j rest, item s = .ok (j, rest) → P j)
    (h : object (setField item) [] s = .ok (fs, rest)) : ∀ f ∈ fs, P f.2 :=
  keeps_object (K := fun fs => ∀ f ∈ fs, P f.2)
    (fun key _ _ _ _ read => forall_insertField key (each _ _ _ read))
    (fun _ mem => absurd mem List.not_mem_nil) h

/-! ### Whole values -/

lemma readable_literal {k : Json} (held : Readable depth k) {letters : List Char}
    (h : literal k letters s = .ok (j, rest)) : Readable depth j := by
  induction letters generalizing s with
  | nil =>
    cases h
    exact held
  | cons l ls ih =>
    cases s with
    | nil => cases h
    | cons c s =>
      simp only [literal] at h
      split at h
      · exact ih h
      · cases h

/-- What is read within some levels is readable within them. -/
theorem readable_value (h : value depth s = .ok (j, rest)) : Readable depth j := by
  induction depth using Nat.strongRecOn generalizing s j rest with
  | ind depth ih =>
    unfold value at h
    split at h
    · cases h
    · exact readable_literal .null h
    · exact readable_literal .bool h
    · exact readable_literal .bool h
    · exact readable_number h
    · obtain ⟨p, -, h⟩ := bind_eq_ok.1 h
      cases h
      exact .str
    · -- What an array or an object holds is read within one level less.
      split at h
      · cases h
      · next depth =>
        obtain ⟨p, items, h⟩ := bind_eq_ok.1 h
        cases h
        exact .arr (forall_array (fun _ _ _ => ih depth (Nat.lt_succ_self depth)) items)
    · split at h
      · cases h
      · next depth =>
        obtain ⟨p, fields, h⟩ := bind_eq_ok.1 h
        cases h
        exact .obj (forall_object (fun _ _ _ => ih depth (Nat.lt_succ_self depth)) fields)
    · split at h
      · exact readable_number h
      · cases h

/-- What a text is read as is readable. -/
theorem readable_of_parse {text : String} (h : parse text = .ok j) : Readable maxDepth j := by
  obtain ⟨⟨k, rest⟩, read, h⟩ := bind_eq_ok.1 h
  dsimp only at h
  split at h <;> cases h
  exact readable_value read

lemma Readable.ne_nan {x : Double} (readable : Readable depth j) (h : j.number? = some x) :
    x ≠ .nan := by
  cases readable with
  | int =>
    cases h
    exact Binary.ofQuotient_ne_nan _ _ _ _
  | float _ defined =>
    cases h
    exact defined
  | _ => cases h

/-- A number among the fields of a readable object is defined. -/
lemma Readable.field_ne_nan {fs : List (String × Json)} {key : String} {x : Double}
    (readable : Readable depth (.obj fs)) (h : (lookup key fs).bind number? = some x) : x ≠ .nan := by
  cases readable with
  | obj each =>
    induction fs with
    | nil => cases h
    | cons f fs ih =>
      obtain ⟨own, others⟩ := List.forall_mem_cons.1 each
      rw [lookup] at h
      split at h
      · exact own.ne_nan h
      · exact ih h others

end Multipass.Json
