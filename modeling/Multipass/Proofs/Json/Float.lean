import Mathlib.Data.List.TakeWhile
import Multipass.Proofs.Json.Scalar
import Multipass.Proofs.Number.Shortest

/-!
# Reading written doubles

The text of a double is read as a number: it has the form of one, and what it spells is never too
large. That is no matter of course at the upper end of the range, where the reader rounds twice
before it multiplies; the three greatest doubles are looked at by themselves.

Main statement: `number_finite`.
-/

namespace Multipass.Json

open Number

/-! ### Significands -/

lemma ten_pow_lt_overflow {n : Nat} (le : n ≤ 308) :
    ((10 ^ n : Nat) : ℚ) < Binary.overflow .double := by
  have small : ∀ n : Nat, n < 309 → 10 ^ n ≤ (2 ^ 53 - 3) * 2 ^ 971 := by decide +kernel
  have unit : ((2 ^ 971 : Nat) : ℚ) = 2 ^ (971 : Int) := by
    rw [Nat.cast_pow]
    exact (zpow_natCast 2 971).symm
  calc ((10 ^ n : Nat) : ℚ)
      ≤ (((2 ^ 53 - 3) * 2 ^ 971 : Nat) : ℚ) := Nat.cast_le.2 (small n (Nat.lt_succ_of_le le))
    _ = (2 ^ 53 - 3 : Nat) * 2 ^ (971 : Int) := by rw [Nat.cast_mul, unit]
    _ < Binary.overflow .double := by
      have lt : ((2 ^ 53 - 3 : Nat) : ℚ) < 2 ^ 53 - 1 / 2 := by norm_num
      exact mul_lt_mul_of_pos_right lt (two_zpow_pos 971)

lemma digitValue_le {c : Char} (digit : c.isDigit = true) : digitValue c ≤ 9 := by
  simp only [Char.isDigit, Bool.and_eq_true, decide_eq_true_eq] at digit
  have le : c.toNat ≤ 57 := UInt32.le_iff_toNat_le.1 digit.2
  simp only [digitValue]
  omega

/-- A power of ten within the range of doubles has no greater exponent. -/
lemma exponent_le {t : Int} (le : (10 : ℚ) ^ t ≤ 2 ^ 53 * 2 ^ (971 : Int)) : t ≤ 308 := by
  by_contra lt
  have large : 2 ^ 53 * 2 ^ 971 < 10 ^ 309 := by decide +kernel
  have large : (2 ^ 53 * 2 ^ (971 : Int) : ℚ) < 10 ^ (309 : Int) := by exact_mod_cast large
  have power : (10 : ℚ) ^ (309 : Int) ≤ 10 ^ t := zpow_le_zpow_right₀ (by norm_num) (by omega)
  exact absurd (power.trans le) (not_le.2 large)

/-- A significand and an exponent whose product stays clear of the greatest double are scaled. -/
lemma scale?_isSome {s : Nat} {t : Int} (le : (s * 10 ^ t : ℚ) ≤ Binary.safe) :
    (scale? s t).isSome := by
  simp only [scale?]
  split
  · rfl
  · next up =>
    have up : 0 ≤ t := Int.not_lt.1 up
    split
    · next far =>
      -- With such an exponent only zero stays clear.
      have zero : s = 0 := by
        by_contra ne
        have one : (1 : ℚ) ≤ s := Nat.one_le_cast.2 (Nat.pos_of_ne_zero ne)
        have product : (10 : ℚ) ^ t ≤ s * 10 ^ t := le_mul_of_one_le_left (ten_zpow_pos t).le one
        have clear : Binary.safe ≤ 2 ^ 53 * 2 ^ (971 : Int) :=
          mul_le_mul_of_nonneg_right (by norm_num) (two_zpow_pos 971).le
        have := exponent_le (product.trans (le.trans clear))
        omega
      subst zero
      rfl
    · next near =>
      have power : (10 : ℚ) ^ t = (Nat.pow 10 t.toNat : Nat) := by
        rw [zpow_of_nonneg 10 up]
        simp
      rw [power] at le
      have finite := Binary.mul_ofNat_isInfinite (Nat.pow_pos (by decide)) le
        (ten_pow_lt_overflow (by omega))
      rw [if_neg (by rw [← Bool.not_eq_true] at finite; exact finite)]
      rfl

/-! ### Numbers with a point -/

lemma afterDigits_of_ends {rest : List Char} (negative : Bool) (s : Nat) (t : Int) (ends : Ends rest) :
    afterDigits negative s t rest = floatReading negative s t rest := by
  obtain rfl | ⟨c, rest, rfl, mem⟩ := ends
  · rfl
  · simp only [List.mem_cons, List.not_mem_nil, or_false] at mem
    obtain rfl | rfl | rfl := mem <;> rfl

lemma fraction_of_digits {ds rest : List Char} (negative : Bool) (s : Nat) (t : Int) (nonempty : ds ≠ [])
    (digits : ∀ d ∈ ds, d.isDigit = true) (stops : Stops rest) :
    fraction negative s t (ds ++ rest) =
      afterDigits negative (gather s ds).1 (t - (gather s ds).2.1) rest := by
  obtain ⟨taken, left⟩ := stops.span digits
  cases ds with
  | nil => exact absurd rfl nonempty
  | cons d ds => simp only [fraction, taken, left]

/-- The digits in front of a point are read, and what follows it. -/
lemma number_of_point {ds rest : List Char} (negative : Bool) (leads : Leads ds) :
    number negative (ds ++ '.' :: rest) =
      fraction negative (gather 0 ds).1 (gather 0 ds).2.2 rest := by
  have stops : Stops ('.' :: rest) := by
    rintro c ⟨⟩
    rfl
  exact number_of_leads negative leads stops

lemma floatReading_of_isSome {s : Nat} {t : Int} (negative : Bool) (rest : List Char)
    (scaled : (scale? s t).isSome) : ∃ j, floatReading negative s t rest = .ok (j, rest) := by
  obtain ⟨x, eq⟩ := Option.isSome_iff_exists.1 scaled
  simp only [floatReading, eq]
  exact ⟨_, rfl⟩

/-- A number with a point is read if not too many digits stand in front. -/
lemma number_point {ds es rest : List Char} (negative : Bool) (leads : Leads ds)
    (few : ds.length ≤ 16) (nonempty : es ≠ []) (digits : ∀ d ∈ es, d.isDigit = true)
    (ends : Ends rest) : ∃ j, number negative (ds ++ '.' :: (es ++ rest)) = .ok (j, rest) := by
  obtain ⟨fits, count, -⟩ := gather_le ds (Nat.zero_le maxSignificand)
  obtain ⟨fits', -, -⟩ := gather_le es fits
  rw [number_of_point negative leads, fraction_of_digits negative _ _ nonempty digits ends.stops,
    afterDigits_of_ends negative _ _ ends]
  generalize (gather (gather 0 ds).1 es).1 = s at *
  refine floatReading_of_isSome negative rest (scale?_isSome ?_)
  have power : (10 : ℚ) ^ (((gather 0 ds).2.2 : Int) - (gather (gather 0 ds).1 es).2.1) ≤
      10 ^ (16 : Int) := zpow_le_zpow_right₀ (by norm_num) (by omega)
  have significand : (s : ℚ) ≤ maxSignificand := Nat.cast_le.2 fits'
  have unit : (2 : ℚ) ^ (100 : Int) ≤ 2 ^ (971 : Int) := two_zpow_le (by decide)
  calc (s * 10 ^ (((gather 0 ds).2.2 : Int) - (gather (gather 0 ds).1 es).2.1) : ℚ)
      ≤ maxSignificand * 10 ^ (16 : Int) :=
        mul_le_mul significand power (ten_zpow_pos _).le (Nat.cast_nonneg _)
    _ ≤ (2 ^ 53 - 3) * 2 ^ (100 : Int) := by norm_num [maxSignificand]
    _ ≤ Binary.safe := mul_le_mul_of_nonneg_left unit (by norm_num)

/-! ### Numbers with an exponent -/

/-- The digits of an exponent are read as the number that they spell, unless that is too large. -/
lemma exponentDigits_of_digits {ds rest : List Char} {v : Nat} (digits : ∀ d ∈ ds, d.isDigit = true)
    (stops : Stops rest) :
    (exponentDigits v (ds ++ rest) = .ok (Nat.ofDigitChars 10 ds v, rest)) ∨
      maxExponent < Nat.ofDigitChars 10 ds v ∧
        ∃ es, exponentDigits v (ds ++ rest) = .error (es ++ rest) ∧
          ∀ d ∈ es, d.isDigit = true := by
  induction ds generalizing v with
  | nil =>
    refine .inl ?_
    cases rest with
    | nil => rfl
    | cons c rest => simp [exponentDigits, stops c rfl]
  | cons d ds ih =>
    have others : ∀ e ∈ ds, e.isDigit = true := fun e mem => digits e (List.mem_cons_of_mem d mem)
    have first := digits d List.mem_cons_self
    rw [ofDigitChars_cons_digitValue]
    simp only [List.cons_append, exponentDigits, first, if_true]
    split
    · next large => exact .inr ⟨Nat.lt_of_lt_of_le large (le_ofDigitChars ds _), ds, rfl, others⟩
    · exact ih others

lemma digitChars_cons (n : Nat) : ∃ c cs, digitChars n = c :: cs ∧ c.isDigit = true ∧
    (∀ d ∈ cs, d.isDigit = true) ∧ Nat.ofDigitChars 10 cs (digitValue c) = n := by
  have value : Nat.ofDigitChars 10 (digitChars n) 0 = n := Nat.ofDigitChars_ten_toDigits
  have digits : ∀ d ∈ digitChars n, d.isDigit = true := fun _ => isDigit_of_mem_digitChars
  cases hd : digitChars n with
  | nil => exact absurd hd Nat.toDigits_ne_nil
  | cons c cs =>
    rw [hd] at value digits
    refine ⟨c, cs, rfl, digits c List.mem_cons_self, fun d mem => digits d (List.mem_cons_of_mem c mem),
      ?_⟩
    rw [Nat.ofDigitChars_cons, Nat.mul_zero, Nat.zero_add] at value
    exact value

/-- An exponent that is not too large moves the point to the right. -/
lemma exponent_up {n : Nat} {rest : List Char} (negative : Bool) (s : Nat) (t : Int)
    (small : n ≤ maxExponent) (ends : Ends rest) :
    exponent negative s t ('+' :: (digitChars n ++ rest)) = floatReading negative s (t + n) rest := by
  obtain ⟨c, cs, eq, first, digits, value⟩ := digitChars_cons n
  obtain read | ⟨large, -⟩ := exponentDigits_of_digits (v := digitValue c) digits ends.stops
  · rw [value] at read
    simp only [eq, List.cons_append, exponent, first, if_true, read, Bool.false_eq_true, if_false]
  · exact absurd small (Nat.not_le.2 (value ▸ large))

/-- Below one a number is read whatever its exponent is. -/
lemma exponent_down {n : Nat} {t : Int} {rest : List Char} (negative : Bool) (s : Nat) (below : t < n)
    (ends : Ends rest) :
    ∃ j, exponent negative s t ('-' :: (digitChars n ++ rest)) = .ok (j, rest) := by
  obtain ⟨c, cs, eq, first, digits, value⟩ := digitChars_cons n
  obtain read | ⟨-, es, read, digits'⟩ :=
    exponentDigits_of_digits (v := digitValue c) digits ends.stops
  · rw [value] at read
    have down : t - n < 0 := by omega
    simp only [eq, List.cons_append, exponent, first, if_true, read]
    exact floatReading_of_isSome negative rest (by simp [scale?, down])
  · simp only [eq, List.cons_append, exponent, first, if_true, read, (ends.stops.span digits').2,
      Bool.not_true, Bool.and_false, Bool.false_eq_true, if_false]
    exact ⟨_, rfl⟩

/-! ### The fewest digits -/

/-- Holds of digits that spell a positive decimal that is not above a bound. -/
structure Spells (d : Digits) (bound : ℚ) : Prop where
  nonempty : d.digits ≠ []
  digits : ∀ c ∈ d.digits, c.isDigit = true
  head : d.digits.head? ≠ some '0'
  le : (Nat.ofDigitChars 10 d.digits 0 * 10 ^ (d.point - d.digits.length) : ℚ) ≤ bound
  point_le : (10 : ℚ) ^ (d.point - 1) ≤ bound

lemma stripZeros_cons {c : Char} (ne : c ≠ '0') (cs : List Char) :
    stripZeros (c :: cs) = c :: stripZeros cs := by
  simp only [stripZeros, List.reverse_cons, List.dropWhile_append]
  split
  · next none =>
    rw [List.isEmpty_iff] at none
    simp [none, ne]
  · simp

/-- Digits are what is left of them without the zeros at the end, and these zeros. -/
lemma exists_zeros (ds : List Char) : ∃ n, ds = stripZeros ds ++ List.replicate n '0' := by
  refine ⟨(ds.reverse.takeWhile (· == '0')).length, ?_⟩
  have zeros : ds.reverse.takeWhile (· == '0') =
      List.replicate (ds.reverse.takeWhile (· == '0')).length '0' :=
    List.eq_replicate_of_mem fun c mem => by simpa using List.mem_takeWhile_imp mem
  have whole := congrArg List.reverse (List.takeWhile_append_dropWhile (p := (· == '0'))
    (l := ds.reverse))
  rw [List.reverse_append, List.reverse_reverse, zeros, List.reverse_replicate] at whole
  exact whole.symm

/-- A number is not below the power of ten that its first digit stands for. -/
lemma ten_pow_le {k : Nat} (pos : 0 < k) : 10 ^ ((digitChars k).length - 1) ≤ k := by
  by_contra lt
  obtain one | more := Nat.eq_zero_or_pos ((digitChars k).length - 1)
  · rw [one] at lt
    omega
  · have short : (digitChars k).length ≤ (digitChars k).length - 1 :=
      (Nat.length_toDigits_le_iff (by decide) more).2 (Nat.not_le.1 lt)
    omega

/-- The digits of a positive number without the zeros at the end: the first of them is none, and with
the zeros they spell the number. -/
lemma stripZeros_digitChars {k : Nat} (pos : 0 < k) :
    ∃ c cs n, stripZeros (digitChars k) = c :: cs ∧ c ≠ '0' ∧
      (∀ d ∈ c :: cs, d.isDigit = true) ∧ (digitChars k).length = (c :: cs).length + n ∧
      Nat.ofDigitChars 10 (c :: cs) 0 * 10 ^ n = k := by
  obtain ⟨c, cs, hd, -⟩ := digitChars_cons k
  have ne : c ≠ '0' := by
    rintro rfl
    exact pos.ne' (eq_zero_of_head?_digitChars (by rw [hd, List.head?_cons]))
  have stripped : stripZeros (digitChars k) = c :: stripZeros cs := by rw [hd, stripZeros_cons ne]
  obtain ⟨n, split⟩ := exists_zeros (digitChars k)
  rw [stripped] at split
  refine ⟨c, stripZeros cs, n, stripped, ne, fun d mem => ?_, ?_, ?_⟩
  · exact isDigit_of_mem_digitChars (split ▸ List.mem_append_left _ mem)
  · rw [split, List.length_append, List.length_replicate]
  · have whole : Nat.ofDigitChars 10 (digitChars k) 0 = k := Nat.ofDigitChars_ten_toDigits
    rwa [split, Nat.ofDigitChars_append, Nat.ofDigitChars_replicate_zero, Nat.mul_comm] at whole

/-- The digits of a double spell a decimal that is not above its rounding interval. -/
lemma spells_shortest {m : Nat} {e : Int} (pos : 0 < m)
    (held : Binary.Representable .double (.finite false m e)) :
    Spells (shortest .double m e) ((m + 1 / 2) * 2 ^ e) := by
  obtain ⟨k, grid, k_pos, le, eq⟩ := shortest_eq pos held
  obtain ⟨c, cs, n, stripped, ne, digits, length, value⟩ := stripZeros_digitChars k_pos
  rw [eq, stripped]
  refine ⟨List.cons_ne_nil c cs, digits, ?_, le.trans_eq' ?_, le.trans' ?_⟩
  · rw [List.head?_cons]
    exact fun zero => ne (Option.some.inj zero)
  · have power : grid + (digitChars k).length - (c :: cs).length = n + grid := by
      omega
    simp only [power]
    rw [zpow_add₀ (by norm_num), zpow_natCast, ← mul_assoc]
    congr 1
    exact_mod_cast value.symm
  · have point : grid + (digitChars k).length - 1 = ((digitChars k).length - 1 : Nat) + grid := by
      rw [length, List.length_cons]
      omega
    simp only [point]
    rw [zpow_add₀ (by norm_num), zpow_natCast]
    refine mul_le_mul_of_nonneg_right ?_ (ten_zpow_pos grid).le
    exact_mod_cast ten_pow_le k_pos

section

variable {d : Digits} {bound : ℚ} {rest : List Char}

lemma Spells.leads (spells : Spells d bound) (es : List Char) (digits : ∀ c ∈ es, c.isDigit = true) :
    Leads (d.digits ++ es) where
  nonempty := List.append_ne_nil_of_left_ne_nil spells.nonempty es
  digits := by
    intro c mem
    obtain mem | mem := List.mem_append.1 mem
    · exact spells.digits c mem
    · exact digits c mem
  head := by
    intro zero
    rw [List.head?_append_of_ne_nil _ spells.nonempty] at zero
    exact absurd zero spells.head

/-- Digits with a point among them have the form of a number. -/
lemma Spells.exists_point (spells : Spells d bound) (near : d.point ≤ 16) :
    ∃ ds es, (if d.positional.contains '.' then d.positional else d.positional ++ ['.', '0']) =
      ds ++ '.' :: es ∧ Leads ds ∧ ds.length ≤ 16 ∧ es ≠ [] ∧ ∀ c ∈ es, c.isDigit = true := by
  have zeros (n : Nat) : ∀ c ∈ List.replicate n '0', c.isDigit = true := by
    intro c mem
    rw [List.eq_of_mem_replicate mem]
    rfl
  simp only [Digits.positional]
  split
  · next left =>
    refine ⟨['0'], List.replicate (-d.point).toNat '0' ++ d.digits, by simp, ⟨?_, ?_, ?_⟩, by simp, ?_,
      ?_⟩
    · simp
    · simp
    · simp
    · exact List.append_ne_nil_of_right_ne_nil _ spells.nonempty
    · intro c mem
      obtain mem | mem := List.mem_append.1 mem
      · exact zeros _ c mem
      · exact spells.digits c mem
  · next right =>
    split
    · next short =>
      have leads := spells.leads _ (zeros (d.point.toNat - d.digits.length))
      have none : (d.digits ++ List.replicate (d.point.toNat - d.digits.length) '0').contains '.' =
          false := by
        rw [Bool.eq_false_iff, ne_eq, List.contains_iff_mem]
        exact fun mem => absurd (leads.digits '.' mem) (by decide)
      refine ⟨_, ['0'], ?_, leads, ?_, by simp, by simp⟩
      · rw [none]
        simp
      · rw [List.length_append, List.length_replicate]
        omega
    · next long =>
      have front : d.digits.take d.point.toNat ≠ [] := by
        simp only [ne_eq, List.take_eq_nil_iff, not_or]
        exact ⟨by omega, spells.nonempty⟩
      refine ⟨d.digits.take d.point.toNat, d.digits.drop d.point.toNat, by simp, ⟨front, ?_, ?_⟩, ?_, ?_,
        fun c mem => spells.digits c (List.mem_of_mem_drop mem)⟩
      · exact fun c mem => spells.digits c (List.mem_of_mem_take mem)
      · intro zero
        rw [List.head?_take, if_neg (by omega)] at zero
        exact absurd zero spells.head
      · rw [List.length_take]
        omega
      · simp only [ne_eq, List.drop_eq_nil_iff]
        omega

lemma gather_cons {c : Char} (digit : c.isDigit = true) (cs : List Char) :
    gather 0 (c :: cs) = ((gather (digitValue c) cs).1, (gather (digitValue c) cs).2.1 + 1,
      (gather (digitValue c) cs).2.2) := by
  have nine := digitValue_le digit
  have small : ¬maxSignificand < 0 * 10 + digitValue c := by
    simp only [maxSignificand]
    omega
  rw [gather, if_neg small, Nat.zero_mul, Nat.zero_add]

/-- Digits with an exponent have the form of a number. -/
lemma number_mantissa {c : Char} {cs : List Char} (point : Int) (negative : Bool)
    (digits : ∀ d ∈ c :: cs, d.isDigit = true) (ne : c ≠ '0') (rest : List Char) :
    number negative (Digits.scientific ⟨c :: cs, point⟩ ++ rest) =
      exponent negative (gather 0 (c :: cs)).1 (1 - (gather 0 (c :: cs)).2.1)
        ((if point - 1 < 0 then '-' else '+') :: (digitChars (point - 1).natAbs ++ rest)) := by
  let s := (if point - 1 < 0 then '-' else '+') :: (digitChars (point - 1).natAbs ++ rest)
  have digit := digits c List.mem_cons_self
  have leads : Leads [c] := {
    nonempty := by simp
    digits := by simpa using digit
    head := fun zero => absurd (Option.some.inj zero) ne }
  have stops : Stops ('e' :: s) := by
    rintro d ⟨⟩
    rfl
  have first : gather 0 [c] = (digitValue c, 1, 0) := gather_cons digit []
  cases cs with
  | nil =>
    have layout : Digits.scientific ⟨[c], point⟩ ++ rest = [c] ++ 'e' :: s := by
      simp [Digits.scientific, s]
    rw [layout, number_of_leads negative leads stops]
    simp only [number.finish, first]
    rfl
  | cons b bs =>
    have others : ∀ d ∈ b :: bs, d.isDigit = true := fun d mem => digits d (List.mem_cons_of_mem c mem)
    have layout : Digits.scientific ⟨c :: b :: bs, point⟩ ++ rest =
        [c] ++ '.' :: (b :: bs ++ 'e' :: s) := by
      simp [Digits.scientific, s]
    have start : ((0 : Nat) : Int) - (gather (digitValue c) (b :: bs)).2.1 =
        1 - ((gather (digitValue c) (b :: bs)).2.1 + 1 : Nat) := by
      omega
    rw [layout, number_of_point negative leads, first,
      fraction_of_digits negative _ _ (List.cons_ne_nil b bs) others stops, gather_cons digit, start]
    rfl

/-- Digits with an exponent are read, unless what they spell is too large. -/
lemma Spells.number_scientific (spells : Spells d bound) (negative : Bool)
    (near : d.point - 1 ≤ maxExponent)
    (scaled : (scale? (gather 0 d.digits).1 (d.point - (gather 0 d.digits).2.1)).isSome)
    (ends : Ends rest) : ∃ j, number negative (d.scientific ++ rest) = .ok (j, rest) := by
  obtain ⟨ds, point⟩ := d
  cases ds with
  | nil => exact absurd rfl spells.nonempty
  | cons c cs =>
    have ne : c ≠ '0' := fun eq => spells.head (congrArg some eq)
    -- The first digit at least is gathered.
    have some : 0 < (gather 0 (c :: cs)).2.1 := by
      rw [gather_cons (spells.digits c List.mem_cons_self)]
      exact Nat.succ_pos _
    rw [number_mantissa point negative spells.digits ne]
    by_cases down : point - 1 < 0
    · rw [if_pos down]
      exact exponent_down negative _ (by omega) ends
    · have small : (point - 1).natAbs ≤ maxExponent := by
        have near : point - 1 ≤ maxExponent := near
        omega
      rw [if_neg down, exponent_up negative _ _ small ends]
      have power : 1 - ((gather 0 (c :: cs)).2.1 : Int) + (point - 1).natAbs =
          point - (gather 0 (c :: cs)).2.1 := by
        omega
      rw [power]
      exact floatReading_of_isSome negative rest scaled

/-- Digits are read that spell a decimal which stays clear of the greatest double. -/
lemma Spells.scaled (spells : Spells d bound) (clear : bound ≤ Binary.safe) :
    (scale? (gather 0 d.digits).1 (d.point - (gather 0 d.digits).2.1)).isSome := by
  obtain ⟨-, count, le⟩ := gather_le d.digits (Nat.zero_le maxSignificand)
  refine scale?_isSome ((le_trans ?_ spells.le).trans clear)
  have power : d.point - ((gather 0 d.digits).2.1 : Int) =
      (gather 0 d.digits).2.2 + (d.point - d.digits.length) := by
    omega
  rw [power, zpow_add₀ (by norm_num), zpow_natCast, ← mul_assoc]
  refine mul_le_mul_of_nonneg_right ?_ (ten_zpow_pos _).le
  exact_mod_cast le

end

/-! ### Doubles -/

/-- No rounding interval goes beyond a power of two. -/
lemma upper_le {m : Nat} {e : Int} (held : Binary.Representable .double (.finite false m e)) :
    (m + 1 / 2) * (2 : ℚ) ^ e ≤ 2 ^ 53 * 2 ^ (971 : Int) := by
  have small : m + 1 ≤ 2 ^ 53 := held.1
  have small : (m + 1 : ℚ) ≤ 2 ^ 53 := by exact_mod_cast small
  exact mul_le_mul (by linarith) (two_zpow_le held.2.2) (two_zpow_pos e).le (by norm_num)

/-- The digits of a double are not too large to be read. -/
lemma scaled_shortest {m : Nat} {e : Int} (pos : 0 < m)
    (held : Binary.Representable .double (.finite false m e)) :
    (scale? (gather 0 (shortest .double m e).digits).1
      ((shortest .double m e).point - (gather 0 (shortest .double m e).digits).2.1)).isSome := by
  have spells := spells_shortest pos held
  obtain ⟨lt, -, le⟩ := held
  have lt : m < 2 ^ 53 := lt
  have le : e ≤ 971 := le
  by_cases greatest : e = 971 ∧ 2 ^ 53 - 4 < m
  · obtain ⟨rfl, near⟩ := greatest
    obtain rfl | rfl | rfl : m = 2 ^ 53 - 3 ∨ m = 2 ^ 53 - 2 ∨ m = 2 ^ 53 - 1 := by omega
    all_goals decide +kernel
  · refine spells.scaled ?_
    by_cases top : e = 971
    · have small : m + 4 ≤ 2 ^ 53 := by omega
      have small : (m + 4 : ℚ) ≤ 2 ^ 53 := by exact_mod_cast small
      rw [top]
      exact mul_le_mul_of_nonneg_right (by linarith) (two_zpow_pos 971).le
    · have half : 2 * (2 : ℚ) ^ e ≤ 2 ^ (971 : Int) := by
        rw [← two_zpow_succ]
        exact two_zpow_le (by omega)
      have small : (m : ℚ) ≤ 2 ^ 53 := by exact_mod_cast lt.le
      calc (m + 1 / 2) * (2 : ℚ) ^ e
          ≤ (2 * (2 ^ 53 - 3)) * 2 ^ e :=
            mul_le_mul_of_nonneg_right (by linarith) (two_zpow_pos e).le
        _ = (2 ^ 53 - 3) * (2 * 2 ^ e) := by ring
        _ ≤ Binary.safe := mul_le_mul_of_nonneg_left half (by norm_num)

/-- The text of a double that is not negative is read. -/
lemma number_digitsChars {m : Nat} {e : Int} {rest : List Char} (negative : Bool) (pos : 0 < m)
    (held : Binary.Representable .double (.finite false m e)) (ends : Ends rest) :
    ∃ j, number negative (digitsChars (shortest .double m e) ++ rest) = .ok (j, rest) := by
  have spells := spells_shortest pos held
  simp only [digitsChars]
  split
  · next near =>
    obtain ⟨ds, es, eq, leads, few, nonempty, digits⟩ := spells.exists_point (by omega)
    rw [eq, List.append_assoc, List.cons_append]
    exact number_point negative leads few nonempty digits ends
  · have near : (shortest .double m e).point - 1 ≤ maxExponent := by
      have le := exponent_le (spells.point_le.trans (upper_le held))
      simp only [maxExponent]
      omega
    exact spells.number_scientific negative near (scaled_shortest pos held) ends

/-- The text of a finite double is read behind its sign. -/
theorem number_finite {m : Nat} {e : Int} {rest : List Char} (negative : Bool)
    (held : Binary.Representable .double (.finite false m e)) (ends : Ends rest) :
    ∃ j, number negative ((if m = 0 then ['0', '.', '0'] else digitsChars (shortest .double m e)) ++
      rest) = .ok (j, rest) := by
  split
  · have read : ∃ j, number negative (digitChars 0 ++ '.' :: (['0'] ++ rest)) = .ok (j, rest) :=
      number_point negative (leads_digitChars 0) (by decide) (by simp) (by simp) ends
    exact read
  · next pos => exact number_digitsChars negative (Nat.pos_of_ne_zero pos) held ends

end Multipass.Json
