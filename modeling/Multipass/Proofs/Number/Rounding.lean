import Mathlib.Algebra.Order.Field.Power
import Mathlib.Algebra.Order.Ring.Rat
import Mathlib.Tactic.FieldSimp
import Mathlib.Tactic.Linarith
import Mathlib.Tactic.Positivity
import Mathlib.Tactic.Ring
import Multipass.Number.Binary

/-!
# Rounding

What comes out when a quotient is rounded: a number of the format that exceeds the quotient by half
of its last place at most, or an infinity, and that only beyond the greatest number of the format.

Main statement: `Binary.ofQuotient_cases`.
-/

namespace Multipass.Number

/-- The value of a quotient of natural numbers. -/
def ratio (q : Nat × Nat) : ℚ :=
  q.1 / q.2

section

variable {num den : Nat}

lemma two_zpow_pos (e : Int) : (0 : ℚ) < 2 ^ e :=
  zpow_pos two_pos e

lemma two_zpow_le {e f : Int} (le : e ≤ f) : (2 : ℚ) ^ e ≤ 2 ^ f :=
  zpow_le_zpow_right₀ one_le_two le

lemma two_zpow_succ (e : Int) : (2 : ℚ) ^ (e + 1) = 2 * 2 ^ e := by
  rw [zpow_add₀ two_ne_zero, zpow_one, mul_comm]

/-! ### Quotients in other units -/

lemma zpow_of_nonneg (b : ℚ) {e : Int} (h : 0 ≤ e) : b ^ e = b ^ e.toNat := by
  rw [← zpow_natCast, Int.toNat_of_nonneg h]

lemma zpow_of_neg (b : ℚ) {e : Int} (h : ¬0 ≤ e) : b ^ e = (b ^ (-e).toNat)⁻¹ := by
  rw [← zpow_natCast, Int.toNat_of_nonneg (by omega), zpow_neg, inv_inv]

lemma ratio_inUnits (num den : Nat) (e : Int) : ratio (inUnits num den e) = num / den / 2 ^ e := by
  simp only [ratio, inUnits, Nat.pow_eq]
  split
  · next h =>
    rw [zpow_of_nonneg 2 h, Nat.cast_mul, Nat.cast_pow, Nat.cast_ofNat, div_div]
  · next h =>
    rw [zpow_of_neg 2 h, Nat.cast_mul, Nat.cast_pow, Nat.cast_ofNat, div_inv_eq_mul,
      mul_div_right_comm]

lemma inUnits_snd_pos (hden : 0 < den) (num : Nat) (e : Int) : 0 < (inUnits num den e).2 := by
  simp only [inUnits, Nat.pow_eq]
  split
  · positivity
  · exact hden

lemma ratio_magnitude (m : Nat) (e : Int) : ratio (Binary.magnitude m e) = m * 2 ^ e := by
  simp only [ratio, Binary.magnitude, Nat.pow_eq]
  split
  · next h => rw [zpow_of_nonneg 2 h, Nat.cast_mul, Nat.cast_pow, Nat.cast_ofNat, Nat.cast_one, div_one]
  · next h => rw [zpow_of_neg 2 h, Nat.cast_pow, Nat.cast_ofNat, div_eq_mul_inv]

lemma magnitude_snd_pos (m : Nat) (e : Int) : 0 < (Binary.magnitude m e).2 := by
  simp only [Binary.magnitude, Nat.pow_eq]
  split
  · exact Nat.one_pos
  · positivity

/-! ### The nearest integer -/

lemma roundQuotient_le (hden : 0 < den) (num : Nat) :
    (roundQuotient num den : ℚ) ≤ ratio (num, den) + 1 / 2 := by
  have whole : den * (num / den) + num % den = num := Nat.div_add_mod num den
  have twice : 2 * (den * roundQuotient num den) ≤ 2 * num + den := by
    have odd : num / den % 2 ≤ 1 := Nat.le_of_lt_succ (Nat.mod_lt _ Nat.two_pos)
    have half : den * (num / den % 2) ≤ den * 1 := Nat.mul_le_mul_left den odd
    simp only [roundQuotient]
    split
    · omega
    · split
      · rw [Nat.mul_add]
        omega
      · rw [Nat.mul_add, Nat.mul_one]
        omega
  have cast : 2 * ((den : ℚ) * roundQuotient num den) ≤ 2 * num + den := by exact_mod_cast twice
  have pos : (0 : ℚ) < den := Nat.cast_pos.2 hden
  rw [ratio, div_add_div _ _ pos.ne' two_ne_zero, le_div_iff₀ (by positivity)]
  linarith

lemma roundQuotient_le_succ (num den : Nat) : roundQuotient num den ≤ num / den + 1 := by
  have odd : num / den % 2 ≤ 1 := Nat.le_of_lt_succ (Nat.mod_lt _ Nat.two_pos)
  simp only [roundQuotient]
  split
  · omega
  · split <;> omega

lemma div_lt_iff_ratio_lt (num : Nat) (hden : 0 < den) (k : Nat) :
    num / den < k ↔ ratio (num, den) < k := by
  have pos : (0 : ℚ) < den := Nat.cast_pos.2 hden
  rw [Nat.div_lt_iff_lt_mul hden, ratio, div_lt_iff₀ pos]
  exact_mod_cast Iff.rfl

end

/-! ### The last place -/

/-- Holds of a format with significands and exponents. -/
structure Format.Proper (fmt : Format) : Prop where
  precision : 0 < fmt.precision
  exponents : fmt.minExponent ≤ fmt.maxExponent

lemma Format.proper_double : Format.double.Proper :=
  ⟨by decide, by decide⟩

namespace Binary

variable {fmt : Format} {num den : Nat}

lemma ratio_lt_of_log2 (hnum : 0 < num) (hden : 0 < den) :
    (num / den : ℚ) < 2 ^ ((num.log2 : Int) - den.log2 + 1) ∧
      (2 : ℚ) ^ ((num.log2 : Int) - den.log2) < 2 * (num / den) := by
  have pos : (0 : ℚ) < den := Nat.cast_pos.2 hden
  have low : (2 : ℚ) ^ (num.log2 : Int) ≤ num := by
    exact_mod_cast Nat.log2_self_le hnum.ne'
  have high : (num : ℚ) < 2 ^ ((num.log2 : Int) + 1) := by
    exact_mod_cast (Nat.lt_log2_self : num < 2 ^ (num.log2 + 1))
  have low' : (2 : ℚ) ^ (den.log2 : Int) ≤ den := by
    exact_mod_cast Nat.log2_self_le hden.ne'
  have high' : (den : ℚ) < 2 ^ ((den.log2 : Int) + 1) := by
    exact_mod_cast (Nat.lt_log2_self : den < 2 ^ (den.log2 + 1))
  constructor
  · rw [sub_add_eq_add_sub, zpow_sub₀ two_ne_zero]
    exact div_lt_div₀ high low' (two_zpow_pos _).le (two_zpow_pos _)
  · rw [two_zpow_succ] at high'
    rw [zpow_sub₀ two_ne_zero, ← mul_div_assoc, div_lt_div_iff₀ (two_zpow_pos _) pos]
    nlinarith [two_zpow_pos (num.log2 : Int), two_zpow_pos (den.log2 : Int)]

/-- In the last place a quotient has no more digits than a significand, and no fewer unless the last
place is the lowest one. -/
lemma lastPlace_bounds (fmt : Format) (hnum : 0 < num) (hden : 0 < den) :
    fmt.minExponent ≤ lastPlace fmt num den ∧
      (num / den : ℚ) < 2 ^ fmt.precision * 2 ^ lastPlace fmt num den ∧
      (fmt.minExponent < lastPlace fmt num den →
        2 ^ fmt.precision * 2 ^ lastPlace fmt num den ≤ 2 * (num / den : ℚ)) := by
  obtain ⟨below, above⟩ := ratio_lt_of_log2 hnum hden
  let size : Int := (num.log2 : Int) - den.log2
  let guess : Int := max (size - fmt.precision) fmt.minExponent
  have place : lastPlace fmt num den =
      if (inUnits num den guess).1 / (inUnits num den guess).2 < 2 ^ fmt.precision then guess
      else guess + 1 := rfl
  have small := div_lt_iff_ratio_lt (inUnits num den guess).1 (inUnits_snd_pos hden num guess)
    (2 ^ fmt.precision)
  rw [show ((inUnits num den guess).1, (inUnits num den guess).2) = inUnits num den guess from rfl,
    ratio_inUnits, Nat.cast_pow, Nat.cast_ofNat, div_lt_iff₀ (two_zpow_pos _)] at small
  have shift (e : Int) : (2 : ℚ) ^ fmt.precision * 2 ^ e = 2 ^ (e + fmt.precision) := by
    rw [zpow_add₀ two_ne_zero, zpow_natCast, mul_comm]
  rw [place]
  split
  · next fits =>
    refine ⟨Int.le_max_right .., small.1 fits, fun normal => ?_⟩
    have exact : guess = size - fmt.precision := by omega
    rw [shift, exact, sub_add_cancel]
    exact above.le
  · next exceeds =>
    refine ⟨by omega, ?_, fun _ => ?_⟩
    · rw [shift]
      exact below.trans_le (two_zpow_le (by omega))
    · have large := not_lt.1 (mt small.2 exceeds)
      rw [two_zpow_succ]
      linarith

/-- Holds of what a format can hold. -/
def Representable (fmt : Format) : Binary → Prop
  | .finite _ m e => m < 2 ^ fmt.precision ∧ fmt.minExponent ≤ e ∧ e ≤ fmt.maxExponent
  | _ => True

/-- The least quotient that is rounded to an infinity. -/
def overflow (fmt : Format) : ℚ :=
  (2 ^ fmt.precision - 1 / 2) * 2 ^ fmt.maxExponent

/-- A quotient is rounded to a number that the format holds, above it by half of the last place at
most, or it is too large and becomes an infinity. -/
theorem ofQuotient_cases (proper : fmt.Proper) (negative : Bool) (hnum : 0 < num) (hden : 0 < den) :
    (∃ m e, ofQuotient fmt negative num den = .finite negative m e ∧
      Representable fmt (.finite negative m e) ∧
      2 * (m * 2 ^ e) ≤ 2 * (num / den : ℚ) + 2 ^ lastPlace fmt num den) ∨
    ofQuotient fmt negative num den = .infinite negative ∧ overflow fmt ≤ num / den := by
  obtain ⟨lowest, below, normal⟩ := lastPlace_bounds fmt hnum hden
  have none : ¬(num = 0 ∨ den = 0) := by omega
  simp only [ofQuotient, if_neg none, Nat.pow_eq]
  generalize lastPlace fmt num den = e at *
  have unit := two_zpow_pos e
  have hd := inUnits_snd_pos hden num e
  have near := roundQuotient_le hd (inUnits num den e).1
  have le := roundQuotient_le_succ (inUnits num den e).1 (inUnits num den e).2
  have fits := (div_lt_iff_ratio_lt (inUnits num den e).1 hd (2 ^ fmt.precision)).2
  rw [show ((inUnits num den e).1, (inUnits num den e).2) = inUnits num den e from rfl,
    ratio_inUnits] at near fits
  rw [Nat.cast_pow, Nat.cast_ofNat, div_lt_iff₀ unit] at fits
  generalize roundQuotient (inUnits num den e).1 (inUnits num den e).2 = m at *
  have le : m ≤ 2 ^ fmt.precision := Nat.le_trans le (fits below)
  have near : 2 * (m * 2 ^ e) ≤ 2 * (num / den : ℚ) + 2 ^ e := by
    have := mul_le_mul_of_nonneg_right near unit.le
    rw [add_mul, div_mul_cancel₀ _ unit.ne'] at this
    linarith
  have unit' := two_zpow_pos fmt.maxExponent
  split
  · next full =>
    -- All digits are carried to the next place.
    have carried : (2 : ℚ) ^ (fmt.precision - 1) * 2 ^ (e + 1) = m * 2 ^ e := by
      have : (2 : ℚ) ^ fmt.precision = 2 ^ (fmt.precision - 1) * 2 := by
        rw [← pow_succ, Nat.sub_add_cancel proper.precision]
      rw [full, Nat.cast_pow, Nat.cast_ofNat, this, two_zpow_succ]
      ring
    split
    · next large =>
      refine .inr ⟨rfl, ?_⟩
      have grow := two_zpow_le (Int.le_of_lt_add_one large)
      rw [full, Nat.cast_pow, Nat.cast_ofNat] at near
      have one : (1 : ℚ) ≤ 2 ^ fmt.precision := one_le_pow₀ one_le_two
      rw [overflow]
      nlinarith
    · next small =>
      have fewer : 2 ^ (fmt.precision - 1) < 2 ^ fmt.precision :=
        Nat.pow_lt_pow_right (by decide) (Nat.sub_one_lt_of_lt proper.precision)
      refine .inl ⟨_, _, rfl, ⟨fewer, Int.le_add_one lowest, Int.not_lt.1 small⟩, ?_⟩
      rw [Nat.cast_pow, Nat.cast_ofNat, carried]
      exact near
  · next ne =>
    split
    · next large =>
      refine .inr ⟨rfl, ?_⟩
      have normal := normal (Int.lt_of_le_of_lt proper.exponents large)
      have grow := two_zpow_le (Int.add_one_le_of_lt large)
      rw [two_zpow_succ] at grow
      have pos : (0 : ℚ) < 2 ^ fmt.precision := by positivity
      rw [overflow]
      nlinarith
    · next small =>
      exact .inl ⟨_, _, rfl, ⟨Nat.lt_of_le_of_ne le ne, lowest, Int.not_lt.1 small⟩, near⟩

/-! ### What operations give -/

lemma representable_zero (proper : fmt.Proper) (negative : Bool) :
    Representable fmt (zero fmt negative) :=
  ⟨by positivity, le_refl _, proper.exponents⟩

lemma representable_ofQuotient (proper : fmt.Proper) (negative : Bool) (num den : Nat) :
    Representable fmt (ofQuotient fmt negative num den) := by
  by_cases none : num = 0 ∨ den = 0
  · rw [ofQuotient, if_pos none]
    exact representable_zero proper negative
  · obtain ⟨m, e, eq, held, -⟩ | ⟨eq, -⟩ :=
      ofQuotient_cases proper negative (Nat.pos_of_ne_zero (mt .inl none))
        (Nat.pos_of_ne_zero (mt .inr none))
    · rw [eq]
      exact held
    · rw [eq]
      trivial

lemma representable_mul (proper : fmt.Proper) (x y : Binary) : Representable fmt (mul fmt x y) := by
  cases x <;> cases y <;> simp only [mul] <;> try split
  all_goals first | trivial | exact representable_ofQuotient proper _ _ _

lemma representable_div (proper : fmt.Proper) (x y : Binary) : Representable fmt (div fmt x y) := by
  cases x <;> cases y <;> simp only [div] <;> try split
  all_goals
    first
    | trivial
    | exact representable_zero proper _
    | exact representable_ofQuotient proper _ _ _
    | (split <;> trivial)

lemma Representable.neg {x : Binary} (held : Representable fmt x) : Representable fmt x.neg := by
  cases x <;> exact held

lemma ofQuotient_ne_nan (fmt : Format) (negative : Bool) (num den : Nat) :
    ofQuotient fmt negative num den ≠ .nan := by
  simp only [ofQuotient, zero]
  split_ifs <;> exact Binary.noConfusion

/-- A product is defined if one factor is, and the other is a number but not zero. -/
lemma mul_ne_nan {x : Binary} {s : Bool} {m : Nat} {e : Int} (defined : x ≠ .nan) (ne : m ≠ 0) :
    mul fmt x (.finite s m e) ≠ .nan := by
  cases x with
  | nan => exact absurd rfl defined
  | infinite => simp [mul, isZero, ne]
  | finite => exact ofQuotient_ne_nan _ _ _ _

/-- A quotient is defined if the dividend is, and the divisor is a number but not zero. -/
lemma div_ne_nan {x : Binary} {s : Bool} {m : Nat} {e : Int} (defined : x ≠ .nan) (ne : m ≠ 0) :
    div fmt x (.finite s m e) ≠ .nan := by
  cases x with
  | nan => exact absurd rfl defined
  | infinite => exact Binary.noConfusion
  | finite =>
    rw [div, if_neg ne]
    exact ofQuotient_ne_nan _ _ _ _

lemma neg_ne_nan {x : Binary} (defined : x ≠ .nan) : x.neg ≠ .nan := by
  cases x with
  | nan => exact absurd rfl defined
  | infinite => exact Binary.noConfusion
  | finite => exact Binary.noConfusion

/-- A quotient that is not too large is not rounded to an infinity. -/
lemma ofQuotient_isInfinite (proper : fmt.Proper) (negative : Bool)
    (lt : (num / den : ℚ) < overflow fmt) : (ofQuotient fmt negative num den).isInfinite = false := by
  by_cases none : num = 0 ∨ den = 0
  · rw [ofQuotient, if_pos none]
    rfl
  · obtain ⟨m, e, eq, -⟩ | ⟨-, le⟩ :=
      ofQuotient_cases proper negative (Nat.pos_of_ne_zero (mt .inl none))
        (Nat.pos_of_ne_zero (mt .inr none))
    · rw [eq]
      rfl
    · exact absurd lt (not_lt.2 le)

/-- A natural number that is not too large is rounded to a number that is hardly greater. -/
lemma ofNat_of_lt {n : Nat} (lt : (n : ℚ) < overflow .double) :
    ∃ m e, ofNat .double n = .finite false m e ∧ 2 ^ 53 * (m * 2 ^ e : ℚ) ≤ (2 ^ 53 + 1) * n := by
  obtain rfl | pos := Nat.eq_zero_or_pos n
  · exact ⟨0, -1074, rfl, by simp⟩
  · obtain ⟨m, e, eq, -, near⟩ | ⟨-, le⟩ :=
      ofQuotient_cases Format.proper_double false pos Nat.one_pos
    · refine ⟨m, e, eq, ?_⟩
      obtain ⟨-, below, normal⟩ := lastPlace_bounds .double pos Nat.one_pos
      have one : (1 : ℚ) ≤ n := Nat.one_le_cast.2 pos
      rw [Nat.cast_one, div_one] at *
      -- The last place of a number from one on is above the lowest one.
      have normal := normal (by
        refine Int.lt_of_not_ge fun le => ?_
        have le := two_zpow_le le
        have small : (2 : ℚ) ^ Format.double.precision * 2 ^ Format.double.minExponent < 1 := by
          rw [← zpow_natCast, ← zpow_add₀ two_ne_zero]
          exact zpow_lt_one_of_neg₀ one_lt_two (by decide)
        have : (0 : ℚ) < 2 ^ Format.double.precision := by positivity
        nlinarith)
      have precision : Format.double.precision = 53 := rfl
      rw [precision] at normal
      linarith
    · rw [Nat.cast_one, div_one] at le
      exact absurd lt (not_lt.2 le)

lemma mul_finite (s t : Bool) (m n : Nat) (e f : Int) :
    mul fmt (.finite s m e) (.finite t n f) =
      ofQuotient fmt (s != t) (magnitude (m * n) (e + f)).1 (magnitude (m * n) (e + f)).2 :=
  rfl

/-- Three units below the bound of the significands: so much is left for the rounding of two factors
and of their product. -/
def safe : ℚ := (2 ^ 53 - 3) * 2 ^ (971 : Int)

/-- A product of numbers that were rounded is no infinity, unless the product of the numbers
themselves comes close to the greatest number. -/
lemma mul_ofNat_isInfinite {a b : Nat} (pos : 0 < b)
    (le : (a * b : ℚ) ≤ safe) (lt : (b : ℚ) < overflow .double) :
    (mul .double (ofNat .double a) (ofNat .double b)).isInfinite = false := by
  have unit := two_zpow_pos 971
  have top : overflow .double = (2 ^ 53 - 1 / 2) * 2 ^ (971 : Int) := rfl
  rw [safe] at le
  have one : (1 : ℚ) ≤ b := Nat.one_le_cast.2 pos
  have alone : (a : ℚ) < overflow .double := by
    refine (le_mul_of_one_le_right (Nat.cast_nonneg a) one).trans_lt (le.trans_lt ?_)
    rw [top]
    exact mul_lt_mul_of_pos_right (by norm_num) unit
  obtain ⟨m, e, eq, near⟩ := ofNat_of_lt alone
  obtain ⟨n, f, eq', near'⟩ := ofNat_of_lt lt
  rw [eq, eq', mul_finite]
  refine ofQuotient_isInfinite Format.proper_double _ ?_
  have value : ((magnitude (m * n) (e + f)).1 / (magnitude (m * n) (e + f)).2 : ℚ) =
      (m * 2 ^ e) * (n * 2 ^ f) := by
    rw [← ratio, ratio_magnitude, Nat.cast_mul, zpow_add₀ two_ne_zero]
    ring
  rw [value, top]
  generalize (2 : ℚ) ^ (971 : Int) = u at *
  have square : (0 : ℚ) < (2 ^ 53) ^ 2 := by positivity
  refine lt_of_mul_lt_mul_left ?_ square.le
  calc (2 ^ 53) ^ 2 * ((m * 2 ^ e) * (n * 2 ^ f) : ℚ)
      = (2 ^ 53 * (m * 2 ^ e)) * (2 ^ 53 * (n * 2 ^ f)) := by ring
    _ ≤ ((2 ^ 53 + 1) * a) * ((2 ^ 53 + 1) * b : ℚ) :=
      mul_le_mul near near' (by positivity) (by positivity)
    _ = (2 ^ 53 + 1) ^ 2 * (a * b : ℚ) := by ring
    _ ≤ (2 ^ 53 + 1) ^ 2 * ((2 ^ 53 - 3) * u) := mul_le_mul_of_nonneg_left le (by positivity)
    _ < (2 ^ 53) ^ 2 * ((2 ^ 53 - 1 / 2) * u) := by
      rw [← mul_assoc, ← mul_assoc]
      exact mul_lt_mul_of_pos_right (by norm_num) unit

end Binary

end Multipass.Number
