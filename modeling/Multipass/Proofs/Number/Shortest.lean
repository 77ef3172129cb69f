import Mathlib.Data.Nat.Cast.Order.Field
import Multipass.Number.Decimal
import Multipass.Proofs.Number.Rounding

/-!
# The fewest digits

The digits that are found for a number spell a positive decimal that does not exceed the upper end
of its rounding interval.

Main statement: `shortest_eq`.
-/

namespace Multipass.Number

variable {num den : Nat} {grid : Int}

lemma ten_zpow_pos (e : Int) : (0 : ℚ) < 10 ^ e :=
  zpow_pos (by norm_num) e

lemma ratio_onGrid (num den : Nat) (grid : Int) :
    ratio (onGrid num den grid) = num / den / 10 ^ grid := by
  simp only [ratio, onGrid, Nat.pow_eq]
  split
  · next h => rw [zpow_of_nonneg 10 h, Nat.cast_mul, Nat.cast_pow, Nat.cast_ofNat, div_div]
  · next h =>
    rw [zpow_of_neg 10 h, Nat.cast_mul, Nat.cast_pow, Nat.cast_ofNat, div_inv_eq_mul,
      mul_div_right_comm]

lemma onGrid_snd_pos (hden : 0 < den) (num : Nat) (grid : Int) : 0 < (onGrid num den grid).2 := by
  simp only [onGrid, Nat.pow_eq]
  split
  · positivity
  · exact hden

/-- A hit on a grid is positive and not above the interval. -/
lemma le_of_gridHit? {closed : Bool} {low mid high k : Nat} (hden : 0 < den)
    (hit : gridHit? closed low mid high num den grid = some k) :
    0 < k ∧ (k * 10 ^ grid : ℚ) ≤ high * (num / den) := by
  have inside : 0 < k ∧ k * (onGrid num den grid).2 ≤ high * (onGrid num den grid).1 := by
    cases closed <;> simp only [gridHit?, Bool.false_eq_true, if_true, if_false] at hit <;>
      split at hit <;> grind
  obtain ⟨pos, le⟩ := inside
  refine ⟨pos, ?_⟩
  have hd : (0 : ℚ) < (onGrid num den grid).2 := Nat.cast_pos.2 (onGrid_snd_pos hden num grid)
  have le : (k : ℚ) ≤ high * ratio (onGrid num den grid) := by
    rw [ratio, ← mul_div_assoc, le_div_iff₀ hd]
    exact_mod_cast le
  rw [ratio_onGrid, ← mul_div_assoc, le_div_iff₀ (ten_zpow_pos grid)] at le
  exact le

/-- The first hit is positive and not above the interval, if the grid that is taken without a hit is
not too coarse. -/
lemma le_of_shortestFrom (closed : Bool) (low : Nat) {mid high : Nat} {top : Int} {fuel count : Nat}
    (hden : 0 < den) (le : mid ≤ high)
    (fine : (10 : ℚ) ^ (top - (count + fuel : Nat)) ≤ mid * (num / den)) :
    0 < (shortestFrom closed low mid high num den top fuel count).1 ∧
      ((shortestFrom closed low mid high num den top fuel count).1 *
        10 ^ (shortestFrom closed low mid high num den top fuel count).2 : ℚ) ≤ high * (num / den) := by
  induction fuel generalizing count with
  | zero =>
    have grid := ten_zpow_pos (top - count)
    have hd := onGrid_snd_pos hden (mid * num) (top - count)
    have value := ratio_onGrid (mid * num) den (top - count)
    rw [Nat.cast_mul, mul_div_assoc] at value
    have floor : (((onGrid (mid * num) den (top - count)).1 / (onGrid (mid * num) den (top - count)).2 :
        Nat) : ℚ) ≤ ratio (onGrid (mid * num) den (top - count)) := Nat.cast_div_le
    have one : 1 ≤ ratio (onGrid (mid * num) den (top - count)) := by
      rw [value, le_div_iff₀ grid, one_mul]
      exact fine
    simp only [shortestFrom]
    constructor
    · refine Nat.div_pos ?_ hd
      rw [ratio, le_div_iff₀ (Nat.cast_pos.2 hd), one_mul] at one
      exact_mod_cast one
    · rw [value, le_div_iff₀ grid] at floor
      refine floor.trans (mul_le_mul_of_nonneg_right ?_ (by positivity))
      exact_mod_cast le
  | succ fuel ih =>
    simp only [shortestFrom]
    split
    · next k hit => exact le_of_gridHit? hden hit
    · exact ih (by rwa [Nat.add_right_comm])

/-- A power of ten that is not above a quotient stays so while it is raised. -/
lemma decimalExponent_le (hden : 0 < den) (fuel : Nat) {d : Int} (le : (10 : ℚ) ^ d ≤ num / den) :
    (10 : ℚ) ^ decimalExponent num den fuel d ≤ num / den := by
  induction fuel generalizing d with
  | zero => exact le
  | succ fuel ih =>
    have pos : (0 : ℚ) < den := Nat.cast_pos.2 hden
    by_cases h : 0 ≤ d + 1
    · simp only [decimalExponent, if_pos h]
      split
      · next reached =>
        refine ih ?_
        rw [le_div_iff₀ pos, zpow_of_nonneg 10 h, mul_comm]
        exact_mod_cast reached
      · exact le
    · simp only [decimalExponent, if_neg h]
      split
      · next reached =>
        refine ih ?_
        rw [le_div_iff₀ pos, zpow_of_neg 10 h, inv_mul_le_iff₀ (by positivity), mul_comm]
        exact_mod_cast reached
      · exact le

/-- The first guess at a decimal exponent is not too high, for each binary exponent of a double. -/
lemma guess_le {b : Int} (low : -1074 ≤ b) (high : b ≤ 1023) :
    (10 : ℚ) ^ (b * 30103 / 100000 - 2) ≤ 2 ^ b := by
  have up : ∀ n : Nat, n < 1024 → 10 ^ ((n : Int) * 30103 / 100000 - 2).toNat ≤ 2 ^ n := by decide +kernel
  have down : ∀ n : Nat, n < 1075 → 2 ^ n ≤ 10 ^ (2 - -(n : Int) * 30103 / 100000).toNat := by decide +kernel
  by_cases h : 0 ≤ b
  · have le := up b.toNat (by omega)
    rw [Int.toNat_of_nonneg h] at le
    calc (10 : ℚ) ^ (b * 30103 / 100000 - 2)
        ≤ 10 ^ ((b * 30103 / 100000 - 2).toNat : Int) :=
          zpow_le_zpow_right₀ (by norm_num) (Int.self_le_toNat _)
      _ ≤ 2 ^ b := by
        rw [zpow_natCast, zpow_of_nonneg 2 h]
        exact_mod_cast le
  · have le := down (-b).toNat (by omega)
    rw [Int.toNat_of_nonneg (by omega : 0 ≤ -b), Int.neg_neg] at le
    have negative : ¬0 ≤ b * 30103 / 100000 - 2 := by omega
    rw [zpow_of_neg 2 h, zpow_of_neg 10 negative, Int.neg_sub]
    exact inv_anti₀ (by positivity) (by exact_mod_cast le)

/-- The digits of a double that is not zero. -/
theorem shortest_eq {m : Nat} {e : Int} (pos : 0 < m)
    (held : Binary.Representable .double (.finite false m e)) :
    ∃ (k : Nat) (grid : Int), 0 < k ∧ (k * 10 ^ grid : ℚ) ≤ (m + 1 / 2) * 2 ^ e ∧
      shortest .double m e = ⟨stripZeros (digitChars k), grid + (digitChars k).length⟩ := by
  obtain ⟨lt, low, high⟩ := held
  have unit := ratio_magnitude 1 (e - 2)
  have hden := magnitude_snd_pos 1 (e - 2)
  rw [ratio, Nat.cast_one, one_mul] at unit
  have quarter : (4 : ℚ) * 2 ^ (e - 2) = 2 ^ e := by
    rw [zpow_sub₀ two_ne_zero]
    norm_num
    ring
  have middle : (((4 * m : Nat) * (Binary.magnitude 1 (e - 2)).1 : Nat) /
      (Binary.magnitude 1 (e - 2)).2 : ℚ) = m * 2 ^ e := by
    rw [Nat.cast_mul, mul_div_assoc, unit, ← quarter]
    push_cast
    ring
  -- The number is not below the power of two that its highest digit stands for.
  let b : Int := ((4 * m).log2 : Int) + (e - 2)
  have atLeast : (2 : ℚ) ^ b ≤ m * 2 ^ e := by
    have : (2 : ℚ) ^ ((4 * m).log2 : Int) ≤ (4 * m : Nat) := by
      rw [zpow_natCast]
      exact_mod_cast Nat.log2_self_le (by omega)
    rw [zpow_add₀ two_ne_zero, ← quarter]
    have := mul_le_mul_of_nonneg_right this (two_zpow_pos (e - 2)).le
    push_cast at this
    linarith
  have bits : 2 ≤ (4 * m).log2 ∧ (4 * m).log2 < 55 := by
    have fits : m < 2 ^ 53 := lt
    exact ⟨(Nat.le_log2 (by omega)).2 (by omega), (Nat.log2_lt (by omega)).2 (by omega)⟩
  have low : -1074 ≤ e := low
  have high : e ≤ 971 := high
  have guess := (guess_le (b := b) (by omega) (by omega)).trans atLeast
  rw [← middle] at guess
  have exponent := decimalExponent_le hden 6 guess
  let top := decimalExponent (4 * m * (Binary.magnitude 1 (e - 2)).1) (Binary.magnitude 1 (e - 2)).2 6
    (b * 30103 / 100000 - 2) + 1
  have fine : (10 : ℚ) ^ (top - (1 + 20 : Nat)) ≤ (4 * m : Nat) *
      ((Binary.magnitude 1 (e - 2)).1 / (Binary.magnitude 1 (e - 2)).2) := by
    rw [← mul_div_assoc, ← Nat.cast_mul]
    exact (zpow_le_zpow_right₀ (by norm_num) (by omega)).trans exponent
  obtain ⟨k_pos, le⟩ := le_of_shortestFrom (m % 2 == 0) (roundingInterval .double m e).1 hden
    (Nat.le_add_right (4 * m) 2) fine
  rw [unit] at le
  refine ⟨_, _, k_pos, le.trans_eq ?_, ?_⟩
  · rw [← quarter]
    push_cast
    ring
  · rw [shortest, if_neg pos.ne']
    rfl

end Multipass.Number
