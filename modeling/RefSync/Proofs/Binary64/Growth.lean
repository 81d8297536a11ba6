/-
How far pauses grow. The power of the factor between two of them is a double as long as it is not
beyond them all; from then on there is no next pause.
-/

import Mathlib.Tactic.Positivity
import RefSync.Duration
import RefSync.Proofs.Binary64.Rounding

namespace RefSync.Binary64

section

variable {negative : Bool} {significand : Nat} {exponent : Int} (count : Nat)

/-- The fraction that a power is rounded from. -/
theorem power_value : ((scale 2 (Nat.pow significand count) 1 (exponent * count)).1 : ℚ)
      / (scale 2 (Nat.pow significand count) 1 (exponent * count)).2
    = ((significand : ℚ) * (2 : ℚ) ^ exponent) ^ count := by
  rw [scale_value (by decide), Nat.pow_eq, Nat.cast_pow, Nat.cast_one, div_one, Nat.cast_two, mul_pow,
    zpow_mul, zpow_natCast]

variable (some : 0 < significand)

include some

theorem power_positive : 0 < (scale 2 (Nat.pow significand count) 1 (exponent * count)).1
    ∧ 0 < (scale 2 (Nat.pow significand count) 1 (exponent * count)).2 :=
  ⟨scale_numerator (by decide) _ _ (Nat.pow_pos some), scale_denominator (by decide) _ _ (by decide)⟩

/-- A power is none if its exact value is beyond the doubles. -/
theorem power?_of_large
    (large : (2 : ℚ) ^ (1024 : Int) ≤ ((significand : ℚ) * (2 : ℚ) ^ exponent) ^ count) :
    power? (.finite negative significand exponent) count = none := by
  obtain ⟨top, bottom⟩ := power_positive count some
  rw [← power_value] at large
  unfold power?
  dsimp only
  rw [ofFraction_of_large false top bottom large]

/-- A power is a double if its exact value is nearer to one than to the next power of two. -/
theorem power?_of_small
    (small : ((significand : ℚ) * (2 : ℚ) ^ exponent) ^ count < (2 ^ 54 - 1) * (2 : ℚ) ^ (970 : Int)) :
    (power? (.finite negative significand exponent) count).isSome = true := by
  obtain ⟨top, bottom⟩ := power_positive count some
  rw [← power_value] at small
  obtain ⟨rounded, leading, fits⟩ := ofFraction_of_small false top bottom small
  unfold power?
  dsimp only
  rw [fits]
  rfl

end

end RefSync.Binary64

namespace RefSync.Duration

open Binary64

/-- The factor between two pauses, as it is rounded. -/
theorem roundedGrowth_eq : roundedGrowth = .finite false 7205759403792794 (-52) := by
  decide +kernel

/-- The value of that factor. -/
def factor : ℚ :=
  (7205759403792794 : Nat) * (2 : ℚ) ^ (-52 : Int)

theorem factor_eq : factor = (7205759403792794 : Nat) / 2 ^ 52 := by
  rw [div_eq_mul_inv]
  rfl

theorem one_le_factor : 1 ≤ factor := by
  rw [factor_eq]
  norm_num

/-- The last power of it that is rounded to a double. -/
theorem factor_pow_lt : factor ^ 1510 < (2 ^ 54 - 1) * (2 : ℚ) ^ (970 : Int) := by
  have whole : 7205759403792794 ^ 1510 < (2 ^ 54 - 1) * 2 ^ 970 * 2 ^ (52 * 1510) := by
    decide +kernel
  have cast : ((7205759403792794 ^ 1510 : Nat) : ℚ)
      < ((2 ^ 54 - 1) * 2 ^ 970 * 2 ^ (52 * 1510) : Nat) := Nat.cast_lt.mpr whole
  have bits : ((2 ^ 54 - 1 : Nat) : ℚ) = 2 ^ 54 - 1 := by norm_num
  rw [Nat.cast_pow, Nat.cast_mul, Nat.cast_mul, Nat.cast_pow, Nat.cast_pow, bits] at cast
  rw [factor_eq, div_pow, div_lt_iff₀ (by positivity), ← pow_mul]
  exact cast

theorem le_factor_pow : (2 : ℚ) ^ (1024 : Int) ≤ factor ^ 1511 := by
  have whole : 2 ^ 1024 * 2 ^ (52 * 1511) ≤ 7205759403792794 ^ 1511 := by
    decide +kernel
  have cast : ((2 ^ 1024 * 2 ^ (52 * 1511) : Nat) : ℚ) ≤ (7205759403792794 ^ 1511 : Nat) :=
    Nat.cast_le.mpr whole
  rw [Nat.cast_pow, Nat.cast_mul, Nat.cast_pow, Nat.cast_pow] at cast
  rw [factor_eq, div_pow, le_div_iff₀ (by positivity), ← pow_mul]
  exact cast

/-- A double has a multiple for each of the first 1511 pauses, and for none after them. -/
theorem grown?_isSome_iff {seconds : Binary64} {failures : Nat} :
    ((Duration.rounded seconds).grown? failures).isSome = true ↔ failures ≤ 1510 := by
  rw [grown?, Option.isSome_map, roundedGrowth_eq]
  constructor
  · intro grows
    by_contra beyond
    have large : (2 : ℚ) ^ (1024 : Int) ≤ factor ^ failures :=
      le_factor_pow.trans (pow_le_pow_right₀ one_le_factor (by omega))
    rw [power?_of_large failures (by decide) large] at grows
    cases grows
  · intro within
    have small : factor ^ failures < (2 ^ 54 - 1) * (2 : ℚ) ^ (970 : Int) :=
      (pow_le_pow_right₀ one_le_factor within).trans_lt factor_pow_lt
    exact power?_of_small failures (by decide) small

end RefSync.Duration
