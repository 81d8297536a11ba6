/-
Rounding to doubles. A double has one form, every rounded fraction is in it, and the
fraction that a double is exactly is rounded to that double.
-/

import Mathlib.Algebra.Order.Field.Power
import Mathlib.Data.Rat.Cast.Order
import Mathlib.Tactic.FieldSimp
import Mathlib.Tactic.Linarith
import Mathlib.Tactic.NormNum
import Mathlib.Tactic.Ring
import RefSync.Binary64

namespace RefSync.Binary64

/-- The one form of a double: as many leading bits as there can be. -/
def IsCanonical : Binary64 → Prop
  | .nan | .infinite _ => True
  | .finite _ significand exponent =>
      significand < 2 ^ 53 ∧ minExponent ≤ exponent ∧ exponent ≤ maxExponent
        ∧ (2 ^ 52 ≤ significand ∨ exponent = minExponent)

/-- Whether a value has 53 bits before the point once the exponent is taken off. -/
def Leads (value : ℚ) (exponent : Int) : Prop :=
  (2 : ℚ) ^ (exponent + 52) ≤ value ∧ value < (2 : ℚ) ^ (exponent + 53)

theorem leads_unique {value : ℚ} {one other : Int} (left : Leads value one)
    (right : Leads value other) : one = other := by
  have below {lower upper : Int} (low : Leads value lower) (high : Leads value upper) :
      lower ≤ upper := by
    have powers : (2 : ℚ) ^ (lower + 52) < (2 : ℚ) ^ (upper + 53) := lt_of_le_of_lt low.1 high.2
    have exponents := (zpow_lt_zpow_iff_right₀ (by norm_num : (1 : ℚ) < 2)).mp powers
    omega
  have up := below left right
  have down := below right left
  omega

/-! ### Scaling -/

section

variable {base : Nat} (positive : 0 < base) (numerator : Nat) {denominator : Nat} (power : Int)

include positive

theorem scale_denominator (some : 0 < denominator) :
    0 < (scale base numerator denominator power).2 := by
  unfold scale
  split
  · exact some
  · exact Nat.mul_pos some (Nat.pow_pos positive)

theorem scale_numerator (denominator : Nat) {numerator : Nat} (some : 0 < numerator) :
    0 < (scale base numerator denominator power).1 := by
  unfold scale
  split
  · exact Nat.mul_pos some (Nat.pow_pos positive)
  · exact some

variable (denominator)

theorem scale_value :
    ((scale base numerator denominator power).1 : ℚ) / (scale base numerator denominator power).2
      = numerator / denominator * (base : ℚ) ^ power := by
  have someBase : (base : ℚ) ≠ 0 := by
    have ne : base ≠ 0 := by omega
    exact_mod_cast ne
  unfold scale
  split
  · rename_i up
    have whole : (base : ℚ) ^ power = (base : ℚ) ^ power.toNat := by
      rw [← zpow_natCast, Int.toNat_of_nonneg up]
    simp only [Nat.pow_eq, Nat.cast_mul, Nat.cast_pow]
    rw [whole]
    ring
  · rename_i down
    have whole : (base : ℚ) ^ power = ((base : ℚ) ^ (-power).toNat)⁻¹ := by
      rw [← zpow_natCast, Int.toNat_of_nonneg (by omega), zpow_neg, inv_inv]
    simp only [Nat.pow_eq, Nat.cast_mul, Nat.cast_pow]
    rw [whole, div_mul_eq_div_div, div_eq_mul_inv (_ / _)]

end

/-! ### The exponent of a fraction -/

private theorem log2_bounds {number : Nat} (some : 0 < number) :
    (2 : ℚ) ^ (number.log2 : Int) ≤ number ∧ (number : ℚ) < (2 : ℚ) ^ ((number.log2 : Int) + 1) := by
  have low : 2 ^ number.log2 ≤ number := Nat.log2_self_le (by omega)
  have high : number < 2 ^ (number.log2 + 1) := Nat.lt_log2_self
  constructor
  · rw [zpow_natCast]
    exact_mod_cast low
  · have cast : ((number.log2 : Int) + 1) = ((number.log2 + 1 : Nat) : Int) := by push_cast; rfl
    rw [cast, zpow_natCast]
    exact_mod_cast high

/-- The lengths of its terms say what leads in a fraction, up to one. -/
private theorem lengths_lead {numerator denominator : Nat} (some : 0 < numerator)
    (below : 0 < denominator) :
    (2 : ℚ) ^ ((numerator.log2 : Int) - denominator.log2 - 1) ≤ (numerator : ℚ) / denominator
      ∧ (numerator : ℚ) / denominator < (2 : ℚ) ^ ((numerator.log2 : Int) - denominator.log2 + 1) := by
  obtain ⟨numLow, numHigh⟩ := log2_bounds some
  obtain ⟨denLow, denHigh⟩ := log2_bounds below
  have denPositive : (0 : ℚ) < denominator := by exact_mod_cast below
  have two : (2 : ℚ) ≠ 0 := by norm_num
  constructor
  · rw [le_div_iff₀ denPositive]
    calc
      (2 : ℚ) ^ ((numerator.log2 : Int) - denominator.log2 - 1) * denominator
          ≤ (2 : ℚ) ^ ((numerator.log2 : Int) - denominator.log2 - 1)
            * (2 : ℚ) ^ ((denominator.log2 : Int) + 1) := by
        gcongr
      _ = (2 : ℚ) ^ (numerator.log2 : Int) := by
        rw [← zpow_add₀ two]
        congr 1
        omega
      _ ≤ numerator := numLow
  · rw [div_lt_iff₀ denPositive]
    calc
      (numerator : ℚ) < (2 : ℚ) ^ ((numerator.log2 : Int) + 1) := numHigh
      _ = (2 : ℚ) ^ ((numerator.log2 : Int) - denominator.log2 + 1)
            * (2 : ℚ) ^ (denominator.log2 : Int) := by
        rw [← zpow_add₀ two]
        congr 1
        omega
      _ ≤ (2 : ℚ) ^ ((numerator.log2 : Int) - denominator.log2 + 1) * denominator := by
        gcongr

/-- The whole part of a fraction without its exponent, compared with a bound. -/
private theorem scaled_lt_iff (numerator : Nat) {denominator : Nat} (below : 0 < denominator)
    (exponent : Int) (bound : Nat) :
    (scale 2 numerator denominator (-exponent)).1 / (scale 2 numerator denominator (-exponent)).2
        < bound
      ↔ (numerator : ℚ) / denominator < bound * (2 : ℚ) ^ exponent := by
  have bottom := scale_denominator (by decide : 0 < 2) numerator (-exponent) below
  have scaled := scale_value (by decide : 0 < 2) numerator denominator (-exponent)
  generalize scale 2 numerator denominator (-exponent) = fraction at bottom scaled ⊢
  have bottomPositive : (0 : ℚ) < fraction.2 := by exact_mod_cast bottom
  have cast : fraction.1 < bound * fraction.2 ↔ (fraction.1 : ℚ) / fraction.2 < bound := by
    rw [div_lt_iff₀ bottomPositive]
    exact_mod_cast Iff.rfl
  rw [Nat.div_lt_iff_lt_mul bottom, cast, scaled, Nat.cast_two, zpow_neg, ← div_eq_mul_inv,
    div_lt_iff₀ (by positivity)]

/-- Where the exponent is not the least one, it leads. -/
theorem exponentFor_leads {numerator denominator : Nat} (some : 0 < numerator)
    (below : 0 < denominator) :
    ∃ leading, Leads ((numerator : ℚ) / denominator) leading
      ∧ exponentFor numerator denominator = max minExponent leading := by
  obtain ⟨low, high⟩ := lengths_lead some below
  let guess : Int := (numerator.log2 : Int) - denominator.log2 - 52
  let value : ℚ := (numerator : ℚ) / denominator
  have asked : (scale 2 numerator denominator (-guess)).1
        / (scale 2 numerator denominator (-guess)).2 < 2 ^ 52
      ↔ value < (2 : ℚ) ^ (guess + 52) := by
    rw [scaled_lt_iff numerator below, add_comm guess 52, zpow_add₀ (by norm_num)]
    norm_num [value]
  refine ⟨if value < (2 : ℚ) ^ (guess + 52) then guess - 1 else guess, ?_, ?_⟩
  · split
    · rename_i less
      refine ⟨?_, ?_⟩
      · rw [show guess - 1 + 52 = (numerator.log2 : Int) - denominator.log2 - 1 by omega]
        exact low
      · rw [show guess - 1 + 53 = guess + 52 by ring]
        exact less
    · rename_i more
      refine ⟨not_lt.mp more, ?_⟩
      rw [show guess + 53 = (numerator.log2 : Int) - denominator.log2 + 1 by omega]
      exact high
  · unfold exponentFor
    simp only [Nat.pow_eq]
    congr 1
    by_cases less : value < (2 : ℚ) ^ (guess + 52)
    · rw [if_pos less, if_pos (asked.mpr less)]
    · rw [if_neg less, if_neg (fun small => less (asked.mp small))]

/-! ### Rounding -/

theorem divideToEven_bounds (numerator denominator : Nat) :
    numerator / denominator ≤ divideToEven numerator denominator
      ∧ divideToEven numerator denominator ≤ numerator / denominator + 1 := by
  unfold divideToEven
  dsimp only
  split
  · omega
  · split
    · omega
    · split <;> omega

theorem divideToEven_exact (quotient : Nat) {denominator : Nat} (some : 0 < denominator) :
    divideToEven (quotient * denominator) denominator = quotient := by
  unfold divideToEven
  rw [Nat.mul_mod_left, Nat.mul_div_cancel _ some, if_pos (by omega)]

/-- Rounding does not reach an integer that is more than a half away. -/
theorem divideToEven_lt {numerator denominator bound : Nat}
    (below : 2 * numerator + denominator < 2 * bound * denominator) :
    divideToEven numerator denominator < bound := by
  have split : denominator * (numerator / denominator) + numerator % denominator = numerator :=
    Nat.div_add_mod numerator denominator
  have lower (quotient : Nat) (fits : quotient * denominator < bound * denominator) :
      quotient < bound := Nat.lt_of_mul_lt_mul_right fits
  unfold divideToEven
  dsimp only
  generalize numerator / denominator = quotient at split ⊢
  generalize numerator % denominator = rest at split ⊢
  have whole : quotient < bound := lower quotient (by nlinarith)
  split
  · exact whole
  · have up : quotient + 1 < bound := lower (quotient + 1) (by nlinarith)
    split
    · exact up
    · split
      · exact whole
      · exact up

theorem ofFraction_eq (negative : Bool) (numerator denominator : Nat) {top under : Nat}
    {exponent : Int} (chosen : exponentFor numerator denominator = exponent)
    (scaled : scale 2 numerator denominator (-exponent) = (top, under)) :
    ofFraction negative numerator denominator
      = if divideToEven top under = 2 ^ 53 then
          if maxExponent < exponent + 1 then .infinite negative
          else .finite negative (2 ^ 52) (exponent + 1)
        else if maxExponent < exponent then .infinite negative
          else .finite negative (divideToEven top under) exponent := by
  unfold ofFraction
  dsimp only
  rw [chosen, scaled]
  simp only [Nat.pow_eq]
  split <;> rfl

/-- Without its exponent, a fraction has 53 bits before the point, or less at the least exponent. -/
private theorem scaled_bits {numerator denominator : Nat} (some : 0 < numerator)
    (below : 0 < denominator) {top under : Nat} {exponent : Int}
    (chosen : exponentFor numerator denominator = exponent)
    (scaled : scale 2 numerator denominator (-exponent) = (top, under)) :
    minExponent ≤ exponent ∧ top / under < 2 ^ 53
      ∧ (exponent = minExponent ∨ 2 ^ 52 ≤ top / under) := by
  obtain ⟨leading, leads, most⟩ := exponentFor_leads some below
  rw [chosen] at most
  have least : minExponent ≤ exponent := most ▸ le_max_left _ _
  have leadingBelow : leading ≤ exponent := most ▸ le_max_right _ _
  have quotient := scaled_lt_iff numerator below exponent
  rw [scaled] at quotient
  have power (bits : Nat) : ((2 ^ bits : Nat) : ℚ) * (2 : ℚ) ^ exponent
      = (2 : ℚ) ^ (exponent + bits) := by
    rw [add_comm, zpow_add₀ (by norm_num), zpow_natCast]
    norm_num
  refine ⟨least, (quotient _).mpr ?_, ?_⟩
  · rw [power]
    exact leads.2.trans_le (zpow_le_zpow_right₀ (by norm_num) (by omega))
  · rcases le_total leading minExponent with low | high
    · exact Or.inl (most.trans (max_eq_left low))
    · refine Or.inr (not_lt.mp fun less => ?_)
      have same : exponent = leading := most.trans (max_eq_right high)
      have small := (quotient _).mp less
      rw [power, same] at small
      exact absurd leads.1 (not_le.mpr small)

/-- A rounded fraction is a double in its one form. -/
theorem isCanonical_ofFraction (negative : Bool) {numerator denominator : Nat}
    (some : 0 < numerator) (below : 0 < denominator) :
    IsCanonical (ofFraction negative numerator denominator) := by
  generalize split : scale 2 numerator denominator (-exponentFor numerator denominator) = fraction
  obtain ⟨top, under⟩ := fraction
  obtain ⟨least, small, large⟩ := scaled_bits some below rfl split
  obtain ⟨roundedUp, roundedDown⟩ := divideToEven_bounds top under
  rw [ofFraction_eq negative numerator denominator rfl split]
  split
  · split
    · trivial
    · rename_i fits
      exact ⟨by norm_num, by omega, by omega, Or.inl (le_refl _)⟩
  · rename_i notFull
    split
    · trivial
    · rename_i fits
      refine ⟨by omega, least, by omega, ?_⟩
      rcases large with same | enough
      · exact Or.inr same
      · exact Or.inl (le_trans enough roundedUp)

/-- A fraction that is a double is rounded to that double. -/
theorem ofFraction_exact (negative : Bool) {numerator denominator significand : Nat}
    {exponent : Int} (canonical : IsCanonical (.finite negative significand exponent))
    (some : 0 < significand) (below : 0 < denominator)
    (value : (numerator : ℚ) / denominator = significand * (2 : ℚ) ^ exponent) :
    ofFraction negative numerator denominator = .finite negative significand exponent := by
  obtain ⟨fits, least, most, normal⟩ := canonical
  have two : (2 : ℚ) ≠ 0 := by norm_num
  have numeratorPositive : 0 < numerator := by
    rcases Nat.eq_zero_or_pos numerator with none | positive
    · rw [none, Nat.cast_zero, zero_div] at value
      have product : (0 : ℚ) < significand * (2 : ℚ) ^ exponent := by positivity
      rw [← value] at product
      exact absurd product (lt_irrefl 0)
    · exact positive
  obtain ⟨leading, leads, chosen⟩ := exponentFor_leads numeratorPositive below
  have high : (significand : ℚ) * (2 : ℚ) ^ exponent < (2 : ℚ) ^ (exponent + 53) := by
    rw [add_comm, zpow_add₀ two]
    have cast : (significand : ℚ) < (2 : ℚ) ^ (53 : Int) := by
      rw [show (53 : Int) = ((53 : Nat) : Int) from rfl, zpow_natCast]
      exact_mod_cast fits
    gcongr
  have same : exponentFor numerator denominator = exponent := by
    rw [chosen]
    rcases normal with full | lowest
    · have low : (2 : ℚ) ^ (exponent + 52) ≤ (significand : ℚ) * (2 : ℚ) ^ exponent := by
        rw [add_comm, zpow_add₀ two]
        have cast : (2 : ℚ) ^ (52 : Int) ≤ (significand : ℚ) := by
          rw [show (52 : Int) = ((52 : Nat) : Int) from rfl, zpow_natCast]
          exact_mod_cast full
        gcongr
      have found : leading = exponent :=
        leads_unique leads ⟨value ▸ low, value ▸ high⟩
      rw [found, max_eq_right least]
    · have powers : (2 : ℚ) ^ (leading + 52) < (2 : ℚ) ^ (exponent + 53) :=
        lt_of_le_of_lt leads.1 (value ▸ high)
      have exponents := (zpow_lt_zpow_iff_right₀ (by norm_num : (1 : ℚ) < 2)).mp powers
      rw [lowest] at exponents ⊢
      rw [max_eq_left (by omega)]
  have bottom := scale_denominator (by decide : 0 < 2) numerator (-exponent) below
  have bottomPositive : (0 : ℚ) < (scale 2 numerator denominator (-exponent)).2 := by
    exact_mod_cast bottom
  have scaled : ((scale 2 numerator denominator (-exponent)).1 : ℚ)
      / (scale 2 numerator denominator (-exponent)).2
        = (numerator : ℚ) / denominator * ((2 : Nat) : ℚ) ^ (-exponent) :=
    scale_value (by decide) numerator _ (-exponent)
  rw [value, Nat.cast_two, mul_assoc, ← zpow_add₀ two, add_neg_cancel, zpow_zero, mul_one,
    div_eq_iff bottomPositive.ne'] at scaled
  have whole : (scale 2 numerator denominator (-exponent)).1
      = significand * (scale 2 numerator denominator (-exponent)).2 := by
    exact_mod_cast scaled
  unfold ofFraction
  simp only [same, whole, divideToEven_exact significand bottom, Nat.pow_eq]
  rw [if_neg fits.ne]
  dsimp only
  rw [if_neg (not_lt.mpr most)]

/-! ### Overflow -/

section

variable (negative : Bool) {numerator denominator : Nat} (some : 0 < numerator)
  (below : 0 < denominator)

include some below

/-- A fraction from the next power of two on is beyond the doubles. -/
theorem ofFraction_of_large (large : (2 : ℚ) ^ (1024 : Int) ≤ (numerator : ℚ) / denominator) :
    ofFraction negative numerator denominator = .infinite negative := by
  obtain ⟨leading, leads, chosen⟩ := exponentFor_leads some below
  have powers := (zpow_lt_zpow_iff_right₀ (by norm_num : (1 : ℚ) < 2)).mp (large.trans_lt leads.2)
  have beyond : maxExponent < max minExponent leading := by
    rw [maxExponent]
    omega
  generalize max minExponent leading = exponent at chosen beyond
  rw [ofFraction_eq negative numerator denominator chosen rfl, if_pos beyond,
    if_pos (beyond.trans (lt_add_one exponent)), ite_self]

/-- A fraction that is nearer to the greatest double than to the next power of two is one of them. -/
theorem ofFraction_of_small
    (small : (numerator : ℚ) / denominator < (2 ^ 54 - 1) * (2 : ℚ) ^ (970 : Int)) :
    ∃ significand exponent,
      ofFraction negative numerator denominator = .finite negative significand exponent := by
  obtain ⟨leading, leads, chosen⟩ := exponentFor_leads some below
  have powers : leading + 52 < 1024 := by
    have next : (2 ^ 54 - 1) * (2 : ℚ) ^ (970 : Int) ≤ (2 : ℚ) ^ (1024 : Int) := by
      rw [show (1024 : Int) = 54 + 970 from rfl, zpow_add₀ (by norm_num)]
      gcongr
      norm_num
    exact (zpow_lt_zpow_iff_right₀ (by norm_num : (1 : ℚ) < 2)).mp
      (leads.1.trans_lt (small.trans_le next))
  have fits : max minExponent leading ≤ maxExponent := by
    rw [minExponent, maxExponent]
    omega
  generalize max minExponent leading = exponent at chosen fits
  have bottom := scale_denominator (by decide : 0 < 2) numerator (-exponent) below
  have scaled := scale_value (by decide : 0 < 2) numerator denominator (-exponent)
  generalize split : scale 2 numerator denominator (-exponent) = fraction at bottom scaled
  obtain ⟨top, under⟩ := fraction
  rw [ofFraction_eq negative numerator denominator chosen split]
  split
  · rename_i full
    -- Only below the greatest exponent is there room for one more bit.
    have room : exponent < maxExponent := by
      by_contra greatest
      obtain rfl : exponent = 971 := by
        rw [maxExponent] at fits greatest
        omega
      have bottomPositive : (0 : ℚ) < under := by exact_mod_cast bottom
      have less : (top : ℚ) / under < (2 ^ 54 - 1) / 2 := by
        rw [scaled, Nat.cast_two, zpow_neg, ← div_eq_mul_inv, div_lt_iff₀ (by positivity)]
        refine small.trans_eq ?_
        rw [show (971 : Int) = 1 + 970 from rfl, zpow_add₀ (by norm_num)]
        ring
      have rounds : 2 * top + under < 2 * 2 ^ 53 * under := by
        rw [div_lt_iff₀ bottomPositive] at less
        have cast : (2 * top + under : ℚ) < 2 * 2 ^ 53 * under := by linarith
        exact_mod_cast cast
      exact absurd full (divideToEven_lt rounds).ne
    rw [if_neg (by omega)]
    exact ⟨_, _, rfl⟩
  · rw [if_neg (by omega)]
    exact ⟨_, _, rfl⟩

end

end RefSync.Binary64
