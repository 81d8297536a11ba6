/-
The shortest decimal of a double reads back as that double: the grids of the search
only offer decimals that do, and the exact expansion that closes it does as well.
-/

import Mathlib.Data.Nat.Digits.Defs
import RefSync.Binary64.Shortest
import RefSync.Proofs.Binary64.Rounding

namespace RefSync.Binary64

/-! ### Decimals -/

theorem trimZeros_spec (digits : Nat) (power : Int) :
    ∃ count : Nat, digits = (trimZeros digits power).1 * 10 ^ count
      ∧ (trimZeros digits power).2 = power + count := by
  induction digits using Nat.strong_induction_on generalizing power with
  | _ digits ih =>
      rw [trimZeros]
      split
      · rename_i more
        obtain ⟨count, spelled, moved⟩ := ih (digits / 10) (by omega) (power + 1)
        refine ⟨count + 1, ?_, ?_⟩
        · rw [pow_succ, ← mul_assoc, ← spelled]
          omega
        · rw [moved]
          push_cast
          ring
      · exact ⟨0, by simp, by simp⟩

theorem trimZeros_mul_ten {digits : Nat} (some : 0 < digits) (count : Nat) (power : Int) :
    trimZeros (digits * 10 ^ count) (power - count) = trimZeros digits power := by
  induction count generalizing power with
  | zero => simp
  | succ count ih =>
      have positive : 0 < digits * 10 ^ count := Nat.mul_pos some (Nat.pow_pos (by decide))
      have once : trimZeros (digits * 10 ^ (count + 1)) (power - (count + 1 : Nat))
          = trimZeros (digits * 10 ^ count) (power - (count + 1 : Nat) + 1) := by
        rw [trimZeros, pow_succ, ← mul_assoc, if_pos (by omega), Nat.mul_div_cancel _ (by decide)]
      rw [once, show power - ((count + 1 : Nat) : Int) + 1 = power - count by push_cast; ring, ih]

/-- Zeros at the end of the digits say nothing. -/
theorem ofDecimal_mul_ten (negative : Bool) (digits count : Nat) (power : Int) :
    ofDecimal negative (digits * 10 ^ count) (power - count) = ofDecimal negative digits power := by
  rcases Nat.eq_zero_or_pos digits with rfl | some
  · rw [zero_mul]
    unfold ofDecimal
    rw [trimZeros, if_neg (by simp), trimZeros, if_neg (by simp)]
    rfl
  · unfold ofDecimal
    rw [trimZeros_mul_ten some]

theorem ofDecimal_trimZeros (negative : Bool) (digits : Nat) (power : Int) :
    ofDecimal negative (trimZeros digits power).1 (trimZeros digits power).2
      = ofDecimal negative digits power := by
  obtain ⟨count, spelled, moved⟩ := trimZeros_spec digits power
  have same := ofDecimal_mul_ten negative (trimZeros digits power).1 count
    (trimZeros digits power).2
  rw [← spelled, moved, add_sub_cancel_right] at same
  rw [moved, same]

/-- Where the digits of a decimal begin. -/
private theorem decimal_bounds {digits : Nat} (some : 0 < digits) (power : Int) :
    (10 : ℚ) ^ (((Nat.toDigits 10 digits).length : Int) + power - 1) ≤ digits * (10 : ℚ) ^ power
      ∧ (digits : ℚ) * (10 : ℚ) ^ power
        < (10 : ℚ) ^ (((Nat.toDigits 10 digits).length : Int) + power) := by
  have ten : (10 : ℚ) ≠ 0 := by norm_num
  have length := Nat.length_toDigits_pos (b := 10) (n := digits)
  generalize counted : (Nat.toDigits 10 digits).length = count at *
  have high : digits < 10 ^ count :=
    (Nat.length_toDigits_le_iff (by decide) length).mp counted.le
  have low : 10 ^ (count - 1) ≤ digits := by
    by_contra less
    rw [not_le] at less
    rcases Nat.lt_or_ge 1 count with many | one
    · have shorter := (Nat.length_toDigits_le_iff (by decide) (by omega)).mpr less
      omega
    · rw [show count - 1 = 0 by omega, pow_zero] at less
      omega
  constructor
  · rw [show (count : Int) + power - 1 = ((count - 1 : Nat) : Int) + power by omega,
      zpow_add₀ ten, zpow_natCast]
    have cast : (10 : ℚ) ^ (count - 1) ≤ digits := by exact_mod_cast low
    gcongr
  · rw [zpow_add₀ ten, zpow_natCast]
    have cast : (digits : ℚ) < (10 : ℚ) ^ count := by exact_mod_cast high
    gcongr

/-- The range of finite doubles is within the powers of ten that are computed. -/
private theorem range_bound : (2 : ℚ) ^ (1074 : Int) < (10 : ℚ) ^ (400 : Int) := by
  calc
    (2 : ℚ) ^ (1074 : Int) = ((2 : ℚ) ^ (3 : Int)) ^ (358 : Int) := by
      rw [← zpow_mul]
      norm_num
    _ < (10 : ℚ) ^ (358 : Int) :=
      zpow_lt_zpow_left₀ (by decide) (by norm_num) (by norm_num)
    _ ≤ (10 : ℚ) ^ (400 : Int) := zpow_le_zpow_right₀ (by norm_num) (by norm_num)

/-- A decimal that is a double exactly is read as that double. -/
theorem ofDecimal_exact (negative : Bool) {digits significand : Nat} {power exponent : Int}
    (canonical : IsCanonical (.finite negative significand exponent)) (some : 0 < significand)
    (value : (digits : ℚ) * (10 : ℚ) ^ power = significand * (2 : ℚ) ^ exponent) :
    ofDecimal negative digits power = .finite negative significand exponent := by
  have ten : (10 : ℚ) ≠ 0 := by norm_num
  have two : (2 : ℚ) ≠ 0 := by norm_num
  obtain ⟨count, spelled, moved⟩ := trimZeros_spec digits power
  unfold ofDecimal
  generalize trimmed : trimZeros digits power = bare at *
  obtain ⟨kept, shifted⟩ := bare
  dsimp only at spelled moved ⊢
  have same : (kept : ℚ) * (10 : ℚ) ^ shifted = significand * (2 : ℚ) ^ exponent := by
    rw [← value, spelled, moved, add_comm power, zpow_add₀ ten, zpow_natCast]
    push_cast
    ring
  have product : (0 : ℚ) < significand * (2 : ℚ) ^ exponent := by positivity
  have keptSome : 0 < kept := by
    rcases Nat.eq_zero_or_pos kept with none | positive
    · rw [none, Nat.cast_zero, zero_mul] at same
      rw [← same] at product
      exact absurd product (lt_irrefl 0)
    · exact positive
  obtain ⟨low, high⟩ := decimal_bounds keptSome shifted
  rw [same] at low high
  obtain ⟨fits, least, most, _⟩ := canonical
  have notHuge : ¬400 < ((Nat.toDigits 10 kept).length : Int) + shifted := by
    intro huge
    have bound : (significand : ℚ) * (2 : ℚ) ^ exponent < (10 : ℚ) ^ (400 : Int) := by
      calc
        (significand : ℚ) * (2 : ℚ) ^ exponent < (2 : ℚ) ^ (53 : Int) * (2 : ℚ) ^ (971 : Int) := by
          have cast : (significand : ℚ) < (2 : ℚ) ^ (53 : Int) := by
            rw [show (53 : Int) = ((53 : Nat) : Int) from rfl, zpow_natCast]
            exact_mod_cast fits
          have powers : (2 : ℚ) ^ exponent ≤ (2 : ℚ) ^ (971 : Int) :=
            zpow_le_zpow_right₀ (by norm_num) most
          exact mul_lt_mul cast powers (by positivity) (by positivity)
        _ ≤ (2 : ℚ) ^ (1074 : Int) := by
          rw [← zpow_add₀ two]
          exact zpow_le_zpow_right₀ (by norm_num) (by norm_num)
        _ ≤ (10 : ℚ) ^ (400 : Int) := range_bound.le
    have powers : (10 : ℚ) ^ (400 : Int)
        ≤ (10 : ℚ) ^ (((Nat.toDigits 10 kept).length : Int) + shifted - 1) :=
      zpow_le_zpow_right₀ (by norm_num) (by omega)
    exact absurd (lt_of_le_of_lt (le_trans powers low) bound) (lt_irrefl _)
  have notTiny : ¬((Nat.toDigits 10 kept).length : Int) + shifted < -400 := by
    intro tiny
    have bound : (10 : ℚ) ^ (-400 : Int) < (significand : ℚ) * (2 : ℚ) ^ exponent := by
      calc
        (10 : ℚ) ^ (-400 : Int) < 1 * (2 : ℚ) ^ (-1074 : Int) := by
          rw [one_mul, zpow_neg, zpow_neg]
          exact inv_strictAnti₀ (by positivity) range_bound
        _ ≤ (significand : ℚ) * (2 : ℚ) ^ exponent := by
          have cast : (1 : ℚ) ≤ significand := by exact_mod_cast some
          have powers : (2 : ℚ) ^ (-1074 : Int) ≤ (2 : ℚ) ^ exponent :=
            zpow_le_zpow_right₀ (by norm_num) least
          gcongr
    have powers : (10 : ℚ) ^ (((Nat.toDigits 10 kept).length : Int) + shifted)
        ≤ (10 : ℚ) ^ (-400 : Int) := zpow_le_zpow_right₀ (by norm_num) (by omega)
    exact absurd (lt_of_lt_of_le high (le_trans powers bound.le)) (lt_irrefl _)
  rw [if_neg (by omega), if_neg notHuge, if_neg notTiny]
  have bottom := scale_denominator (by decide : 0 < 10) kept shifted (by decide : 0 < 1)
  have scaled := scale_value (by decide : 0 < 10) kept 1 shifted
  rw [Nat.cast_one, div_one, Nat.cast_ofNat, same] at scaled
  exact ofFraction_exact negative ⟨fits, least, most, by assumption⟩ some bottom scaled

theorem isCanonical_ofDecimal (negative : Bool) (digits : Nat) (power : Int) :
    IsCanonical (ofDecimal negative digits power) := by
  unfold ofDecimal
  generalize trimZeros digits power = bare
  obtain ⟨kept, shifted⟩ := bare
  dsimp only
  split
  · exact ⟨by norm_num, le_refl _, by decide, Or.inr rfl⟩
  · rename_i some
    split
    · trivial
    · split
      · exact ⟨by norm_num, le_refl _, by decide, Or.inr rfl⟩
      · refine isCanonical_ofFraction negative ?_
          (scale_denominator (by decide) kept shifted (by decide))
        unfold scale
        have positive : 0 < kept := by omega
        split
        · exact Nat.mul_pos positive (Nat.pow_pos (by decide))
        · exact positive

/-! ### Signs -/

private theorem ofFraction_sign (negative : Bool) {numerator denominator significand : Nat}
    {exponent : Int}
    (unsigned : ofFraction false numerator denominator = .finite false significand exponent) :
    ofFraction negative numerator denominator = .finite negative significand exponent := by
  unfold ofFraction at unsigned ⊢
  dsimp only at unsigned ⊢
  generalize (if divideToEven (scale 2 numerator denominator (-exponentFor numerator denominator)).1
      (scale 2 numerator denominator (-exponentFor numerator denominator)).2 = Nat.pow 2 53
    then (Nat.pow 2 52, exponentFor numerator denominator + 1)
    else (divideToEven (scale 2 numerator denominator (-exponentFor numerator denominator)).1
      (scale 2 numerator denominator (-exponentFor numerator denominator)).2,
      exponentFor numerator denominator)) = rounded at unsigned ⊢
  split at unsigned
  · cases unsigned
  · rename_i fits
    rw [if_neg fits]
    cases unsigned
    rfl

/-- The sign of a decimal is that of its double. -/
theorem ofDecimal_sign (negative : Bool) {digits significand : Nat} {power exponent : Int}
    (unsigned : ofDecimal false digits power = .finite false significand exponent) :
    ofDecimal negative digits power = .finite negative significand exponent := by
  unfold ofDecimal at unsigned ⊢
  dsimp only at unsigned ⊢
  split at unsigned
  · rename_i none
    rw [if_pos none]
    cases unsigned
    rfl
  · rename_i some
    rw [if_neg some]
    split at unsigned
    · cases unsigned
    · rename_i notHuge
      rw [if_neg notHuge]
      split at unsigned
      · rename_i tiny
        rw [if_pos tiny]
        cases unsigned
        rfl
      · rename_i notTiny
        rw [if_neg notTiny]
        exact ofFraction_sign negative unsigned

/-! ### The search -/

private theorem mem_of_nearest {offers : List Candidate} {digits : Nat}
    (chosen : nearest offers = some digits) : ∃ offer ∈ offers, offer.digits = digits := by
  cases offers with
  | nil => cases chosen
  | cons first rest =>
      cases rest with
      | nil => exact ⟨first, List.mem_cons_self, Option.some.inj chosen⟩
      | cons second others =>
          have secondMember : second ∈ first :: second :: others :=
            List.mem_cons_of_mem first List.mem_cons_self
          rw [nearest] at chosen
          split at chosen
          · exact ⟨first, List.mem_cons_self, Option.some.inj chosen⟩
          · split at chosen
            · exact ⟨second, secondMember, Option.some.inj chosen⟩
            · split at chosen
              · exact ⟨first, List.mem_cons_self, Option.some.inj chosen⟩
              · exact ⟨second, secondMember, Option.some.inj chosen⟩

private theorem search_reads {significand : Nat} {exponent : Int}
    (canonical : IsCanonical (.finite false significand exponent)) (some : 0 < significand)
    (point : Int) (counts : List Nat) :
    ofDecimal false
        (search significand exponent (scale 2 significand 1 exponent).1
          (scale 2 significand 1 exponent).2 point counts).1
        (search significand exponent (scale 2 significand 1 exponent).1
          (scale 2 significand 1 exponent).2 point counts).2
      = .finite false significand exponent := by
  induction counts with
  | nil =>
      rw [search]
      split
      · rename_i whole
        refine ofDecimal_exact false canonical some ?_
        have scaled := scale_value (by decide : 0 < 2) significand 1 exponent
        have one : (scale 2 significand 1 exponent).2 = 1 := by
          rw [scale, if_pos whole]
        rw [one, Nat.cast_one, div_one, div_one, Nat.cast_ofNat] at scaled
        rw [zpow_zero, mul_one, scaled]
      · rename_i part
        refine ofDecimal_exact false canonical some ?_
        -- Five and two make ten.
        have split : (2 : ℚ) ^ exponent
            = (5 : ℚ) ^ (-exponent).toNat * (10 : ℚ) ^ exponent := by
          have up : exponent = -((-exponent).toNat : Int) := by omega
          rw [up, zpow_neg, zpow_neg, zpow_natCast, zpow_natCast, Int.neg_neg, Int.toNat_natCast,
            show (10 : ℚ) = 2 * 5 by norm_num, mul_pow]
          field_simp
        rw [split, Nat.pow_eq]
        push_cast
        ring
  | cons count counts ih =>
      rw [search]
      dsimp only
      split
      · rename_i digits chosen
        obtain ⟨offer, member, same⟩ := mem_of_nearest chosen
        have reads := (List.mem_filter.mp member).2
        rw [← same]
        exact eq_of_beq reads
      · exact ih

/-- The shortest decimal of a double is a decimal of it. -/
theorem shortest_reads (negative : Bool) {significand : Nat} {exponent : Int}
    (canonical : IsCanonical (.finite negative significand exponent)) (some : 0 < significand) :
    ofDecimal negative (shortest significand exponent).1 (shortest significand exponent).2
      = .finite negative significand exponent := by
  refine ofDecimal_sign negative ?_
  unfold shortest
  dsimp only
  rw [ofDecimal_trimZeros]
  exact search_reads canonical some _ _

theorem shortest_positive (negative : Bool) {significand : Nat} {exponent : Int}
    (canonical : IsCanonical (.finite negative significand exponent)) (some : 0 < significand) :
    0 < (shortest significand exponent).1 := by
  rcases Nat.eq_zero_or_pos (shortest significand exponent).1 with none | positive
  · have reads := shortest_reads negative canonical some
    rw [none, ofDecimal, trimZeros, if_neg (by simp)] at reads
    cases reads
    exact absurd some (lt_irrefl 0)
  · exact positive

end RefSync.Binary64
