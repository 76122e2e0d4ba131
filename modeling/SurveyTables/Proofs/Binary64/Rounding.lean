import Mathlib.Data.Nat.Digits.Defs
import SurveyTables.Binary64
import SurveyTables.Proofs.Binary64.Nearest

/-! Rounding of decimal numbers, proved correct: what is computed on natural numbers is the
nearest number of the format, and nothing is answered only far above every integer of 64
bits. -/
namespace SurveyTables.Binary64

namespace Magnitude

def value (m : Magnitude) : ℚ := m.mantissa * 2 ^ m.exponent

theorem toNat?_eq_some_iff {m : Magnitude} {k : ℕ} : m.toNat? = some k ↔ m.value = k := by
  obtain ⟨mantissa, exponent⟩ := m
  unfold toNat? value
  dsimp only
  split
  · next nonnegative =>
    obtain ⟨n, rfl⟩ := Int.eq_ofNat_of_zero_le nonnegative
    rw [Option.some_inj, Int.toNat_natCast, zpow_natCast]
    exact_mod_cast Iff.rfl
  · next negative =>
    obtain ⟨n, rfl⟩ : ∃ n : ℕ, exponent = -(n : ℤ) := ⟨exponent.natAbs, by omega⟩
    rw [neg_neg, Int.toNat_natCast, zpow_neg, zpow_natCast, ← div_eq_mul_inv,
      div_eq_iff (by positivity)]
    have positive : 0 < Nat.pow 2 n := Nat.two_pow_pos n
    have whole : (mantissa : ℚ) = k * 2 ^ n ↔ mantissa = k * Nat.pow 2 n := by
      exact_mod_cast Iff.rfl
    rw [whole]
    split
    · next divides =>
      have divides := Nat.dvd_of_mod_eq_zero divides
      rw [Option.some_inj, Nat.div_eq_iff_eq_mul_left positive divides]
    · next remains =>
      refine ⟨fun none => absurd none (by simp), fun product => absurd ?_ remains⟩
      rw [product, Nat.mul_mod_left]

end Magnitude

/-- Whether an integer is nearest to a quotient is decided on whole remainders. -/
theorem IsRounded.of_remainder {num k : ℤ} {den : ℕ} (positive : 0 < den)
    (close : 2 * |num - k * den| ≤ den) (even : 2 * |num - k * den| = den → Even k) :
    IsRounded (num / den) k := by
  have positive : (0 : ℚ) < den := by exact_mod_cast positive
  have distance : |(num : ℚ) / den - k| = |(num : ℚ) - k * den| / den := by
    rw [← abs_of_pos positive, ← abs_div, abs_of_pos positive, sub_div,
      mul_div_cancel_right₀ _ positive.ne']
  refine ⟨?_, fun half => even ?_⟩
  · have close : 2 * |(num : ℚ) - k * den| ≤ den := by exact_mod_cast close
    rw [distance, div_le_iff₀ positive]
    linarith
  · rw [distance, div_eq_iff positive.ne'] at half
    have half : 2 * |(num : ℚ) - k * den| = den := by linarith
    exact_mod_cast half

theorem isRounded_roundedQuotient (num : ℕ) {den : ℕ} (positive : 0 < den) :
    IsRounded (num / den) (roundedQuotient num den) := by
  have division : den * (num / den) + num % den = num := Nat.div_add_mod num den
  have bound := Nat.mod_lt num positive
  have rounded : ∀ k : ℤ, 2 * |(num : ℤ) - k * den| ≤ den →
      (2 * |(num : ℤ) - k * den| = den → Even k) → IsRounded (num / den) k :=
    fun k => IsRounded.of_remainder positive
  unfold roundedQuotient
  dsimp only
  generalize num / den = q at *
  generalize num % den = r at *
  -- The remainder against either neighbour of the quotient.
  have below : |(num : ℤ) - q * den| = r := by
    rw [← division, abs_of_nonneg] <;> push_cast <;> linarith
  have above : |(num : ℤ) - (q + 1) * den| = den - r := by
    rw [← division, abs_of_nonpos] <;> push_cast <;> linarith
  have parity : q % 2 = 0 ∨ Even ((q : ℤ) + 1) := by
    rcases Nat.even_or_odd q with even | odd
    · exact .inl (Nat.even_iff.1 even)
    · exact .inr (by exact_mod_cast odd.add_one)
  split
  · apply rounded
    · rw [below]; omega
    · rw [below]; omega
  · split
    · apply rounded
      · push_cast; rw [above]; omega
      · push_cast; rw [above]; omega
    · split
      · next even =>
        apply rounded
        · rw [below]; omega
        · exact fun _ => by exact_mod_cast Nat.even_iff.2 even
      · next odd =>
        apply rounded
        · push_cast; rw [above]; omega
        · exact fun _ => by push_cast; exact parity.resolve_left odd

section Scaling

variable {num den : ℕ}

/-- The quotient of the scaled numbers is the scaled quotient. -/
theorem scaled_div (num den : ℕ) (power : ℤ) :
    ((scaled num den power).1 : ℚ) / (scaled num den power).2 = num / den * 2 ^ power := by
  unfold scaled
  split
  · next nonnegative =>
    obtain ⟨n, rfl⟩ := Int.eq_ofNat_of_zero_le nonnegative
    rw [Int.toNat_natCast, zpow_natCast, Nat.pow_eq]
    push_cast
    ring
  · next negative =>
    obtain ⟨n, rfl⟩ : ∃ n : ℕ, power = -(n : ℤ) := ⟨power.natAbs, by omega⟩
    rw [neg_neg, Int.toNat_natCast, zpow_neg, zpow_natCast, Nat.pow_eq]
    push_cast
    rw [div_mul_eq_div_div, div_eq_mul_inv _ ((2 : ℚ) ^ n)]

theorem scaled_positive (num : ℕ) (positive : 0 < den) (power : ℤ) :
    0 < (scaled num den power).2 := by
  unfold scaled
  split
  · exact positive
  · exact Nat.mul_pos positive (Nat.two_pow_pos _)

theorem log2_sub_log2_bounds (some : 0 < num) (positive : 0 < den) :
    2 ^ ((num.log2 : ℤ) - den.log2 - 1) ≤ (num : ℚ) / den ∧
      (num : ℚ) / den < 2 ^ ((num.log2 : ℤ) - den.log2 + 1) := by
  have numLow : (2 : ℚ) ^ num.log2 ≤ num := by
    exact_mod_cast Nat.log2_self_le some.ne'
  have numHigh : (num : ℚ) < 2 ^ num.log2 * 2 := by
    rw [← pow_succ]
    exact_mod_cast Nat.lt_log2_self
  have denLow : (2 : ℚ) ^ den.log2 ≤ den := by
    exact_mod_cast Nat.log2_self_le positive.ne'
  have denHigh : (den : ℚ) < 2 ^ den.log2 * 2 := by
    rw [← pow_succ]
    exact_mod_cast Nat.lt_log2_self
  have positive : (0 : ℚ) < den := by exact_mod_cast positive
  have difference : (2 : ℚ) ^ ((num.log2 : ℤ) - den.log2) = 2 ^ num.log2 / 2 ^ den.log2 := by
    rw [zpow_sub₀ two_ne_zero, zpow_natCast, zpow_natCast]
  have numPower : (0 : ℚ) < 2 ^ num.log2 := by positivity
  have denPower : (0 : ℚ) < 2 ^ den.log2 := by positivity
  rw [zpow_sub_one₀ two_ne_zero, zpow_add_one₀ two_ne_zero, difference]
  generalize (2 : ℚ) ^ num.log2 = a at *
  generalize (2 : ℚ) ^ den.log2 = b at *
  constructor
  · rw [div_mul_eq_mul_div, div_le_div_iff₀ denPower positive]
    nlinarith
  · rw [div_mul_eq_mul_div, div_lt_div_iff₀ positive denPower]
    nlinarith

theorem floorLog2_bounds (some : 0 < num) (positive : 0 < den) :
    2 ^ floorLog2 num den ≤ (num : ℚ) / den ∧ (num : ℚ) / den < 2 ^ (floorLog2 num den + 1) := by
  obtain ⟨low, high⟩ := log2_sub_log2_bounds some positive
  unfold floorLog2
  dsimp only
  generalize (num.log2 : ℤ) - den.log2 = guess at *
  have quotient := scaled_div num den (-guess)
  have denominator : (0 : ℚ) < (scaled num den (-guess)).2 := by
    exact_mod_cast scaled_positive num positive (-guess)
  have reaches : (scaled num den (-guess)).2 ≤ (scaled num den (-guess)).1 ↔
      2 ^ guess ≤ (num : ℚ) / den := by
    rw [← Nat.cast_le (α := ℚ), ← one_le_div denominator, quotient, zpow_neg, ← div_eq_mul_inv,
      one_le_div (by positivity)]
  split
  · next within => exact ⟨reaches.1 within, high⟩
  · next short =>
    rw [reaches, not_le] at short
    rw [sub_add_cancel]
    exact ⟨low, short⟩

end Scaling

section Nearest

variable {num den : ℕ}

/-- A positive quotient in units of the power of two that leaves it 53 bits, and its nearest
integer. -/
structure Scale (num den : ℕ) (e : ℤ) (t : ℚ) (k : ℕ) : Prop where
  value : (num : ℚ) / den = t * 2 ^ e
  rounded : IsRounded t k
  low : -1074 ≤ e
  normal : -1074 < e → 2 ^ 52 ≤ t
  mantissa : k ≤ 2 ^ 53

theorem exists_scale (some : 0 < num) (positive : 0 < den) : ∃ e t k, Scale num den e t k ∧
    nearest num den =
      if e > 971 ∨ (e = 971 ∧ 2 ^ 53 ≤ k) then none else Option.some ⟨k, e⟩ := by
  obtain ⟨low, high⟩ := floorLog2_bounds some positive
  generalize exponent : max (floorLog2 num den - 52) (-1074) = e
  generalize quotient : scaled num den (-e) = nd
  have value := scaled_div num den (-e)
  have rounded := isRounded_roundedQuotient nd.1 (quotient ▸ scaled_positive num positive (-e))
  rw [quotient] at value
  have unit : (0 : ℚ) < 2 ^ e := by positivity
  rw [zpow_neg, ← div_eq_mul_inv] at value
  refine ⟨e, nd.1 / nd.2, roundedQuotient nd.1 nd.2,
    { value := ?value, rounded, low := by omega, normal := ?normal, mantissa := ?mantissa }, ?same⟩
  case value => rw [value, div_mul_cancel₀ _ unit.ne']
  case normal =>
    intro normal
    have binade : floorLog2 num den = 52 + e := by omega
    rw [binade, zpow_add₀ two_ne_zero] at low
    rw [value, le_div_iff₀ unit]
    exact_mod_cast low
  case mantissa =>
    have binade : (2 : ℚ) ^ (floorLog2 num den + 1) ≤ 2 ^ (53 + e) :=
      zpow_le_zpow_right₀ one_le_two (by omega)
    rw [zpow_add₀ two_ne_zero (53 : ℤ)] at binade
    have below : (nd.1 : ℚ) / nd.2 < 2 ^ 53 := by
      rw [value, div_lt_iff₀ unit]
      exact_mod_cast high.trans_le binade
    have near := (abs_le.1 rounded.close).1
    have less : (roundedQuotient nd.1 nd.2 : ℚ) < 2 ^ 53 + 1 := by
      push_cast at near
      linarith
    exact Nat.lt_succ_iff.1 (by exact_mod_cast less)
  case same =>
    rw [nearest, if_neg some.ne']
    dsimp only
    rw [exponent, quotient]
    rfl

/-- What is answered for a quotient is the number of the format nearest to it. -/
theorem isNearest_of_nearest (positive : 0 < den) {m : Magnitude}
    (answered : nearest num den = some m) : IsNearest (num / den) m.value := by
  rcases Nat.eq_zero_or_pos num with rfl | some
  · rw [nearest, if_pos rfl] at answered
    cases answered
    simpa [Magnitude.value] using IsNearest.self IsFloat.zero
  · obtain ⟨e, t, k, scale, same⟩ := exists_scale some positive
    rw [same] at answered
    split at answered
    · contradiction
    · next finite =>
      cases answered
      have magnitude : |(k : ℤ)| = k := abs_of_nonneg (Int.natCast_nonneg k)
      have mantissa := scale.mantissa
      have float : IsFloat ((k : ℤ) * 2 ^ e) :=
        IsFloat.of_le (by rw [magnitude]; omega) scale.low (by omega) (by rw [magnitude]; omega)
      rw [scale.value]
      exact scale.rounded.isNearest float scale.normal

/-- Nothing is answered only for quotients beyond the range of the format. -/
theorem le_of_nearest_eq_none (positive : 0 < den) (refused : nearest num den = none) :
    2 ^ 1023 ≤ (num : ℚ) / den := by
  rcases Nat.eq_zero_or_pos num with rfl | some
  · contradiction
  · obtain ⟨e, t, k, scale, same⟩ := exists_scale some positive
    rw [same] at refused
    split at refused
    · next infinite =>
      have high : 971 ≤ e := by omega
      have unit : (2 : ℚ) ^ (971 : ℤ) ≤ 2 ^ e := zpow_le_zpow_right₀ one_le_two high
      have normal := scale.normal (by omega)
      have power : (2 : ℚ) ^ 1023 = 2 ^ 52 * 2 ^ (971 : ℤ) := by
        rw [show (2 : ℚ) ^ (971 : ℤ) = 2 ^ 971 from zpow_natCast 2 971, ← pow_add]
      rw [scale.value, power]
      gcongr
    · contradiction

end Nearest

section Decimal

variable {significand : ℕ} {scale : ℤ}

theorem leading_bounds (some : 0 < significand) (scale : ℤ) :
    (10 : ℚ) ^ (digitCount significand + scale - 1) ≤ significand * 10 ^ scale ∧
      (significand : ℚ) * 10 ^ scale < 10 ^ (digitCount significand + scale) := by
  have digits : 0 < digitCount significand := Nat.length_toDigits_pos
  have bound : ∀ k, 0 < k → (digitCount significand ≤ k ↔ significand < 10 ^ k) :=
    fun k => Nat.length_toDigits_le_iff (by norm_num)
  obtain ⟨count, same⟩ : ∃ count, digitCount significand = count + 1 :=
    ⟨digitCount significand - 1, by omega⟩
  rw [same] at bound ⊢
  have low : 10 ^ count ≤ significand := by
    rcases Nat.eq_zero_or_pos count with rfl | longer
    · exact some
    · exact Nat.not_lt.1 fun less => absurd ((bound count longer).2 less) (by omega)
  have high : significand < 10 ^ (count + 1) := (bound _ (Nat.succ_pos _)).1 le_rfl
  have low : (10 : ℚ) ^ count ≤ significand := by exact_mod_cast low
  have high : (significand : ℚ) < 10 ^ (count + 1) := by exact_mod_cast high
  have unit : (0 : ℚ) < 10 ^ scale := by positivity
  have lower : ((count + 1 : ℕ) : ℤ) + scale - 1 = (count : ℕ) + scale := by push_cast; ring
  rw [lower, zpow_add₀ (by norm_num), zpow_add₀ (by norm_num), zpow_natCast, zpow_natCast]
  exact ⟨mul_le_mul_of_nonneg_right low unit.le, mul_lt_mul_of_pos_right high unit⟩

theorem two_pow_le : (2 : ℚ) ^ 1023 ≤ 10 ^ (310 : ℤ) := by
  have powers : 2 ^ 1023 ≤ 10 ^ 310 := by decide +kernel
  rw [show (10 : ℚ) ^ (310 : ℤ) = 10 ^ 310 from zpow_natCast 10 310]
  exact_mod_cast powers

theorem ten_zpow_lt : (10 : ℚ) ^ (-331 : ℤ) < 2 ^ (-1075 : ℤ) := by
  have powers : 2 ^ 1075 < 10 ^ 331 := by decide +kernel
  have powers : (2 : ℚ) ^ 1075 < 10 ^ 331 := by exact_mod_cast powers
  have ten : (10 : ℚ) ^ (-331 : ℤ) = (10 ^ 331)⁻¹ := zpow_neg_coe_of_pos 10 (by norm_num)
  have two : (2 : ℚ) ^ (-1075 : ℤ) = (2 ^ 1075)⁻¹ := zpow_neg_coe_of_pos 2 (by norm_num)
  rw [ten, two]
  exact inv_strictAnti₀ (by positivity) powers

theorem mul_zpow_eq_div : (significand : ℚ) * 10 ^ scale =
    if 0 ≤ scale then ((significand * Nat.pow 10 scale.toNat : ℕ) : ℚ) / (1 : ℕ)
    else (significand : ℚ) / (Nat.pow 10 (-scale).toNat : ℕ) := by
  split
  · next nonnegative =>
    obtain ⟨n, rfl⟩ := Int.eq_ofNat_of_zero_le nonnegative
    rw [Int.toNat_natCast, zpow_natCast, Nat.pow_eq]
    push_cast
    rw [div_one]
  · next negative =>
    obtain ⟨n, rfl⟩ : ∃ n : ℕ, scale = -(n : ℤ) := ⟨scale.natAbs, by omega⟩
    rw [neg_neg, Int.toNat_natCast, zpow_neg, zpow_natCast, Nat.pow_eq, ← div_eq_mul_inv]
    push_cast
    rfl

theorem isNearest_of_ofDecimal {m : Magnitude} (answered : ofDecimal significand scale = some m) :
    IsNearest (significand * 10 ^ scale) m.value := by
  unfold ofDecimal at answered
  dsimp only at answered
  split at answered
  · next nought =>
    cases answered
    simpa [nought, Magnitude.value] using IsNearest.self IsFloat.zero
  · next some =>
    obtain ⟨-, high⟩ := leading_bounds (Nat.pos_of_ne_zero some) scale
    split at answered
    · contradiction
    · split at answered
      · next tiny =>
        cases answered
        have power : (10 : ℚ) ^ (digitCount significand + scale) ≤ 10 ^ (-331 : ℤ) :=
          zpow_le_zpow_right₀ (by norm_num) (by omega)
        simpa [Magnitude.value] using
          IsNearest.zero_of_lt (by positivity) (high.trans (power.trans_lt ten_zpow_lt))
      · rw [mul_zpow_eq_div]
        split at answered
        · next whole =>
          rw [if_pos whole]
          exact isNearest_of_nearest Nat.one_pos answered
        · next fraction =>
          rw [if_neg fraction]
          exact isNearest_of_nearest (Nat.pow_pos (by norm_num)) answered

/-- A decimal number without an answer lies beyond the range of the format. -/
theorem le_of_ofDecimal_eq_none (refused : ofDecimal significand scale = none) :
    (2 : ℚ) ^ 1023 ≤ significand * 10 ^ scale := by
  unfold ofDecimal at refused
  dsimp only at refused
  split at refused
  · contradiction
  · next some =>
    obtain ⟨low, -⟩ := leading_bounds (Nat.pos_of_ne_zero some) scale
    split at refused
    · next huge =>
      have power : (10 : ℚ) ^ (310 : ℤ) ≤ 10 ^ (digitCount significand + scale - 1) :=
        zpow_le_zpow_right₀ (by norm_num) (by omega)
      exact two_pow_le.trans (power.trans low)
    · split at refused
      · contradiction
      · rw [mul_zpow_eq_div]
        split at refused
        · next whole =>
          rw [if_pos whole]
          exact le_of_nearest_eq_none Nat.one_pos refused
        · next fraction =>
          rw [if_neg fraction]
          exact le_of_nearest_eq_none (Nat.pow_pos (by norm_num)) refused

end Decimal

end SurveyTables.Binary64
