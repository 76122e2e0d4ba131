import Mathlib.Algebra.Order.Field.Power
import Mathlib.Data.Rat.Cast.Order
import Mathlib.Tactic.Linarith
import Mathlib.Tactic.LinearCombination
import Mathlib.Tactic.NormNum
import Mathlib.Tactic.Positivity
import Mathlib.Tactic.Ring

/-! The finite binary floating-point numbers of 64 bits as a set of rational numbers, and the
one nearest to a rational number. Signed zeros and infinities are not told apart here: a
rational beyond the largest finite number is nearest to that number. -/
namespace SurveyTables.Binary64

/-- A mantissa of 53 bits scaled by a power of two. -/
def IsFloat (x : ℚ) : Prop :=
  ∃ m e : ℤ, |m| < 2 ^ 53 ∧ -1074 ≤ e ∧ e ≤ 971 ∧ x = m * 2 ^ e

/-- No number of the format is closer. Of two that are equally close it is the one with the
even mantissa, which is an even multiple of the gap between the two. -/
structure IsNearest (x y : ℚ) : Prop where
  isFloat : IsFloat y
  closest : ∀ z, IsFloat z → |x - y| ≤ |x - z|
  even : ∀ z, IsFloat z → |x - z| = |x - y| → z ≠ y → ∃ k : ℤ, y = 2 * k * (z - y)

namespace IsFloat

theorem zero : IsFloat 0 := ⟨0, 0, by norm_num, by norm_num, by norm_num, by norm_num⟩

theorem two_zpow {e : ℤ} (low : -1074 ≤ e) (high : e ≤ 971) : IsFloat (2 ^ e) :=
  ⟨1, e, by norm_num, low, high, by norm_num⟩

theorem neg {x : ℚ} (float : IsFloat x) : IsFloat (-x) := by
  obtain ⟨m, e, bits, low, high, rfl⟩ := float
  exact ⟨-m, e, by rwa [abs_neg], low, high, by push_cast; ring⟩

/-- A mantissa that was rounded up to 54 bits still names a number of the format, unless the
exponent is the largest. -/
theorem of_le {k e : ℤ} (bits : |k| ≤ 2 ^ 53) (low : -1074 ≤ e) (high : e ≤ 971)
    (carry : |k| = 2 ^ 53 → e < 971) : IsFloat (k * 2 ^ e) := by
  rcases lt_or_eq_of_le bits with small | full
  · exact ⟨k, e, small, low, high, rfl⟩
  · have split : k = 2 ^ 53 ∨ k = -2 ^ 53 := eq_or_eq_neg_of_abs_eq full
    have shift : (2 : ℚ) ^ (e + 1) = 2 ^ e * 2 := zpow_add_one₀ two_ne_zero e
    have above := carry full
    rcases split with rfl | rfl
    · exact ⟨2 ^ 52, e + 1, by norm_num, by omega, by omega, by rw [shift]; push_cast; ring⟩
    · exact ⟨-2 ^ 52, e + 1, by norm_num, by omega, by omega, by rw [shift]; push_cast; ring⟩

theorem of_abs_le {k : ℤ} (small : |k| ≤ 2 ^ 53) : IsFloat k := by
  have whole := of_le (e := 0) small (by norm_num) (by norm_num) (fun _ => by norm_num)
  rwa [zpow_zero, mul_one] at whole

/-- Against the multiples of a power of two, a number of the format is one of them or has
fewer than 53 bits in front of that power. -/
theorem multiple_or_lt {z : ℚ} (float : IsFloat z) (e : ℤ) :
    (∃ j : ℤ, z = j * 2 ^ e) ∨ (-1074 < e ∧ |z| < 2 ^ 52 * 2 ^ e) := by
  obtain ⟨m, f, bits, low, -, rfl⟩ := float
  rcases le_or_gt e f with above | below
  · obtain ⟨n, rfl⟩ := Int.le.dest above
    refine .inl ⟨m * 2 ^ n, ?_⟩
    rw [zpow_add₀ two_ne_zero, zpow_natCast]
    push_cast
    ring
  · refine .inr ⟨by omega, ?_⟩
    have mantissa : |(m : ℚ)| < 2 ^ 53 := by exact_mod_cast bits
    have exponent : (2 : ℚ) ^ (f + 1) ≤ 2 ^ e := zpow_le_zpow_right₀ one_le_two below
    rw [zpow_add_one₀ two_ne_zero] at exponent
    have positive : (0 : ℚ) < 2 ^ f := by positivity
    rw [abs_mul, abs_of_pos positive]
    calc |(m : ℚ)| * 2 ^ f < 2 ^ 53 * 2 ^ f := by gcongr
      _ = 2 ^ 52 * (2 ^ f * 2) := by ring
      _ ≤ 2 ^ 52 * 2 ^ e := by gcongr

theorem le_abs {z : ℚ} (float : IsFloat z) (nonzero : z ≠ 0) : 2 ^ (-1074 : ℤ) ≤ |z| := by
  obtain ⟨j, rfl⟩ | ⟨absurd, -⟩ := float.multiple_or_lt (-1074)
  · have some : j ≠ 0 := by rintro rfl; simp at nonzero
    have unit : (1 : ℚ) ≤ |(j : ℚ)| := by exact_mod_cast Int.one_le_abs some
    have positive : (0 : ℚ) < 2 ^ (-1074 : ℤ) := by positivity
    rw [abs_mul, abs_of_pos positive]
    exact le_mul_of_one_le_left positive.le unit
  · omega

end IsFloat

namespace IsNearest

variable {x y z : ℚ}

/-- At most one number is nearest: of two, each would be an even multiple of their gap. -/
theorem unique (first : IsNearest x y) (second : IsNearest x z) : y = z := by
  by_contra different
  have level : |x - z| = |x - y| :=
    le_antisymm (second.closest y first.isFloat) (first.closest z second.isFloat)
  obtain ⟨i, left⟩ := first.even z second.isFloat level (Ne.symm different)
  obtain ⟨j, right⟩ := second.even y first.isFloat level.symm different
  have gap : z - y ≠ 0 := sub_ne_zero.2 (Ne.symm different)
  have odd : (-2 * (i + j) : ℚ) * (z - y) = 1 * (z - y) := by linarith
  have odd : (-2 * (i + j) : ℤ) = 1 := by exact_mod_cast mul_right_cancel₀ gap odd
  omega

theorem neg (nearest : IsNearest x y) : IsNearest (-x) (-y) := by
  have mirror : ∀ z, |-x - z| = |x - -z| := fun z => by rw [← abs_neg]; ring_nf
  refine ⟨nearest.isFloat.neg, fun z float => ?_, fun z float level different => ?_⟩
  · rw [mirror, mirror, neg_neg]
    exact nearest.closest (-z) float.neg
  · rw [mirror, mirror, neg_neg] at level
    have other : -z ≠ y := fun same => different (by rw [← same, neg_neg])
    obtain ⟨k, even⟩ := nearest.even (-z) float.neg level other
    exact ⟨k, by linear_combination -even⟩

theorem neg_iff : IsNearest (-x) (-y) ↔ IsNearest x y := by
  refine ⟨fun nearest => ?_, neg⟩
  have back := nearest.neg
  rwa [neg_neg, neg_neg] at back

theorem self (float : IsFloat x) : IsNearest x x := by
  refine ⟨float, fun z _ => ?_, fun z _ level different => ?_⟩
  · rw [sub_self, abs_zero]
    exact abs_nonneg _
  · rw [sub_self, abs_zero, abs_eq_zero, sub_eq_zero] at level
    exact absurd level.symm different

theorem eq_of_isFloat (nearest : IsNearest x y) (float : IsFloat x) : y = x :=
  nearest.unique (self float)

theorem le_of_le (nearest : IsNearest x y) (float : IsFloat z) (below : z ≤ x) : z ≤ y := by
  by_contra under
  push Not at under
  have closest := nearest.closest z float
  rw [abs_of_nonneg (by linarith), abs_of_nonneg (by linarith)] at closest
  linarith

/-- What lies under half of the smallest positive number is rounded to nought. -/
theorem zero_of_lt (nonnegative : 0 ≤ x) (tiny : x < 2 ^ (-1075 : ℤ)) : IsNearest x 0 := by
  have half : (2 : ℚ) ^ (-1074 : ℤ) = 2 ^ (-1075 : ℤ) * 2 := by
    rw [← zpow_add_one₀ two_ne_zero]
    norm_num
  have apart : ∀ z, IsFloat z → z ≠ 0 → |x - 0| < |x - z| := by
    intro z float nonzero
    have far := float.le_abs nonzero
    have triangle := abs_sub_abs_le_abs_sub z x
    rw [abs_sub_comm z x, abs_of_nonneg nonnegative] at triangle
    rw [sub_zero, abs_of_nonneg nonnegative]
    linarith
  refine ⟨.zero, fun z float => ?_, fun z float level different => ?_⟩
  · by_cases nought : z = 0
    · rw [nought]
    · exact (apart z float nought).le
  · exact absurd level.symm (apart z float different).ne

end IsNearest

/-- The integer nearest to a rational number, the even one at a half. -/
structure IsRounded (t : ℚ) (k : ℤ) : Prop where
  close : |t - k| ≤ 1 / 2
  even : |t - k| = 1 / 2 → Even k

namespace IsRounded

variable {t : ℚ} {k : ℤ}

/-- Another integer is a half away at least, and at a half it is a neighbour. -/
theorem apart (rounded : IsRounded t k) {j : ℤ} (other : j ≠ k) :
    1 / 2 ≤ |t - j| ∧ (|t - j| = 1 / 2 → |t - k| = 1 / 2 ∧ (j = k + 1 ∨ j = k - 1)) := by
  have near := rounded.close
  rw [abs_le] at near
  rcases lt_or_gt_of_ne other with below | above
  · have step : (j : ℚ) + 1 ≤ k := by exact_mod_cast below
    have side : 0 ≤ t - j := by linarith
    rw [abs_of_nonneg side]
    refine ⟨by linarith, fun level => ?_⟩
    have next : (k : ℚ) = j + 1 := by linarith
    have next : k = j + 1 := by exact_mod_cast next
    subst next
    push_cast at near ⊢
    exact ⟨by rw [abs_of_nonpos (by linarith)]; linarith, .inr (by omega)⟩
  · have step : (k : ℚ) + 1 ≤ j := by exact_mod_cast above
    have side : t - j ≤ 0 := by linarith
    rw [abs_of_nonpos side]
    refine ⟨by linarith, fun level => ?_⟩
    have next : (j : ℚ) = k + 1 := by linarith
    have next : j = k + 1 := by exact_mod_cast next
    subst next
    push_cast at level ⊢
    exact ⟨by rw [abs_of_nonneg (by linarith)]; linarith, .inl rfl⟩

theorem closest (rounded : IsRounded t k) (j : ℤ) : |t - k| ≤ |t - j| := by
  by_cases same : j = k
  · rw [same]
  · exact rounded.close.trans (rounded.apart same).1

/-- Rounding to a multiple of a power of two that leaves 53 bits in front of it, or of the
smallest one, is rounding to the format: the numbers of the format that are no multiples lie
below all candidates. -/
theorem isNearest (rounded : IsRounded t k) {e : ℤ} (float : IsFloat (k * 2 ^ e))
    (normal : -1074 < e → 2 ^ 52 ≤ t) : IsNearest (t * 2 ^ e) (k * 2 ^ e) := by
  have unit : (0 : ℚ) < 2 ^ e := by positivity
  have scaled : ∀ j : ℚ, |t * 2 ^ e - j * 2 ^ e| = |t - j| * 2 ^ e := fun j => by
    rw [← sub_mul, abs_mul, abs_of_pos unit]
  have beyond : ∀ z, -1074 < e → |z| < 2 ^ 52 * 2 ^ e →
      |t * 2 ^ e - k * 2 ^ e| < |t * 2 ^ e - z| := by
    intro z coarse small
    have large := mul_le_mul_of_nonneg_right (normal coarse) unit.le
    have grid := mul_le_mul_of_nonneg_right (rounded.closest (2 ^ 52)) unit.le
    rw [Int.cast_pow, Int.cast_ofNat, ← scaled, ← scaled,
      abs_of_nonneg (a := t * 2 ^ e - 2 ^ 52 * 2 ^ e) (by linarith)] at grid
    have under := (le_abs_self z).trans_lt small
    rw [abs_of_nonneg (a := t * 2 ^ e - z) (by linarith)]
    linarith
  refine ⟨float, fun z candidate => ?_, fun z candidate level different => ?_⟩
  · obtain ⟨j, rfl⟩ | ⟨coarse, small⟩ := candidate.multiple_or_lt e
    · rw [scaled, scaled]
      exact mul_le_mul_of_nonneg_right (rounded.closest j) unit.le
    · exact (beyond z coarse small).le
  · obtain ⟨j, rfl⟩ | ⟨coarse, small⟩ := candidate.multiple_or_lt e
    · rw [scaled, scaled] at level
      have level := mul_right_cancel₀ unit.ne' level
      have other : j ≠ k := fun same => different (by rw [same])
      obtain ⟨far, tie⟩ := rounded.apart other
      obtain ⟨half, neighbour⟩ := tie (le_antisymm (level.trans_le rounded.close) far)
      obtain ⟨i, rfl⟩ := rounded.even half
      rcases neighbour with rfl | rfl
      · exact ⟨i, by push_cast; ring⟩
      · exact ⟨-i, by push_cast; ring⟩
    · exact absurd level (beyond z coarse small).ne'

end IsRounded

end SurveyTables.Binary64
