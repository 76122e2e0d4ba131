import Mathlib.Algebra.Order.Field.Power
import Mathlib.Data.Rat.Cast.Order
import Mathlib.Tactic.FieldSimp
import Mathlib.Tactic.Positivity
import Mathlib.Tactic.Ring
import SurveyTables.Json.Number

/-! The rational number that the spelling of a JSON number denotes. -/
namespace SurveyTables.Json

open Text

namespace Number

/-- A minus sign, the digits before and after the point, and a power of ten. -/
def value (n : Number) : ℚ :=
  (if n.negative then -1 else 1) *
    (n.whole + ofDigits n.fraction / 10 ^ n.fraction.length) *
    10 ^ n.exponent.elim 0 Exponent.value

theorem foldl_digits (ds : List (Fin 10)) (whole : ℕ) :
    ds.foldl (fun s d => 10 * s + d.val) whole = whole * 10 ^ ds.length + ofDigits ds := by
  induction ds generalizing whole with
  | nil => simp [ofDigits]
  | cons d ds ih =>
    have digits : ofDigits (d :: ds) = (10 * 0 + d.val) * 10 ^ ds.length + ofDigits ds := ih _
    rw [List.foldl_cons, ih, digits, List.length_cons, pow_succ]
    ring

theorem value_eq (n : Number) :
    n.value = (if n.negative then -1 else 1) * (n.significand * 10 ^ n.scale) := by
  have fraction : (10 : ℚ) ^ n.fraction.length ≠ 0 := by positivity
  have digits : (n.significand : ℚ) = n.whole * 10 ^ n.fraction.length + ofDigits n.fraction := by
    rw [significand, foldl_digits]
    push_cast
    rfl
  rw [value, scale, zpow_sub₀ (by norm_num), zpow_natCast, digits]
  field_simp

theorem value_of_isPlain {n : Number} (plain : n.isPlain = true) : n.value = n.signed := by
  obtain ⟨negative, whole, fraction, exponent⟩ := n
  obtain ⟨noFraction, noExponent⟩ := Bool.and_eq_true_iff.1 plain
  obtain rfl := List.isEmpty_iff.1 noFraction
  obtain rfl := Option.isNone_iff_eq_none.1 noExponent
  cases negative <;> simp [value, signed, ofDigits]

end Number

end SurveyTables.Json
