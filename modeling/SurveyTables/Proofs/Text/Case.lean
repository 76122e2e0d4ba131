import Mathlib.Tactic.SplitIfs

/-! Characters in lower case. -/
namespace SurveyTables.Text

theorem toNat_toLower (c : Char) :
    c.toLower.toNat = if 65 ≤ c.toNat ∧ c.toNat ≤ 90 then c.toNat + 32 else c.toNat := by
  unfold Char.toLower
  simp only [Char.toNat, UInt32.le_iff_toNat_le, ge_iff_le]
  split
  · next upper =>
    have range : 65 ≤ c.val.toNat ∧ c.val.toNat ≤ 90 := upper
    have sum : (c.val + 32).toNat = (c.val.toNat + 32) % 2 ^ 32 := UInt32.toNat_add _ _
    rw [if_pos range]
    exact sum.trans (Nat.mod_eq_of_lt (by omega))
  · next other =>
    have range : ¬(65 ≤ c.val.toNat ∧ c.val.toNat ≤ 90) := other
    rw [if_neg range]

theorem isLower_of_isAlpha_toLower {c : Char} (letter : c.toLower.isAlpha = true) :
    c.toLower.isLower = true := by
  have either : c.toLower.isUpper = true ∨ c.toLower.isLower = true := Bool.or_eq_true_iff.1 letter
  refine either.resolve_left fun upper => ?_
  have range : 65 ≤ c.toLower.toNat ∧ c.toLower.toNat ≤ 90 := of_decide_eq_true upper
  rw [toNat_toLower] at range
  split_ifs at range <;> omega

end SurveyTables.Text
