import SurveyTables.Text.Utf8
import Mathlib.Data.List.Basic

/-! The bytes of a text, character by character. A byte of ASCII stands for its character alone and
is no part of another one, so that lines can be told apart in the bytes. -/
namespace SurveyTables.Text

open String (utf8EncodeChar)

theorem encode_eq (s : String) : encode s = s.toList.flatMap utf8EncodeChar := by
  rw [encode, String.toUTF8, ← String.utf8Encode_toList, List.utf8Encode]
  simp

theorem encode_append (s t : String) : encode (s ++ t) = encode s ++ encode t := by
  simp [encode_eq]

theorem utf8EncodeChar_of_ascii {c : Char} (ascii : c.toNat < 128) :
    utf8EncodeChar c = [UInt8.ofNat c.toNat] :=
  if_pos (Nat.le_of_lt_succ ascii)

theorem le_of_mem_utf8EncodeChar {c : Char} (wide : 128 ≤ c.toNat) :
    ∀ b ∈ utf8EncodeChar c, 128 ≤ b.toNat := by
  have more : ¬ c.val.toNat ≤ 127 := Nat.not_le.2 wide
  simp only [utf8EncodeChar, if_neg more]
  split_ifs <;>
    simp only [List.forall_mem_cons, List.not_mem_nil, false_imp_iff, implies_true,
      and_true, UInt8.toNat_ofNat'] <;> omega

/-- The character that a byte of ASCII is part of. -/
theorem toNat_of_mem_utf8EncodeChar {c : Char} {b : UInt8} (ascii : b.toNat < 128)
    (member : b ∈ utf8EncodeChar c) : c.toNat = b.toNat := by
  by_cases wide : 128 ≤ c.toNat
  · exact absurd (le_of_mem_utf8EncodeChar wide b member) (Nat.not_le.2 ascii)
  · rw [utf8EncodeChar_of_ascii (Nat.not_le.1 wide), List.mem_singleton] at member
    rw [member, UInt8.toNat_ofNat']
    omega

end SurveyTables.Text
