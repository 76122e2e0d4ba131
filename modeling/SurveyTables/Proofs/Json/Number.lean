import SurveyTables.Json.Number

/-! Numbers read back from their text, digit for digit. -/
namespace SurveyTables

namespace Text

/-- A text that does not continue a run of digits. -/
def EndsDigits (rest : List Char) : Prop := ∀ c ∈ rest.head?, digit? c = none

theorem digit?_digitChar : ∀ d : Fin 10, digit? (digitChar d) = some d := by decide

theorem digitChar_val : ∀ d : Fin 10, Nat.digitChar d.val = digitChar d := by decide

theorem leadingDigits_of_ends {rest : List Char} (ends : EndsDigits rest) :
    leadingDigits rest = ([], rest) := by
  cases rest with
  | nil => rfl
  | cons c cs => simp [leadingDigits, ends c rfl]

theorem leadingDigits_map (ds : List (Fin 10)) {rest : List Char} (ends : EndsDigits rest) :
    leadingDigits (ds.map digitChar ++ rest) = (ds, rest) := by
  induction ds with
  | nil => exact leadingDigits_of_ends ends
  | cons d ds ih => simp [leadingDigits, digit?_digitChar, ih]

theorem ofDigits_concat (ds : List (Fin 10)) (d : Fin 10) :
    ofDigits (ds ++ [d]) = 10 * ofDigits ds + d.val := by
  simp [ofDigits]

theorem exists_digits (n : Nat) :
    ∃ lead rest, Nat.toDigits 10 n = (lead :: rest).map digitChar ∧
      ofDigits (lead :: rest) = n ∧ (lead = 0 → rest = [] ∧ n = 0) := by
  induction n using Nat.strongRecOn with
  | ind n ih =>
    by_cases small : n < 10
    · refine ⟨⟨n, small⟩, [], ?_, ?_, ?_⟩
      · simp [Nat.toDigits_of_lt_base small, ← digitChar_val]
      · simp [ofDigits]
      · intro nought
        exact ⟨rfl, congrArg Fin.val nought⟩
    · obtain ⟨lead, rest, front, value, nought⟩ := ih (n / 10) (by omega)
      have last : n % 10 < 10 := by omega
      refine ⟨lead, rest ++ [⟨n % 10, last⟩], ?_, ?_, ?_⟩
      · rw [Nat.toDigits_of_base_le (by decide) (by omega), front]
        simp [← digitChar_val]
      · rw [← List.cons_append, ofDigits_concat, value]
        dsimp only
        omega
      · intro zero
        have := (nought zero).2
        omega

end Text

namespace Json

open Text

namespace Exponent

theorem read?_chars (e : Exponent) : read? e.chars = some (some e) := by
  obtain ⟨negative, lead, rest⟩ := e
  have stops : EndsDigits [] := by simp [EndsDigits]
  have digits := leadingDigits_map (lead :: rest) stops
  rw [List.append_nil, List.map_cons] at digits
  cases negative <;> simp [chars, read?, digits]

theorem read?_elim (e : Option Exponent) : read? (e.elim [] chars) = some e := by
  cases e with
  | none => rfl
  | some e => exact read?_chars e

theorem endsDigits_elim (e : Option Exponent) : EndsDigits (e.elim [] chars) := by
  cases e with
  | none => simp [EndsDigits]
  | some e =>
    rintro _ ⟨⟩
    rfl

end Exponent

namespace Number

theorem digitChar_ne_minus : ∀ d : Fin 10, digitChar d ≠ '-' := by decide

theorem read?_signed (negative : Bool) (lead : Fin 10) (cs : List Char) :
    read? ((if negative then ['-'] else []) ++ digitChar lead :: cs) =
      readUnsigned? negative (digitChar lead :: cs) := by
  have plain := digitChar_ne_minus lead
  cases negative <;> simp [read?, plain]

variable {lead : Fin 10} {rest : List (Fin 10)} {cs tail : List Char}

theorem readUnsigned?_of_noPoint (negative : Bool) (nought : lead = 0 → rest = [])
    (digits : leadingDigits cs = (lead :: rest, tail)) (noPoint : ∀ later, tail ≠ '.' :: later) :
    readUnsigned? negative cs =
      (Exponent.read? tail).map (⟨negative, ofDigits (lead :: rest), [], ·⟩) := by
  rw [readUnsigned?, digits]
  split <;> simp_all

theorem readUnsigned?_of_point (negative : Bool) (nought : lead = 0 → rest = [])
    {later : List Char} {d : Fin 10} {ds : List (Fin 10)}
    (digits : leadingDigits cs = (lead :: rest, '.' :: later))
    (fraction : leadingDigits later = (d :: ds, tail)) :
    readUnsigned? negative cs =
      (Exponent.read? tail).map (⟨negative, ofDigits (lead :: rest), d :: ds, ·⟩) := by
  rw [readUnsigned?, digits]
  split
  · next same => simp at same
  · next same => simp_all
  · next same =>
    obtain ⟨rfl, point⟩ := Prod.mk.inj same
    obtain rfl := (List.cons.inj point).2
    simp [fraction]
  · next noPoint same => exact absurd (Prod.mk.inj same).2.symm (noPoint later)

theorem read?_chars (n : Number) : read? n.chars = some n := by
  obtain ⟨negative, whole, fraction, exponent⟩ := n
  obtain ⟨lead, rest, numeral, value, nought⟩ := exists_digits whole
  have nought : lead = 0 → rest = [] := fun zero => (nought zero).1
  have after := Exponent.read?_elim exponent
  cases fraction with
  | nil =>
    have digits := leadingDigits_map (lead :: rest) (Exponent.endsDigits_elim exponent)
    have noPoint : ∀ later, exponent.elim [] Exponent.chars ≠ '.' :: later := by
      cases exponent <;> simp [Exponent.chars]
    have read := readUnsigned?_of_noPoint negative nought digits noPoint
    rw [List.map_cons, List.cons_append] at read
    simp [chars, numeral, read?_signed, read, after, value]
  | cons d ds =>
    have fraction := leadingDigits_map (d :: ds) (Exponent.endsDigits_elim exponent)
    have point : EndsDigits ('.' :: ((d :: ds).map digitChar ++ exponent.elim [] Exponent.chars)) := by
      simp [EndsDigits, digit?]
    have read :=
      readUnsigned?_of_point negative nought (leadingDigits_map (lead :: rest) point) fraction
    simp only [List.map_cons, List.cons_append] at read
    simp [chars, numeral, read?_signed, read, after, value]

end Number

end Json

end SurveyTables
