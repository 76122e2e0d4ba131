import Mathlib.Data.List.TakeWhile
import SurveyTables.Proofs.Json.Number
import SurveyTables.Text.Blank

/-! Numerals inside texts: which texts are read as an integer, and as which. Blanks around a
numeral do not count. -/
namespace SurveyTables.Text

/-- Decimal digits, with at most one sign in front of them. -/
inductive Spells : List Char → Int → Prop
  | unsigned {ds : List (Fin 10)} (some : ds ≠ []) : Spells (ds.map digitChar) (ofDigits ds)
  | plus {ds : List (Fin 10)} (some : ds ≠ []) : Spells ('+' :: ds.map digitChar) (ofDigits ds)
  | minus {ds : List (Fin 10)} (some : ds ≠ []) :
      Spells ('-' :: ds.map digitChar) (-(ofDigits ds : Int))

/-- A signed word of 64 bits holds the integer. -/
def FitsInt64 (n : Int) : Prop := -int64Bound ≤ n ∧ n < int64Bound

theorem fitsInt64_iff (n : Int) : fitsInt64 n = true ↔ FitsInt64 n := by
  rw [fitsInt64, Bool.and_eq_true, decide_eq_true_eq, decide_eq_true_eq, FitsInt64]

theorem digitChar_of_digit? {c : Char} {d : Fin 10} (read : digit? c = some d) :
    digitChar d = c := by
  unfold digit? at read
  split at read
  · next range =>
    cases read
    rw [digitChar, show 48 + (c.toNat - 48) = c.toNat by omega, Char.ofNat_toNat]
  · contradiction

theorem eq_of_leadingDigits {cs rest : List Char} {ds : List (Fin 10)}
    (read : leadingDigits cs = (ds, rest)) : cs = ds.map digitChar ++ rest := by
  induction cs generalizing ds with
  | nil =>
    cases read
    rfl
  | cons c cs ih =>
    rw [leadingDigits] at read
    split at read
    · next d digit =>
      cases read
      rw [List.map_cons, List.cons_append, ← ih rfl, digitChar_of_digit? digit]
    · cases read
      rfl

theorem readNat?_eq_some_iff {cs : List Char} {n : Nat} :
    readNat? cs = some n ↔ ∃ ds, ds ≠ [] ∧ cs = ds.map digitChar ∧ ofDigits ds = n := by
  constructor
  · intro read
    unfold readNat? at read
    split at read
    · next d ds digits =>
      refine ⟨d :: ds, List.cons_ne_nil d ds, ?_, Option.some.inj read⟩
      rw [eq_of_leadingDigits digits, List.append_nil]
    · contradiction
  · rintro ⟨ds, some, rfl, rfl⟩
    have stops : EndsDigits [] := by simp [EndsDigits]
    have digits := leadingDigits_map ds stops
    rw [List.append_nil] at digits
    obtain ⟨d, ds, rfl⟩ := List.exists_cons_of_ne_nil some
    rw [readNat?, digits]

theorem digitChar_ne_sign : ∀ d : Fin 10, digitChar d ≠ '-' ∧ digitChar d ≠ '+' := by decide

theorem readInt?_map_digitChar (ds : List (Fin 10)) :
    readInt? (ds.map digitChar) = (readNat? (ds.map digitChar)).map Int.ofNat := by
  cases ds with
  | nil => rfl
  | cons d ds =>
    obtain ⟨minus, plus⟩ := digitChar_ne_sign d
    simp [readInt?, minus, plus]

theorem readInt?_eq_some_iff {cs : List Char} {n : Int} :
    readInt? cs = some n ↔ Spells cs n := by
  constructor
  · intro read
    unfold readInt? at read
    split at read
    · obtain ⟨m, negated, rfl⟩ := Option.map_eq_some_iff.1 read
      obtain ⟨k, digits, same⟩ := Option.bind_eq_some_iff.1 negated
      obtain ⟨ds, some, rfl, rfl⟩ := readNat?_eq_some_iff.1 digits
      cases same
      exact .minus some
    · obtain ⟨k, digits, rfl⟩ := Option.map_eq_some_iff.1 read
      obtain ⟨ds, some, rfl, rfl⟩ := readNat?_eq_some_iff.1 digits
      exact .plus some
    · obtain ⟨k, digits, rfl⟩ := Option.map_eq_some_iff.1 read
      obtain ⟨ds, some, rfl, rfl⟩ := readNat?_eq_some_iff.1 digits
      exact .unsigned some
  · intro spells
    cases spells with
    | unsigned some =>
      rw [readInt?_map_digitChar, readNat?_eq_some_iff.2 ⟨_, some, rfl, rfl⟩]
      rfl
    | plus some =>
      rw [readInt?, readNat?_eq_some_iff.2 ⟨_, some, rfl, rfl⟩]
      rfl
    | minus some =>
      rw [readInt?, readNat?_eq_some_iff.2 ⟨_, some, rfl, rfl⟩]
      rfl

theorem isBlank_digitChar : ∀ d : Fin 10, isBlank (digitChar d) = false := by decide +kernel

theorem Spells.not_isBlank {cs : List Char} {n : Int} (spells : Spells cs n) :
    ∀ c ∈ cs, isBlank c = false := by
  have digits : ∀ ds : List (Fin 10), ∀ c ∈ ds.map digitChar, isBlank c = false := by
    intro ds c member
    obtain ⟨d, -, rfl⟩ := List.mem_map.1 member
    exact isBlank_digitChar d
  cases spells with
  | unsigned => exact digits _
  | plus => exact List.forall_mem_cons.2 ⟨by decide +kernel, digits _⟩
  | minus => exact List.forall_mem_cons.2 ⟨by decide +kernel, digits _⟩

/-- Only blanks are trimmed away. -/
theorem exists_around_trimmed (cs : List Char) : ∃ before after,
    cs = before ++ trimmed cs ++ after ∧ ∀ c ∈ before ++ after, isBlank c = true := by
  refine ⟨cs.takeWhile isBlank, ((cs.dropWhile isBlank).reverse.takeWhile isBlank).reverse, ?_, ?_⟩
  · rw [trimmed, List.append_assoc, ← List.reverse_append, List.takeWhile_append_dropWhile,
      List.reverse_reverse, List.takeWhile_append_dropWhile]
  · intro c member
    rcases List.mem_append.1 member with front | back
    · exact List.mem_takeWhile_imp front
    · exact List.mem_takeWhile_imp (List.mem_reverse.1 back)

theorem dropWhile_append_of_blank {before cs : List Char}
    (blank : ∀ c ∈ before, isBlank c = true) (visible : ∀ c ∈ cs, isBlank c = false) :
    (before ++ cs).dropWhile isBlank = cs := by
  rw [List.dropWhile_append_of_pos blank]
  cases cs with
  | nil => rfl
  | cons c cs => exact List.dropWhile_cons_of_neg (by simp [visible c List.mem_cons_self])

theorem trimmed_append {before cs after : List Char}
    (blank : ∀ c ∈ before ++ after, isBlank c = true) (some : cs ≠ [])
    (visible : ∀ c ∈ cs, isBlank c = false) : trimmed (before ++ cs ++ after) = cs := by
  obtain ⟨front, back⟩ := List.forall_mem_append.1 blank
  obtain ⟨c, rest, rfl⟩ := List.exists_cons_of_ne_nil some
  have begins : isBlank c = false := visible c List.mem_cons_self
  have left : (before ++ (c :: rest) ++ after).dropWhile isBlank = c :: rest ++ after := by
    rw [List.append_assoc, List.dropWhile_append_of_pos front]
    exact List.dropWhile_cons_of_neg (by simp [begins])
  rw [trimmed, left, List.reverse_append,
    dropWhile_append_of_blank (fun c member => back c (List.mem_reverse.1 member))
      (fun c member => visible c (List.mem_reverse.1 member)), List.reverse_reverse]

theorem Spells.ne_nil {cs : List Char} {n : Int} (spells : Spells cs n) : cs ≠ [] := by
  cases spells with
  | unsigned some => exact mt List.map_eq_nil_iff.1 some
  | plus => exact List.cons_ne_nil _ _
  | minus => exact List.cons_ne_nil _ _

/-- A text is read as an integer of 64 bits if it is the integer's numeral between blanks. -/
theorem readInt64?_trim_eq_some_iff {s : String} {n : Int} :
    readInt64? (trim s) = some n ↔ ∃ before cs after, s.toList = before ++ cs ++ after ∧
      (∀ c ∈ before ++ after, isBlank c = true) ∧ Spells cs n ∧ FitsInt64 n := by
  rw [readInt64?, Option.filter_eq_some_iff, fitsInt64_iff, readInt?_eq_some_iff, trim,
    String.toList_ofList]
  constructor
  · rintro ⟨spells, fits⟩
    obtain ⟨before, after, around, blank⟩ := exists_around_trimmed s.toList
    exact ⟨before, _, after, around, blank, spells, fits⟩
  · rintro ⟨before, cs, after, around, blank, spells, fits⟩
    rw [around, trimmed_append blank spells.ne_nil spells.not_isBlank]
    exact ⟨spells, fits⟩

end SurveyTables.Text

namespace SurveyTables.Json.Number

theorem isPlain_iff {n : Number} :
    n.isPlain = true ↔ n.fraction = [] ∧ n.exponent = none := by
  simp [isPlain]

/-- A number is read as an integer of 64 bits if it is the integer's numeral. -/
theorem int64?_eq_some_iff {n : Number} {k : Int} : n.int64? = some k ↔
    (n.fraction = [] ∧ n.exponent = none) ∧ Text.FitsInt64 n.signed ∧ n.signed = k := by
  rw [int64?, Option.ite_none_right_eq_some, Bool.and_eq_true, isPlain_iff, Text.fitsInt64_iff,
    Option.some_inj, and_assoc]

end SurveyTables.Json.Number
