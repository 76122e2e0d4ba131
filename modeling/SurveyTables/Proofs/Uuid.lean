import Mathlib.Algebra.Ring.Nat
import Mathlib.Data.List.Induction
import SurveyTables.Proofs.Sequence
import SurveyTables.Proofs.Text.Case
import SurveyTables.Uuid

/-! The texts that are read as an identifier. Each identifier has four spellings, with and without
hyphens and in two kinds of dress, and in each the letters may be of either case; a text is read as
an identifier just if it is one of its spellings. -/
namespace SurveyTables

namespace Text

theorem toNat_hexDigit {d : Nat} (small : d < 16) :
    (hexDigit d).toNat = if d < 10 then 48 + d else 87 + d := by
  revert d
  decide

theorem hexDigit?_eq_some_iff {c : Char} {d : Nat} :
    hexDigit? c = some d ↔ d < 16 ∧ c.toLower = hexDigit d := by
  have codes : d < 16 ∧ c.toLower = hexDigit d ↔
      d < 16 ∧ c.toLower.toNat = if d < 10 then 48 + d else 87 + d := by
    refine and_congr_right fun small => ?_
    rw [← toNat_hexDigit small, Char.toNat_inj]
  have order (a b : Char) : a ≤ b ↔ a.toNat ≤ b.toNat := Iff.rfl
  rw [codes, toNat_toLower]
  simp only [hexDigit?, order, Char.reduceToNat]
  split_ifs <;> simp only [Option.some.injEq, false_iff] <;> omega

theorem readHex?_concat (cs : List Char) (c : Char) :
    readHex? (cs ++ [c]) = (readHex? cs).bind fun n => (hexDigit? c).map (16 * n + ·) := by
  rw [readHex?, List.foldlM_append]
  simp [readHex?]

/-- Hexadecimal digits are read whatever their case. -/
theorem readHex?_eq_some_iff {cs : List Char} {n : Nat} :
    readHex? cs = some n ↔ n < 16 ^ cs.length ∧ cs.map Char.toLower = hexNumeral cs.length n := by
  induction cs using List.reverseRecOn generalizing n with
  | nil => simp [readHex?, hexNumeral, eq_comm]
  | append_singleton cs c ih =>
    rw [readHex?_concat, List.length_append, List.length_singleton, Nat.pow_succ, hexNumeral,
      List.map_append, List.map_singleton, Option.bind_eq_some_iff]
    constructor
    · rintro ⟨m, read, last⟩
      obtain ⟨d, digit, rfl⟩ := Option.map_eq_some_iff.1 last
      obtain ⟨small, same⟩ := hexDigit?_eq_some_iff.1 digit
      obtain ⟨bound, front⟩ := ih.1 read
      have high : (16 * m + d) / 16 = m := by omega
      have low : (16 * m + d) % 16 = d := by omega
      rw [high, low, front, same]
      exact ⟨by omega, rfl⟩
    · rintro ⟨bound, same⟩
      obtain ⟨front, last⟩ := List.append_inj' same rfl
      refine ⟨n / 16, ih.2 ⟨by omega, front⟩, Option.map_eq_some_iff.2 ⟨n % 16, ?_, by omega⟩⟩
      exact hexDigit?_eq_some_iff.2 ⟨by omega, (List.cons.inj last).1⟩

theorem length_hexNumeral (count n : Nat) : (hexNumeral count n).length = count := by
  induction count generalizing n with
  | zero => rfl
  | succ count ih => rw [hexNumeral, List.length_append, ih, List.length_singleton]

end Text

namespace Uuid

def hyphened (ds : List Char) : List Char := ['-'].intercalate (group groupLengths ds)

/-- The digits of an identifier, their letters in either case. -/
def Digits (u : Uuid) (ds : List Char) : Prop :=
  ds.map Char.toLower = Text.hexNumeral 32 u.value.toNat

/-- A text as it is, in braces, or behind the name of its scheme. -/
inductive Dressed (inner : List Char) : List Char → Prop
  | bare : Dressed inner inner
  | braced : Dressed inner ('\x7b' :: inner ++ ['\x7d'])
  | named {start : List Char} (scheme : start.map Char.toLower = "urn:uuid:".toList) :
      Dressed inner (start ++ inner)

/-- The spellings of an identifier. -/
inductive Spells (u : Uuid) : List Char → Prop
  | plain {ds : List Char} (digits : u.Digits ds) : Spells u ds
  | hyphened {ds cs : List Char} (digits : u.Digits ds) (dressed : Dressed (hyphened ds) cs) :
      Spells u cs

theorem Digits.length_eq {u : Uuid} {ds : List Char} (digits : u.Digits ds) : ds.length = 32 := by
  rw [← List.length_map Char.toLower, digits, Text.length_hexNumeral]

theorem digits_iff {u : Uuid} {ds : List Char} :
    u.Digits ds ↔ ds.length = 32 ∧ Text.readHex? ds = some u.value.toNat := by
  have bound : u.value.toNat < 16 ^ 32 := u.value.isLt
  rw [Text.readHex?_eq_some_iff]
  constructor
  · intro digits
    rw [digits.length_eq]
    exact ⟨rfl, bound, digits⟩
  · rintro ⟨length, -, same⟩
    rwa [length] at same

theorem intercalate_group (length next : Nat) (lengths : List Nat) (ds : List Char) :
    ['-'].intercalate (group (length :: next :: lengths) ds) =
      ds.take length ++ '-' :: ['-'].intercalate (group (next :: lengths) (ds.drop length)) := by
  rw [group, group, List.intercalate_cons_cons, List.append_assoc]
  rfl

theorem ungroup?_eq_some_iff {lengths : List Nat} {cs ds : List Char} :
    ungroup? lengths cs = some ds ↔
      ds.length = lengths.sum ∧ cs = ['-'].intercalate (group lengths ds) := by
  induction lengths generalizing cs ds with
  | nil =>
    cases cs <;> cases ds <;> simp [ungroup?, group, List.intercalate]
  | cons length lengths ih =>
    cases lengths with
    | nil =>
      simp only [ungroup?, group, List.sum_singleton, List.intercalate_singleton,
        Option.ite_none_right_eq_some, Option.some.injEq]
      constructor
      · rintro ⟨whole, rfl⟩
        exact ⟨whole, (List.take_of_length_le (Nat.le_of_eq whole)).symm⟩
      · rintro ⟨whole, rfl⟩
        rw [List.take_of_length_le (Nat.le_of_eq whole)]
        exact ⟨whole, rfl⟩
    | cons next lengths =>
      rw [intercalate_group, List.sum_cons]
      constructor
      · intro read
        simp only [ungroup?] at read
        split at read
        · next rest behind =>
          obtain ⟨full, mapped⟩ := Option.ite_none_right_eq_some.1 read
          obtain ⟨later, inner, rfl⟩ := Option.map_eq_some_iff.1 mapped
          obtain ⟨whole, same⟩ := ih.1 inner
          have first : (cs.take length ++ later).take length = cs.take length :=
            List.take_left' full
          have last : (cs.take length ++ later).drop length = later := List.drop_left' full
          rw [first, last, ← same, ← behind, List.take_append_drop, List.length_append, full, whole]
          exact ⟨rfl, rfl⟩
        · contradiction
      · rintro ⟨whole, rfl⟩
        have full : (ds.take length).length = length := by
          rw [List.length_take]
          omega
        have later : ungroup? (next :: lengths)
            (['-'].intercalate (group (next :: lengths) (ds.drop length))) =
              some (ds.drop length) := by
          refine ih.2 ⟨?_, rfl⟩
          rw [List.length_drop]
          omega
        simp only [ungroup?, List.drop_left' full, List.take_left' full, if_pos full, later,
          Option.map_some, List.take_append_drop]

theorem length_intercalate_group {length : Nat} {lengths : List Nat} {ds : List Char}
    (whole : ds.length = (length :: lengths).sum) :
    (['-'].intercalate (group (length :: lengths) ds)).length = ds.length + lengths.length := by
  induction lengths generalizing length ds with
  | nil => simp [group, whole]
  | cons next lengths ih =>
    rw [List.sum_cons] at whole
    have later : (ds.drop length).length = (next :: lengths).sum := by
      rw [List.length_drop]
      omega
    rw [intercalate_group, List.length_append, List.length_cons, ih later, List.length_take,
      List.length_drop, List.length_cons]
    omega

theorem length_hyphened {ds : List Char} (whole : ds.length = 32) : (hyphened ds).length = 36 := by
  have length : (hyphened ds).length = ds.length + 4 := length_intercalate_group whole
  rw [length, whole]

theorem ungroup?_groupLengths_iff {cs ds : List Char} :
    ungroup? groupLengths cs = some ds ↔ ds.length = 32 ∧ cs = hyphened ds :=
  ungroup?_eq_some_iff

theorem Dressed.length_le {inner cs : List Char} (dressed : Dressed inner cs) :
    inner.length ≤ cs.length := by
  cases dressed with
  | bare => exact Nat.le_refl _
  | braced =>
    rw [List.length_append, List.length_cons]
    omega
  | named =>
    rw [List.length_append]
    omega

theorem undress_eq_some_iff {cs inner : List Char} (length : inner.length = 36) :
    undress cs = some inner ↔ Dressed inner cs := by
  constructor
  · intro undressed
    unfold undress at undressed
    split_ifs at undressed with braces scheme bare
    · obtain ⟨-, opens, closes⟩ := braces
      obtain ⟨rest, rfl⟩ := List.head?_eq_some_iff.1 opens
      cases undressed
      have some : rest ≠ [] := by
        rintro rfl
        simp at length
      rw [List.drop_one, List.tail_cons] at length ⊢
      rw [List.getLast?_cons_of_ne_nil some] at closes
      obtain ⟨inner, rfl⟩ := List.getLast?_eq_some_iff.1 closes
      rw [List.dropLast_concat]
      exact .braced
    · cases undressed
      have whole : Dressed (cs.drop 9) (cs.take 9 ++ cs.drop 9) := .named scheme.2
      rwa [List.take_append_drop] at whole
    · cases undressed
      exact .bare
  · intro dressed
    unfold undress
    cases dressed with
    | bare => simp [length]
    | braced =>
      have closes : ('\x7b' :: inner ++ ['\x7d']).getLast? = some '\x7d' := List.getLast?_concat
      rw [if_pos ⟨by simp [length], rfl, closes⟩, List.cons_append, List.drop_one, List.tail_cons,
        List.dropLast_concat]
    | @named start scheme =>
      have nine : start.length = 9 := by simpa using congrArg List.length scheme
      have all : (start ++ inner).length = 45 := by rw [List.length_append, nine, length]
      rw [if_neg (by omega), if_pos ⟨all, by rwa [List.take_left' nine]⟩, List.drop_left' nine]

/-- A text holds digits if it consists of them or is their hyphened form in some dress. -/
theorem digits?_eq_some_iff {cs ds : List Char} :
    digits? cs = some ds ↔ ds.length = 32 ∧ (cs = ds ∨ Dressed (hyphened ds) cs) := by
  unfold digits?
  constructor
  · intro read
    split_ifs at read with plain
    · cases read
      exact ⟨plain, .inl rfl⟩
    · obtain ⟨inner, undressed, ungrouped⟩ := Option.bind_eq_some_iff.1 read
      obtain ⟨whole, rfl⟩ := ungroup?_groupLengths_iff.1 ungrouped
      exact ⟨whole, .inr ((undress_eq_some_iff (length_hyphened whole)).1 undressed)⟩
  · rintro ⟨whole, rfl | dressed⟩
    · rw [if_pos whole]
    · have longer := dressed.length_le
      rw [length_hyphened whole] at longer
      rw [if_neg (by omega), (undress_eq_some_iff (length_hyphened whole)).2 dressed]
      exact ungroup?_groupLengths_iff.2 ⟨whole, rfl⟩

/-- A text is read as the identifier that it spells, and nothing else is read. -/
theorem read?_eq_some_iff {s : String} {u : Uuid} : read? s = some u ↔ u.Spells s.toList := by
  have value (n : Nat) (bound : n < 16 ^ 32) : (BitVec.ofNat 128 n).toNat = n :=
    Nat.mod_eq_of_lt bound
  constructor
  · intro read
    obtain ⟨ds, held, valued⟩ := Option.bind_eq_some_iff.1 read
    obtain ⟨n, denoted, ⟨⟩⟩ := Option.bind_eq_some_iff.1 valued
    obtain ⟨whole, shape⟩ := digits?_eq_some_iff.1 held
    have bound := (Text.readHex?_eq_some_iff.1 denoted).1
    have digits : Digits ⟨BitVec.ofNat 128 n⟩ ds := by
      rw [digits_iff, value n (whole ▸ bound)]
      exact ⟨whole, denoted⟩
    generalize s.toList = cs at shape ⊢
    rcases shape with rfl | dressed
    · exact .plain digits
    · exact .hyphened digits dressed
  · intro spells
    have held {ds : List Char} (digits : u.Digits ds)
        (shape : s.toList = ds ∨ Dressed (hyphened ds) s.toList) : read? s = some u := by
      obtain ⟨whole, denoted⟩ := digits_iff.1 digits
      have found : digits? s.toList = some ds := digits?_eq_some_iff.2 ⟨whole, shape⟩
      rw [read?, found, Option.bind_eq_bind, Option.bind_some, denoted]
      simp
    cases spells with
    | plain digits => exact held digits (.inl rfl)
    | hyphened digits dressed => exact held digits (.inr dressed)

theorem Spells.unique {u v : Uuid} {s : String} (first : u.Spells s.toList)
    (second : v.Spells s.toList) : u = v :=
  Option.some.inj ((read?_eq_some_iff.2 first).symm.trans (read?_eq_some_iff.2 second))

end Uuid

end SurveyTables
