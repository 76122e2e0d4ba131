import SurveyTables.Proofs.Binary64.Rounding
import SurveyTables.Proofs.Flatten.Cells
import SurveyTables.Proofs.Flatten.Provenance
import SurveyTables.Proofs.Json.Value
import SurveyTables.Proofs.Layout.Kept
import SurveyTables.Proofs.Text.Numeral

/-! Integer columns. A plain numeral is exported as the integer that it denotes; any other
spelling is exported as the floating-point number nearest to what it denotes, which is exact
just for the numbers of that format. -/
namespace SurveyTables

open Binary64 Text

/-- Rounding keeps numbers that no signed word holds out of the word. -/
theorem Binary64.IsNearest.bound_le_abs {x : ℚ} {k : ℤ} (nearest : IsNearest x k)
    (large : (int64Bound : ℚ) ≤ |x|) : (int64Bound : ℤ) ≤ |k| := by
  have float : IsFloat (int64Bound : ℚ) := by
    have power : (int64Bound : ℚ) = 2 ^ (63 : ℤ) := by norm_num [int64Bound]
    rw [power]
    exact .two_zpow (by norm_num) (by norm_num)
  rcases le_abs.1 large with above | below
  · have above := nearest.le_of_le float above
    exact le_abs.2 (.inl (by exact_mod_cast above))
  · have below := nearest.neg.le_of_le float below
    exact le_abs.2 (.inr (by exact_mod_cast below))

namespace Cell

section Number

variable {significand : ℕ} {scale : ℤ} {n : Json.Number} {k : ℤ}

/-- The natural number to which a decimal number is rounded, where a signed word holds it. -/
theorem exists_ofDecimal_iff {j : ℕ} (small : j < int64Bound) :
    (∃ m, ofDecimal significand scale = some m ∧ m.toNat? = some j) ↔
      IsNearest (significand * 10 ^ scale) j := by
  constructor
  · rintro ⟨m, answered, whole⟩
    rw [← Magnitude.toNat?_eq_some_iff.1 whole]
    exact isNearest_of_ofDecimal answered
  · intro nearest
    cases answered : ofDecimal significand scale with
    | none =>
      have word : (int64Bound : ℚ) ≤ 2 ^ 1023 :=
        calc (int64Bound : ℚ) = 2 ^ 63 := by norm_num [int64Bound]
          _ ≤ 2 ^ 1023 := pow_le_pow_right₀ one_le_two (by norm_num)
      have large := (word.trans (le_of_ofDecimal_eq_none answered)).trans (le_abs_self _)
      have bound := IsNearest.bound_le_abs (k := j) (by exact_mod_cast nearest) large
      rw [Nat.abs_cast] at bound
      omega
    | some m =>
      have value := (isNearest_of_ofDecimal answered).unique nearest
      exact ⟨m, rfl, Magnitude.toNat?_eq_some_iff.2 value⟩

theorem roundedInt64?_eq_some_iff_exists : roundedInt64? n = some k ↔
    ∃ j : ℕ, j < int64Bound ∧ IsNearest (n.significand * 10 ^ n.scale) j ∧
      (if n.negative then -(j : ℤ) else j) = k := by
  simp only [roundedInt64?, Option.bind_eq_bind, Option.bind_eq_some_iff, Option.pure_def]
  constructor
  · rintro ⟨m, answered, j, whole, result⟩
    split at result
    · next small =>
      exact ⟨j, small, (exists_ofDecimal_iff small).1 ⟨m, answered, whole⟩, Option.some.inj result⟩
    · contradiction
  · rintro ⟨j, small, nearest, rfl⟩
    obtain ⟨m, answered, whole⟩ := (exists_ofDecimal_iff small).2 nearest
    exact ⟨m, answered, j, whole, if_pos small⟩

theorem roundedInt64?_eq_some_iff :
    roundedInt64? n = some k ↔ IsNearest n.value k ∧ |k| < int64Bound := by
  rw [roundedInt64?_eq_some_iff_exists, n.value_eq]
  have nonnegative : (0 : ℚ) ≤ n.significand * 10 ^ n.scale := by positivity
  generalize (n.significand : ℚ) * 10 ^ n.scale = x at *
  -- Without the sign, what is nearest is a natural number.
  have unsigned : ∀ k : ℤ, IsNearest x k → (k.toNat : ℤ) = k := by
    intro k nearest
    have sign : (0 : ℚ) ≤ k := nearest.le_of_le .zero nonnegative
    exact Int.toNat_of_nonneg (by exact_mod_cast sign)
  cases n.negative with
  | false =>
    simp only [Bool.false_eq_true, if_false, one_mul]
    constructor
    · rintro ⟨j, small, nearest, rfl⟩
      exact ⟨by exact_mod_cast nearest, by rw [Nat.abs_cast]; exact_mod_cast small⟩
    · rintro ⟨nearest, small⟩
      have natural := unsigned k nearest
      rw [abs_of_nonneg (by omega)] at small
      refine ⟨k.toNat, by omega, ?_, natural⟩
      rw [← Int.cast_natCast, natural]
      exact nearest
  | true =>
    simp only [if_true, neg_one_mul]
    constructor
    · rintro ⟨j, small, nearest, rfl⟩
      rw [abs_neg, Nat.abs_cast]
      refine ⟨?_, by exact_mod_cast small⟩
      push_cast
      exact nearest.neg
    · rintro ⟨nearest, small⟩
      have nearest : IsNearest x ((-k : ℤ) : ℚ) := by
        push_cast
        rw [← IsNearest.neg_iff, neg_neg]
        exact nearest
      have natural := unsigned (-k) nearest
      rw [← abs_neg, abs_of_nonneg (by omega)] at small
      refine ⟨(-k).toNat, by omega, ?_, by omega⟩
      rw [← Int.cast_natCast, natural]
      exact nearest

theorem bound_le_abs_of_not_fits (large : ¬ FitsInt64 k) : (int64Bound : ℤ) ≤ |k| := by
  unfold FitsInt64 at large
  rcases le_or_gt 0 k with nonnegative | negative
  · rw [abs_of_nonneg nonnegative]
    omega
  · rw [abs_of_neg negative]
    omega

theorem int64?_eq_some_iff :
    n.int64? = some k ↔ n.isPlain = true ∧ n.value = k ∧ FitsInt64 k := by
  rw [Json.Number.int64?_eq_some_iff, ← Json.Number.isPlain_iff]
  refine and_congr_right fun plain => ?_
  rw [Json.Number.value_of_isPlain plain, Int.cast_inj]
  constructor
  · rintro ⟨fits, rfl⟩
    exact ⟨rfl, fits⟩
  · rintro ⟨rfl, fits⟩
    exact ⟨fits, rfl⟩

/-- A plain numeral is read exactly, another number as its nearest floating-point number. -/
theorem integer?_number_eq_some_iff : integer? (.number n) = some k ↔
    if n.isPlain then n.value = k ∧ FitsInt64 k else IsNearest n.value k ∧ |k| < int64Bound := by
  rw [integer?, Option.or_eq_some_iff, int64?_eq_some_iff, roundedInt64?_eq_some_iff]
  split
  · next plain =>
    refine ⟨?_, fun exact => .inl ⟨plain, exact⟩⟩
    rintro (⟨-, exact⟩ | ⟨unread, nearest, small⟩)
    · exact exact
    · -- A numeral beyond the word is not rounded into it.
      have value := Json.Number.value_of_isPlain plain
      have beyond : ¬ FitsInt64 n.signed := fun fits => by
        rw [int64?_eq_some_iff.2 ⟨plain, value, fits⟩] at unread
        contradiction
      rw [value] at nearest
      have large := bound_le_abs_of_not_fits beyond
      have large := nearest.bound_le_abs (by exact_mod_cast large)
      omega
  · next spelled =>
    have unread : n.int64? = none := by
      rw [Option.eq_none_iff_forall_ne_some]
      exact fun k read => spelled (int64?_eq_some_iff.1 read).1
    rw [unread, or_iff_right fun read => spelled read.1, and_iff_right rfl]

end Number

/-- What an integer column shows of a stored answer. -/
structure ShowsInteger (answer : Option Json) (cell : Cell) : Prop where
  /-- a number shows as an integer just if it is a plain numeral that a signed word holds, or is
  spelled otherwise and nearest to an integer of the floating-point format within the word -/
  number : ∀ n, answer = some (.number n) → ∀ k : ℤ, cell = .int k ↔
    if n.isPlain then n.value = k ∧ FitsInt64 k else IsNearest n.value k ∧ |k| < int64Bound
  /-- the integer shown is the number denoted just if the numeral is plain or the number is one
  of the format -/
  exact_iff : ∀ n, answer = some (.number n) → ∀ k : ℤ, cell = .int k →
    (n.value = k ↔ n.isPlain ∨ IsFloat n.value)
  /-- of an integer of 64 bits it is shown under the same condition, but for the least one -/
  kept_iff : ∀ n, answer = some (.number n) → ∀ k : ℤ, n.value = k → FitsInt64 k →
    (cell = .int k ↔ n.isPlain ∨ (IsFloat k ∧ k ≠ -int64Bound))
  /-- integers up to `2 ^ 53` are shown in every spelling -/
  kept : ∀ n, answer = some (.number n) → ∀ k : ℤ, n.value = k → |k| ≤ 2 ^ 53 → cell = .int k
  /-- a text shows as the integer whose numeral stands in it between blanks -/
  text : ∀ s, answer = some (.string s) → ∀ k : ℤ, cell = .int k ↔
    ∃ before cs after, s.toList = before ++ cs ++ after ∧
      (∀ c ∈ before ++ after, isBlank c = true) ∧ Spells cs k ∧ FitsInt64 k
  other : (∀ n, answer ≠ some (.number n)) → (∀ s, answer ≠ some (.string s)) → cell = .null
  null : (∀ k, cell ≠ .int k) → cell = .null

theorem ofInteger_eq_int_iff {answer : Json} {k : ℤ} :
    ofInteger answer = .int k ↔ integer? answer = some k := by
  rw [ofInteger]
  cases integer? answer <;> simp

theorem ofInteger_number_eq_int_iff {n : Json.Number} {k : ℤ} :
    ofInteger (.number n) = .int k ↔
      if n.isPlain then n.value = k ∧ FitsInt64 k else IsNearest n.value k ∧ |k| < int64Bound :=
  ofInteger_eq_int_iff.trans integer?_number_eq_some_iff

/-- Of an integer of 64 bits, a plain spelling is exact, and so is any spelling of a number of the
floating-point format, but for the least one. -/
theorem ofInteger_number_eq_int_iff_of_fits {n : Json.Number} {k : ℤ} (value : n.value = k)
    (fits : FitsInt64 k) :
    ofInteger (.number n) = .int k ↔ n.isPlain ∨ (IsFloat k ∧ k ≠ -int64Bound) := by
  rw [ofInteger_number_eq_int_iff, value]
  split
  · next plain => exact ⟨fun _ => .inl plain, fun _ => ⟨rfl, fits⟩⟩
  · next spelled =>
    rw [or_iff_right spelled]
    unfold FitsInt64 at fits
    constructor
    · rintro ⟨nearest, small⟩
      refine ⟨nearest.isFloat, ?_⟩
      rintro rfl
      rw [abs_neg, Nat.abs_cast] at small
      exact absurd small (lt_irrefl _)
    · rintro ⟨float, notLeast⟩
      exact ⟨.self float, abs_lt.2 ⟨by omega, fits.2⟩⟩

theorem showsInteger_ofAnswer (answer : Option Json) :
    ShowsInteger answer (ofAnswer .int answer) := by
  refine { number := ?number, exact_iff := ?exact_iff, kept_iff := ?kept_iff, kept := ?kept,
           text := ?text, other := ?other, null := ?null }
  case number =>
    rintro n rfl k
    exact ofInteger_number_eq_int_iff
  case kept_iff =>
    rintro n rfl k value fits
    exact ofInteger_number_eq_int_iff_of_fits value fits
  case exact_iff =>
    rintro n rfl k shown
    have shown := ofInteger_number_eq_int_iff.1 shown
    split at shown
    · next plain => exact ⟨fun _ => .inl plain, fun _ => shown.1⟩
    · next spelled =>
      rw [or_iff_right spelled]
      exact ⟨fun same => same ▸ shown.1.isFloat, fun float => (shown.1.eq_of_isFloat float).symm⟩
  case kept =>
    rintro n rfl k value small
    have within := abs_le.1 small
    refine (ofInteger_number_eq_int_iff_of_fits value ?_).2 (.inr ⟨.of_abs_le small, ?_⟩)
    · simp only [FitsInt64, int64Bound]
      omega
    · simp only [int64Bound]
      omega
  case text =>
    rintro s rfl k
    exact ofInteger_eq_int_iff.trans readInt64?_trim_eq_some_iff
  case other =>
    intro noNumber noText
    cases answer with
    | none => rfl
    | some answer =>
      cases answer with
      | number n => exact absurd rfl (noNumber n)
      | string s => exact absurd rfl (noText s)
      | _ => rfl
  case null =>
    intro noInteger
    cases answer with
    | none => rfl
    | some answer =>
      cases read : integer? answer with
      | none => simp only [ofAnswer, ofInteger, read, Option.elim_none]
      | some k => exact absurd (ofInteger_eq_int_iff.2 read) (noInteger k)

end Cell

namespace Exporter

/-- In every row of an export, the column of an integer field shows the answer at the field's
path among those that the row was made from. -/
theorem integers_of_flatten (form : Form) (baseUrl : String) (submission : Submission) (root : Row)
    (ok : (ofForm form baseUrl).flatten submission = .ok root) :
    ∀ row ∈ root.withDescendants, ∃ table answers,
      BuiltFrom (ofForm form baseUrl) submission row table answers ∧
        ∀ field : Field, table.Keeps field → field.kind = .integer →
          ∃ cell, row.columns.get? (table.baseName field) = some cell ∧
            Cell.ShowsInteger (answers.get? field.path) cell := by
  intro row member
  obtain ⟨table, answers, built⟩ := (BuiltFrom.of_flatten ok).exists_of_mem_withDescendants member
  refine ⟨table, answers, built, fun field keeps kind => ?_⟩
  have valid := Layout.wellNamed_infer form table built.mem_tables
  have binding : (table.contribution field).2 =
      .scalar field.path (table.baseName field) .int := by
    simp only [Table.contribution, kind]
    rfl
  refine ⟨_, ?_, Cell.showsInteger_ofAnswer _⟩
  rw [built.columns_eq]
  exact valid.get?_cells (binding ▸ keeps.binding) List.mem_cons_self

/-- Sums of an account and of the entries in it. -/
def ledger : Form where
  idString := "ledger"
  projectId := 4
  title := "Ledger"
  fields := [⟨"sum", .integer, [], []⟩, ⟨"half", .integer, [], []⟩, ⟨"least", .integer, [], []⟩,
    ⟨"entry", .repeatGroup, [], [⟨"entry/sum", .integer, [], []⟩]⟩]

def ledgerAnswers (sum half least entry : Json) : Submission :=
  ⟨[("_id", .ofNat 1), ("sum", sum), ("half", half), ("least", least),
    ("entry", .array [.object [("entry/sum", entry)]])]⟩

def ledgerRow (sum half least entry : Cell) : Row :=
  ⟨"data", 1, none, [("sum", sum), ("half", half), ("least", least)], ["entry"],
    [⟨"entry", 4, some ⟨1, "data"⟩, [("sum", entry)], [], []⟩]⟩

/-- `2 ^ 53 + 1`, `2 ^ 53 + 1 / 2` and `-2 ^ 63` with a point, and one hundred with an exponent. -/
def ledgerSubmission : Submission :=
  ledgerAnswers (.number ⟨false, 9007199254740993, [0], none⟩)
    (.number ⟨false, 9007199254740992, [5], none⟩)
    (.number ⟨true, 9223372036854775808, [0], none⟩)
    (.number ⟨false, 1, [], some ⟨false, 2, []⟩⟩)

theorem integers_ledger :
    (ofForm ledger "").flatten ledgerSubmission =
        .ok (ledgerRow (.int 9007199254740992) (.int 9007199254740992) .null (.int 100)) ∧
      ∀ row ∈ (ledgerRow (.int 9007199254740992) (.int 9007199254740992) .null
          (.int 100)).withDescendants, ∃ table answers,
        BuiltFrom (ofForm ledger "") ledgerSubmission row table answers ∧
          ∀ field : Field, table.Keeps field → field.kind = .integer →
            ∃ cell, row.columns.get? (table.baseName field) = some cell ∧
              Cell.ShowsInteger (answers.get? field.path) cell := by
  have ok : (ofForm ledger "").flatten ledgerSubmission =
      .ok (ledgerRow (.int 9007199254740992) (.int 9007199254740992) .null (.int 100)) := by
    rw [← flattenTo_eq_flatten 2]
    decide +kernel
  exact ⟨ok, integers_of_flatten ledger "" ledgerSubmission _ ok⟩

end Exporter

end SurveyTables
