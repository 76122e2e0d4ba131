import SurveyTables.Proofs.Flatten.FirstFlaw
import SurveyTables.Proofs.Text.Numeral

/-! Which submissions cannot be flattened, and with which error. Apart from a number that is missing
or negative, only a broken repeat group makes a submission fail, and of several the first one in
depth-first order is told. -/
namespace SurveyTables

namespace Submission

/-- The number under which a submission was stored: an integer of 64 bits, as a JSON number without
a point and an exponent, or as a text in which the integer's numeral stands between blanks. -/
inductive Numbered (submission : Submission) : Int → Prop
  | number {spelled : Json.Number}
      (stored : submission.answers.get? idKey = some (.number spelled))
      (plain : spelled.fraction = [] ∧ spelled.exponent = none)
      (fits : Text.FitsInt64 spelled.signed) : Numbered submission spelled.signed
  | text {s : String} {before cs after : List Char} {n : Int}
      (stored : submission.answers.get? idKey = some (.string s))
      (around : s.toList = before ++ cs ++ after)
      (blank : ∀ c ∈ before ++ after, Text.isBlank c = true) (spells : Text.Spells cs n)
      (fits : Text.FitsInt64 n) : Numbered submission n

theorem instanceId?_eq_some_iff {submission : Submission} {n : Int} :
    submission.instanceId? = some n ↔ submission.Numbered n := by
  rw [instanceId?, Option.bind_eq_some_iff]
  constructor
  · rintro ⟨value, stored, read⟩
    cases value with
    | number spelled =>
      obtain ⟨plain, fits, rfl⟩ := Json.Number.int64?_eq_some_iff.1 read
      exact .number stored plain fits
    | string s =>
      obtain ⟨before, cs, after, around, blank, spells, fits⟩ :=
        Text.readInt64?_trim_eq_some_iff.1 read
      exact .text stored around blank spells fits
    | _ => contradiction
  · rintro (⟨stored, plain, fits⟩ | ⟨stored, around, blank, spells, fits⟩)
    · exact ⟨_, stored, Json.Number.int64?_eq_some_iff.2 ⟨plain, fits, rfl⟩⟩
    · exact ⟨_, stored,
        Text.readInt64?_trim_eq_some_iff.2 ⟨_, _, _, around, blank, spells, fits⟩⟩

end Submission

/-- Answers that hold the same repeat groups: of one outline, and with elements that hold the same
ones in turn. What else they hold may differ. -/
inductive Layout.SameGroups (layout : Layout) : Table → Keyed Json → Keyed Json → Prop
  | intro {table : Table} {answers other : Keyed Json}
      (groups : ∀ path place, (path, place) ∈ table.repeats →
        answers.outline path = other.outline path)
      (elements : ∀ path place child, (path, place) ∈ table.repeats →
        layout.table? place = some child → ∀ i members members',
          answers.elementAt? path i = some members → other.elementAt? path i = some members' →
          SameGroups layout child members members') :
      SameGroups layout table answers other

namespace Flatten

variable {exporter : Exporter} {instanceId : Int} {files files' : List Attachment}

theorem childRows_failAlike {parent : ParentLink} {ordinal : Nat} {elements others : List Element}
    (same : List.Forall₂ (Element.Match fun place members members' =>
      ∀ child, exporter.layout.table? place = some child → ∀ id parent,
        Except.FailAlike (row ⟨exporter, instanceId, files⟩ child members id parent)
          (row ⟨exporter, instanceId, files'⟩ child members' id parent)) elements others) :
    Except.FailAlike (childRows ⟨exporter, instanceId, files⟩ parent ordinal elements)
      (childRows ⟨exporter, instanceId, files'⟩ parent ordinal others) := by
  induction same generalizing ordinal with
  | nil =>
    simp only [childRows]
    exact fun error => by simp
  | cons first _ ih =>
    cases first with
    | @objects path place members members' related =>
      cases found : exporter.layout.table? place with
      | none =>
        simp only [childRows, found]
        exact ih
      | some child =>
        simp only [childRows, found]
        refine Except.failAlike_bind (related child found _ _) fun _ _ _ _ => ?_
        refine Except.failAlike_bind ih fun _ _ _ _ error => ?_
        simp [pure, Except.pure]
    | others left right =>
      rw [childRows_of_not_object left, childRows_of_not_object right]
      exact fun _ => Iff.rfl
    | notAList path =>
      simp only [childRows]
      exact fun _ => Iff.rfl

theorem row_failAlike {table : Table} {answers other : Keyed Json}
    (same : exporter.layout.SameGroups table answers other) (id : Nat)
    (parent : Option ParentLink) :
    Except.FailAlike (row ⟨exporter, instanceId, files⟩ table answers id parent)
      (row ⟨exporter, instanceId, files'⟩ table other id parent) := by
  induction same generalizing id parent with
  | @intro table answers other groups elements ih =>
    have held : List.Forall₂ (Element.Match fun place members members' =>
        ∀ child, exporter.layout.table? place = some child → ∀ id parent,
          Except.FailAlike (row ⟨exporter, instanceId, files⟩ child members id parent)
            (row ⟨exporter, instanceId, files'⟩ child members' id parent))
        (table.elements answers) (table.elements other) := by
      rw [Table.elements_eq, Table.elements_eq]
      refine Sequence.forall₂_flatMap fun bound member => ?_
      refine Binding.forall₂_match_elements (groups _ _ member) ?_
      intro i members members' left right child found
      exact ih _ _ child member found i members members' left right
    rw [row, row]
    refine Except.failAlike_bind (childRows_failAlike held) fun _ _ _ _ error => ?_
    simp [pure, Except.pure]

end Flatten

theorem Flaw.eq_of_error {flaw flaw' : Flaw} {instanceId instanceId' : Int}
    {ordinal ordinal' : Nat}
    (same : flaw.error instanceId ordinal = flaw'.error instanceId' ordinal') :
    flaw = flaw' ∧ instanceId = instanceId' := by
  cases flaw <;> cases flaw' <;> cases same <;> exact ⟨rfl, rfl⟩

theorem Flaw.error_ne_missingInstanceId (flaw : Flaw) (instanceId : Int) (ordinal : Nat) :
    flaw.error instanceId ordinal ≠ .missingInstanceId := by
  cases flaw <;> simp [error]

theorem Flaw.error_ne_negativeInstanceId (flaw : Flaw) (instanceId n : Int) (ordinal : Nat) :
    flaw.error instanceId ordinal ≠ .negativeInstanceId n := by
  cases flaw <;> simp [error]

namespace Exporter

/-- What becomes of a submission, and when. -/
inductive Outcome (layout : Layout) (submission : Submission) : Except FlattenError Row → Prop
  | unnumbered (unknown : submission.instanceId? = none) :
      Outcome layout submission (.error .missingInstanceId)
  | negative {n : Int} (known : submission.instanceId? = some n) (below : n < 0) :
      Outcome layout submission (.error (.negativeInstanceId n))
  | broken {n : Int} {error : FlattenError} (known : submission.instanceId? = some n)
      (proper : 0 ≤ n) (tells : layout.Tells n layout.root submission.answers error) :
      Outcome layout submission (.error error)
  | made {n : Int} {root : Row} (known : submission.instanceId? = some n) (proper : 0 ≤ n)
      (sound : ∀ location flaw, ¬ layout.BrokenAt layout.root submission.answers location flaw) :
      Outcome layout submission (.ok root)

theorem outcome_flatten (form : Form) (baseUrl : String) (submission : Submission) :
    Outcome (ofForm form baseUrl).layout submission ((ofForm form baseUrl).flatten submission) := by
  unfold flatten
  split
  · next unknown => exact .unnumbered unknown
  · next n known => exact .negative known (Int.negSucc_lt_zero n)
  · next id known =>
    obtain ⟨sound, tells⟩ :=
      @Flatten.broken_of_row ⟨ofForm form baseUrl, id, submission.attachments⟩ form rfl
        (Layout.infer form).root submission.answers (Layout.root_mem_tables _) id none
    have proper : (0 : Int) ≤ id := Int.natCast_nonneg id
    cases made : Flatten.row ⟨ofForm form baseUrl, id, submission.attachments⟩
        (ofForm form baseUrl).layout.root submission.answers id none with
    | ok root => exact .made known proper (sound root made)
    | error error => exact .broken known proper (tells error made)

namespace Outcome

variable {layout : Layout} {submission : Submission} {result : Except FlattenError Row}

theorem eq_missingInstanceId_iff (outcome : Outcome layout submission result) :
    result = .error .missingInstanceId ↔ submission.instanceId? = none := by
  cases outcome with
  | unnumbered unknown => simp [unknown]
  | negative known => simp [known]
  | broken known _ tells =>
    obtain ⟨-, -, -⟩ := tells
    simp [known, Flaw.error_ne_missingInstanceId]
  | made known => simp [known]

theorem eq_negativeInstanceId_iff (outcome : Outcome layout submission result) (n : Int) :
    result = .error (.negativeInstanceId n) ↔ submission.instanceId? = some n ∧ n < 0 := by
  have proper_iff {m : Int} (proper : 0 ≤ m) : ¬ (some m = some n ∧ n < 0) := by
    rintro ⟨⟨⟩, below⟩
    omega
  cases outcome with
  | unnumbered unknown => simp [unknown]
  | negative known below =>
    rw [known, Except.error.injEq, FlattenError.negativeInstanceId.injEq, Option.some.injEq]
    exact ⟨fun same => ⟨same, same ▸ below⟩, And.left⟩
  | broken known proper tells =>
    obtain ⟨-, -, -⟩ := tells
    simp only [known, proper_iff proper, Except.error.injEq, Flaw.error_ne_negativeInstanceId]
  | made known proper => simp only [known, proper_iff proper, reduceCtorEq]

/-- Under a number that is not negative a submission becomes a row, if nothing is broken. -/
theorem exists_ok_or_tells (outcome : Outcome layout submission result) {n : Int}
    (known : submission.instanceId? = some n) (proper : 0 ≤ n) :
    (∃ root, result = .ok root ∧
      ∀ location flaw, ¬ layout.BrokenAt layout.root submission.answers location flaw) ∨
    ∃ error, result = .error error ∧ layout.Tells n layout.root submission.answers error := by
  cases outcome with
  | unnumbered unknown =>
    rw [unknown] at known
    contradiction
  | negative known' below =>
    obtain rfl := Option.some.inj (known.symm.trans known')
    omega
  | broken known' _ tells =>
    obtain rfl := Option.some.inj (known.symm.trans known')
    exact .inr ⟨_, rfl, tells⟩
  | made _ _ sound => exact .inl ⟨_, rfl, sound⟩

/-- A flaw is told of if it is what is broken first. -/
theorem exists_eq_error_iff (outcome : Outcome layout submission result) (n : Int) (flaw : Flaw) :
    (∃ ordinal, result = .error (flaw.error n ordinal)) ↔ submission.instanceId? = some n ∧ 0 ≤ n ∧
      ∃ location, layout.FirstBrokenAt layout.root submission.answers location flaw := by
  constructor
  · rintro ⟨ordinal, failed⟩
    cases outcome with
    | unnumbered =>
      exact absurd (Except.error.inj failed).symm (flaw.error_ne_missingInstanceId _ _)
    | negative =>
      exact absurd (Except.error.inj failed).symm (flaw.error_ne_negativeInstanceId _ _ _)
    | broken known proper tells =>
      obtain ⟨reached, breaks, first⟩ := tells
      obtain ⟨rfl, rfl⟩ := Flaw.eq_of_error (Except.error.inj failed)
      exact ⟨known, proper, _, first⟩
    | made => contradiction
  · rintro ⟨known, proper, location, first⟩
    rcases outcome.exists_ok_or_tells known proper with ⟨_, -, sound⟩ | ⟨error, rfl, tells⟩
    · exact absurd first.broken (sound location flaw)
    · obtain ⟨reached, breaks, first'⟩ := tells
      obtain ⟨-, rfl⟩ := first.unique first'
      exact ⟨_, rfl⟩

theorem exists_eq_ok_iff (outcome : Outcome layout submission result) :
    (∃ root, result = .ok root) ↔ (∃ n, submission.instanceId? = some n ∧ 0 ≤ n) ∧
      ∀ location flaw, ¬ layout.BrokenAt layout.root submission.answers location flaw := by
  constructor
  · rintro ⟨root, rfl⟩
    cases outcome with
    | made known proper sound => exact ⟨⟨_, known, proper⟩, sound⟩
  · rintro ⟨⟨n, known, proper⟩, sound⟩
    rcases outcome.exists_ok_or_tells known proper with ⟨root, rfl, -⟩ | ⟨error, -, tells⟩
    · exact ⟨root, rfl⟩
    · obtain ⟨-, -, first⟩ := tells
      exact absurd first.broken (sound _ _)

theorem exists_eq_error_iff_exists (outcome : Outcome layout submission result) :
    (∃ flaw n ordinal, result = .error (Flaw.error n ordinal flaw)) ↔
      (∃ n, submission.instanceId? = some n ∧ 0 ≤ n) ∧ ∃ location flaw,
        layout.BrokenAt layout.root submission.answers location flaw := by
  constructor
  · rintro ⟨flaw, n, failed⟩
    obtain ⟨known, proper, location, first⟩ := (outcome.exists_eq_error_iff n flaw).1 failed
    exact ⟨⟨n, known, proper⟩, location, flaw, first.broken⟩
  · rintro ⟨⟨n, known, proper⟩, location, flaw, broken⟩
    rcases outcome.exists_ok_or_tells known proper with ⟨_, -, sound⟩ | ⟨error, rfl, tells⟩
    · exact absurd broken (sound location flaw)
    · obtain ⟨-, -, -⟩ := tells
      exact ⟨_, _, _, rfl⟩

end Outcome

/-- Answers that are the same in their repeat groups, under the same number, fail alike. -/
theorem flatten_failAlike {exporter : Exporter} {first second : Submission}
    (numbers : first.instanceId? = second.instanceId?)
    (same : exporter.layout.SameGroups exporter.layout.root first.answers second.answers) :
    Except.FailAlike (exporter.flatten first) (exporter.flatten second) := by
  simp only [flatten, numbers]
  split
  · exact fun _ => Iff.rfl
  · exact fun _ => Iff.rfl
  · exact Flatten.row_failAlike same _ _

/-- Exactly which submissions an export refuses, and how. -/
structure Refusals (exporter : Exporter) (submission : Submission) : Prop where
  unnumbered : exporter.flatten submission = .error .missingInstanceId ↔
    ∀ n, ¬ submission.Numbered n
  negative : ∀ n, exporter.flatten submission = .error (.negativeInstanceId n) ↔
    submission.Numbered n ∧ n < 0
  notAList : ∀ n path, exporter.flatten submission = .error (.malformedRepeat n path) ↔
    submission.Numbered n ∧ 0 ≤ n ∧ ∃ location,
      exporter.layout.FirstBrokenAt exporter.layout.root submission.answers location
        (.notAList path)
  notAnObject : ∀ n path,
    (∃ ordinal, exporter.flatten submission = .error (.malformedElement n path ordinal)) ↔
      submission.Numbered n ∧ 0 ≤ n ∧ ∃ location,
        exporter.layout.FirstBrokenAt exporter.layout.root submission.answers location
          (.notAnObject path)
  malformed : (∃ flaw n ordinal, exporter.flatten submission = .error (Flaw.error n ordinal flaw)) ↔
    (∃ n, submission.Numbered n ∧ 0 ≤ n) ∧ ∃ location flaw,
      exporter.layout.BrokenAt exporter.layout.root submission.answers location flaw
  otherwise : (∃ root, exporter.flatten submission = .ok root) ↔
    (∃ n, submission.Numbered n ∧ 0 ≤ n) ∧ ∀ location flaw,
      ¬ exporter.layout.BrokenAt exporter.layout.root submission.answers location flaw
  /-- nothing but the number and what the repeat groups hold makes a submission fail -/
  unread : ∀ other : Submission, (∀ n, submission.Numbered n ↔ other.Numbered n) →
    exporter.layout.SameGroups exporter.layout.root submission.answers other.answers →
    ∀ error, exporter.flatten submission = .error error ↔ exporter.flatten other = .error error

theorem refusals_ofForm (form : Form) (baseUrl : String) (submission : Submission) :
    Refusals (ofForm form baseUrl) submission := by
  have outcome := outcome_flatten form baseUrl submission
  have numbered (n : Int) : submission.Numbered n ↔ submission.instanceId? = some n :=
    Submission.instanceId?_eq_some_iff.symm
  constructor
  case unnumbered =>
    rw [outcome.eq_missingInstanceId_iff, Option.eq_none_iff_forall_ne_some]
    simp only [numbered, ne_eq]
  case negative =>
    simpa only [numbered] using outcome.eq_negativeInstanceId_iff
  case notAList =>
    intro n path
    simpa only [numbered, Flaw.error, exists_const] using
      outcome.exists_eq_error_iff n (.notAList path)
  case notAnObject =>
    intro n path
    simpa only [numbered, Flaw.error] using outcome.exists_eq_error_iff n (.notAnObject path)
  case malformed => simpa only [numbered] using outcome.exists_eq_error_iff_exists
  case otherwise => simpa only [numbered] using outcome.exists_eq_ok_iff
  case unread =>
    intro other same groups
    refine flatten_failAlike (Option.ext fun n => ?_) groups
    rw [Submission.instanceId?_eq_some_iff, Submission.instanceId?_eq_some_iff, same n]

/-- A repeat group that stands below itself, and one behind it. -/
def kinship : Form where
  idString := "kinship"
  projectId := 1
  title := "Kinship"
  fields := [⟨"kin", .repeatGroup, [],
      [⟨"kin", .repeatGroup, [], []⟩, ⟨"pet", .repeatGroup, [], []⟩]⟩,
    ⟨"car", .repeatGroup, [], []⟩]

def kinshipAnswers : Submission :=
  ⟨[("_id", .string " 7 "), ("car", .array [.ofNat 5]),
    ("kin", .array [.object [], .object [("pet", .ofNat 3)]])]⟩

/-- Of two broken groups the one below the group that is declared first is told. -/
theorem refusals_kinship :
    (ofForm kinship "").flatten kinshipAnswers = .error (.malformedRepeat 7 "pet") ∧
      kinshipAnswers.Numbered 7 ∧ ∃ location, location.Precedes [⟨1, 0⟩] ∧
        (ofForm kinship "").layout.FirstBrokenAt (ofForm kinship "").layout.root
          kinshipAnswers.answers location (.notAList "pet") := by
  have failed : (ofForm kinship "").flatten kinshipAnswers = .error (.malformedRepeat 7 "pet") := by
    rw [← flattenTo_eq_flatten 2]
    decide +kernel
  have groups : (ofForm kinship "").layout.root.repeats = [("kin", 1), ("car", 3)] := by
    decide +kernel
  have car : (ofForm kinship "").layout.BrokenAt (ofForm kinship "").layout.root
      kinshipAnswers.answers [⟨1, 0⟩] (.notAnObject "car") :=
    .intro (.here _ _) (.notAnObject (by rw [groups]; rfl) rfl rfl (by simp [Json.ofNat]))
  obtain ⟨numbered, -, location, first⟩ :=
    ((refusals_ofForm kinship "" kinshipAnswers).notAList 7 "pet").1 failed
  refine ⟨failed, numbered, location, ?_, first⟩
  rcases first.first _ _ car with rfl | precedes
  · have same := first.broken.unique car
    contradiction
  · exact precedes

end Exporter

end SurveyTables
