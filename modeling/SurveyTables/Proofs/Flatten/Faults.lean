import SurveyTables.Proofs.Flatten.Provenance

/-! The errors of flattening. Whatever goes wrong below a submission is told of that submission: an
error holds the number of the submission, if the submission has one. -/
namespace SurveyTables

theorem Table.depth_lt_of_mem_elements {table : Table} {answers members : Keyed Json}
    {path : String} {place : Nat}
    (listed : .item path place (.object members) ∈ table.elements answers) :
    Json.depthOfMembers members < Json.depthOfMembers answers := by
  have bound := Element.maxDepth_le_iff.1 (table.maxDepth_elements_le answers) _ _ _ listed
  rw [Json.depth] at bound
  exact bound

/-- What holds of a table and answers when it holds of every object among the elements, with any
table, holds of all. -/
@[elab_as_elim]
theorem answers_induction {P : Table → Keyed Json → Prop}
    (step : ∀ table answers, (∀ path place members child,
      .item path place (.object members) ∈ table.elements answers → P child members) →
      P table answers) (table : Table) (answers : Keyed Json) : P table answers := by
  induction h : Json.depthOfMembers answers using Nat.strongRecOn generalizing table answers
  next depth ih =>
  subst h
  refine step table answers fun path place members child listed => ?_
  exact ih _ (Table.depth_lt_of_mem_elements listed) child members rfl

namespace FlattenError

def instanceId? : FlattenError → Option Int
  | malformedRepeat instanceId _ | malformedElement instanceId _ _
  | negativeInstanceId instanceId => some instanceId
  | missingInstanceId => none

end FlattenError

namespace Flatten

variable {origin : Origin}

/-- The error of an element that makes no row under its ordinal. -/
inductive Fails (origin : Origin) (parent : ParentLink) : Element × Nat → FlattenError → Prop
  | notAList (path : String) (ordinal : Nat) :
      Fails origin parent (.notAList path, ordinal) (.malformedRepeat origin.instanceId path)
  | notAnObject {path : String} {place ordinal : Nat} {value : Json}
      (plain : ∀ members, value ≠ .object members) :
      Fails origin parent (.item path place value, ordinal)
        (.malformedElement origin.instanceId path ordinal)
  | below {path : String} {place ordinal : Nat} {members : Keyed Json} {child : Table}
      {error : FlattenError} (found : origin.exporter.layout.table? place = some child)
      (call : row origin child members (RowId.pair parent.id ordinal) (some parent) =
        .error error) :
      Fails origin parent (.item path place (.object members), ordinal) error

/-- Elements fail at the first of them or behind it. The first then makes its row, unless it leads
to no table. -/
theorem childRows_cons_eq_error {parent : ParentLink} {ordinal : Nat} {element : Element}
    {rest : List Element} {error : FlattenError}
    (failed : childRows origin parent ordinal (element :: rest) = .error error) :
    Fails origin parent (element, ordinal) error ∨
      childRows origin parent (ordinal + 1) rest = .error error ∧
        ((∃ made, Makes origin parent (element, ordinal) made) ∨
          ∃ path place value, element = .item path place value ∧
            origin.exporter.layout.table? place = none) := by
  cases element with
  | notAList path =>
    rw [childRows] at failed
    cases failed
    exact .inl (.notAList path ordinal)
  | item path place value =>
    cases value with
    | object members =>
      cases found : origin.exporter.layout.table? place with
      | none =>
        simp only [childRows, found] at failed
        exact .inr ⟨failed, .inr ⟨path, place, _, rfl, found⟩⟩
      | some child =>
        simp only [childRows, found, Except.bind_eq_error, pure, Except.pure] at failed
        rcases failed with here | ⟨made, call, later | ⟨_, -, impossible⟩⟩
        · exact .inl (.below found here)
        · exact .inr ⟨later, .inl ⟨made, .item found call⟩⟩
        · contradiction
    | _ =>
      simp only [childRows] at failed
      cases failed
      exact .inl (.notAnObject (by simp))

theorem instanceId?_of_childRows {parent : ParentLink} {ordinal : Nat} {elements : List Element}
    {error : FlattenError}
    (each : ∀ path place members child, .item path place (.object members) ∈ elements →
      ∀ id parent error, row origin child members id parent = .error error →
        error.instanceId? = some origin.instanceId)
    (failed : childRows origin parent ordinal elements = .error error) :
    error.instanceId? = some origin.instanceId := by
  induction elements generalizing ordinal with
  | nil =>
    rw [childRows] at failed
    contradiction
  | cons element rest ih =>
    rcases childRows_cons_eq_error failed with here | ⟨later, -⟩
    · cases here with
      | notAList => rfl
      | notAnObject => rfl
      | below _ call => exact each _ _ _ _ List.mem_cons_self _ _ _ call
    · exact ih (fun path place members child listed =>
        each path place members child (List.mem_cons_of_mem _ listed)) later

theorem instanceId?_of_row (table : Table) (answers : Keyed Json) :
    ∀ id parent error, row origin table answers id parent = .error error →
      error.instanceId? = some origin.instanceId := by
  refine answers_induction (fun table answers ih => ?_) table answers
  intro id parent error failed
  rw [row, Except.bind_eq_error] at failed
  rcases failed with below | ⟨_, -, impossible⟩
  · exact instanceId?_of_childRows ih below
  · contradiction

end Flatten

theorem Exporter.instanceId?_of_flatten {exporter : Exporter} {submission : Submission}
    {error : FlattenError} (failed : exporter.flatten submission = .error error) :
    error.instanceId? = submission.instanceId? := by
  unfold flatten at failed
  split at failed
  · next missing =>
    cases failed
    exact missing.symm
  · next n negative =>
    cases failed
    exact negative.symm
  · next id known =>
    rw [Flatten.instanceId?_of_row _ _ _ _ _ failed, known]
    rfl

end SurveyTables
