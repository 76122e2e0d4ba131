import Mathlib.Logic.Relation
import SurveyTables.Flatten
import SurveyTables.Proofs.Layout.Growth

/-! Forms that differ in groups and notes alone. A group only gathers fields for the screen, and a
note asks for nothing: with the fields of a group in its place, or without the note, a form is
exported as before, whatever the group or the note holds. -/
namespace SurveyTables

/-- One field less among fields that stand side by side, or in what one of them holds. -/
inductive Field.Simplifies : List Field → List Field → Prop
  /-- a group is replaced by its fields -/
  | group (before after : List Field) (path : String) (choices : List Choice)
      (children : List Field) :
      Simplifies (before ++ ⟨path, .group, choices, children⟩ :: after)
        (before ++ children ++ after)
  /-- a note is taken out, with all that is below it -/
  | note (before after : List Field) (path : String) (choices : List Choice)
      (children : List Field) :
      Simplifies (before ++ ⟨path, .note, choices, children⟩ :: after) (before ++ after)
  | within {children simpler : List Field} (inner : Simplifies children simpler)
      (before after : List Field) (path : String) (kind : FieldKind) (choices : List Choice) :
      Simplifies (before ++ ⟨path, kind, choices, children⟩ :: after)
        (before ++ ⟨path, kind, choices, simpler⟩ :: after)

/-- A form without one of its groups or notes. -/
inductive Form.Simplifies : Form → Form → Prop
  | fields {fields simpler : List Field} (step : Field.Simplifies fields simpler)
      (idString : String) (projectId : Int) (title : String) :
      Simplifies ⟨idString, projectId, title, fields⟩ ⟨idString, projectId, title, simpler⟩

namespace Field

theorem listEntries_cons (inside : Option String) (field : Field) (fields : List Field) :
    listEntries inside (field :: fields) = entries inside field ++ listEntries inside fields := rfl

/-- The walk sees what is below a field only as the walk through it. -/
theorem entries_congr {children simpler : List Field}
    (same : ∀ inside, listEntries inside children = listEntries inside simpler)
    (inside : Option String) (path : String) (kind : FieldKind) (choices : List Choice) :
    entries inside ⟨path, kind, choices, children⟩ =
      entries inside ⟨path, kind, choices, simpler⟩ := by
  cases kind with
  | group => exact same inside
  | repeatGroup => rw [entries_repeatGroup, entries_repeatGroup, same (some path)]
  | _ => rfl

/-- A step leaves no trace in the walk, in whatever table it is met. -/
theorem Simplifies.listEntries_eq {fields simpler : List Field}
    (step : Simplifies fields simpler) (inside : Option String) :
    listEntries inside fields = listEntries inside simpler := by
  induction step generalizing inside with
  | group before after path choices children =>
    have spliced : entries inside ⟨path, .group, choices, children⟩ =
        listEntries inside children := rfl
    rw [listEntries_append, listEntries_cons, spliced, listEntries_append, listEntries_append,
      List.append_assoc]
  | note before after path choices children =>
    have silent : entries inside ⟨path, .note, choices, children⟩ = [] := rfl
    rw [listEntries_append, listEntries_cons, silent, listEntries_append, List.nil_append]
  | within inner before after path kind choices ih =>
    rw [listEntries_append, listEntries_cons, entries_congr ih, listEntries_append,
      listEntries_cons]

end Field

/-- What two forms have in common when no export tells them apart. -/
structure Form.ExportedAlike (form other : Form) : Prop where
  layout : Layout.infer form = Layout.infer other
  flatten : ∀ baseUrl submission,
    (Exporter.ofForm form baseUrl).flatten submission =
      (Exporter.ofForm other baseUrl).flatten submission

namespace Form

theorem Simplifies.infer_eq {form other : Form} (step : Simplifies form other) :
    Layout.infer form = Layout.infer other := by
  cases step with
  | fields step idString projectId title =>
    rw [Layout.infer_eq_foldl, Layout.infer_eq_foldl, entries, entries, step.listEntries_eq none]
    rfl

/-- However many groups are dissolved and notes taken out, one after another and at whatever depth,
the form is exported as before. -/
theorem exportedAlike_of_simplifies {form other : Form}
    (steps : Relation.ReflTransGen Simplifies form other) : ExportedAlike form other := by
  have layout : Layout.infer form = Layout.infer other := by
    induction steps with
    | refl => rfl
    | tail _ step ih => exact ih.trans step.infer_eq
  refine ⟨layout, fun baseUrl submission => ?_⟩
  rw [Exporter.ofForm, Exporter.ofForm, layout]

def firstName : Field := ⟨"people/name/first", .text, [], []⟩

def peopleCount : Field := ⟨"people_2", .integer, [], []⟩

/-- The people of a household on one page, each on a page of their own with a hint. -/
def pagedHousehold : Form where
  idString := "household"
  projectId := 1
  title := "Household"
  fields := [
    ⟨"page", .group, [], [
      ⟨"people", .repeatGroup, [], [
        ⟨"people/name", .group, [], [firstName]⟩,
        ⟨"people/hint", .note, [], [firstName]⟩]⟩]⟩,
    peopleCount]

def plainHousehold : Form :=
  { pagedHousehold with fields := [⟨"people", .repeatGroup, [], [firstName]⟩, peopleCount] }

theorem simplifies_household :
    Relation.ReflTransGen Simplifies pagedHousehold plainHousehold := by
  have person : Relation.ReflTransGen Field.Simplifies
      [⟨"people/name", .group, [], [firstName]⟩, ⟨"people/hint", .note, [], [firstName]⟩]
      [firstName] :=
    (Relation.ReflTransGen.single (.group [] _ _ _ _)).tail (.note [firstName] [] _ _ _)
  have page := person.lift
    (fun people => [⟨"page", .group, [], [⟨"people", .repeatGroup, [], people⟩]⟩, peopleCount])
    fun _ _ step =>
      (step.within [] [] "people" .repeatGroup []).within [] [peopleCount] "page" .group []
  have fields := page.tail (.group [] [peopleCount] _ _ _)
  exact fields.lift (Form.mk "household" 1 "Household") fun _ _ step =>
    Simplifies.fields step "household" 1 "Household"

theorem exportedAlike_household :
    Relation.ReflTransGen Simplifies pagedHousehold plainHousehold ∧
      ExportedAlike pagedHousehold plainHousehold ∧
      (Layout.infer pagedHousehold).names = ["data", "people"] :=
  ⟨simplifies_household, exportedAlike_of_simplifies simplifies_household, by decide +kernel⟩

end Form

end SurveyTables
