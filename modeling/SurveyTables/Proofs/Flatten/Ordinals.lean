import Mathlib.Data.List.Lex
import SurveyTables.Proofs.Flatten.Refusals

/-! The ordinal of an error. The elements of a row are counted on from one repeat group to the next,
and an error names an element by this count. It is the element's place in the list of its own group
as long as the groups before hold nothing. -/
namespace SurveyTables

theorem Json.isObject_eq_false_iff {value : Json} :
    value.isObject = false ↔ ∀ members, value ≠ .object members := by
  cases value <;> simp [isObject, members?]

theorem Location.Precedes.append_left {location other : Location}
    (precedes : location.Precedes other) (steps : Location) :
    (steps ++ location).Precedes (steps ++ other) :=
  List.Lex.append_left Step.Before precedes steps

theorem Table.heldBefore_eq_zero_iff {table : Table} {answers : Keyed Json} {group : Nat} :
    table.heldBefore answers group = 0 ↔
      ∀ earlier ∈ table.repeats.take group, answers.held earlier.1 = 0 := by
  rw [heldBefore, List.sum_eq_zero_iff_forall_eq_nat, List.forall_mem_map]

namespace Layout

variable {layout : Layout} {table : Table} {answers : Keyed Json}

/-- The element at which a list breaks first is the first of the list that is not an object. -/
theorem FirstBrokenAt.findIdx?_eq {last : Table} {inside : Keyed Json} {steps : Location}
    {group position place : Nat} {path : String} {items : List Json} {value : Json}
    (first : layout.FirstBrokenAt table answers (steps ++ [⟨group, position⟩]) (.notAnObject path))
    (reached : layout.Reaches table answers steps last inside)
    (declared : last.repeats[group]? = some (path, place))
    (stored : inside.get? path = some (.array items)) (listed : items[position]? = some value)
    (plain : ∀ members, value ≠ .object members) :
    items.findIdx? (fun item => !item.isObject) = some position := by
  obtain ⟨within, rfl⟩ := List.getElem?_eq_some_iff.1 listed
  refine List.findIdx?_eq_some_iff_getElem.2 ⟨within, ?_, ?_⟩
  · rw [Bool.not_eq_true', Json.isObject_eq_false_iff]
    exact plain
  · intro i earlier broken
    rw [Bool.not_eq_true', Json.isObject_eq_false_iff] at broken
    have breaks : last.Breaks inside ⟨group, i⟩ (.notAnObject path) :=
      .notAnObject declared stored (List.getElem?_eq_getElem _) broken
    have before : Location.Precedes [⟨group, i⟩] [⟨group, position⟩] :=
      .rel (.inr ⟨rfl, earlier⟩)
    rcases first.first _ _ (.intro reached breaks) with same | precedes
    · simp only [List.append_cancel_left_eq, List.cons.injEq, Location.Step.mk.injEq] at same
      omega
    · exact (before.append_left steps).asymm precedes

/-- The element to which the ordinal of an error points: the first that is not an object in the
list that breaks first. The ordinal counts the elements of the groups before as well. -/
inductive Points (layout : Layout) (table : Table) (answers : Keyed Json) (path : String)
    (ordinal : Nat) : Prop
  | intro {last : Table} {inside : Keyed Json} {steps : Location} {group position place : Nat}
      {items : List Json} (reached : layout.Reaches table answers steps last inside)
      (first : layout.FirstBrokenAt table answers (steps ++ [⟨group, position⟩])
        (.notAnObject path))
      (declared : last.repeats[group]? = some (path, place))
      (stored : inside.get? path = some (.array items))
      (found : items.findIdx? (fun item => !item.isObject) = some position)
      (counted : ordinal = last.heldBefore inside group + (position + 1))
      (level : ordinal = position + 1 ↔
        ∀ earlier ∈ last.repeats.take group, inside.held earlier.1 = 0) :
      Points layout table answers path ordinal

theorem points_of_tells {n n' : Int} {path : String} {ordinal : Nat} {error : FlattenError}
    (tells : layout.Tells n table answers error)
    (told : error = .malformedElement n' path ordinal) :
    layout.Points table answers path ordinal := by
  obtain @⟨last, inside, steps, step, flaw, reached, breaks, first⟩ := tells
  cases breaks with
  | notAList => contradiction
  | @notAnObject group position place path items value declared stored listed plain =>
    cases told
    have found := first.findIdx?_eq reached declared stored listed plain
    refine .intro reached first declared stored found rfl ?_
    rw [← Table.heldBefore_eq_zero_iff]
    dsimp only
    omega

end Layout

namespace Exporter

theorem points_of_flatten {form : Form} {baseUrl : String} {submission : Submission} {n : Int}
    {path : String} {ordinal : Nat}
    (failed : (ofForm form baseUrl).flatten submission =
      .error (.malformedElement n path ordinal)) :
    (ofForm form baseUrl).layout.Points (ofForm form baseUrl).layout.root submission.answers path
      ordinal := by
  have outcome := outcome_flatten form baseUrl submission
  rw [failed] at outcome
  cases outcome with
  | broken _ _ tells =>
    exact Layout.points_of_tells tells rfl

def orchard : Form where
  idString := "orchard"
  projectId := 1
  title := "Orchard"
  fields := [⟨"a", .repeatGroup, [], []⟩, ⟨"b", .repeatGroup, [], []⟩]

def orchardAnswers : Submission :=
  ⟨[("_id", .ofNat 1), ("a", .array [.object []]), ("b", .array [.ofNat 5])]⟩

/-- The only element of a list is told of as the second one. -/
theorem points_orchard :
    (ofForm orchard "").flatten orchardAnswers = .error (.malformedElement 1 "b" 2) ∧
      orchardAnswers.answers.get? "b" = some (.array [.ofNat 5]) ∧
      [Json.ofNat 5].findIdx? (fun item => !item.isObject) = some 0 ∧
      (ofForm orchard "").layout.Points (ofForm orchard "").layout.root orchardAnswers.answers
        "b" 2 := by
  have failed : (ofForm orchard "").flatten orchardAnswers =
      .error (.malformedElement 1 "b" 2) := by
    rw [← flattenTo_eq_flatten 2]
    decide +kernel
  exact ⟨failed, rfl, rfl, points_of_flatten failed⟩

end Exporter

end SurveyTables
