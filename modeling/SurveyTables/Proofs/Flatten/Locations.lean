import SurveyTables.Proofs.Flatten.Faults
import SurveyTables.Proofs.Flatten.Visibility

/-! Where the repeat groups of a submission are broken. A location is given by the steps that lead
down to it from the answers at the root. A walk that goes through the groups of an object in the
order of their declaration, and through each element before the next one, comes to locations in
the order of the first step in which they differ. -/
namespace SurveyTables

namespace Location

/-- A repeat group of the table of an object, by its number among the groups of the table, and an
element of the list that the object holds for it. Both are counted from nought. -/
structure Step where
  group : Nat
  element : Nat
deriving DecidableEq

def Step.Before (step other : Step) : Prop :=
  step.group < other.group ∨ step.group = other.group ∧ step.element < other.element

theorem Step.before_or_eq_or_before (step other : Step) :
    step.Before other ∨ step = other ∨ other.Before step := by
  obtain ⟨group, element⟩ := step
  obtain ⟨group', element'⟩ := other
  simp only [Before, mk.injEq]
  omega

theorem Step.Before.asymm {step other : Step} (before : step.Before other) :
    ¬ other.Before step := by
  unfold Before at *
  omega

end Location

/-- The steps from the answers of a submission to an element below them. -/
abbrev Location := List Location.Step

def Location.Precedes : Location → Location → Prop := List.Lex Location.Step.Before

theorem Location.Precedes.asymm {location other : Location} (precedes : location.Precedes other) :
    ¬ other.Precedes location :=
  List.lex_asymm Step.Before.asymm precedes

/-- What is wrong with a repeat group: it holds something other than a list, or a list in which
something other than an object stands. -/
inductive Flaw where
  | notAList (path : String)
  | notAnObject (path : String)
deriving DecidableEq

/-- A repeat group of a table is broken in the answers. A group that holds no list is broken as a
whole, and counts as broken where its first element would be. -/
inductive Table.Breaks (table : Table) (answers : Keyed Json) : Location.Step → Flaw → Prop
  | notAList {group place : Nat} {path : String} {value : Json}
      (declared : table.repeats[group]? = some (path, place))
      (stored : answers.get? path = some value) (answered : value ≠ .null)
      (unlisted : ∀ items, value ≠ .array items) : Breaks table answers ⟨group, 0⟩ (.notAList path)
  | notAnObject {group element place : Nat} {path : String} {items : List Json} {value : Json}
      (declared : table.repeats[group]? = some (path, place))
      (stored : answers.get? path = some (.array items)) (listed : items[element]? = some value)
      (plain : ∀ members, value ≠ .object members) :
      Breaks table answers ⟨group, element⟩ (.notAnObject path)

namespace Layout

/-- The objects below an object, with the tables that rows are made for from them: each is an
element of a repeat group that is declared in the table of the object above. -/
inductive Reaches (layout : Layout) : Table → Keyed Json → Location → Table → Keyed Json → Prop
  | here (table : Table) (answers : Keyed Json) : Reaches layout table answers [] table answers
  | into {table child last : Table} {answers members inside : Keyed Json} {step : Location.Step}
      {later : Location} {path : String} {place : Nat}
      (declared : table.repeats[step.group]? = some (path, place))
      (found : layout.table? place = some child)
      (stored : answers.elementAt? path step.element = some members)
      (onwards : Reaches layout child members later last inside) :
      Reaches layout table answers (step :: later) last inside

/-- A repeat group is broken at a location, in the answers themselves or in an object that is
reached through the groups above. -/
inductive BrokenAt (layout : Layout) (table : Table) (answers : Keyed Json) :
    Location → Flaw → Prop
  | intro {last : Table} {inside : Keyed Json} {steps : Location} {step : Location.Step}
      {flaw : Flaw} (reached : layout.Reaches table answers steps last inside)
      (breaks : last.Breaks inside step flaw) : BrokenAt layout table answers (steps ++ [step]) flaw

/-- The first location in depth-first order at which a repeat group is broken. -/
structure FirstBrokenAt (layout : Layout) (table : Table) (answers : Keyed Json)
    (location : Location) (flaw : Flaw) : Prop where
  broken : layout.BrokenAt table answers location flaw
  first : ∀ other flaw', layout.BrokenAt table answers other flaw' →
    other = location ∨ location.Precedes other

end Layout

inductive Element.Flawed : Element → Flaw → Prop
  | notAList (path : String) : Flawed (.notAList path) (.notAList path)
  | notAnObject {path : String} {place : Nat} {value : Json}
      (plain : ∀ members, value ≠ .object members) :
      Flawed (.item path place value) (.notAnObject path)

theorem Element.Flawed.unique {element : Element} {flaw flaw' : Flaw}
    (flawed : element.Flawed flaw) (flawed' : element.Flawed flaw') : flaw = flaw' := by
  cases flawed <;> cases flawed' <;> rfl

theorem Element.not_flawed_object {path : String} {place : Nat} {members : Keyed Json}
    {flaw : Flaw} : ¬ (item path place (.object members)).Flawed flaw := by
  intro flawed
  cases flawed with
  | notAnObject plain => exact plain members rfl

/-- A repeat group is broken at an element or, by further steps, below it. -/
inductive Element.BrokenAt (layout : Layout) : Element → Location → Flaw → Prop
  | here {element : Element} {flaw : Flaw} (flawed : element.Flawed flaw) :
      BrokenAt layout element [] flaw
  | into {path : String} {place : Nat} {members : Keyed Json} {child : Table}
      {later : Location} {flaw : Flaw} (found : layout.table? place = some child)
      (broken : layout.BrokenAt child members later flaw) :
      BrokenAt layout (.item path place (.object members)) later flaw

/-- The first location at or below an element at which a repeat group is broken. -/
structure Element.FirstBrokenAt (layout : Layout) (element : Element) (later : Location)
    (flaw : Flaw) : Prop where
  broken : element.BrokenAt layout later flaw
  first : ∀ other flaw', element.BrokenAt layout other flaw' →
    other = later ∨ later.Precedes other

namespace Element

theorem firstBrokenAt_nil {layout : Layout} {element : Element} {flaw : Flaw}
    (flawed : element.Flawed flaw) : element.FirstBrokenAt layout [] flaw where
  broken := .here flawed
  first := by
    intro other flaw' broken
    cases broken with
    | here => exact .inl rfl
    | into => exact absurd flawed not_flawed_object

theorem firstBrokenAt_object {layout : Layout} {path : String} {place : Nat}
    {members : Keyed Json} {child : Table} {later : Location} {flaw : Flaw}
    (found : layout.table? place = some child)
    (inside : layout.FirstBrokenAt child members later flaw) :
    (item path place (.object members)).FirstBrokenAt layout later flaw where
  broken := .into found inside.broken
  first := by
    intro other flaw' broken
    cases broken with
    | here flawed => exact absurd flawed not_flawed_object
    | into found' broken =>
      obtain rfl := Option.some.inj (found.symm.trans found')
      exact inside.first other flaw' broken

end Element

theorem Binding.getElem?_elements_eq_some_iff {answers : Keyed Json} {path : String}
    {place i : Nat} {element : Element} :
    (elements answers (.rows path place))[i]? = some element ↔
      (i = 0 ∧ element = .notAList path ∧ ∃ value, answers.get? path = some value ∧
        value ≠ .null ∧ ∀ items, value ≠ .array items) ∨
      ∃ items value, answers.get? path = some (.array items) ∧ items[i]? = some value ∧
        element = .item path place value := by
  simp only [elements]
  cases answers.get? path with
  | none => simp
  | some value =>
    cases value with
    | null => simp
    | array items => simp [@eq_comm _ element]
    | _ => simp [List.getElem?_singleton, eq_comm]

namespace Table

/-- The element of a table's repeat groups to which a step leads. -/
def Holds (table : Table) (answers : Keyed Json) (step : Location.Step) (element : Element) :
    Prop :=
  ∃ path place, table.repeats[step.group]? = some (path, place) ∧
    (Binding.elements answers (.rows path place))[step.element]? = some element

variable {table : Table} {answers : Keyed Json} {step : Location.Step} {element : Element}

theorem Holds.unique {other : Element} (holds : table.Holds answers step element)
    (holds' : table.Holds answers step other) : element = other := by
  obtain ⟨path, place, declared, stands⟩ := holds
  obtain ⟨path', place', declared', stands'⟩ := holds'
  cases declared.symm.trans declared'
  exact Option.some.inj (stands.symm.trans stands')

theorem Holds.mem_elements (holds : table.Holds answers step element) :
    element ∈ table.elements answers := by
  obtain ⟨path, place, declared, stands⟩ := holds
  rw [elements_eq]
  exact List.mem_flatMap.2 ⟨_, List.mem_of_getElem? declared, List.mem_of_getElem? stands⟩

theorem breaks_iff {flaw : Flaw} :
    table.Breaks answers step flaw ↔
      ∃ element, table.Holds answers step element ∧ element.Flawed flaw := by
  constructor
  · rintro (⟨declared, stored, answered, unlisted⟩ | ⟨declared, stored, listed, plain⟩)
    · exact ⟨_, ⟨_, _, declared, Binding.getElem?_elements_eq_some_iff.2
        (.inl ⟨rfl, rfl, _, stored, answered, unlisted⟩)⟩, .notAList _⟩
    · exact ⟨_, ⟨_, _, declared, Binding.getElem?_elements_eq_some_iff.2
        (.inr ⟨_, _, stored, listed, rfl⟩)⟩, .notAnObject plain⟩
  · rintro ⟨element, ⟨path, place, declared, stands⟩, flawed⟩
    obtain ⟨group, number⟩ := step
    rcases Binding.getElem?_elements_eq_some_iff.1 stands with
      ⟨nought, same, value, stored, answered, unlisted⟩ | ⟨items, value, stored, listed, same⟩
    · obtain rfl : number = 0 := nought
      subst same
      cases flawed
      exact .notAList declared stored answered unlisted
    · subst same
      cases flawed with
      | notAnObject plain => exact .notAnObject declared stored listed plain

theorem holds_object_iff {path : String} {place : Nat} {members : Keyed Json} :
    table.Holds answers step (.item path place (.object members)) ↔
      table.repeats[step.group]? = some (path, place) ∧
        answers.elementAt? path step.element = some members := by
  constructor
  · rintro ⟨path', place', declared, stands⟩
    rcases Binding.getElem?_elements_eq_some_iff.1 stands with
      ⟨-, same, -⟩ | ⟨items, value, stored, listed, same⟩
    · contradiction
    · cases same
      refine ⟨declared, ?_⟩
      rw [Keyed.elementAt?_of_list stored, listed]
      rfl
  · rintro ⟨declared, stored⟩
    refine ⟨path, place, declared, Binding.getElem?_elements_eq_some_iff.2 (.inr ?_)⟩
    unfold Keyed.elementAt? at stored
    split at stored
    · next items list =>
      obtain ⟨value, listed, object⟩ := Option.bind_eq_some_iff.1 stored
      cases value <;> cases object
      exact ⟨items, _, list, listed, rfl⟩
    · contradiction

end Table

namespace Layout

variable {layout : Layout} {table : Table} {answers : Keyed Json} {location : Location}
  {flaw : Flaw}

/-- A broken group is one of the answers' own, or one below an object among their elements. -/
theorem brokenAt_iff : layout.BrokenAt table answers location flaw ↔
    ∃ step later element, location = step :: later ∧ table.Holds answers step element ∧
      element.BrokenAt layout later flaw := by
  constructor
  · rintro ⟨reached, breaks⟩
    cases reached with
    | here =>
      obtain ⟨element, holds, flawed⟩ := Table.breaks_iff.1 breaks
      exact ⟨_, _, element, rfl, holds, .here flawed⟩
    | into declared found stored onwards =>
      exact ⟨_, _, _, rfl, Table.holds_object_iff.2 ⟨declared, stored⟩,
        .into found (.intro onwards breaks)⟩
  · rintro ⟨step, later, element, rfl, holds, flawed | ⟨found, ⟨reached, breaks⟩⟩⟩
    · exact .intro (.here table answers) (Table.breaks_iff.2 ⟨element, holds, flawed⟩)
    · obtain ⟨declared, stored⟩ := Table.holds_object_iff.1 holds
      exact .intro (.into declared found stored reached) breaks

theorem BrokenAt.unique {flaw' : Flaw} (broken : layout.BrokenAt table answers location flaw)
    (broken' : layout.BrokenAt table answers location flaw') : flaw = flaw' := by
  induction location generalizing table answers with
  | nil => simpa using brokenAt_iff.1 broken
  | cons step later ih =>
    obtain ⟨_, _, element, ⟨rfl, rfl⟩, holds, inside⟩ := brokenAt_iff.1 broken
    obtain ⟨_, _, element', ⟨rfl, rfl⟩, holds', inside'⟩ := brokenAt_iff.1 broken'
    obtain rfl := holds.unique holds'
    cases inside with
    | here flawed =>
      cases inside' with
      | here flawed' => exact flawed.unique flawed'
      | into => exact absurd flawed Element.not_flawed_object
    | into found broken =>
      cases inside' with
      | here flawed' => exact absurd flawed' Element.not_flawed_object
      | into found' broken' =>
        obtain rfl := Option.some.inj (found.symm.trans found')
        exact ih broken broken'

/-- Where an element is broken first, its table is, if it is not broken at an earlier step. -/
theorem firstBrokenAt_cons {step : Location.Step} {later : Location} {element : Element}
    (holds : table.Holds answers step element) (inside : element.FirstBrokenAt layout later flaw)
    (sound : ∀ earlier before, earlier.Before step → table.Holds answers earlier before →
      ∀ other flaw', ¬ before.BrokenAt layout other flaw') :
    layout.FirstBrokenAt table answers (step :: later) flaw where
  broken := brokenAt_iff.2 ⟨step, later, element, rfl, holds, inside.broken⟩
  first := by
    intro other flaw' broken
    obtain ⟨step', later', element', rfl, holds', inside'⟩ := brokenAt_iff.1 broken
    rcases step.before_or_eq_or_before step' with before | rfl | before
    · exact .inr (.rel before)
    · obtain rfl := holds.unique holds'
      rcases inside.first later' flaw' inside' with rfl | precedes
      · exact .inl rfl
      · exact .inr (.cons precedes)
    · exact absurd inside' (sound step' element' before holds' later' flaw')

theorem FirstBrokenAt.unique {other : Location} {flaw' : Flaw}
    (first : layout.FirstBrokenAt table answers location flaw)
    (first' : layout.FirstBrokenAt table answers other flaw') :
    location = other ∧ flaw = flaw' := by
  have same : location = other := by
    rcases first.first other flaw' first'.broken with same | precedes
    · exact same.symm
    · rcases first'.first location flaw first.broken with same | precedes'
      · exact same
      · exact absurd precedes' precedes.asymm
  subst same
  exact ⟨rfl, first.broken.unique first'.broken⟩

end Layout

end SurveyTables
