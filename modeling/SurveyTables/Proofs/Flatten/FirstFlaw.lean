import Mathlib.Algebra.Ring.Nat
import SurveyTables.Proofs.Flatten.Locations
import SurveyTables.Proofs.Layout.WellFormed

/-! The error of a row. A walk through the repeat groups stops at the first element that makes no
row, so the error tells of the first location at which a group is broken. -/
namespace SurveyTables

def Keyed.held (answers : Keyed Json) (path : String) : Nat :=
  match answers.get? path with
  | some (.array items) => items.length
  | _ => 0

namespace Table

/-- How many elements the answers hold for the repeat groups that are declared before one. -/
def heldBefore (table : Table) (answers : Keyed Json) (group : Nat) : Nat :=
  ((table.repeats.take group).map fun bound => answers.held bound.1).sum

theorem length_elements {answers : Keyed Json} {path : String} {place : Nat}
    (proper : .notAList path ∉ Binding.elements answers (.rows path place)) :
    (Binding.elements answers (.rows path place)).length = answers.held path := by
  simp only [Binding.elements, Keyed.held] at proper ⊢
  cases stored : answers.get? path with
  | none => rfl
  | some value => cases value <;> simp_all

variable {table : Table} {answers : Keyed Json} {front back : List Element} {element : Element}

/-- Before one of a table's elements stand those to which earlier steps lead; as many as the answers
hold, if each group of them is a list. -/
theorem exists_step_of_elements (split : table.elements answers = front ++ element :: back) :
    ∃ step, table.Holds answers step element ∧
      (∀ earlier before, earlier.Before step → table.Holds answers earlier before →
        before ∈ front) ∧
      ((∀ path, .notAList path ∉ front) →
        front.length = table.heldBefore answers step.group + step.element) := by
  rw [elements_eq] at split
  obtain ⟨groups, ⟨path, place⟩, later, first, last, repeats, inside, rfl⟩ :=
    Sequence.exists_of_flatMap_eq_append_cons split
  refine ⟨⟨groups.length, first.length⟩, ⟨path, place, ?_, ?_⟩, ?_, ?_⟩
  · simp [repeats]
  · simp [inside]
  · rintro ⟨group, number⟩ before earlier ⟨path', place', declared, stands⟩
    rw [List.mem_append, List.mem_flatMap]
    rcases earlier with above | ⟨rfl, above⟩
    · rw [repeats, List.getElem?_append_left above] at declared
      exact .inl ⟨_, List.mem_of_getElem? declared, List.mem_of_getElem? stands⟩
    · rw [repeats, List.getElem?_append_right (Nat.le_refl _), Nat.sub_self] at declared
      cases declared
      rw [inside, List.getElem?_append_left above] at stands
      exact .inr (List.mem_of_getElem? stands)
  · intro proper
    have counted : ∀ bound ∈ groups,
        (Binding.elements answers (.rows bound.1 bound.2)).length = answers.held bound.1 := by
      intro bound member
      refine length_elements fun broken => proper bound.1 ?_
      exact List.mem_append_left _ (List.mem_flatMap.2 ⟨bound, member, broken⟩)
    rw [List.length_append, List.length_flatMap, List.map_congr_left counted, heldBefore, repeats,
      List.take_left]

end Table

namespace Flatten

/-- The error is that of the first element that makes no row. -/
theorem exists_fails_of_childRows {origin : Origin} {parent : ParentLink} {ordinal : Nat}
    {elements : List Element} {error : FlattenError}
    (resolved : Resolved origin.exporter.layout elements)
    (failed : childRows origin parent ordinal elements = .error error) :
    ∃ front element back, elements = front ++ element :: back ∧
      (∀ other ∈ front, ∃ number made, Makes origin parent (other, number) made) ∧
      Fails origin parent (element, ordinal + front.length) error := by
  induction elements generalizing ordinal with
  | nil =>
    rw [childRows] at failed
    contradiction
  | cons element rest ih =>
    rcases childRows_cons_eq_error failed with here | ⟨later, ⟨made, first⟩ | lost⟩
    · exact ⟨[], element, rest, rfl, List.forall_mem_nil _, here⟩
    · obtain ⟨front, last, back, rfl, makes, fails⟩ := ih (fun path place value member =>
        resolved path place value (List.mem_cons_of_mem _ member)) later
      refine ⟨element :: front, last, back, rfl, List.forall_mem_cons.2 ⟨⟨_, made, first⟩, makes⟩, ?_⟩
      rw [List.length_cons, Nat.add_comm front.length 1, ← Nat.add_assoc]
      exact fails
    · obtain ⟨path, place, value, rfl, none⟩ := lost
      obtain ⟨table, found⟩ := resolved path place value List.mem_cons_self
      cases none.symm.trans found

end Flatten

def Flaw.error (instanceId : Int) (ordinal : Nat) : Flaw → FlattenError
  | notAList path => .malformedRepeat instanceId path
  | notAnObject path => .malformedElement instanceId path ordinal

/-- An error tells of the first location at which a repeat group is broken. Its ordinal is that of
the element in its row, where elements are counted through all groups. -/
inductive Layout.Tells (layout : Layout) (instanceId : Int) (table : Table)
    (answers : Keyed Json) : FlattenError → Prop
  | intro {last : Table} {inside : Keyed Json} {steps : Location} {step : Location.Step}
      {flaw : Flaw} (reached : layout.Reaches table answers steps last inside)
      (breaks : last.Breaks inside step flaw)
      (first : layout.FirstBrokenAt table answers (steps ++ [step]) flaw) :
      Tells layout instanceId table answers
        (flaw.error instanceId (last.heldBefore inside step.group + (step.element + 1)))

namespace Flatten

variable {origin : Origin}

theorem not_brokenAt_of_makes {parent : ParentLink} {element : Element} {ordinal : Nat}
    {made : Row} (makes : Makes origin parent (element, ordinal) made)
    (each : ∀ path place members child, element = .item path place (.object members) →
      origin.exporter.layout.table? place = some child → ∀ id parent made,
        row origin child members id parent = .ok made →
        ∀ location flaw, ¬ origin.exporter.layout.BrokenAt child members location flaw)
    (later : Location) (flaw : Flaw) :
    ¬ element.BrokenAt origin.exporter.layout later flaw := by
  intro broken
  cases makes with
  | item found call =>
    cases broken with
    | here flawed => exact Element.not_flawed_object flawed
    | into found' broken =>
      obtain rfl := Option.some.inj (found.symm.trans found')
      exact each _ _ _ _ rfl found _ _ _ call later flaw broken

theorem tells_of_fails {parent : ParentLink} {table : Table} {answers : Keyed Json}
    {front back : List Element} {element : Element} {error : FlattenError}
    (split : table.elements answers = front ++ element :: back)
    (makes : ∀ other ∈ front, ∃ ordinal made, Makes origin parent (other, ordinal) made)
    (sound : ∀ other ∈ front, ∀ later flaw, ¬ other.BrokenAt origin.exporter.layout later flaw)
    (fails : Fails origin parent (element, 1 + front.length) error)
    (each : ∀ path place members child, element = .item path place (.object members) →
      origin.exporter.layout.table? place = some child → ∀ id parent error,
        row origin child members id parent = .error error →
        origin.exporter.layout.Tells origin.instanceId child members error) :
    origin.exporter.layout.Tells origin.instanceId table answers error := by
  obtain ⟨step, holds, earlier, count⟩ := Table.exists_step_of_elements split
  have sound : ∀ before other, before.Before step → table.Holds answers before other →
      ∀ later flaw, ¬ other.BrokenAt origin.exporter.layout later flaw :=
    fun before other above stands => sound other (earlier before other above stands)
  have proper : ∀ path, .notAList path ∉ front := by
    intro path listed
    obtain ⟨_, _, made⟩ := makes _ listed
    cases made
  have ordinal : 1 + front.length = table.heldBefore answers step.group + (step.element + 1) := by
    rw [count proper]
    omega
  rw [ordinal] at fails
  cases fails with
  | notAList path =>
    exact .intro (.here table answers) (Table.breaks_iff.2 ⟨_, holds, .notAList path⟩)
      (Layout.firstBrokenAt_cons holds (Element.firstBrokenAt_nil (.notAList path)) sound)
  | notAnObject plain =>
    exact .intro (.here table answers) (Table.breaks_iff.2 ⟨_, holds, .notAnObject plain⟩)
      (Layout.firstBrokenAt_cons holds (Element.firstBrokenAt_nil (.notAnObject plain)) sound)
  | below found call =>
    obtain ⟨declared, stored⟩ := Table.holds_object_iff.1 holds
    obtain ⟨reached, breaks, inside⟩ := each _ _ _ _ rfl found _ _ _ call
    exact .intro (.into declared found stored reached) breaks
      (Layout.firstBrokenAt_cons holds (Element.firstBrokenAt_object found inside) sound)

theorem resolved_elements (form : Form) {table : Table}
    (member : table ∈ (Layout.infer form).tables) (answers : Keyed Json) :
    Resolved (Layout.infer form) (table.elements answers) :=
  fun path place value listed =>
    ((Layout.wellFormed_infer form).resolved table member answers path place value listed).2

/-- Where elements that make rows have nothing broken in them, a row has nothing broken. -/
theorem not_brokenAt_of_row {table : Table} {answers : Keyed Json} {id : Nat}
    {parent : Option ParentLink} {made : Row}
    (resolved : Resolved origin.exporter.layout (table.elements answers))
    (sound : ∀ element ∈ table.elements answers, ∀ parent ordinal made,
      Makes origin parent (element, ordinal) made →
        ∀ later flaw, ¬ element.BrokenAt origin.exporter.layout later flaw)
    (call : row origin table answers id parent = .ok made) (location : Location) (flaw : Flaw) :
    ¬ origin.exporter.layout.BrokenAt table answers location flaw := by
  intro broken
  obtain ⟨children, below, -⟩ := row_ok_iff.1 call
  obtain ⟨step, later, element, rfl, holds, inside⟩ := Layout.brokenAt_iff.1 broken
  have listed := holds.mem_elements
  rw [← List.zipIdx_map_fst 1 (table.elements answers)] at listed
  obtain ⟨⟨_, ordinal⟩, here, rfl⟩ := List.mem_map.1 listed
  have all := forall₂_makes_of_childRows resolved below
  obtain ⟨_, -, makes⟩ := Sequence.exists_of_mem_left all here
  exact sound _ holds.mem_elements _ _ _ makes later flaw inside

/-- The error of a row tells what is broken first, if that of every row below it does. -/
theorem tells_of_row {table : Table} {answers : Keyed Json} {id : Nat}
    {parent : Option ParentLink} {error : FlattenError}
    (resolved : Resolved origin.exporter.layout (table.elements answers))
    (sound : ∀ element ∈ table.elements answers, ∀ parent ordinal made,
      Makes origin parent (element, ordinal) made →
        ∀ later flaw, ¬ element.BrokenAt origin.exporter.layout later flaw)
    (each : ∀ path place members child,
      .item path place (.object members) ∈ table.elements answers →
      origin.exporter.layout.table? place = some child → ∀ id parent error,
        row origin child members id parent = .error error →
        origin.exporter.layout.Tells origin.instanceId child members error)
    (failed : row origin table answers id parent = .error error) :
    origin.exporter.layout.Tells origin.instanceId table answers error := by
  rw [row, Except.bind_eq_error] at failed
  rcases failed with below | ⟨_, -, impossible⟩
  · obtain ⟨front, element, back, split, makes, fails⟩ := exists_fails_of_childRows resolved below
    refine tells_of_fails split makes ?_ fails ?_
    · intro other listed
      obtain ⟨ordinal, made, makes⟩ := makes other listed
      refine sound other ?_ _ _ _ makes
      rw [split]
      exact List.mem_append_left _ listed
    · rintro path place members child rfl
      refine each path place members child ?_
      rw [split]
      exact List.mem_append_right _ List.mem_cons_self
  · contradiction

theorem broken_of_row {form : Form} (laid : origin.exporter.layout = Layout.infer form)
    (table : Table) (answers : Keyed Json) : table ∈ (Layout.infer form).tables → ∀ id parent,
      (∀ made, row origin table answers id parent = .ok made →
        ∀ location flaw, ¬ (Layout.infer form).BrokenAt table answers location flaw) ∧
      ∀ error, row origin table answers id parent = .error error →
        (Layout.infer form).Tells origin.instanceId table answers error := by
  refine answers_induction (fun table answers ih => ?_) table answers
  rw [← laid] at ih ⊢
  intro member id parent
  have resolved : Resolved origin.exporter.layout (table.elements answers) := by
    rw [laid] at member ⊢
    exact resolved_elements form member answers
  have sound : ∀ element ∈ table.elements answers, ∀ parent ordinal made,
      Makes origin parent (element, ordinal) made →
        ∀ later flaw, ¬ element.BrokenAt origin.exporter.layout later flaw := by
    intro element listed parent ordinal made makes
    refine not_brokenAt_of_makes makes ?_
    rintro path place members child rfl found id parent made call
    exact (ih path place members child listed (Layout.mem_tables_of_table? found) id parent).1
      made call
  constructor
  · intro made call
    exact not_brokenAt_of_row resolved sound call
  · intro error failed
    refine tells_of_row resolved sound ?_ failed
    intro path place members child listed found id parent error call
    exact (ih path place members child listed (Layout.mem_tables_of_table? found) id parent).2
      error call

end Flatten

end SurveyTables
