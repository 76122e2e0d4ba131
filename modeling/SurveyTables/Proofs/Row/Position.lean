import Mathlib.Data.List.Forall2
import SurveyTables.Proofs.Row.Tree
import SurveyTables.Proofs.Sequence

/-! Positions in rows. A row below another one is reached by naming child tables and counting the
rows in them, as in the printed row. A row that extends another one has at each position of that
one a row that extends the row there. -/
namespace SurveyTables.Row

/-- The row at a position: at each step the name of a child table, and the place of a row in it. -/
def at? : Row → List (String × Nat) → Option Row
  | row, [] => some row
  | row, (table, place) :: position =>
    if table ∈ row.childTables then (row.childrenIn table)[place]?.bind (at? · position) else none

theorem at?_cons_eq_some_iff {row other : Row} {table : String} {place : Nat}
    {position : List (String × Nat)} :
    row.at? ((table, place) :: position) = some other ↔ table ∈ row.childTables ∧
      ∃ child, (row.childrenIn table)[place]? = some child ∧ child.at? position = some other := by
  rw [at?]
  split
  · next listed => simp [listed, Option.bind_eq_some_iff]
  · next unlisted => simp [unlisted]

/-- The rows at or below a row are those that have a position. -/
theorem mem_withDescendants_iff_at? {row other : Row} :
    other ∈ row.withDescendants ↔ ∃ position, row.at? position = some other := by
  constructor
  · intro member
    induction row using induction with
    | step row ih =>
      rcases mem_withDescendants.1 member with same | ⟨child, isChild, below⟩
      · exact ⟨[], congrArg some same.symm⟩
      · obtain ⟨inChildren, listed⟩ := mem_childRows.1 isChild
        obtain ⟨position, leads⟩ := ih child inChildren below
        have inTable : child ∈ row.childrenIn child.table := mem_childrenIn.2 ⟨inChildren, rfl⟩
        obtain ⟨place, found⟩ := List.mem_iff_getElem?.1 inTable
        exact ⟨(child.table, place) :: position,
          at?_cons_eq_some_iff.2 ⟨listed, child, found, leads⟩⟩
  · rintro ⟨position, leads⟩
    induction position generalizing row with
    | nil =>
      obtain rfl := Option.some.inj leads
      exact mem_withDescendants_self row
    | cons step position ih =>
      obtain ⟨table, place⟩ := step
      obtain ⟨listed, child, found, below⟩ := at?_cons_eq_some_iff.1 leads
      obtain ⟨inChildren, rfl⟩ := mem_childrenIn.1 (List.mem_of_getElem? found)
      exact mem_withDescendants.2 (.inr ⟨child, mem_childRows.2 ⟨inChildren, listed⟩, ih below⟩)

/-- The same row with more columns and further rows behind its own, at every depth. -/
inductive Extends : Row → Row → Prop
  | mk {old new : Row} {front back : List Row} (table : new.table = old.table)
      (id : new.id = old.id) (parent : new.parent = old.parent)
      (columns : old.columns <+: new.columns) (childTables : old.childTables ⊆ new.childTables)
      (children : new.children = front ++ back)
      (below : List.Forall₂ Extends old.children front) : Extends old new

namespace Extends

variable {old new : Row}

theorem table_eq (extended : old.Extends new) : new.table = old.table := by
  cases extended
  assumption

theorem id_eq (extended : old.Extends new) : new.id = old.id := by
  cases extended
  assumption

theorem parent_eq (extended : old.Extends new) : new.parent = old.parent := by
  cases extended
  assumption

theorem exists_childrenIn (extended : old.Extends new) (table : String) :
    ∃ front back, new.childrenIn table = front ++ back ∧
      List.Forall₂ Extends (old.childrenIn table) front := by
  obtain ⟨-, -, -, -, -, children, below⟩ := extended
  rw [childrenIn, children, List.filter_append]
  refine ⟨_, _, rfl, List.rel_filter ?_ below⟩
  intro child child' extended
  simp [extended.table_eq]

theorem exists_at? (extended : old.Extends new) {position : List (String × Nat)} {row : Row}
    (leads : old.at? position = some row) :
    ∃ row', new.at? position = some row' ∧ row.Extends row' := by
  induction position generalizing old new with
  | nil =>
    cases leads
    exact ⟨new, rfl, extended⟩
  | cons step position ih =>
    obtain ⟨table, place⟩ := step
    obtain ⟨listed, child, found, leads⟩ := at?_cons_eq_some_iff.1 leads
    obtain ⟨front, back, children, below⟩ := extended.exists_childrenIn table
    obtain ⟨child', found', extended'⟩ := Sequence.exists_getElem?_of_forall₂ below found
    obtain ⟨row', leads', last⟩ := ih extended' leads
    have inside : (new.childrenIn table)[place]? = some child' := by
      rw [children, List.getElem?_append_left (List.getElem?_eq_some_iff.1 found').1, found']
    have listed' : table ∈ new.childTables := by
      obtain ⟨-, -, -, -, childTables⟩ := extended
      exact childTables listed
    exact ⟨row', at?_cons_eq_some_iff.2 ⟨listed', child', inside, leads'⟩, last⟩

end Extends

end SurveyTables.Row
