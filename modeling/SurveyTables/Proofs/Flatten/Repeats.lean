import SurveyTables.Proofs.Flatten.Provenance

/-! The rows of a repeat group. A form may declare one repeat path more than once in a table. The
table of the path is shared, but each declaration binds the path's list once more, and each
binding makes its own rows: an element has as many rows as its path has declarations there. -/
namespace SurveyTables

/-- The elements that answers hold for a repeat group: none if it was not answered. -/
inductive Keyed.Stores (answers : Keyed Json) (path : String) : List Json → Prop
  | missing (absent : answers.get? path = none) : Stores answers path []
  | null (absent : answers.get? path = some .null) : Stores answers path []
  | list {items : List Json} (found : answers.get? path = some (.array items)) :
      Stores answers path items

namespace Element

def leadsTo (place : Nat) : Element → Bool
  | .item _ table _ => table = place
  | .notAList _ => false

end Element

namespace Binding

theorem filter_elements_of_ne {answers : Keyed Json} {path : String} {place table : Nat}
    (other : table ≠ place) :
    (elements answers (.rows path table)).filter (Element.leadsTo place) = [] := by
  rw [List.filter_eq_nil_iff]
  intro element member
  simp only [elements] at member
  split at member
  · simp at member
  · simp at member
  · obtain ⟨item, -, rfl⟩ := List.mem_map.1 member
    simpa [Element.leadsTo] using other
  · obtain rfl := List.mem_singleton.1 member
    simp [Element.leadsTo]

/-- A repeat group that holds elements only holds a list, or was not answered. -/
theorem exists_stores {answers : Keyed Json} {path : String} {place : Nat}
    (proper : .notAList path ∉ elements answers (.rows path place)) :
    ∃ items, answers.Stores path items ∧
      elements answers (.rows path place) = items.map (.item path place) := by
  simp only [elements] at proper ⊢
  split at proper
  · next absent => exact ⟨[], .missing absent, rfl⟩
  · next absent => exact ⟨[], .null absent, rfl⟩
  · next items found => exact ⟨items, .list found, rfl⟩
  · exact absurd List.mem_cons_self proper

end Binding

namespace Exporter

/-- A row of a table was built from a value, which is an object. -/
def BuiltFromItem (exporter : Exporter) (submission : Submission) (table : Table) (item : Json)
    (row : Row) : Prop :=
  ∃ answers, item = .object answers ∧ BuiltFrom exporter submission row table answers

variable {form : Form} {baseUrl : String} {submission : Submission} {row : Row} {table : Table}
  {answers : Keyed Json}

/-- Of the bindings of a table, those that lead to the table of a path are the path's own. -/
theorem filter_elements {child : Table} {path : String} {place : Nat} {items : List Json}
    (member : table ∈ (Layout.infer form).tables)
    (found : (Layout.infer form).table? place = some child) (own : child.repeatPath = some path)
    (held : Binding.elements answers (.rows path place) = items.map (.item path place)) :
    (table.elements answers).filter (Element.leadsTo place) =
      (List.replicate (table.repeats.count (path, place)) items).flatten.map
        (.item path place) := by
  have each : ∀ bound ∈ table.repeats,
      (Binding.elements answers (.rows bound.1 bound.2)).filter (Element.leadsTo place) =
        if bound = (path, place) then items.map (.item path place) else [] := by
    rintro ⟨path', place'⟩ bound
    by_cases same : place' = place
    · subst same
      obtain ⟨child', found', own'⟩ := Layout.exists_table_of_mem_repeats form member bound
      obtain rfl := Option.some.inj (found.symm.trans found')
      obtain rfl := Option.some.inj (own.symm.trans own')
      rw [if_pos rfl, held, List.filter_eq_self]
      intro element listed
      obtain ⟨item, -, rfl⟩ := List.mem_map.1 listed
      simp [Element.leadsTo]
    · rw [if_neg (by simp [same])]
      exact Binding.filter_elements_of_ne same
  rw [Table.elements_eq, List.filter_flatMap, List.flatMap_congr each, Sequence.flatMap_if_eq,
    List.map_flatten, List.map_replicate]

theorem count_repeats (member : table ∈ (Layout.infer form).tables) {path : String} {place : Nat}
    (known : (Layout.infer form).placeOf? path = some place) :
    table.repeats.count (path, place) = form.repeats.count (table.repeatPath, path) := by
  have declared := Layout.bindsDeclared_infer form table member
  calc table.repeats.count (path, place)
      = table.repeats.countP (·.1 = path) := by
        refine List.countP_congr fun bound listed => ?_
        obtain ⟨path', place'⟩ := bound
        have leads := Layout.bindsPlaces_infer form table member path' place' listed
        simp only [beq_iff_eq, Prod.mk.injEq, decide_eq_true_eq, and_iff_left_iff_imp]
        rintro rfl
        exact Option.some.inj (leads.symm.trans known)
    _ = (table.repeats.map Prod.fst).count path := by
        rw [List.count, List.countP_map]
        exact List.countP_congr fun bound _ => by simp
    _ = form.repeats.count (table.repeatPath, path) := by
        rw [declared, List.count, List.countP_map, List.countP_filter]
        refine List.countP_congr fun bound _ => ?_
        obtain ⟨inside, path'⟩ := bound
        simp [and_comm]

theorem BuiltBelow.leadsTo_iff {element : Element} {ordinal : Nat} {row' : Row}
    (below : BuiltBelow (ofForm form baseUrl) submission row table (element, ordinal) row')
    {child : Table} {place : Nat} (found : (Layout.infer form).table? place = some child) :
    element.leadsTo place = true ↔ row'.table = child.name := by
  obtain ⟨bound, found', -, -, built⟩ := below
  rw [built.table_eq]
  simp only [Element.leadsTo, decide_eq_true_eq]
  constructor
  · rintro rfl
    rw [Option.some.inj (found.symm.trans found')]
  · intro same
    obtain rfl := (Layout.namesApart_infer form).eq_of_name built.mem_tables
      (Layout.mem_tables_of_table? found) same
    exact (Layout.laid_infer form).place_unique found' found rfl

/-- The rows of a path below a row: the stored list, once for each declaration of the path. -/
theorem BuiltFrom.forall₂_childrenIn
    (built : BuiltFrom (ofForm form baseUrl) submission row table answers) {path : String}
    (declared : (table.repeatPath, path) ∈ form.repeats) :
    ∃ child ∈ (Layout.infer form).tables, child.repeatPath = some path ∧
      ∃ items, answers.Stores path items ∧
        List.Forall₂ (BuiltFromItem (ofForm form baseUrl) submission child)
          (List.replicate (form.repeats.count (table.repeatPath, path)) items).flatten
          (row.childrenIn child.name) := by
  have member := built.mem_tables
  have all := built.forall₂_elements
  obtain ⟨place, bound⟩ := (Layout.exists_mem_repeats_iff form member).2 declared
  have known := Layout.bindsPlaces_infer form table member path place bound
  obtain ⟨child, found, own⟩ := Layout.table?_of_placeOf? known
  -- A path that holds no list would have failed the row.
  have proper : .notAList path ∉ Binding.elements answers (.rows path place) := by
    intro broken
    have inElements : Element.notAList path ∈ table.elements answers := by
      rw [Table.elements_eq]
      exact List.mem_flatMap.2 ⟨_, bound, broken⟩
    obtain ⟨_, -, _, made⟩ := Sequence.exists_of_mem_left all inElements
    cases made
  obtain ⟨items, stores, held⟩ := Binding.exists_stores proper
  refine ⟨child, Layout.mem_tables_of_table? found, own, items, stores, ?_⟩
  have inTable := List.rel_filter (p := Element.leadsTo place)
    (q := fun row' => row'.table = child.name)
    (fun _ _ ⟨_, below⟩ => by simpa using below.leadsTo_iff found) all
  rw [filter_elements member found own held, List.forall₂_map_left_iff,
    count_repeats member known] at inTable
  refine inTable.imp ?_
  rintro item row' ⟨ordinal, made⟩
  obtain ⟨-, found', -, -, made⟩ := made
  obtain rfl := Option.some.inj (found.symm.trans found')
  exact ⟨_, rfl, made⟩

/-- The rows of a repeat group. Below every row of an export, a repeat path of the row's table has
one row for each element that the row's answers hold for it, in order, as often over as the form
declares the path in that table. -/
theorem childrenIn_of_flatten (form : Form) (baseUrl : String) (submission : Submission)
    (root : Row) (ok : (ofForm form baseUrl).flatten submission = .ok root) :
    ∀ row ∈ root.withDescendants,
      (∃ table answers, BuiltFrom (ofForm form baseUrl) submission row table answers) ∧
      ∀ table answers, BuiltFrom (ofForm form baseUrl) submission row table answers →
        row.table = table.name ∧
        ∀ path, (table.repeatPath, path) ∈ form.repeats →
          ∃ child ∈ (Layout.infer form).tables, child.repeatPath = some path ∧
            ∃ items, answers.Stores path items ∧
              List.Forall₂ (BuiltFromItem (ofForm form baseUrl) submission child)
                (List.replicate (form.repeats.count (table.repeatPath, path)) items).flatten
                (row.childrenIn child.name) ∧
              (List.Forall₂ (BuiltFromItem (ofForm form baseUrl) submission child) items
                  (row.childrenIn child.name) ↔
                form.repeats.count (table.repeatPath, path) = 1 ∨ items = []) := by
  intro row member
  refine ⟨(BuiltFrom.of_flatten ok).exists_of_mem_withDescendants member, ?_⟩
  intro table answers built
  refine ⟨built.table_eq, fun path declared => ?_⟩
  obtain ⟨child, member', own, items, stores, made⟩ := built.forall₂_childrenIn declared
  have once := Sequence.forall₂_iff_of_replicate made
  exact ⟨child, member', own, items, stores, made, once⟩

def twiceDeclared : Form where
  idString := "twice"
  projectId := 1
  title := "Declared twice"
  fields := [⟨"r", .repeatGroup, [], [⟨"r/x", .text, [], []⟩]⟩, ⟨"r", .repeatGroup, [], []⟩]

def twiceDeclaredAnswers : Submission :=
  ⟨[("_id", .ofNat 1), ("r", .array [.object [("r/x", .string "v")]])]⟩

def twiceDeclaredRow : Row :=
  ⟨"data", 1, none, [], ["r"],
    [⟨"r", 4, some ⟨1, "data"⟩, [("x", .text "v")], [], []⟩,
      ⟨"r", 8, some ⟨1, "data"⟩, [("x", .text "v")], [], []⟩]⟩

/-- The one element of a path that is declared twice has two rows. -/
theorem childrenIn_twiceDeclared :
    (ofForm twiceDeclared "").flatten twiceDeclaredAnswers = .ok twiceDeclaredRow ∧
      ∃ child items, child.repeatPath = some "r" ∧ twiceDeclaredAnswers.answers.Stores "r" items ∧
        ¬ List.Forall₂ (BuiltFromItem (ofForm twiceDeclared "") twiceDeclaredAnswers child) items
          (twiceDeclaredRow.childrenIn child.name) := by
  have ok : (ofForm twiceDeclared "").flatten twiceDeclaredAnswers = .ok twiceDeclaredRow := by
    rw [← flattenTo_eq_flatten 2]
    decide +kernel
  have self := twiceDeclaredRow.mem_withDescendants_self
  obtain ⟨-, all⟩ :=
    childrenIn_of_flatten twiceDeclared "" twiceDeclaredAnswers twiceDeclaredRow ok _ self
  obtain ⟨-, rows⟩ := all _ _ (BuiltFrom.of_flatten ok)
  rw [layout_ofForm, (Layout.laid_infer twiceDeclared).root] at rows
  obtain ⟨child, -, own, items, stores, -, once⟩ := rows "r" (by decide)
  refine ⟨ok, child, items, own, stores, ?_⟩
  rw [once, not_or]
  refine ⟨by decide, ?_⟩
  rintro rfl
  have held : twiceDeclaredAnswers.answers.get? "r" =
      some (.array [.object [("r/x", .string "v")]]) := rfl
  cases stores with
  | missing absent => simp [held] at absent
  | null absent => simp [held] at absent
  | list found => simp [held] at found

end Exporter

end SurveyTables
