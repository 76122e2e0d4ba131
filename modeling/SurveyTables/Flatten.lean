import SurveyTables.Layout.Basic
import SurveyTables.MediaLink
import SurveyTables.Row
import SurveyTables.RowId

/-! Flattening: one submission becomes one row of the root table, and each element of its
repeat groups a row below it. Rows are numbered by pairing, so a second export gives them the
same numbers. -/
namespace SurveyTables

inductive FlattenError where
  | malformedRepeat (instanceId : Int) (path : String)
  | malformedElement (instanceId : Int) (path : String) (ordinal : Nat)
  | missingInstanceId
  | negativeInstanceId (instanceId : Int)
deriving DecidableEq, Repr

structure Exporter where
  layout : Layout
  baseUrl : String

structure Origin where
  exporter : Exporter
  instanceId : Int
  attachments : List Attachment

/-- What a binding to a repeat group finds: an element of the group's list, or that the group
holds something other than a list. -/
inductive Element where
  | item (path : String) (table : Nat) (value : Json)
  | notAList (path : String)

namespace Binding

def cells (origin : Origin) (answers : Keyed Json) : Binding → List (String × Cell)
  | .scalar path column type => [(column, .ofAnswer type (answers.get? path))]
  | .media path column =>
    match answers.get? path with
    | some (.string stored) =>
      [(column, .text (MediaLink.resolve origin.exporter.baseUrl origin.attachments stored))]
    | other => [(column, .ofAnswer .string other)]
  | .selection path fieldName choices =>
    match answers.get? path with
    | none | some .null => (Selection.columns "" fieldName choices).map (·, .null)
    | some stored =>
      (Selection.flags "" fieldName choices (Selection.picks stored)).map fun entry =>
        (entry.1, .text entry.2)
  | .position path fieldName =>
    match answers.get? path with
    | some (.string stored) =>
      (Geopoint.unpack "" fieldName stored).map fun entry => (entry.1, .text entry.2)
    | _ => (Geopoint.columns "" fieldName).map (·, .null)
  | .rows _ _ => []

/-- What a repeat group holds, in order; nothing if it was not answered. -/
def elements (answers : Keyed Json) : Binding → List Element
  | .rows path table =>
    match answers.get? path with
    | none | some .null => []
    | some (.array items) => items.map (.item path table)
    | some _ => [.notAList path]
  | _ => []

end Binding

namespace Table

def cells (table : Table) (origin : Origin) (answers : Keyed Json) : Keyed Cell :=
  Keyed.ofList (table.bindings.flatMap (·.cells origin answers))

def elements (table : Table) (answers : Keyed Json) : List Element :=
  table.bindings.flatMap (·.elements answers)

end Table

namespace Element

def maxDepth : List Element → Nat
  | [] => 0
  | .item _ _ value :: elements => max value.depth (maxDepth elements)
  | .notAList _ :: elements => maxDepth elements

theorem maxDepth_le_iff {elements : List Element} {bound : Nat} :
    maxDepth elements ≤ bound ↔
      ∀ path table value, item path table value ∈ elements → value.depth ≤ bound := by
  induction elements with
  | nil => simp [maxDepth]
  | cons first rest ih =>
    cases first with
    | item path table value =>
      simp only [maxDepth, Nat.max_le, ih, List.mem_cons, item.injEq]
      constructor
      · rintro ⟨h, hr⟩ p t v (⟨rfl, rfl, rfl⟩ | hm)
        · exact h
        · exact hr p t v hm
      · intro h
        exact ⟨h path table value (.inl ⟨rfl, rfl, rfl⟩), fun p t v hm => h p t v (.inr hm)⟩
    | notAList path => simp [maxDepth, ih]

/-- A pair decreases when its second component does and its first does not grow. -/
theorem lex_of_le {a b m n : Nat} (h : a ≤ b) (hmn : m < n) :
    Prod.Lex (· < ·) (· < ·) (a, m) (b, n) := by
  rcases Nat.lt_or_eq_of_le h with h | rfl
  · exact .left _ _ h
  · exact .right _ hmn

end Element

theorem Table.maxDepth_elements_le (table : Table) (answers : Keyed Json) :
    Element.maxDepth (table.elements answers) ≤ Json.depthOfMembers answers := by
  rw [Element.maxDepth_le_iff]
  intro path place value h
  obtain ⟨binding, -, h⟩ := List.mem_flatMap.1 h
  cases binding with
  | rows repeatPath child =>
    simp only [Binding.elements] at h
    split at h
    · simp at h
    · simp at h
    · rename_i items hget
      obtain ⟨item, hitem, heq⟩ := List.mem_map.1 h
      simp only [Element.item.injEq] at heq
      obtain ⟨-, -, rfl⟩ := heq
      have := Json.depth_le_of_get? hget
      have := Json.depth_le_of_mem_items hitem
      rw [Json.depth] at *
      omega
    · simp at h
  | _ => simp [Binding.elements] at h

/-- The names of the tables that a table's repeat groups fill, each once. -/
def Layout.childNames (layout : Layout) (table : Table) : List String :=
  (table.childTables.filterMap fun place => (layout.table? place).map Table.name).eraseDups

namespace Flatten

mutual

def row (origin : Origin) (table : Table) (answers : Keyed Json) (id : Nat)
    (parent : Option ParentLink) : Except FlattenError Row := do
  let children ← childRows origin ⟨id, table.name⟩ 1 (table.elements answers)
  return {
    table := table.name
    id := id
    parent := parent
    columns := table.cells origin answers
    childTables := origin.exporter.layout.childNames table
    children := children }
termination_by (Json.depthOfMembers answers + 1, 0)
decreasing_by
  have := table.maxDepth_elements_le answers
  exact Prod.Lex.left _ _ (by omega)

/-- The rows of what a row's repeat groups hold. The ordinal runs on through all of them. -/
def childRows (origin : Origin) (parent : ParentLink) (ordinal : Nat) :
    List Element → Except FlattenError (List Row)
  | [] => .ok []
  | .notAList path :: _ => .error (.malformedRepeat origin.instanceId path)
  | .item _ place (.object answers) :: rest =>
    match origin.exporter.layout.table? place with
    | none => childRows origin parent (ordinal + 1) rest
    | some table => do
      let first ← row origin table answers (RowId.pair parent.id ordinal) (some parent)
      return first :: (← childRows origin parent (ordinal + 1) rest)
  | .item path _ _ :: _ => .error (.malformedElement origin.instanceId path ordinal)
termination_by elements => (Element.maxDepth elements, elements.length)
decreasing_by
  all_goals
    simp only [Element.maxDepth, Json.depth, List.length_cons]
    exact Element.lex_of_le (by omega) (by omega)

end

end Flatten

namespace Exporter

def ofForm (form : Form) (baseUrl : String) : Exporter := ⟨Layout.infer form, baseUrl⟩

/-- The root row of a submission, numbered as the submission was stored. -/
def flatten (exporter : Exporter) (submission : Submission) : Except FlattenError Row :=
  match submission.instanceId? with
  | none => .error .missingInstanceId
  | some (.negSucc n) => .error (.negativeInstanceId (.negSucc n))
  | some (.ofNat id) =>
    Flatten.row ⟨exporter, id, submission.attachments⟩ exporter.layout.root submission.answers
      id none

end Exporter

end SurveyTables
