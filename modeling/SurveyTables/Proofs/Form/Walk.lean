import Mathlib.Data.List.Nodup
import SurveyTables.Form.Basic

/-! The walk through a form, as a list. Groups and notes leave no entry of their own: a group
is passed through, a note is passed over with all below it. What stays is an entry for each
field with columns or rows, together with the table that it belongs to. -/
namespace SurveyTables

/-- A field without what is below it, and the repeat path of its table; the root table has
none. -/
structure Entry where
  inside : Option String
  field : Field

namespace Entry

/-- The table and the path of an entry that declares a repeat group. -/
def repeat? (entry : Entry) : Option (Option String × String) :=
  if entry.field.kind = .repeatGroup then some (entry.inside, entry.field.path) else none

/-- Which repeat paths a walk declares, and in which tables, in order and as often as it does. -/
def repeats (entries : List Entry) : List (Option String × String) := entries.filterMap repeat?

def paths (entries : List Entry) : List String := (repeats entries).map Prod.snd

def firstInside? (entries : List Entry) (path : String) : Option (Option String) :=
  ((repeats entries).find? (·.2 = path)).map Prod.fst

end Entry

namespace Field

mutual

def entries (inside : Option String) : Field → List Entry
  | ⟨path, kind, choices, children⟩ =>
    match kind with
    | .note => []
    | .group => listEntries inside children
    | .repeatGroup => ⟨inside, path, .repeatGroup, choices, []⟩ :: listEntries (some path) children
    | _ => [⟨inside, path, kind, choices, []⟩]

def listEntries (inside : Option String) : List Field → List Entry
  | [] => []
  | field :: fields => entries inside field ++ listEntries inside fields

end

end Field

namespace Form

def entries (form : Form) : List Entry := Field.listEntries none form.fields

/-- The repeat groups that the walk through a form meets, each with its table. -/
def repeats (form : Form) : List (Option String × String) := Entry.repeats form.entries

def repeatPaths (form : Form) : List String :=
  (form.allFields.filter (·.kind = .repeatGroup)).map Field.path

end Form

namespace Entry

@[simp] theorem repeats_nil : repeats [] = [] := rfl

theorem repeats_append (first second : List Entry) :
    repeats (first ++ second) = repeats first ++ repeats second := List.filterMap_append

theorem paths_append (first second : List Entry) :
    paths (first ++ second) = paths first ++ paths second := by
  rw [paths, repeats_append, List.map_append]
  rfl

theorem repeats_singleton (entry : Entry) : repeats [entry] = entry.repeat?.toList := by
  rw [repeats, List.filterMap_cons]
  cases entry.repeat? <;> rfl

theorem paths_singleton {entry : Entry} {inside : Option String} {path : String}
    (declares : entry.repeat? = some (inside, path)) : paths [entry] = [path] := by
  rw [paths, repeats_singleton, declares]
  rfl

theorem paths_singleton_of_plain {entry : Entry} (plain : entry.repeat? = none) :
    paths [entry] = [] := by
  rw [paths, repeats_singleton, plain]
  rfl

theorem repeat?_eq_some {entry : Entry} {inside : Option String} {path : String}
    (declares : entry.repeat? = some (inside, path)) :
    entry.field.kind = .repeatGroup ∧ entry.inside = inside ∧ entry.field.path = path := by
  unfold repeat? at declares
  split at declares
  · next kind => exact ⟨kind, Prod.mk.inj (Option.some.inj declares)⟩
  · contradiction

theorem mem_paths {entries : List Entry} {path : String} :
    path ∈ paths entries ↔ ∃ inside, (inside, path) ∈ repeats entries := by
  simp [paths]

/-- An entry below a repeat group follows an entry that declares the group. -/
inductive Placed : List Entry → Prop where
  | nil : Placed []
  | snoc {before : List Entry} {entry : Entry} : Placed before →
      (∀ path, entry.inside = some path → path ∈ paths before) → Placed (before ++ [entry])

theorem Placed.mem_paths_of_mem {entries : List Entry} (placed : Placed entries) {entry : Entry}
    (member : entry ∈ entries) {path : String} (below : entry.inside = some path) :
    path ∈ paths entries := by
  induction placed with
  | nil => simp at member
  | snoc placed known ih =>
    rw [paths_append]
    apply List.mem_append_left
    rcases List.mem_append.1 member with member | last
    · exact ih member
    · obtain rfl := List.mem_singleton.1 last
      exact known path below

theorem exists_of_mem_repeats {entries : List Entry} {inside : Option String} {path : String}
    (declared : (inside, path) ∈ repeats entries) :
    ∃ entry ∈ entries, entry.inside = inside ∧ entry.field.path = path ∧
      entry.field.kind = .repeatGroup := by
  obtain ⟨entry, member, declares⟩ := List.mem_filterMap.1 declared
  obtain ⟨kind, same, path⟩ := repeat?_eq_some declares
  exact ⟨entry, member, same, path, kind⟩

theorem mem_of_mem_repeats {entries : List Entry} {inside : Option String} {path : String}
    (declared : (inside, path) ∈ repeats entries) : ∃ entry ∈ entries, entry.inside = inside := by
  obtain ⟨entry, member, same, -⟩ := exists_of_mem_repeats declared
  exact ⟨entry, member, same⟩

/-- The first declaration of a path stays the first when more is declared. -/
theorem firstInside?_append_of_mem {first second : List Entry} {path : String}
    (known : path ∈ paths first) :
    firstInside? (first ++ second) path = firstInside? first path := by
  obtain ⟨inside, known⟩ := mem_paths.1 known
  have found : ((repeats first).find? (·.2 = path)).isSome := by
    rw [List.find?_isSome]
    exact ⟨_, known, by simp⟩
  rw [firstInside?, repeats_append, List.find?_append, Option.or_of_isSome found, firstInside?]

theorem firstInside?_snoc_repeat {before : List Entry} {entry : Entry} {path : String}
    (unknown : path ∉ paths before) (declares : entry.repeat? = some (entry.inside, path)) :
    firstInside? (before ++ [entry]) path = some entry.inside := by
  have missing : (repeats before).find? (·.2 = path) = none := by
    rw [List.find?_eq_none]
    rintro ⟨inside, other⟩ member equal
    simp only [decide_eq_true_eq] at equal
    exact unknown (mem_paths.2 ⟨inside, equal ▸ member⟩)
  rw [firstInside?, repeats_append, List.find?_append, missing, repeats_singleton, declares]
  simp

theorem mem_repeats_of_firstInside? {entries : List Entry} {path : String}
    {inside : Option String} (first : firstInside? entries path = some inside) :
    (inside, path) ∈ repeats entries := by
  obtain ⟨⟨table, other⟩, found, rfl⟩ := Option.map_eq_some_iff.1 first
  have equal := List.find?_some found
  simp only [decide_eq_true_eq] at equal
  exact equal ▸ List.mem_of_find?_eq_some found

end Entry

namespace Field

open Entry (Placed paths)

theorem listEntries_append (inside : Option String) (fields more : List Field) :
    listEntries inside (fields ++ more) = listEntries inside fields ++ listEntries inside more := by
  induction fields with
  | nil => rfl
  | cons field fields ih => rw [List.cons_append, listEntries, ih, listEntries, List.append_assoc]

theorem entries_repeatGroup (inside : Option String) (path : String) (choices : List Choice)
    (children : List Field) :
    entries inside ⟨path, .repeatGroup, choices, children⟩ =
      ⟨inside, path, .repeatGroup, choices, []⟩ :: listEntries (some path) children := rfl

mutual

/-- The walk continues a walk in which its own table is known. -/
theorem placed_append_entries (before : List Entry) (placed : Placed before)
    (inside : Option String) (known : ∀ path, inside = some path → path ∈ paths before) :
    ∀ field : Field, Placed (before ++ entries inside field)
  | ⟨path, kind, choices, children⟩ => by
    cases kind with
    | note => simpa [entries] using placed
    | group => exact placed_append_listEntries before placed inside known children
    | repeatGroup =>
      have here : Placed (before ++ [⟨inside, path, .repeatGroup, choices, []⟩]) :=
        .snoc placed known
      rw [entries_repeatGroup, List.append_cons]
      refine placed_append_listEntries _ here (some path) ?_ children
      rintro other ⟨⟩
      rw [Entry.paths_append]
      exact List.mem_append_right _ (by simp [paths, Entry.repeats, Entry.repeat?])
    | _ => exact .snoc placed known

theorem placed_append_listEntries (before : List Entry) (placed : Placed before)
    (inside : Option String) (known : ∀ path, inside = some path → path ∈ paths before) :
    ∀ fields : List Field, Placed (before ++ listEntries inside fields)
  | [] => by simpa [listEntries] using placed
  | field :: fields => by
    have here := placed_append_entries before placed inside known field
    rw [listEntries, ← List.append_assoc]
    refine placed_append_listEntries _ here inside ?_ fields
    intro path equal
    rw [Entry.paths_append]
    exact List.mem_append_left _ (known path equal)

end

end Field

theorem Form.placed_entries (form : Form) : Entry.Placed form.entries := by
  have := Field.placed_append_listEntries [] .nil none (by simp) form.fields
  simpa [Form.entries] using this

end SurveyTables
