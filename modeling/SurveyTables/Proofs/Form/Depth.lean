import Mathlib.Data.List.Nodup
import Mathlib.Logic.Function.Basic
import SurveyTables.Proofs.Form.Walk

/-! How deep repeat groups nest. If no two repeat fields of a form have the same path, each path
lies at one depth: one below the table that it is declared in. -/
namespace SurveyTables

namespace Field

open Entry (paths)

mutual

/-- The walk meets repeat fields in the order in which they stand in the form. -/
theorem paths_entries_sublist (inside : Option String) : ∀ field : Field,
    (paths (entries inside field)).Sublist
      ((field.withDescendants.filter (·.kind = .repeatGroup)).map Field.path)
  | ⟨path, kind, choices, children⟩ => by
    cases kind with
    | note => exact List.nil_sublist _
    | group => exact paths_listEntries_sublist inside children
    | repeatGroup => exact (paths_listEntries_sublist (some path) children).cons_cons path
    | _ => exact List.nil_sublist _

theorem paths_listEntries_sublist (inside : Option String) : ∀ fields : List Field,
    (paths (listEntries inside fields)).Sublist
      (((listWithDescendants fields).filter (·.kind = .repeatGroup)).map Field.path)
  | [] => List.nil_sublist _
  | field :: fields => by
    have here := paths_entries_sublist inside field
    have later := paths_listEntries_sublist inside fields
    rw [listEntries, listWithDescendants, Entry.paths_append, List.filter_append, List.map_append]
    exact here.append later

end

end Field

theorem Form.paths_sublist (form : Form) : (Entry.paths form.entries).Sublist form.repeatPaths :=
  Field.paths_listEntries_sublist none form.fields

/-- Depths of tables, by repeat path. -/
structure Entry.Levels (entries : List Entry) (level : Option String → Nat) : Prop where
  root : level none = 0
  below : ∀ inside path, (inside, path) ∈ repeats entries →
    level (some path) = level inside + 1
  bounded : ∀ inside, level inside ≤ (paths entries).length

namespace Entry

theorem levels_snoc {before : List Entry} {entry : Entry} {level : Option String → Nat}
    (placed : Placed before) (known : ∀ path, entry.inside = some path → path ∈ paths before)
    {path : String} (declares : entry.repeat? = some (entry.inside, path))
    (new : path ∉ paths before) (valid : Levels before level) :
    Levels (before ++ [entry]) (Function.update level (some path) (level entry.inside + 1)) where
  root := by
    rw [Function.update_of_ne (by simp)]
    exact valid.root
  below := by
    intro inside other declared
    have outside : inside ≠ some path := by
      rintro rfl
      obtain ⟨entry', member, below⟩ := mem_of_mem_repeats declared
      rcases List.mem_append.1 member with earlier | last
      · exact new (placed.mem_paths_of_mem earlier below)
      · obtain rfl := List.mem_singleton.1 last
        exact new (known path below)
    rw [Function.update_of_ne outside]
    rw [repeats_append, repeats_singleton, declares, List.mem_append] at declared
    rcases declared with earlier | last
    · have different : some other ≠ some path := by
        rintro ⟨⟩
        exact new (mem_paths.2 ⟨inside, earlier⟩)
      rw [Function.update_of_ne different]
      exact valid.below inside other earlier
    · obtain ⟨rfl, rfl⟩ := Prod.mk.inj (List.mem_singleton.1 last)
      rw [Function.update_self]
  bounded := by
    intro inside
    rw [paths_append, paths_singleton declares, List.length_append, List.length_singleton]
    by_cases same : inside = some path
    · rw [same, Function.update_self]
      exact Nat.add_le_add_right (valid.bounded entry.inside) 1
    · rw [Function.update_of_ne same]
      exact Nat.le_succ_of_le (valid.bounded inside)

/-- Where no path is declared twice, depths can be given to all tables. -/
theorem Placed.exists_levels {entries : List Entry} (placed : Placed entries)
    (distinct : (paths entries).Nodup) : ∃ level, Levels entries level := by
  induction placed with
  | nil =>
    refine ⟨fun _ => 0, rfl, ?_, fun _ => Nat.zero_le _⟩
    simp
  | @snoc before entry placed known ih =>
    rw [paths_append, List.nodup_append'] at distinct
    obtain ⟨level, valid⟩ := ih distinct.1
    by_cases declares : entry.field.kind = .repeatGroup
    · have declares : entry.repeat? = some (entry.inside, entry.field.path) := if_pos declares
      have new : entry.field.path ∉ paths before := by
        intro old
        refine distinct.2.2 old ?_
        rw [paths_singleton declares]
        exact List.mem_singleton_self _
      exact ⟨_, levels_snoc placed known declares new valid⟩
    · have plain : entry.repeat? = none := if_neg declares
      have same : repeats (before ++ [entry]) = repeats before := by
        rw [repeats_append, repeats_singleton, plain, Option.toList_none, List.append_nil]
      refine ⟨level, valid.root, ?_, ?_⟩
      · rw [same]
        exact valid.below
      · rw [paths, same]
        exact valid.bounded

end Entry

theorem Form.exists_levels (form : Form) (distinct : form.repeatPaths.Nodup) :
    ∃ level, Entry.Levels form.entries level :=
  form.placed_entries.exists_levels (distinct.sublist form.paths_sublist)

end SurveyTables
