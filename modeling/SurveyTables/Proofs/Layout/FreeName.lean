import Mathlib.Data.Finset.Card
import Mathlib.Data.Nat.Find
import SurveyTables.Proofs.Layout.Names

/-! The search for the name of a new table. The suggested name is examined first, then the name
with each number from two on, and the first name that is not in use is taken. The candidates never
repeat, so the search ends when it has met every name in use at the latest. -/
namespace SurveyTables.Layout

/-- The names that a search examines, one after another and without end. -/
def candidate (name : String) : Nat → String
  | 0 => name
  | place + 1 => numbered name (place + 2)

theorem candidate_injective (name : String) : Function.Injective (candidate name) := by
  intro a b same
  cases a with
  | zero =>
    cases b with
    | zero => rfl
    | succ b => exact absurd same.symm (numbered_ne name (b + 2))
  | succ a =>
    cases b with
    | zero => exact absurd same (numbered_ne name (a + 2))
    | succ b =>
      have number := numbered_injective same
      omega

/-- Where a search stands: before the candidate at a place, or at its end. -/
inductive Search where
  | examining (place : Nat)
  | settled (found : String)
deriving DecidableEq

namespace Search

/-- Examines one candidate. -/
def step (used : List String) (name : String) : Search → Search
  | examining place =>
    if candidate name place ∈ used then examining (place + 1) else settled (candidate name place)
  | settled found => settled found

def run (used : List String) (name : String) : Nat → Search
  | 0 => examining 0
  | count + 1 => step used name (run used name count)

variable {used : List String} {name : String} {place : Nat}

theorem step_examining_of_mem (inUse : candidate name place ∈ used) :
    step used name (examining place) = examining (place + 1) := if_pos inUse

theorem step_examining_of_not_mem (free : candidate name place ∉ used) :
    step used name (examining place) = settled (candidate name place) := if_neg free

theorem run_of_mem (inUse : ∀ earlier < place, candidate name earlier ∈ used) :
    run used name place = examining place := by
  induction place with
  | zero => rfl
  | succ place ih =>
    have before := ih fun earlier less => inUse earlier (Nat.lt_succ_of_lt less)
    rw [run, before]
    exact step_examining_of_mem (inUse place (Nat.lt_succ_self place))

theorem run_of_le {found : String} {count later : Nat} (ended : run used name count = settled found)
    (le : count ≤ later) : run used name later = settled found := by
  induction later, le using Nat.le_induction with
  | base => exact ended
  | succ later _ ih => rw [run, ih, step]

end Search

/-- A place of a search at which it ends: its candidate is free and no earlier one is. -/
structure EndsAt (used : List String) (name : String) (place : Nat) : Prop where
  free : candidate name place ∉ used
  inUse : ∀ earlier < place, candidate name earlier ∈ used

namespace EndsAt

variable {used : List String} {name : String} {place : Nat}

/-- Before its end a search has met as many names in use as it has examined candidates. -/
theorem le_card (ends : EndsAt used name place) {names : Finset String}
    (covers : ∀ other ∈ used, other ∈ names) : place ≤ names.card := by
  have inside : (Finset.range place).image (candidate name) ⊆ names := by
    intro other member
    obtain ⟨earlier, less, rfl⟩ := Finset.mem_image.1 member
    exact covers _ (ends.inUse earlier (Finset.mem_range.1 less))
  have met : ((Finset.range place).image (candidate name)).card = place := by
    rw [Finset.card_image_of_injective _ (candidate_injective name), Finset.card_range]
  rw [← met]
  exact Finset.card_le_card inside

theorem run_succ (ends : EndsAt used name place) :
    Search.run used name (place + 1) = .settled (candidate name place) := by
  rw [Search.run, Search.run_of_mem ends.inUse]
  exact Search.step_examining_of_not_mem ends.free

/-- Numbers enough being given, the search among them finds the candidate. -/
theorem find?_numbered (ends : EndsAt used name (place + 1)) {count : Nat} (enough : place < count) :
    ((List.range' 2 count).map (numbered name)).find? (!used.contains ·) =
      some (candidate name (place + 1)) := by
  have first : (List.range' 2 count).find? (fun n => !used.contains (numbered name n)) =
      some (place + 2) := by
    have free : numbered name (place + 2) ∉ used := ends.free
    rw [List.find?_range'_eq_some]
    refine ⟨by simpa using free, by rw [List.mem_range'_1]; omega, ?_⟩
    intro n from2 less
    obtain ⟨earlier, rfl⟩ := Nat.exists_eq_add_of_le' from2
    have inUse : numbered name (earlier + 2) ∈ used := ends.inUse (earlier + 1) (by omega)
    simpa using inUse
  rw [List.find?_map, Function.comp_def, first]
  rfl

end EndsAt

/-- Every search ends, because one candidate of so many is free. -/
theorem exists_endsAt (used : List String) (name : String) : ∃ place, EndsAt used name place := by
  have free : ∃ place, candidate name place ∉ used := by
    by_cases inUse : name ∈ used
    · obtain ⟨n, range, free⟩ := exists_numbered_not_mem inUse
      obtain ⟨from2, -⟩ := List.mem_range'_1.1 range
      obtain ⟨place, rfl⟩ := Nat.exists_eq_add_of_le' from2
      exact ⟨place + 1, free⟩
    · exact ⟨0, inUse⟩
  refine ⟨Nat.find free, Nat.find_spec free, fun earlier less => ?_⟩
  exact not_not.1 (Nat.find_min free less)

theorem freeName_eq_candidate {used : List String} {name : String} {place : Nat}
    (ends : EndsAt used name place) : freeName used name = candidate name place := by
  cases place with
  | zero =>
    have free : name ∉ used := ends.free
    rw [freeName, if_neg (by simpa using free), candidate]
  | succ place =>
    have inUse : name ∈ used := ends.inUse 0 (Nat.succ_pos place)
    have enough : place < used.length :=
      (ends.le_card fun _ => List.mem_toFinset.2).trans (List.toFinset_card_le used)
    rw [freeName, if_pos (by simpa using inUse), ends.find?_numbered enough, Option.getD_some]

/-- How the search for the name of a table ends that is opened from the table at `parent`. -/
structure Settles (layout : Layout) (parent : Nat) (table : Table) (name found : String) :
    Prop where
  /-- it examines no more candidates than there are tables and names taken, and one -/
  ends : ∃ count ≤ layout.tables.length + table.taken.toFinset.card + 1,
    (∀ earlier < count, Search.run (layout.usedNames parent) name earlier = .examining earlier) ∧
      ∀ later, count ≤ later → Search.run (layout.usedNames parent) name later = .settled found
  whole : name ∉ layout.usedNames parent → found = name
  least : name ∈ layout.usedNames parent → ∃ n, 2 ≤ n ∧
    n ≤ layout.tables.length + table.taken.toFinset.card + 1 ∧ found = numbered name n ∧
      ∀ m, 2 ≤ m → m < n → numbered name m ∈ layout.usedNames parent
  free : found ∉ layout.names ∧ found ∉ table.taken
  /-- no stretch of numbers that is long enough is searched in vain -/
  unfailing : name ∈ layout.usedNames parent →
    ∀ count, layout.tables.length + table.taken.toFinset.card ≤ count →
      ((List.range' 2 count).map (numbered name)).find? (!(layout.usedNames parent).contains ·) =
        some found

/-- A table is opened under the first candidate that no table has and that is not taken in the
table it is opened from. -/
theorem settles_freeName {layout : Layout} {parent : Nat} {table : Table}
    (opened : layout.table? parent = some table) (name : String) :
    Settles layout parent table name (freeName (layout.usedNames parent) name) := by
  obtain ⟨place, ends⟩ := exists_endsAt (layout.usedNames parent) name
  have bound : place ≤ layout.tables.length + table.taken.toFinset.card := by
    have covers : ∀ other ∈ layout.usedNames parent,
        other ∈ layout.names.toFinset ∪ table.taken.toFinset := by
      intro other inUse
      rwa [mem_usedNames opened, ← List.mem_toFinset, ← List.mem_toFinset (l := table.taken),
        ← Finset.mem_union] at inUse
    have names : layout.names.toFinset.card ≤ layout.tables.length :=
      (List.toFinset_card_le _).trans (Nat.le_of_eq (List.length_map _))
    have union := Finset.card_union_le layout.names.toFinset table.taken.toFinset
    have met := ends.le_card covers
    omega
  have found := freeName_eq_candidate ends
  constructor
  case ends =>
    refine ⟨place + 1, Nat.succ_le_succ bound, ?_, ?_⟩
    · intro earlier less
      exact Search.run_of_mem fun first before => ends.inUse first (by omega)
    · intro later le
      rw [found]
      exact Search.run_of_le ends.run_succ le
  case whole =>
    intro free
    rw [freeName, if_neg (by simpa using free)]
  case least =>
    intro inUse
    cases place with
    | zero => exact absurd inUse ends.free
    | succ place =>
      refine ⟨place + 2, by omega, by omega, found, ?_⟩
      intro m from2 less
      obtain ⟨earlier, rfl⟩ := Nat.exists_eq_add_of_le' from2
      exact ends.inUse (earlier + 1) (by omega)
  case free =>
    have free := freeName_not_mem (layout.usedNames parent) name
    rwa [mem_usedNames opened, not_or] at free
  case unfailing =>
    intro inUse count enough
    cases place with
    | zero => exact absurd inUse ends.free
    | succ place =>
      rw [found]
      exact ends.find?_numbered (by omega)

/-- A repeat group, and a field with the name that a second group of its name would get. -/
def larder : Form where
  idString := "larder"
  projectId := 3
  title := "Larder"
  fields := [⟨"items_2", .text, [], []⟩,
    ⟨"shelf", .group, [], [⟨"shelf/items", .repeatGroup, [], []⟩]⟩]

theorem settles_larder :
    (infer larder).table? 0 = some (infer larder).root ∧
      freeName ((infer larder).usedNames 0) "items" = "items_3" ∧
      Settles (infer larder) 0 (infer larder).root "items" "items_3" := by
  have third : freeName ((infer larder).usedNames 0) "items" = "items_3" := by decide +kernel
  have opened : (infer larder).table? 0 = some (infer larder).root := rfl
  have settles := settles_freeName opened "items"
  rw [third] at settles
  exact ⟨opened, third, settles⟩

end SurveyTables.Layout
