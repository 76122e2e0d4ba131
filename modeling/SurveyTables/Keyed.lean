/-! Named values in the order in which their names were first given. Giving a name again
changes its value and leaves its place. -/
namespace SurveyTables

abbrev Keyed (α : Type) := List (String × α)

namespace Keyed

variable {α : Type}

def insert (key : String) (value : α) : Keyed α → Keyed α
  | [] => [(key, value)]
  | (k, v) :: rest => if k = key then (key, value) :: rest else (k, v) :: insert key value rest

def get? (entries : Keyed α) (key : String) : Option α := entries.lookup key

def extend (entries : Keyed α) (more : List (String × α)) : Keyed α :=
  more.foldl (fun acc entry => insert entry.1 entry.2 acc) entries

/-- The entries of a list in which a later value wins at the first place of its name. -/
def ofList (more : List (String × α)) : Keyed α := extend [] more

def keys (entries : Keyed α) : List String := entries.map Prod.fst

@[simp] theorem get?_nil (key : String) : get? ([] : Keyed α) key = none := rfl

theorem get?_cons (entry : String × α) (entries : Keyed α) (key : String) :
    get? (entry :: entries) key = if key = entry.1 then some entry.2 else get? entries key := by
  rw [get?, List.lookup_cons]
  by_cases h : key = entry.1
  · simp [h]
  · rw [beq_false_of_ne h, if_neg h, get?]

theorem get?_insert (entries : Keyed α) (key other : String) (value : α) :
    get? (insert key value entries) other =
      if other = key then some value else get? entries other := by
  induction entries with
  | nil => simp [insert, get?_cons]
  | cons entry rest ih =>
    obtain ⟨k, v⟩ := entry
    by_cases h : k = key
    · subst h; simp only [insert, if_pos, get?_cons]; split <;> rfl
    · simp only [insert, if_neg h, get?_cons, ih]
      by_cases hk : other = k
      · subst hk; simp [h]
      · simp [hk]

theorem get?_isSome_iff {entries : Keyed α} {key : String} :
    (entries.get? key).isSome ↔ key ∈ entries.keys := by
  induction entries with
  | nil => simp [keys]
  | cons entry rest ih =>
    rw [get?_cons]
    by_cases h : key = entry.1
    · simp [h, keys]
    · simp [h, ih, keys]

theorem mem_of_get? {entries : Keyed α} {key : String} {value : α}
    (found : entries.get? key = some value) : (key, value) ∈ entries := by
  induction entries with
  | nil => simp at found
  | cons entry rest ih =>
    rw [get?_cons] at found
    split at found
    · next h =>
      obtain rfl := Option.some.inj found
      rw [h]
      exact List.mem_cons_self
    · exact List.mem_cons_of_mem _ (ih found)

theorem get?_eq_some {entries : Keyed α} (distinct : entries.keys.Nodup) {key : String}
    {value : α} (member : (key, value) ∈ entries) : entries.get? key = some value := by
  induction entries with
  | nil => simp at member
  | cons entry rest ih =>
    obtain ⟨new, distinct⟩ := List.nodup_cons.1 distinct
    rw [get?_cons]
    rcases List.mem_cons.1 member with rfl | member
    · rw [if_pos rfl]
    · have other : key ≠ entry.1 := by
        rintro rfl
        exact new (List.mem_map.2 ⟨_, member, rfl⟩)
      rw [if_neg other, ih distinct member]

theorem get?_perm {entries other : Keyed α} (distinct : entries.keys.Nodup)
    (same : entries.Perm other) (key : String) : entries.get? key = other.get? key := by
  have distinct' : other.keys.Nodup := (same.map Prod.fst).nodup_iff.1 distinct
  cases found : entries.get? key with
  | some value => exact (get?_eq_some distinct' (same.subset (mem_of_get? found))).symm
  | none =>
    cases found' : other.get? key with
    | none => rfl
    | some value =>
      rw [get?_eq_some distinct (same.symm.subset (mem_of_get? found'))] at found
      contradiction

theorem insert_of_not_mem {entries : Keyed α} {key : String} (new : key ∉ entries.keys)
    (value : α) : insert key value entries = entries ++ [(key, value)] := by
  induction entries with
  | nil => rfl
  | cons entry rest ih =>
    simp only [keys, List.map_cons, List.mem_cons, not_or] at new
    rw [insert, if_neg (Ne.symm new.1), ih new.2]
    rfl

theorem extend_of_nodup {entries : Keyed α} {more : List (String × α)}
    (distinct : (entries.keys ++ more.map Prod.fst).Nodup) :
    entries.extend more = entries ++ more := by
  induction more generalizing entries with
  | nil => simp [extend]
  | cons entry rest ih =>
    rw [List.map_cons, List.append_cons] at distinct
    have new : entry.1 ∉ entries.keys := by
      intro member
      have apart := (List.nodup_append.1 (List.nodup_append.1 distinct).1).2.2
      exact apart _ member _ List.mem_cons_self rfl
    have first : insert entry.1 entry.2 entries = entries ++ [entry] := insert_of_not_mem new _
    have here : entries.extend (entry :: rest) = (entries ++ [entry]).extend rest := by
      rw [extend, List.foldl_cons, first]
      rfl
    have later : ((entries ++ [entry]).keys ++ rest.map Prod.fst).Nodup := by
      simpa [keys] using distinct
    rw [here, ih later, List.append_assoc, List.singleton_append]

theorem ofList_of_nodup {more : List (String × α)} (distinct : (more.map Prod.fst).Nodup) :
    ofList more = more :=
  extend_of_nodup (by simpa [keys] using distinct)

theorem mem_of_mem_insert {entries : Keyed α} {key : String} {value : α} {entry : String × α}
    (member : entry ∈ insert key value entries) : entry = (key, value) ∨ entry ∈ entries := by
  induction entries with
  | nil => exact .inl (List.mem_singleton.1 member)
  | cons first rest ih =>
    rw [insert] at member
    split at member
    · exact (List.mem_cons.1 member).imp_right (List.mem_cons_of_mem _)
    · rcases List.mem_cons.1 member with rfl | member
      · exact .inr List.mem_cons_self
      · exact (ih member).imp_right (List.mem_cons_of_mem _)

theorem nodup_keys_insert {entries : Keyed α} (distinct : entries.keys.Nodup) (key : String)
    (value : α) : (insert key value entries).keys.Nodup := by
  induction entries with
  | nil => exact List.nodup_cons.2 ⟨List.not_mem_nil, List.nodup_nil⟩
  | cons first rest ih =>
    obtain ⟨new, distinct⟩ := List.nodup_cons.1 distinct
    rw [insert]
    split
    · next same => exact List.nodup_cons.2 ⟨same ▸ new, distinct⟩
    · next other =>
      refine List.nodup_cons.2 ⟨fun member => ?_, ih distinct⟩
      obtain ⟨entry, member, named⟩ := List.mem_map.1 member
      rcases mem_of_mem_insert member with rfl | member
      · exact other named.symm
      · exact new (List.mem_map.2 ⟨entry, member, named⟩)

theorem mem_of_mem_extend {entries : Keyed α} {more : List (String × α)} {entry : String × α}
    (member : entry ∈ entries.extend more) : entry ∈ entries ∨ entry ∈ more := by
  induction more generalizing entries with
  | nil => exact .inl member
  | cons first rest ih =>
    rcases ih member with member | member
    · rcases mem_of_mem_insert member with rfl | member
      · exact .inr List.mem_cons_self
      · exact .inl member
    · exact .inr (List.mem_cons_of_mem _ member)

theorem nodup_keys_extend {entries : Keyed α} (distinct : entries.keys.Nodup)
    (more : List (String × α)) : (entries.extend more).keys.Nodup := by
  induction more generalizing entries with
  | nil => exact distinct
  | cons first rest ih => exact ih (nodup_keys_insert distinct _ _)

theorem mem_of_mem_ofList {more : List (String × α)} {entry : String × α}
    (member : entry ∈ ofList more) : entry ∈ more :=
  (mem_of_mem_extend member).resolve_left List.not_mem_nil

/-- No name stands twice in what was given under names, whichever were given. -/
theorem nodup_keys_ofList (more : List (String × α)) : (ofList more).keys.Nodup :=
  @nodup_keys_extend α [] List.nodup_nil more

end Keyed

end SurveyTables
