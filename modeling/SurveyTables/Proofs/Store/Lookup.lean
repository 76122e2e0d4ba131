import Mathlib.Data.List.Nodup
import SurveyTables.Store.Basic

/-! The lookup of a publication takes the first that has the identifier. Where no two have the same
one it opens what is listed, in whatever order it is listed. -/
namespace SurveyTables

namespace Publication

variable {publications : List Publication} {u : Uuid} {publication : Publication}

theorem find?_eq_none_iff :
    publications.find? (·.uuid = u) = none ↔
      ∀ publication ∈ publications, publication.uuid ≠ u := by
  simp

theorem uuid_of_find? (found : publications.find? (·.uuid = u) = some publication) :
    publication.uuid = u := by
  simpa using List.find?_some found

/-- Under different identifiers the first publication with one is the only one. -/
theorem find?_eq_some_iff (distinct : (publications.map uuid).Nodup) :
    publications.find? (·.uuid = u) = some publication ↔
      publication ∈ publications ∧ publication.uuid = u := by
  constructor
  · intro found
    exact ⟨List.mem_of_find?_eq_some found, uuid_of_find? found⟩
  · rintro ⟨listed, rfl⟩
    cases found : publications.find? (·.uuid = publication.uuid) with
    | none => exact absurd rfl (find?_eq_none_iff.1 found publication listed)
    | some first =>
      have member := List.mem_of_find?_eq_some found
      rw [List.inj_on_of_nodup_map distinct member listed (uuid_of_find? found)]

end Publication

namespace Store

/-- An identifier opens the publication that is listed under it, in whatever order they are
listed. -/
structure OpensListed (store : Store) : Prop where
  found_iff : ∀ u publication, store.publication u = .ok publication ↔
    publication ∈ store.publications ∧ publication.uuid = u ∧ publication.active = true
  inactive_iff : ∀ u text, store.publication u = .error (.publicationInactive text) ↔
    u.text = text ∧ ∃ publication ∈ store.publications,
      publication.uuid = u ∧ publication.active = false
  unknown_iff : ∀ u text, store.publication u = .error (.publicationNotFound text) ↔
    u.text = text ∧ ∀ publication ∈ store.publications, publication.uuid ≠ u
  unordered : ∀ other : Store, store.publications.Perm other.publications →
    ∀ u, other.publication u = store.publication u

section

variable {store : Store} {u : Uuid}

theorem publication_of_find?_eq_none (unknown : store.publications.find? (·.uuid = u) = none) :
    store.publication u = .error (.publicationNotFound u.text) := by
  rw [Store.publication, unknown]

theorem publication_of_find?_eq_some {first : Publication}
    (found : store.publications.find? (·.uuid = u) = some first) :
    store.publication u =
      if first.active then .ok first else .error (.publicationInactive u.text) := by
  rw [Store.publication, found]

theorem publication_eq_ok_iff {publication : Publication} :
    store.publication u = .ok publication ↔
      store.publications.find? (·.uuid = u) = some publication ∧ publication.active = true := by
  cases found : store.publications.find? (·.uuid = u) with
  | none => simp [publication_of_find?_eq_none found]
  | some first =>
    rw [publication_of_find?_eq_some found, Option.some.injEq]
    constructor
    · intro opened
      split_ifs at opened with active
      cases opened
      exact ⟨rfl, active⟩
    · rintro ⟨rfl, active⟩
      rw [if_pos active]

theorem publication_eq_inactive_iff {text : String} :
    store.publication u = .error (.publicationInactive text) ↔ u.text = text ∧
      ∃ publication, store.publications.find? (·.uuid = u) = some publication ∧
        publication.active = false := by
  cases found : store.publications.find? (·.uuid = u) with
  | none => simp [publication_of_find?_eq_none found]
  | some first =>
    rw [publication_of_find?_eq_some found]
    cases active : first.active <;> simp [active]

theorem publication_eq_unknown_iff {text : String} :
    store.publication u = .error (.publicationNotFound text) ↔
      u.text = text ∧ store.publications.find? (·.uuid = u) = none := by
  cases found : store.publications.find? (·.uuid = u) with
  | none => simp [publication_of_find?_eq_none found]
  | some first =>
    rw [publication_of_find?_eq_some found]
    cases first.active <;> simp

end

theorem opensListed (store : Store) (distinct : (store.publications.map Publication.uuid).Nodup) :
    store.OpensListed where
  found_iff u publication := by
    rw [publication_eq_ok_iff, Publication.find?_eq_some_iff distinct, and_assoc]
  inactive_iff u text := by
    simp only [publication_eq_inactive_iff, Publication.find?_eq_some_iff distinct, and_assoc]
  unknown_iff u text := by
    rw [publication_eq_unknown_iff, Publication.find?_eq_none_iff]
  unordered other same u := by
    have distinct' : (other.publications.map Publication.uuid).Nodup :=
      (same.map Publication.uuid).nodup_iff.1 distinct
    have found : other.publications.find? (·.uuid = u) = store.publications.find? (·.uuid = u) := by
      ext publication
      rw [Publication.find?_eq_some_iff distinct, Publication.find?_eq_some_iff distinct',
        same.mem_iff]
    rw [Store.publication, found]
    rfl

end Store

end SurveyTables
