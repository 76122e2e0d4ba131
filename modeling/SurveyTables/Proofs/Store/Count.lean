import SurveyTables.Proofs.Export.Chunks
import SurveyTables.Proofs.Store.Filter

/-! Counts and row streams. Both ask the store for the same submissions, the one to count them and
the other to flatten them; they agree in how many there are, or in the failure of the store that
comes first. -/
namespace SurveyTables

namespace Feed

variable {ε α : Type}

/-- Results are all values, or begin with values before a first error. -/
theorem values_or_error (results : List (Except ε α)) :
    (∃ values : List α, results = values.map .ok) ∨
      ∃ (before : List α) (error : ε) (later : List (Except ε α)),
        results = before.map .ok ++ .error error :: later := by
  induction results with
  | nil => exact .inl ⟨[], rfl⟩
  | cons result results ih =>
    cases result with
    | error error => exact .inr ⟨[], error, results, rfl⟩
    | ok value =>
      rcases ih with ⟨values, rfl⟩ | ⟨before, error, later, rfl⟩
      · exact .inl ⟨value :: values, rfl⟩
      · exact .inr ⟨value :: before, error, later, rfl⟩

theorem standing_of_values {feed : Feed ε α} {values : List α}
    (whole : feed.results = values.map .ok) :
    feed.standing = none ∧ feed.items = values.map .ok := by
  obtain ⟨items, standing⟩ := feed
  cases standing with
  | none => exact ⟨rfl, (List.append_nil items).symm.trans whole⟩
  | some error =>
    have listed : Except.error error ∈ values.map Except.ok :=
      whole ▸ List.mem_append_right items List.mem_cons_self
    obtain ⟨value, -, impossible⟩ := List.mem_map.1 listed
    contradiction

end Feed

namespace Exporter

/-- Whether a result is what has become of one submission: its row, or why it has none. -/
def isOfSubmission : Except ExportError Row → Bool
  | .ok _ | .error (.flatten _) => true
  | .error _ => false

theorem isOfSubmission_result (exporter : Exporter) (submission : Submission) :
    isOfSubmission (exporter.result (.ok submission)) := by
  rw [result]
  cases exporter.flatten submission <;> rfl

theorem results_rows_eq (exporter : Exporter) (stored : Feed StoreError Submission) :
    (exporter.rows stored).results = stored.results.map exporter.result := by
  have items : (exporter.rows stored).items = stored.items.map exporter.result :=
    items_rows exporter stored
  obtain ⟨_, standing⟩ := stored
  rw [Feed.results, Feed.results, items, List.map_append]
  cases standing <;> rfl

end Exporter

namespace Service

open Exporter (isOfSubmission)

/-- How a count stands to a row stream, both made of what the store delivers. -/
structure Counts (stored : Feed StoreError Submission) (rows : Feed ExportError Row)
    (count : Except ExportError Nat) : Prop where
  succeeds_iff : (∃ n, count = .ok n) ↔ ∀ item ∈ stored.results, item.isOk
  /-- a stream that ends after as many results, one for each submission -/
  whole : ∀ n, count = .ok n →
    rows.standing = none ∧ rows.items.length = n ∧ ∀ result ∈ rows.items, isOfSubmission result
  written : ∀ n, count = .ok n → (∀ result ∈ rows.results, result.isOk) →
    (JsonArray.write rows).outcome = .ok n
  /-- what comes before the first failure of the store is a row or the fault of a submission -/
  fails : ∀ error, count = .error error → ∃ before cause later,
    error = .store cause ∧ rows.results = before ++ .error (.store cause) :: later ∧
      ∀ result ∈ before, isOfSubmission result

theorem counts_of_values (exporter : Exporter) {stored : Feed StoreError Submission}
    {submissions : List Submission} (whole : stored.results = submissions.map .ok) :
    Counts stored (exporter.rows stored) (.ok submissions.length) := by
  obtain ⟨standing, items⟩ := Feed.standing_of_values whole
  have results := exporter.results_rows_eq stored
  rw [whole, List.map_map] at results
  refine ⟨?succeeds_iff, ?whole, ?written, fun error impossible => by contradiction⟩
  case succeeds_iff =>
    rw [whole]
    simp [Except.isOk, Except.toBool]
  case whole =>
    rintro n ⟨⟩
    rw [Exporter.items_rows, items, List.map_map, List.length_map, List.forall_mem_map]
    refine ⟨congrArg (Option.map ExportError.store) standing, rfl, ?_⟩
    exact fun submission _ => exporter.isOfSubmission_result submission
  case written =>
    rintro n ⟨⟩ clean
    rcases Feed.values_or_error (exporter.rows stored).results with
      ⟨roots, rooted⟩ | ⟨before, error, later, failed⟩
    · have length := congrArg List.length (rooted.symm.trans results)
      rw [List.length_map, List.length_map] at length
      rw [JsonArray.write_of_ok rooted, length]
    · have impossible := clean (.error error) (failed ▸ by simp)
      contradiction

theorem counts_of_error (exporter : Exporter) {stored : Feed StoreError Submission}
    {before : List Submission} {cause : StoreError} {later : List (Except StoreError Submission)}
    (failed : stored.results = before.map .ok ++ .error cause :: later) :
    Counts stored (exporter.rows stored) (.error (.store cause)) := by
  have results := exporter.results_rows_eq stored
  rw [failed, List.map_append, List.map_map] at results
  refine ⟨?succeeds_iff, fun n impossible => by contradiction,
    fun n impossible => by contradiction, ?fails⟩
  case succeeds_iff =>
    constructor
    · rintro ⟨n, impossible⟩
      contradiction
    · intro clean
      have impossible := clean (.error cause) (failed ▸ by simp)
      contradiction
  case fails =>
    rintro error ⟨⟩
    refine ⟨_, cause, _, rfl, results, ?_⟩
    rw [List.forall_mem_map]
    exact fun submission _ => exporter.isOfSubmission_result submission

/-- Where a row stream opens, the count of the same request is its length, or the first failure of
the store that the stream delivers. -/
theorem counts_of_rows (service : Service) (uuid : Uuid) (filter : SubmissionFilter)
    (rows : Feed ExportError Row) (opened : service.rows uuid filter = .ok rows) :
    ∃ publication stored, service.store.publication uuid = .ok publication ∧
      service.store.submissions publication.form filter = .ok stored ∧
      Counts stored rows (service.count uuid filter) := by
  obtain ⟨publication, form, stored, found, -, offered, rfl⟩ := rows_eq_ok_iff.1 opened
  have counted : service.count uuid filter = stored.count.mapError .store := by
    simp [count, Service.publication, Store.count, found, offered, Except.mapError, bind,
      Except.bind]
  refine ⟨publication, stored, found, offered, ?_⟩
  rw [counted, Feed.count]
  rcases Feed.values_or_error stored.results with
    ⟨submissions, whole⟩ | ⟨before, cause, later, failed⟩
  · have counts := counts_of_values (.ofForm form service.baseUrl) whole
    rw [whole, Feed.countValues_ok]
    exact counts
  · have counts := counts_of_error (.ofForm form service.baseUrl) failed
    rw [failed, Feed.countValues_error]
    exact counts

/-- The diary without its torn line: of three submissions the first is left out by its number, and
the second has none. -/
def mendedDiary : Service :=
  ⟨Directory.store (diaryFiles (Text.encode diaryDefinition)
    (Text.encode "\x7b\"_id\": 1\x7d\n \n\x7b\x7d\r\n\x7b\"_id\": \"2\"\x7d")) "data"
      diaryPublications, ""⟩

/-- Both streams open; one count fails where the torn line stands, the other is two. -/
theorem counts_diaries :
    (∃ stored rows cause, diary.rows ⟨7⟩ ⟨some 1⟩ = .ok rows ∧
      Counts stored rows (diary.count ⟨7⟩ ⟨some 1⟩) ∧
      diary.count ⟨7⟩ ⟨some 1⟩ = .error (.store cause)) ∧
    ∃ stored rows, mendedDiary.rows ⟨7⟩ ⟨some 1⟩ = .ok rows ∧
      Counts stored rows (mendedDiary.count ⟨7⟩ ⟨some 1⟩) ∧
      mendedDiary.count ⟨7⟩ ⟨some 1⟩ = .ok 2 := by
  constructor
  · have opens : (diary.rows ⟨7⟩ ⟨some 1⟩).isOk := by decide +kernel
    cases opened : diary.rows ⟨7⟩ ⟨some 1⟩ with
    | error error => rw [opened] at opens; contradiction
    | ok rows =>
      obtain ⟨_, stored, -, -, counts⟩ := counts_of_rows diary ⟨7⟩ ⟨some 1⟩ rows opened
      exact ⟨stored, rows, .invalidSubmission "data/diary/submissions.jsonl" 3 "not a JSON text",
        rfl, counts, by decide +kernel⟩
  · have opens : (mendedDiary.rows ⟨7⟩ ⟨some 1⟩).isOk := by decide +kernel
    cases opened : mendedDiary.rows ⟨7⟩ ⟨some 1⟩ with
    | error error => rw [opened] at opens; contradiction
    | ok rows =>
      obtain ⟨_, stored, -, -, counts⟩ := counts_of_rows mendedDiary ⟨7⟩ ⟨some 1⟩ rows opened
      exact ⟨stored, rows, rfl, counts, by decide +kernel⟩

end Service

end SurveyTables
