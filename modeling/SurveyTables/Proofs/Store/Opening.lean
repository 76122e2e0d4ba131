import SurveyTables.Proofs.FileSystem.Lookup
import SurveyTables.Proofs.Http.Status
import SurveyTables.Proofs.Store.Count
import SurveyTables.Proofs.Store.Growth
import SurveyTables.Proofs.Store.Interchange

/-! What a store answers at once and what it delivers later. Only when submissions are opened can a
form be missing; errors among what is delivered are of another kind. -/
namespace SurveyTables

open ExportError (Missing not_missing_io not_missing_invalidSubmission)

namespace Store

/-- The submissions of a form cannot be opened, and not for want of the form. -/
def Unopened (store : Store) (form : String) (filter : SubmissionFilter) : Prop :=
  ∃ cause, store.submissions form filter = .error cause ∧ ¬Missing (.store cause)

/-- The submissions of a form are opened, and an error is among them. -/
def YieldsError (store : Store) (form : String) (filter : SubmissionFilter) : Prop :=
  ∃ stored error, store.submissions form filter = .ok stored ∧ .error error ∈ stored.results

theorem missing_of_publication {store : Store} {uuid : Uuid} {cause : StoreError}
    (refused : store.publication uuid = .error cause) : Missing (.store cause) := by
  unfold publication at refused
  split at refused
  · cases refused
    exact .publication _
  · split at refused
    · contradiction
    · cases refused
      exact .inactive _

/-- Both stores have the same form under a name, and its submissions can be opened in both or fail
to open with the same error. What is delivered then may be anything. -/
structure OpensAlike (store other : Store) (name : String) : Prop where
  form : store.form name = other.form name
  submissions : ∀ filter,
    Except.FailAlike (store.submissions name filter) (other.submissions name filter)

end Store

namespace Directory

theorem not_missing_of_lineItem {path : String} {filter : SubmissionFilter} {number : Nat}
    {line : List UInt8} {error : StoreError}
    (item : lineItem path filter number line = some (.error error)) :
    ¬Missing (.store error) := by
  unfold lineItem at item
  split at item
  · cases item
    exact not_missing_io _
  · split at item
    · next invalid =>
      obtain ⟨reason, rfl⟩ := readLine_eq_error invalid
      cases item
      exact not_missing_invalidSubmission path number reason
    · contradiction
    · split at item <;> cases item

theorem not_missing_of_delivered {fs : FileSystem} {dataDirectory name : String}
    {filter : SubmissionFilter} {stored : Feed StoreError Submission} {error : StoreError}
    (opened : submissions fs dataDirectory name filter = .ok stored)
    (delivered : .error error ∈ stored.results) : ¬Missing (.store error) := by
  obtain ⟨directory, -, offers⟩ := submissions_eq_ok_iff.1 opened
  generalize fs.read _ = content at offers
  cases offers with
  | nothing => simp [Feed.results] at delivered
  | directory =>
    obtain rfl : error = .io "not a file" := by simpa [Feed.results] using delivered
    exact not_missing_io _
  | file bytes =>
    rw [Feed.results, Option.toList_none, List.map_nil, List.append_nil, readLines_eq_filterMap,
      List.mem_filterMap] at delivered
    obtain ⟨_, -, item⟩ := delivered
    exact not_missing_of_lineItem item

theorem submissions_slashes {fs : FileSystem} {entries : List (String × FileTree)}
    (root : fs.root = .directory entries) {n : Nat} (some : 0 < n)
    (short : n < FileSystem.pathLimit)
    (long : FileSystem.pathLimit ≤ n + submissionsFile.utf8ByteSize) (dataDirectory : String)
    (filter : SubmissionFilter) :
    submissions fs dataDirectory (FilePath.slashes n) filter = .error (.io "path too long") := by
  have absolute : FilePath.isAbsolute (FilePath.slashes n) = true := by
    obtain ⟨m, rfl⟩ := Nat.exists_eq_add_of_lt some
    simp [FilePath.isAbsolute, Text.startsWith, FilePath.slashes, List.replicate_succ]
  have ends : (FilePath.slashes n).toList.getLast? = .some '/' := by
    rw [FilePath.slashes, String.toList_ofList, List.getLast?_replicate, if_neg (by omega)]
  have join : FilePath.join (FilePath.slashes n) submissionsFile =
      FilePath.slashes n ++ submissionsFile := by
    rw [FilePath.join, if_neg (by decide), ends]
    simp
  have found : formDirectory fs dataDirectory (FilePath.slashes n) = .ok (FilePath.slashes n) := by
    rw [formDirectory, FilePath.join, if_pos absolute]
    simp [FileSystem.isDirectory_slashes root some short]
  have tooLong : fs.read (FilePath.slashes n ++ submissionsFile) = .error .pathTooLong := by
    rw [FileSystem.read, String.utf8ByteSize_append, FilePath.utf8ByteSize_slashes, if_pos long]
  rw [submissions, found]
  simp only [bind, Except.bind, join, tooLong]

end Directory

namespace Stock

theorem publications_store (stock : Stock) (publications : List Publication) :
    (stock.store publications).publications = publications := by
  cases stock <;> rfl

theorem not_missing_of_delivered {stock : Stock} {publications : List Publication}
    {form : String} {filter : SubmissionFilter} {stored : Feed StoreError Submission}
    {error : StoreError} (opened : (stock.store publications).submissions form filter = .ok stored)
    (delivered : .error error ∈ stored.results) : ¬Missing (.store error) := by
  cases stock with
  | memory held =>
    dsimp only [store, Memory.store] at opened
    cases kept : held.lookup form with
    | error cause => simp [kept, Except.map] at opened
    | ok kept' =>
      simp only [kept, Except.map, Except.ok.injEq] at opened
      subst opened
      simp [Feed.results_ofList] at delivered
  | directory fs dataDirectory => exact Directory.not_missing_of_delivered opened delivered

/-- Other submissions are stored under a name: another list is kept with the form, or other bytes
are in the file. -/
inductive Restocked (name : String) : Stock → Stock → Prop
  | memory {held other : Memory}
      (form : (held.lookup name).map KeptForm.form = (other.lookup name).map KeptForm.form) :
      Restocked name (.memory held) (.memory other)
  | directory {fs other : FileSystem} {dataDirectory : String} {bytes bytes' : List UInt8}
      (form : Directory.form fs dataDirectory name = Directory.form other dataDirectory name)
      (before : Directory.content fs dataDirectory name = .ok bytes)
      (after : Directory.content other dataDirectory name = .ok bytes') :
      Restocked name (.directory fs dataDirectory) (.directory other dataDirectory)

theorem Restocked.opensAlike {name : String} {stock other : Stock}
    (restocked : Restocked name stock other) (publications : List Publication) :
    (stock.store publications).OpensAlike (other.store publications) name := by
  cases restocked with
  | @memory held other form =>
    refine ⟨form, fun filter error => ?_⟩
    dsimp only [store, Memory.store]
    cases here : held.lookup name <;> cases there : other.lookup name <;>
      simp_all [Except.map]
  | directory form before after =>
    refine ⟨form, fun filter error => ?_⟩
    obtain ⟨path, opened⟩ := Directory.submissions_of_content before filter
    obtain ⟨path', opened'⟩ := Directory.submissions_of_content after filter
    simp [store, Directory.store, opened, opened']

end Stock

namespace Service

theorem count_of_publication {service : Service} {uuid : Uuid} {publication : Publication}
    (found : service.store.publication uuid = .ok publication) (filter : SubmissionFilter) :
    service.count uuid filter = (service.store.count publication.form filter).mapError .store := by
  simp [count, Service.publication, found, Except.mapError, bind, Except.bind]

/-- A count that fails, and not because something is missing, stumbles at the opening or at an
error that is delivered. -/
theorem count_fails_iff (stock : Stock) (publications : List Publication) (baseUrl : String)
    (uuid : Uuid) (filter : SubmissionFilter) :
    let service : Service := ⟨stock.store publications, baseUrl⟩
    (∃ error, service.count uuid filter = .error error ∧ ¬Missing error) ↔
      ∃ publication, service.store.publication uuid = .ok publication ∧
        (service.store.Unopened publication.form filter ∨
          service.store.YieldsError publication.form filter) := by
  intro service
  cases found : service.store.publication uuid with
  | error cause =>
    have refused : service.count uuid filter = .error (.store cause) := by
      simp [count, publication, found, Except.mapError, bind, Except.bind]
    simp [refused, Store.missing_of_publication found]
  | ok publication =>
    have counted := count_of_publication found filter
    rw [Store.count] at counted
    cases opened : service.store.submissions publication.form filter with
    | error cause =>
      simp only [opened, bind, Except.bind, Except.mapError] at counted
      simp [counted, Store.Unopened, Store.YieldsError, opened]
    | ok stored =>
      simp only [opened, bind, Except.bind, Feed.count] at counted
      rcases Feed.values_or_error stored.results with
        ⟨values, whole⟩ | ⟨before, error, later, failed⟩
      · rw [whole, Feed.countValues_ok, Except.mapError] at counted
        simp [counted, Store.Unopened, Store.YieldsError, opened, whole]
      · rw [failed, Feed.countValues_error, Except.mapError] at counted
        have delivered : .error error ∈ stored.results := by simp [failed]
        have present : ¬Missing (.store error) := stock.not_missing_of_delivered opened delivered
        exact iff_of_true ⟨_, counted, present⟩
          ⟨publication, rfl, .inr ⟨stored, error, opened, delivered⟩⟩

/-- Whether a row stream opens does not depend on what it would deliver. -/
theorem failAlike_rows {store other : Store} (published : store.publications = other.publications)
    (alike : ∀ publication ∈ store.publications, store.OpensAlike other publication.form)
    (baseUrl : String) (uuid : Uuid) (filter : SubmissionFilter) :
    Except.FailAlike ((Service.mk store baseUrl).rows uuid filter)
      ((Service.mk other baseUrl).rows uuid filter) := by
  have same : store.publication uuid = other.publication uuid := by
    rw [Store.publication, Store.publication, published]
  rw [rows_eq, rows_eq, ← same]
  cases found : store.publication uuid with
  | error cause => exact fun _ => Iff.rfl
  | ok publication =>
    obtain ⟨form, submissions⟩ := alike publication (mem_of_publication found)
    refine Except.failAlike_bind (fun _ => Iff.rfl) ?_
    rintro _ _ ⟨⟩ ⟨⟩
    rw [← form]
    refine Except.failAlike_bind (fun _ => Iff.rfl) fun form again made made' => ?_
    obtain rfl := Except.ok.inj (made.symm.trans made')
    have opening := Except.failAlike_mapError (submissions filter) ExportError.store
    refine Except.failAlike_bind opening fun stored stored' _ _ error => ?_
    simp [pure, Except.pure]

end Service

end SurveyTables
