import SurveyTables.Proofs.FileSystem.Lookup
import SurveyTables.Proofs.Store.Count
import SurveyTables.Proofs.Store.Refresh
import SurveyTables.Proofs.Store.Transcript

/-! Stores that hold the same. What memory keeps under the names of forms, and what the directories
of these names hold in files, cannot be told apart by any request. -/
namespace SurveyTables

open Text (encode)

/-- Files say what is kept under a name: `form.json` reads as its form, and `submissions.jsonl` is
its submissions written down. -/
structure Directory.Mirrors (fs : FileSystem) (dataDirectory name : String) (kept : KeptForm) :
    Prop where
  named : name ≠ ""
  read : ∀ submission ∈ kept.submissions, submission.IsRead
  defined : ∃ text, fs.read (FilePath.join (FilePath.join dataDirectory name) formFile) =
    .ok (encode text) ∧ Form.read? text = some kept.form
  recorded : ∃ text, fs.read (FilePath.join (FilePath.join dataDirectory name) submissionsFile) =
    .ok (encode text) ∧ Transcript text kept.submissions

namespace Stock

variable {name : String} {kept : KeptForm}

/-- A stock has a form with these submissions under a name. -/
structure Serves (stock : Stock) (name : String) (kept : KeptForm) : Prop where
  form : ∀ publications, (stock.store publications).form name = .ok kept.form
  everything : ∀ publications,
    (stock.store publications).submissions name .everything = .ok (Feed.ofList kept.submissions)

theorem serves_memory {held : Memory} (found : held.forms.get? name = some kept) :
    (memory held).Serves name kept where
  form publications := by simp [store, Memory.store, Memory.lookup, found, Except.map]
  everything publications := by
    simp [store, Memory.store, Memory.lookup, found, Except.map, SubmissionFilter.filter_everything]

theorem serves_directory {fs : FileSystem} {dataDirectory : String}
    (mirrors : Directory.Mirrors fs dataDirectory name kept) :
    (directory fs dataDirectory).Serves name kept := by
  obtain ⟨named, read, ⟨definition, defined, reads⟩, ⟨text, recorded, written⟩⟩ := mirrors
  have inside : FilePath.join dataDirectory name ≠ "" := FilePath.join_ne_empty named
  have found : Directory.formDirectory fs dataDirectory name =
      .ok (FilePath.join dataDirectory name) :=
    if_pos (FileSystem.isDirectory_of_read inside (by decide) defined)
  constructor
  · exact fun publications => Directory.form_eq_ok found defined reads
  · intro publications
    have delivered := Directory.readLines_of_transcript written read
      (FilePath.join (FilePath.join dataDirectory name) Directory.submissionsFile) 1
    simp [store, Directory.store, Directory.submissions, found, recorded, delivered, bind,
      Except.bind, pure, Except.pure, Feed.ofList]

theorem Serves.submissions {stock : Stock} (serves : stock.Serves name kept)
    (publications : List Publication) (filter : SubmissionFilter) :
    (stock.store publications).submissions name filter =
      .ok (Feed.ofList (kept.submissions.filter filter.accepts)) := by
  rw [stock.submissions_eq_filter, serves.everything, Except.map, Feed.filter_ofList]
  rfl

end Stock

namespace Service

/-- What a request about a kept form is answered with. -/
structure Answers (service : Service) (uuid : Uuid) (filter : SubmissionFilter)
    (kept : KeptForm) : Prop where
  schemas : service.schemas uuid = .ok (Layout.infer kept.form).schemas
  rows : service.rows uuid filter = .ok ((Exporter.ofForm kept.form service.baseUrl).rows
    (Feed.ofList (kept.submissions.filter filter.accepts)))
  count : service.count uuid filter = .ok (kept.submissions.filter filter.accepts).length

/-- Two services that a request about a publication does not tell apart. -/
structure Alike (service other : Service) (uuid : Uuid) (filter : SubmissionFilter) : Prop where
  publication : service.publication uuid = other.publication uuid
  schemas : service.schemas uuid = other.schemas uuid
  rows : service.rows uuid filter = other.rows uuid filter
  count : service.count uuid filter = other.count uuid filter

theorem answers_of_serves (stock : Stock) {publications : List Publication} {uuid : Uuid}
    {publication : Publication} {kept : KeptForm}
    (found : (stock.store publications).publication uuid = .ok publication)
    (serves : stock.Serves publication.form kept) (baseUrl : String) (filter : SubmissionFilter) :
    Answers ⟨stock.store publications, baseUrl⟩ uuid filter kept where
  schemas := by
    simp [schemas, layout, Service.publication, found, serves.form, Except.mapError, bind,
      Except.bind, pure, Except.pure]
  rows := rows_eq_ok_iff.2 ⟨publication, kept.form, _, found, serves.form publications,
    serves.submissions publications filter, rfl⟩
  count := by
    simp [count, Service.publication, Store.count, found, serves.submissions publications filter,
      Except.mapError, bind, Except.bind, Feed.count, Feed.results_ofList, Feed.countValues_ok]

/-- Where no publication is found, every request is refused with the same error. -/
theorem alike_of_error {service other : Service} {uuid : Uuid} {error : StoreError}
    (refused : service.store.publication uuid = .error error)
    (refused' : other.store.publication uuid = .error error) (filter : SubmissionFilter) :
    Alike service other uuid filter := by
  constructor <;>
    simp [publication, schemas, layout, rows_eq, count, refused, refused', Except.mapError, bind,
      Except.bind]

theorem alike_of_answers {service other : Service} {uuid : Uuid} {filter : SubmissionFilter}
    {kept : KeptForm} (same : service.publication uuid = other.publication uuid)
    (based : service.baseUrl = other.baseUrl) (answers : Answers service uuid filter kept)
    (answers' : Answers other uuid filter kept) : Alike service other uuid filter where
  publication := same
  schemas := answers.schemas.trans answers'.schemas.symm
  rows := by rw [answers.rows, answers'.rows, based]
  count := answers.count.trans answers'.count.symm

theorem mem_of_publication {store : Store} {uuid : Uuid} {publication : Publication}
    (found : store.publication uuid = .ok publication) : publication ∈ store.publications := by
  unfold Store.publication at found
  split at found
  · contradiction
  · next first there =>
    split at found
    · cases found
      exact List.mem_of_find?_eq_some there
    · contradiction

/-- Memory and files that hold the same forms answer alike; of a publication that is found, with
the form and the submissions that are kept. -/
theorem alike_of_mirrors (held : Memory) (fs : FileSystem) (dataDirectory baseUrl : String)
    (publications : List Publication)
    (mirrored : ∀ publication ∈ publications, ∃ kept,
      held.forms.get? publication.form = some kept ∧
        Directory.Mirrors fs dataDirectory publication.form kept)
    (uuid : Uuid) (filter : SubmissionFilter) :
    let remembered : Service := ⟨held.store publications, baseUrl⟩
    let filed : Service := ⟨Directory.store fs dataDirectory publications, baseUrl⟩
    Alike remembered filed uuid filter ∧
      ∀ publication, filed.publication uuid = .ok publication → ∃ kept,
        held.forms.get? publication.form = some kept ∧ Answers filed uuid filter kept := by
  intro remembered filed
  have same : remembered.store.publication uuid = filed.store.publication uuid :=
    (Stock.memory held).publication_store (.directory fs dataDirectory) publications uuid
  cases found : filed.store.publication uuid with
  | error error =>
    refine ⟨alike_of_error (same.trans found) found filter, fun publication impossible => ?_⟩
    rw [Service.publication, found] at impossible
    contradiction
  | ok publication =>
    obtain ⟨kept, remembers, mirrors⟩ := mirrored publication (mem_of_publication found)
    have answers : Answers remembered uuid filter kept :=
      answers_of_serves (.memory held) (same.trans found) (Stock.serves_memory remembers) baseUrl
        filter
    have answers' : Answers filed uuid filter kept :=
      answers_of_serves (.directory fs dataDirectory) found (Stock.serves_directory mirrors)
        baseUrl filter
    constructor
    · refine alike_of_answers ?_ rfl answers answers'
      rw [Service.publication, Service.publication, same]
    · intro other delivered
      rw [Service.publication, found] at delivered
      cases delivered
      exact ⟨kept, remembers, answers'⟩

/-- An answer with a line break and a letter beyond ASCII. -/
def tornTuesday : Submission := ⟨[("day", .string "Tues\ntäg"), ("_id", .string "2")]⟩

def tornDiary : KeptForm := ⟨Session.diaryForm, [Session.monday, tornTuesday]⟩

/-- Two publications have one identifier, of which the later is switched off. -/
def diaryTwice : List Publication := diaryPublications ++ [⟨⟨7⟩, "", "diary", false⟩]

/-- Lines that end in either way, blank ones among them, and a last one that does not end. -/
def tornDiaryText : String :=
  " \r" ++ "\n" ++ (Session.monday.text ++ "\r\n" ++ ("" ++ "\n" ++ tornTuesday.text))

theorem mirrors_diary :
    Directory.Mirrors (diaryFiles (encode diaryDefinition) (encode tornDiaryText)) "data" "diary"
      tornDiary where
  named := by decide
  read := by
    refine List.forall_mem_cons.2 ⟨⟨Session.monday.text, ?_⟩,
      List.forall_mem_singleton.2 ⟨tornTuesday.text, ?_⟩⟩
    · decide +kernel
    · decide +kernel
  defined := ⟨diaryDefinition, rfl, rfl⟩
  recorded := by
    have spaces : Text.IsBlankText " \r" := (Text.isEmpty_trim_iff _).1 (by decide +kernel)
    have nothing : Text.IsBlankText "" := List.forall_mem_nil _
    exact ⟨tornDiaryText, rfl, .blank spaces (by decide)
      (.line _ (.inr rfl) (.blank nothing (by decide) (.last _)))⟩

theorem alike_diaries :
    let held : Memory := ⟨[("diary", tornDiary)]⟩
    let fs := diaryFiles (encode diaryDefinition) (encode tornDiaryText)
    Alike ⟨held.store diaryTwice, ""⟩ ⟨Directory.store fs "data" diaryTwice, ""⟩ ⟨7⟩ ⟨some 1⟩ ∧
      Answers ⟨Directory.store fs "data" diaryTwice, ""⟩ ⟨7⟩ ⟨some 1⟩ tornDiary := by
  intro held fs
  have mirrored : ∀ publication ∈ diaryTwice, ∃ kept,
      held.forms.get? publication.form = some kept ∧
        Directory.Mirrors fs "data" publication.form kept :=
    List.forall_mem_cons.2 ⟨⟨tornDiary, rfl, mirrors_diary⟩,
      List.forall_mem_singleton.2 ⟨tornDiary, rfl, mirrors_diary⟩⟩
  obtain ⟨alike, answered⟩ := alike_of_mirrors held fs "data" "" diaryTwice mirrored ⟨7⟩ ⟨some 1⟩
  obtain ⟨kept, found, answers⟩ := answered ⟨⟨7⟩, "", "diary", true⟩ rfl
  cases found
  exact ⟨alike, answers⟩

end Service

end SurveyTables
