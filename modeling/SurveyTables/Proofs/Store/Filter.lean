import SurveyTables.Proofs.Flatten.Faults
import SurveyTables.Proofs.Linkage.Roots
import SurveyTables.Service
import SurveyTables.Store.Directory
import SurveyTables.Store.Memory

/-! Requests for later submissions. A store that is asked for the submissions above a number reads
what it reads without the number, and leaves out the submissions at or below it. Nothing else
is left out or changes its place, least of all an error. -/
namespace SurveyTables

/-- A store of one of the two kinds, with all that it holds. -/
inductive Stock where
  | memory (held : Memory)
  | directory (fs : FileSystem) (dataDirectory : String)

def Stock.store (publications : List Publication) : Stock → Store
  | memory held => held.store publications
  | directory fs dataDirectory => Directory.store fs dataDirectory publications

/-- Leaves out the items that fail a test; a standing error stays. -/
def Feed.filter {ε α : Type} (keeps : Except ε α → Bool) (feed : Feed ε α) : Feed ε α :=
  ⟨feed.items.filter keeps, feed.standing⟩

theorem Feed.filter_ofList {ε α : Type} (keeps : Except ε α → Bool) (values : List α) :
    filter keeps (ofList values) = ofList (values.filter fun value => keeps (.ok value)) := by
  rw [filter, ofList, List.filter_map]
  rfl

namespace SubmissionFilter

/-- Errors pass every filter. -/
def keeps (filter : SubmissionFilter) : Except StoreError Submission → Bool
  | .ok submission => filter.accepts submission
  | .error _ => true

theorem accepts_everything (submission : Submission) : everything.accepts submission = true := rfl

theorem filter_everything (stored : List Submission) :
    stored.filter everything.accepts = stored :=
  List.filter_eq_self.2 fun submission _ => accepts_everything submission

end SubmissionFilter

namespace Directory

/-- The numbers of lines do not depend on what the lines before hold. -/
theorem readLines_eq_filter (path : String) (filter : SubmissionFilter) (number : Nat)
    (lines : List (List UInt8)) :
    readLines path filter number lines =
      (readLines path .everything number lines).filter filter.keeps := by
  induction lines generalizing number with
  | nil => rfl
  | cons line later ih =>
    simp only [readLines]
    split
    · rw [ih, List.filter_cons_of_pos rfl]
    · next text _ =>
      cases readLine path number text with
      | error error => rw [ih, List.filter_cons_of_pos rfl]
      | ok held =>
        cases held with
        | none => exact ih _
        | some submission =>
          dsimp only
          rw [if_pos (SubmissionFilter.accepts_everything submission), List.filter_cons, ih]
          rfl

theorem submissions_eq_filter (fs : FileSystem) (dataDirectory name : String)
    (filter : SubmissionFilter) :
    submissions fs dataDirectory name filter =
      (submissions fs dataDirectory name .everything).map (Feed.filter filter.keeps) := by
  unfold submissions
  cases formDirectory fs dataDirectory name with
  | error error => rfl
  | ok directory =>
    simp only [bind, Except.bind]
    cases fs.read (FilePath.join directory submissionsFile) with
    | error failure => cases failure <;> rfl
    | ok content =>
      dsimp only
      rw [readLines_eq_filter]
      rfl

end Directory

namespace Memory

theorem submissions_eq_filter (memory : Memory) (publications : List Publication) (name : String)
    (filter : SubmissionFilter) :
    (memory.store publications).submissions name filter =
      ((memory.store publications).submissions name .everything).map
        (Feed.filter filter.keeps) := by
  simp only [store]
  cases memory.lookup name with
  | error error => rfl
  | ok kept =>
    simp only [Except.map, SubmissionFilter.filter_everything, Feed.filter_ofList]
    rfl

end Memory

theorem Stock.submissions_eq_filter (stock : Stock) (publications : List Publication)
    (name : String) (filter : SubmissionFilter) :
    (stock.store publications).submissions name filter =
      ((stock.store publications).submissions name .everything).map
        (Feed.filter filter.keeps) := by
  cases stock with
  | memory held => exact held.submissions_eq_filter publications name filter
  | directory fs dataDirectory =>
    exact Directory.submissions_eq_filter fs dataDirectory name filter

namespace Exporter

def result (exporter : Exporter) : Except StoreError Submission → Except ExportError Row
  | .ok submission => (exporter.flatten submission).mapError .flatten
  | .error error => .error (.store error)

theorem items_rows (exporter : Exporter) (stored : Feed StoreError Submission) :
    (exporter.rows stored).items = stored.items.map exporter.result :=
  List.map_congr_left fun item _ => by cases item <;> rfl

def numberOf? : Except ExportError Row → Option Int
  | .ok row => some row.id
  | .error (.flatten cause) => cause.instanceId?
  | .error _ => none

theorem numberOf?_result (exporter : Exporter) (submission : Submission) :
    numberOf? (exporter.result (.ok submission)) = submission.instanceId? := by
  cases made : exporter.flatten submission with
  | ok root =>
    obtain ⟨-, -, numbered⟩ := exists_root_of_flatten made
    rw [result, made, numbered]
    rfl
  | error cause =>
    rw [← instanceId?_of_flatten made, result, made]
    rfl

def isAbove (k : Int) (result : Except ExportError Row) : Bool :=
  match numberOf? result with
  | some id => k < id
  | none => true

theorem isAbove_result (exporter : Exporter) (k : Int) (item : Except StoreError Submission) :
    isAbove k (exporter.result item) = SubmissionFilter.keeps ⟨some k⟩ item := by
  cases item with
  | error error => rfl
  | ok submission =>
    rw [isAbove, numberOf?_result, SubmissionFilter.keeps, SubmissionFilter.accepts]
    cases submission.instanceId? <;> rfl

theorem rows_filter (exporter : Exporter) (k : Int) (stored : Feed StoreError Submission) :
    exporter.rows (stored.filter (SubmissionFilter.keeps ⟨some k⟩)) =
      (exporter.rows stored).filter (isAbove k) := by
  have same : (exporter.rows (stored.filter (SubmissionFilter.keeps ⟨some k⟩))).items =
      ((exporter.rows stored).filter (isAbove k)).items := by
    rw [items_rows]
    dsimp only [Feed.filter]
    rw [items_rows, List.filter_map]
    exact congrArg _ (List.filter_congr fun item _ => (isAbove_result exporter k item).symm)
  exact congrArg (Feed.mk · _) same

/-- Whether an item is a submission that has a number, and none above `k`. -/
def isUpTo (k : Int) : Except StoreError Submission → Bool
  | .ok submission => submission.instanceId?.any (· ≤ k)
  | .error _ => false

theorem keeps_eq_not_isUpTo (k : Int) (item : Except StoreError Submission) :
    SubmissionFilter.keeps ⟨some k⟩ item = !isUpTo k item := by
  cases item with
  | error error => rfl
  | ok submission =>
    rw [SubmissionFilter.keeps, SubmissionFilter.accepts, isUpTo]
    cases submission.instanceId? with
    | none => rfl
    | some id => exact Bool.eq_iff_iff.2 (by simp)

/-- Whether a result tells of a line that holds no submission, or of a submission without a
number. -/
def isUnnumbered : Except ExportError Row → Bool
  | .error (.store _) | .error (.flatten .missingInstanceId) => true
  | _ => false

/-- How an export of the submissions above `k` stands to the export of all, both made of what the
store delivers without a filter. -/
structure Later (exporter : Exporter) (k : Int) (stored : Feed StoreError Submission)
    (all later : Feed ExportError Row) : Prop where
  /-- Item by item, all that is stored. -/
  every : all.items = stored.items.map exporter.result
  /-- The same in the same order, but for the submissions with a number up to `k`. -/
  kept : later.items = (stored.items.filter (!isUpTo k ·)).map exporter.result
  standing : later.standing = all.standing
  /-- The results that have no number are the same ones, wherever they stand. -/
  unnumbered : later.items.filter isUnnumbered = all.items.filter isUnnumbered
  above : ∀ row, .ok row ∈ later.items → k < row.id

theorem isAbove_of_isUnnumbered {result : Except ExportError Row} (k : Int)
    (unnumbered : isUnnumbered result) : isAbove k result := by
  unfold isUnnumbered at unnumbered
  split at unnumbered
  · rfl
  · rfl
  · cases unnumbered

theorem later_filter (exporter : Exporter) (k : Int) (stored : Feed StoreError Submission) :
    Later exporter k stored (exporter.rows stored) ((exporter.rows stored).filter (isAbove k)) where
  every := items_rows exporter stored
  kept := by
    rw [← rows_filter, items_rows]
    exact congrArg _ (List.filter_congr fun item _ => keeps_eq_not_isUpTo k item)
  standing := rfl
  unnumbered := by
    dsimp only [Feed.filter]
    rw [List.filter_filter]
    refine List.filter_congr fun result _ => ?_
    cases tells : isUnnumbered result with
    | false => rfl
    | true => exact isAbove_of_isUnnumbered k tells
  above row delivered := by
    have passes := (List.mem_filter.1 delivered).2
    exact of_decide_eq_true passes

end Exporter

namespace Service

theorem rows_eq (service : Service) (uuid : Uuid) (filter : SubmissionFilter) :
    service.rows uuid filter = do
      let publication ← (service.store.publication uuid).mapError .store
      let form ← (service.store.form publication.form).mapError .store
      let stored ← (service.store.submissions publication.form filter).mapError .store
      return (Exporter.ofForm form service.baseUrl).rows stored := by
  simp only [rows, openRows, layout, publication, bind_assoc, pure_bind]
  rfl

/-- A request opens just if the publication, its form and the form's submissions do. -/
theorem rows_eq_ok_iff {service : Service} {uuid : Uuid} {filter : SubmissionFilter}
    {rows : Feed ExportError Row} :
    service.rows uuid filter = .ok rows ↔
      ∃ publication form stored, service.store.publication uuid = .ok publication ∧
        service.store.form publication.form = .ok form ∧
        service.store.submissions publication.form filter = .ok stored ∧
        (Exporter.ofForm form service.baseUrl).rows stored = rows := by
  rw [rows_eq]
  simp only [Except.bind_eq_ok, Except.mapError_eq_ok, pure, Except.pure, Except.ok.injEq]
  constructor
  · rintro ⟨publication, found, form, formed, stored, offered, made⟩
    exact ⟨publication, form, stored, found, formed, offered, made⟩
  · rintro ⟨publication, form, stored, found, formed, offered, made⟩
    exact ⟨publication, found, form, formed, stored, offered, made⟩

/-- A filter takes items away from what is delivered without it, and decides nothing else. -/
theorem rows_eq_filter (stock : Stock) (publications : List Publication) (baseUrl : String)
    (uuid : Uuid) (k : Int) :
    rows ⟨stock.store publications, baseUrl⟩ uuid ⟨some k⟩ =
      (rows ⟨stock.store publications, baseUrl⟩ uuid .everything).map
        (Feed.filter (Exporter.isAbove k)) := by
  simp only [rows_eq]
  cases (stock.store publications).publication uuid with
  | error error => rfl
  | ok publication =>
    dsimp only [Except.mapError, bind, Except.bind]
    cases (stock.store publications).form publication.form with
    | error error => rfl
    | ok form =>
      dsimp only
      rw [stock.submissions_eq_filter]
      cases (stock.store publications).submissions publication.form .everything with
      | error error => rfl
      | ok stored => exact congrArg Except.ok (Exporter.rows_filter _ k stored)

/-- A request for the submissions above a number fails just if the one for all of them does, and
otherwise leaves out exactly those that have a number up to it. -/
theorem later_of_rows (stock : Stock) (publications : List Publication) (baseUrl : String)
    (uuid : Uuid) (k : Int) :
    let service : Service := ⟨stock.store publications, baseUrl⟩
    (∀ error, service.rows uuid .everything = .error error ↔
      service.rows uuid ⟨some k⟩ = .error error) ∧
    ∀ all, service.rows uuid .everything = .ok all → ∃ publication form stored later,
      service.store.publication uuid = .ok publication ∧
      service.store.form publication.form = .ok form ∧
      service.store.submissions publication.form .everything = .ok stored ∧
      service.rows uuid ⟨some k⟩ = .ok later ∧
      Exporter.Later (.ofForm form baseUrl) k stored all later := by
  intro service
  have filtered : service.rows uuid ⟨some k⟩ =
      (service.rows uuid .everything).map (Feed.filter (Exporter.isAbove k)) :=
    rows_eq_filter stock publications baseUrl uuid k
  constructor
  · intro error
    rw [filtered]
    cases service.rows uuid .everything <;> simp [Except.map]
  · intro all opened
    obtain ⟨publication, form, stored, found, formed, offered, rfl⟩ := rows_eq_ok_iff.1 opened
    exact ⟨publication, form, stored, _, found, formed, offered, by rw [filtered, opened]; rfl,
      Exporter.later_filter _ k stored⟩

def diaryDefinition : String :=
  "\x7b\"id_string\": \"diary\", \"project_id\": 1, \"title\": \"\", " ++
    "\"fields\": [\x7b\"path\": \"day\", \"type\": \"string\"\x7d]\x7d"

/-- The definition and the submissions of one form, in a directory of their own. -/
def diaryFiles (definition submissions : List UInt8) : FileSystem where
  root := .directory [("data", .directory [("diary", .directory
    [("form.json", .file definition), ("submissions.jsonl", .file submissions)])])]
  workingDirectory := []

/-- A blank line, a torn one and a submission without a number, among two that have one. -/
def diaryLines : List UInt8 :=
  Text.encode ("\x7b\"_id\": 1, \"day\": \"Mon\"\x7d\n\n\x7b\"_id\": \n" ++
    "\x7b\"_id\": \" 2\", \"day\": \"Tue\"\x7d\n\x7b\x7d")

def diaryPublications : List Publication := [⟨⟨7⟩, "", "diary", true⟩]

def diaryStock : Stock :=
  .directory (diaryFiles (Text.encode diaryDefinition) diaryLines) "data"

def diary : Service := ⟨diaryStock.store diaryPublications, ""⟩

theorem later_diary : ∃ form stored all later,
    diary.rows ⟨7⟩ .everything = .ok all ∧ all.items.length = 4 ∧
      diary.rows ⟨7⟩ ⟨some 1⟩ = .ok later ∧ later.items.length = 3 ∧
      Exporter.Later (.ofForm form "") 1 stored all later := by
  have four : (diary.rows ⟨7⟩ .everything).map (·.items.length) = .ok 4 := by decide +kernel
  have three : (diary.rows ⟨7⟩ ⟨some 1⟩).map (·.items.length) = .ok 3 := by decide +kernel
  cases opened : diary.rows ⟨7⟩ .everything with
  | error error => rw [opened] at four; cases four
  | ok all =>
    rw [opened] at four
    obtain ⟨-, form, stored, later, -, -, -, delivered, stands⟩ :=
      (later_of_rows diaryStock diaryPublications "" ⟨7⟩ 1).2 all opened
    rw [show diary.rows ⟨7⟩ ⟨some 1⟩ = .ok later from delivered] at three
    exact ⟨form, stored, all, later, rfl, Except.ok.inj four, delivered, Except.ok.inj three,
      stands⟩

end Service

end SurveyTables
