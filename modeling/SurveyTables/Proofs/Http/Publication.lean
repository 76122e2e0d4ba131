import SurveyTables.Http.App
import SurveyTables.Proofs.Store.Opening
import SurveyTables.Proofs.Store.Refresh

/-! Requests for the schemas and the rows of a publication. The identifier is looked at first, then
the query, then the service is called; the answer says which of them failed, and of the service, in
which way. What is stored in a publication that cannot be seen has no part in the answer. -/
namespace SurveyTables.Http

namespace App

def publicationUrl (segment part query : String) : Url :=
  ⟨"/api/v2/open-data/" ++ segment ++ "/" ++ part, query⟩

/-- The answer to a request for a part of a publication. -/
def ask (app : App) (segment part query : String) : Response :=
  app.respond ⟨"GET", publicationUrl segment part query⟩

theorem split_publicationUrl {segment part : String} (single : '/' ∉ segment.toList)
    (last : '/' ∉ part.toList) (query : String) :
    Text.split '/' (publicationUrl segment part query).path =
      ["", "api", "v2", "open-data", segment, part] := by
  have begins : "/api/v2/open-data/".toList = "/api/v2/open-data".toList ++ ['/'] := by
    decide +kernel
  have path : (publicationUrl segment part query).path = String.ofList
      ("/api/v2/open-data".toList ++ '/' :: (segment.toList ++ '/' :: part.toList)) := by
    have slash : "/".toList = ['/'] := rfl
    dsimp only [publicationUrl]
    rw [← String.toList_inj]
    simp only [String.toList_append, String.toList_ofList, begins, slash, List.append_assoc,
      List.cons_append, List.nil_append]
  have front : Text.split '/' (String.ofList "/api/v2/open-data".toList) =
      ["", "api", "v2", "open-data"] := by decide +kernel
  rw [path, Text.split_append_cons, front, Text.split_append_cons, String.ofList_toList,
    String.ofList_toList, Text.split_of_not_mem single, Text.split_of_not_mem last]
  rfl

theorem ask_schema (app : App) {segment : String} (single : '/' ∉ segment.toList) (query : String) :
    app.ask segment "schema" query = forPublication segment app.schemas := by
  have route : Route.ofPath? (publicationUrl segment "schema" query).path =
      some (.schemas segment) := by
    rw [Route.ofPath?, split_publicationUrl single (by decide)]
    rfl
  simp [ask, respond, route, get]

theorem ask_data (app : App) {segment : String} (single : '/' ∉ segment.toList) (query : String) :
    app.ask segment "data" query =
      forPublication segment (app.rows · (publicationUrl segment "data" query)) := by
  have route : Route.ofPath? (publicationUrl segment "data" query).path =
      some (.rows segment) := by
    rw [Route.ofPath?, split_publicationUrl single (by decide)]
    rfl
  simp [ask, respond, route, get]

end App

/-- The segment of a path stands for the identifier of a publication. -/
def Names (segment : String) (uuid : Uuid) : Prop :=
  ∃ given, segmentText? segment = some given ∧ Uuid.read? given = some uuid

theorem forPublication_of_text {segment given : String} (text : segmentText? segment = some given)
    (handle : String → Except ApiError Response) :
    App.forPublication segment handle =
      match handle given with
      | .ok response => response
      | .error error => error.response := by
  cases handled : handle given <;> simp [App.forPublication, text, handled]

/-- What is looked at before a request is carried out. -/
structure Identified (segment : String) (answer : Response) (further : Uuid → Prop) : Prop where
  invalid_iff : answer.Refuses 400 "INVALID_UUID" ↔ ¬∃ uuid, Names segment uuid
  further : ∀ uuid, Names segment uuid → further uuid

theorem identified_forPublication {segment given : String}
    {handle : String → Except ApiError Response} {further : Uuid → Prop}
    (text : segmentText? segment = some given)
    (invalid : Uuid.read? given = none → handle given = .error (.invalidUuid given))
    (valid : ∀ uuid, Names segment uuid → further uuid)
    (apart : ∀ uuid, further uuid →
      ¬(App.forPublication segment handle).Refuses 400 "INVALID_UUID") :
    Identified segment (App.forPublication segment handle) further where
  invalid_iff := by
    constructor
    · rintro refuses ⟨uuid, names⟩
      exact apart uuid (valid uuid names) refuses
    · intro unnamed
      have unread : Uuid.read? given = none :=
        Option.eq_none_iff_forall_ne_some.2 fun uuid read => unnamed ⟨uuid, given, text, read⟩
      rw [forPublication_of_text text, invalid unread]
      exact ApiError.refuses_response (.invalidUuid given)
  further := valid

theorem Reports.not_refuses {α : Type} {call : Except ExportError α} {answer : Response}
    (reports : Reports call answer) (code : String) : ¬answer.Refuses 400 code := by
  intro refuses
  have status := refuses.status
  cases call with
  | ok value => simp [reports.succeeds_iff.2 ⟨value, rfl⟩] at status
  | error error =>
    by_cases missing : error.Missing
    · simp [reports.missing_iff.2 ⟨error, rfl, missing⟩] at status
    · simp [reports.fails_iff.2 ⟨error, rfl, missing⟩] at status

def Response.ofRows (rows : Feed ExportError Row) : Response :=
  { Response.json 200 (JsonArray.write rows).text with
    aborted := !(JsonArray.write rows).outcome.isOk }

/-- What becomes of an answer with rows while the items of the store are delivered. -/
structure Streams (exporter : Exporter) (stored : Feed StoreError Submission)
    (answer : Response) : Prop where
  whole : ∀ roots, stored.results.map exporter.result = roots.map .ok →
    answer = .json 200 (JsonArray.write (.ofList roots)).text
  /-- an item that gives no row takes away what is behind it, down to the closing bracket -/
  cut : ∀ before item later roots error, stored.results = before ++ item :: later →
    before.map exporter.result = roots.map .ok → exporter.result item = .error error →
    ∃ body, answer = ⟨200, some "application/json", body, true⟩ ∧
      body ++ JsonArray.closing roots.isEmpty = (JsonArray.write (.ofList roots)).text

theorem streams_ofRows (exporter : Exporter) (stored : Feed StoreError Submission) :
    Streams exporter stored (.ofRows (exporter.rows stored)) := by
  have results := exporter.results_rows_eq stored
  constructor
  · intro roots whole
    have same := JsonArray.write_of_ok (results.trans whole)
    rw [Response.ofRows, same, JsonArray.write_of_ok (Feed.results_ofList roots)]
    rfl
  · intro before item later roots error listed rooted failed
    rw [listed, List.map_append, rooted, List.map_cons, failed] at results
    refine ⟨"[" ++ String.join (JsonArray.rowChunks true roots), ?_, ?_⟩
    · rw [Response.ofRows, JsonArray.write_of_error results]
      rfl
    · rw [JsonArray.write_of_ok (Feed.results_ofList roots)]

/-- An answer with a number of submissions. -/
structure Counted (service : Service) (uuid : Uuid) (filter : SubmissionFilter)
    (answer : Response) : Prop where
  reports : Reports (service.count uuid filter) answer
  /-- the submissions cannot be opened, or an error is among them -/
  fails_iff : answer.status = 500 ↔
    ∃ publication, service.store.publication uuid = .ok publication ∧
      (service.store.Unopened publication.form filter ∨
        service.store.YieldsError publication.form filter)

theorem counted_answerTo (stock : Stock) (publications : List Publication) (baseUrl : String)
    (uuid : Uuid) (filter : SubmissionFilter) {deliver : Nat → Response}
    (delivered : ∀ count, (deliver count).status = 200) :
    let service : Service := ⟨stock.store publications, baseUrl⟩
    Counted service uuid filter (answerTo (service.count uuid filter) deliver) := by
  intro service
  have reports := reports_answerTo (service.failsInStore_count uuid filter) delivered
  exact ⟨reports,
    reports.fails_iff.trans (Service.count_fails_iff stock publications baseUrl uuid filter)⟩

/-- An answer with rows, which has a good status before the first submission is looked at. -/
structure Streamed (service : Service) (uuid : Uuid) (filter : SubmissionFilter)
    (answer : Response) : Prop where
  reports : Reports (service.rows uuid filter) answer
  streams : ∀ publication form stored, service.store.publication uuid = .ok publication →
    service.store.form publication.form = .ok form →
    service.store.submissions publication.form filter = .ok stored →
    Streams (.ofForm form service.baseUrl) stored answer

theorem streamed_answerTo (service : Service) (uuid : Uuid) (filter : SubmissionFilter) :
    Streamed service uuid filter (answerTo (service.rows uuid filter) .ofRows) where
  reports := reports_answerTo (service.failsInStore_rows uuid filter) fun _ => rfl
  streams publication form stored found formed offered := by
    rw [Service.rows_eq_ok_iff.2 ⟨publication, form, stored, found, formed, offered, rfl⟩]
    exact streams_ofRows _ stored

/-- The answers to requests for rows and to those for their number, once a publication is named. -/
structure Delivers (service : Service) (uuid : Uuid) (url : Url) (answer : Response) : Prop where
  invalid_iff : answer.Refuses 400 "INVALID_QUERY" ↔ RowsQuery.read? url = none
  counts : ∀ query, RowsQuery.read? url = some query → query.countOnly = some true →
    Counted service uuid query.filter answer
  rows : ∀ query, RowsQuery.read? url = some query → query.countOnly ≠ some true →
    Streamed service uuid query.filter answer

theorem delivers_of_unread {service : Service} {uuid : Uuid} {url : Url}
    (unread : RowsQuery.read? url = none) {reason : String} :
    Delivers service uuid url (ApiError.invalidQuery reason).response := by
  refine ⟨iff_of_true (ApiError.refuses_response (.invalidQuery reason)) unread, ?_, ?_⟩
  all_goals
    intro query read
    simp [unread] at read

theorem delivers_of_read {service : Service} {uuid : Uuid} {url : Url} {query : RowsQuery}
    {answer : Response} (read : RowsQuery.read? url = some query)
    (counts : query.countOnly = some true → Counted service uuid query.filter answer)
    (rows : query.countOnly ≠ some true → Streamed service uuid query.filter answer) :
    Delivers service uuid url answer := by
  have reports (code : String) : ¬answer.Refuses 400 code := by
    by_cases counted : query.countOnly = some true
    · exact (counts counted).reports.not_refuses code
    · exact (rows counted).reports.not_refuses code
  refine ⟨iff_of_false (reports _) (by simp [read]), ?_, ?_⟩
  all_goals
    intro query' same
    obtain rfl := Option.some.inj (read.symm.trans same)
    assumption

namespace App

variable {app : App} {segment : String} {uuid : Uuid}

theorem forPublication_schemas (names : Names segment uuid) :
    forPublication segment app.schemas = answerTo (app.service.schemas uuid) fun schemas =>
      .json 200 (TableSchema.listToJson schemas).compact := by
  obtain ⟨given, text, read⟩ := names
  rw [forPublication_of_text text, schemas, uuidOf, read]
  cases called : app.service.schemas uuid <;>
    simp [answerTo, called, Except.mapError, bind, Except.bind, pure, Except.pure]

theorem forPublication_rows (names : Names segment uuid) (url : Url) :
    forPublication segment (app.rows · url) =
      match RowsQuery.read? url with
      | none => (ApiError.invalidQuery
          "not a number above which to ask for or a truth value").response
      | some query =>
        if query.countOnly = some true then
          answerTo (app.service.count uuid query.filter) fun count =>
            .json 200 (Json.object [("count", .ofNat count)]).compact
        else answerTo (app.service.rows uuid query.filter) .ofRows := by
  obtain ⟨given, text, read⟩ := names
  rw [forPublication_of_text text]
  simp only [rows, uuidOf, read, bind, Except.bind]
  cases RowsQuery.read? url with
  | none => rfl
  | some query =>
    by_cases counts : query.countOnly = some true
    · simp only [counts, if_true]
      cases app.service.count uuid query.filter <;> rfl
    · simp only [counts, if_false]
      cases app.service.rows uuid query.filter <;> rfl

theorem delivers_forPublication (stock : Stock) (publications : List Publication)
    (baseUrl : String) (origin : Option String) (names : Names segment uuid) (url : Url) :
    let service : Service := ⟨stock.store publications, baseUrl⟩
    Delivers service uuid url (forPublication segment ((App.mk service origin).rows · url)) := by
  intro service
  rw [forPublication_rows names]
  cases read : RowsQuery.read? url with
  | none => exact delivers_of_unread read
  | some query =>
    dsimp only
    split
    · next counts =>
      refine delivers_of_read read (fun _ => ?_) fun rows => absurd counts rows
      exact counted_answerTo stock publications baseUrl uuid query.filter fun _ => rfl
    · next rows =>
      refine delivers_of_read read (fun counts => absurd counts rows) fun _ => ?_
      exact streamed_answerTo service uuid query.filter

end App

theorem Delivers.not_refuses {service : Service} {uuid : Uuid} {url : Url} {answer : Response}
    (delivers : Delivers service uuid url answer) : ¬answer.Refuses 400 "INVALID_UUID" := by
  intro refuses
  cases read : RowsQuery.read? url with
  | none =>
    have code := (refuses.unique (delivers.invalid_iff.2 read)).2
    exact absurd code (by decide)
  | some query =>
    by_cases counts : query.countOnly = some true
    · exact (delivers.counts query read counts).reports.not_refuses _ refuses
    · exact (delivers.rows query read counts).reports.not_refuses _ refuses

theorem status_answerTo_of_failAlike {α : Type} {call call' : Except ExportError α}
    (alike : Except.FailAlike call call') {deliver : α → Response}
    (delivered : ∀ value, (deliver value).status = 200) :
    (answerTo call deliver).status = (answerTo call' deliver).status := by
  cases call with
  | error error => rw [(alike error).1 rfl]
  | ok value =>
    cases call' with
    | error error => exact absurd ((alike error).2 rfl) (by simp)
    | ok value' => exact (delivered value).trans (delivered value').symm

/-- No publication has the identifier, or the first that has it is switched off. -/
def Unseen (publications : List Publication) (uuid : Uuid) : Prop :=
  ∀ publication, publications.find? (·.uuid = uuid) = some publication →
    publication.active = false

theorem Unseen.publication {publications : List Publication} {uuid : Uuid}
    (unseen : Unseen publications uuid) (stock : Stock) :
    ∃ cause, (stock.store publications).publication uuid = .error cause := by
  rw [Store.publication, stock.publications_store]
  cases found : publications.find? (·.uuid = uuid) with
  | none => exact ⟨_, rfl⟩
  | some publication => simp [unseen publication found]

def appOf (stock : Stock) (publications : List Publication) (baseUrl : String)
    (origin : Option String) : App :=
  ⟨⟨stock.store publications, baseUrl⟩, origin⟩

/-- How all requests for the schemas and the rows of a publication are answered from a stock. -/
structure Answered (stock : Stock) (publications : List Publication) (baseUrl : String)
    (origin : Option String) (segment : String) : Prop where
  schemas : ∀ query,
    let app := appOf stock publications baseUrl origin
    let answer := app.ask segment "schema" query
    Identified segment answer fun uuid => Reports (app.service.schemas uuid) answer
  data : ∀ query,
    let app := appOf stock publications baseUrl origin
    let answer := app.ask segment "data" query
    Identified segment answer fun uuid =>
      Delivers app.service uuid (App.publicationUrl segment "data" query) answer
  /-- what is delivered from a store does not change the status of an answer with rows -/
  steady : ∀ (other : Stock) (query : String) (asked : RowsQuery),
    RowsQuery.read? (App.publicationUrl segment "data" query) = some asked →
    asked.countOnly ≠ some true →
    (∀ publication ∈ publications, (stock.store publications).OpensAlike
      (other.store publications) publication.form) →
    ((appOf stock publications baseUrl origin).ask segment "data" query).status =
      ((appOf other publications baseUrl origin).ask segment "data" query).status
  /-- nothing but the publications decides over an answer for one that cannot be seen -/
  concealed : ∀ uuid, Names segment uuid → Unseen publications uuid →
    ∀ (other : Stock) (otherUrl query : String),
      (appOf stock publications baseUrl origin).ask segment "schema" query =
          (appOf other publications otherUrl origin).ask segment "schema" query ∧
        (appOf stock publications baseUrl origin).ask segment "data" query =
          (appOf other publications otherUrl origin).ask segment "data" query

variable (stock other : Stock) (publications : List Publication) (baseUrl otherUrl : String)
  (origin : Option String) {segment given : String}

theorem identified_schemas (single : '/' ∉ segment.toList)
    (text : segmentText? segment = some given) (query : String) :
    let app := appOf stock publications baseUrl origin
    Identified segment (app.ask segment "schema" query) fun uuid =>
      Reports (app.service.schemas uuid) (app.ask segment "schema" query) := by
  intro app
  rw [app.ask_schema single]
  refine identified_forPublication text ?_ ?_ fun uuid reports => reports.not_refuses _
  · intro unread
    rw [App.schemas, App.uuidOf, unread]
    rfl
  · intro uuid names
    rw [App.forPublication_schemas names]
    exact reports_answerTo (app.service.failsInStore_schemas uuid) fun _ => rfl

theorem identified_data (single : '/' ∉ segment.toList)
    (text : segmentText? segment = some given) (query : String) :
    let app := appOf stock publications baseUrl origin
    Identified segment (app.ask segment "data" query) fun uuid =>
      Delivers app.service uuid (App.publicationUrl segment "data" query)
        (app.ask segment "data" query) := by
  intro app
  rw [app.ask_data single]
  refine identified_forPublication text ?_ ?_ fun uuid delivers => delivers.not_refuses
  · intro unread
    rw [App.rows, App.uuidOf, unread]
    rfl
  · intro uuid names
    exact App.delivers_forPublication stock publications baseUrl origin names _

theorem status_steady (single : '/' ∉ segment.toList) (text : segmentText? segment = some given)
    {query : String} {asked : RowsQuery}
    (read : RowsQuery.read? (App.publicationUrl segment "data" query) = some asked)
    (rows : asked.countOnly ≠ some true)
    (alike : ∀ publication ∈ publications, (stock.store publications).OpensAlike
      (other.store publications) publication.form) :
    ((appOf stock publications baseUrl origin).ask segment "data" query).status =
      ((appOf other publications baseUrl origin).ask segment "data" query).status := by
  by_cases named : ∃ uuid, Names segment uuid
  · obtain ⟨uuid, names⟩ := named
    simp only [App.ask_data _ single, App.forPublication_rows names, read, if_neg rows]
    refine status_answerTo_of_failAlike ?_ fun _ => rfl
    have published := stock.publications_store publications
    exact Service.failAlike_rows (published.trans (other.publications_store publications).symm)
      (published.symm ▸ alike) baseUrl uuid asked.filter
  · have here := identified_data stock publications baseUrl origin single text query
    have there := identified_data other publications baseUrl origin single text query
    exact (here.invalid_iff.2 named).status.trans (there.invalid_iff.2 named).status.symm

theorem ask_concealed (single : '/' ∉ segment.toList) {uuid : Uuid} (names : Names segment uuid)
    (unseen : Unseen publications uuid) (query : String) :
    (appOf stock publications baseUrl origin).ask segment "schema" query =
        (appOf other publications otherUrl origin).ask segment "schema" query ∧
      (appOf stock publications baseUrl origin).ask segment "data" query =
        (appOf other publications otherUrl origin).ask segment "data" query := by
  obtain ⟨cause, refused⟩ := unseen.publication stock
  have refused' := (other.publication_store stock publications uuid).trans refused
  have alike (filter : SubmissionFilter) : Service.Alike
      (appOf stock publications baseUrl origin).service
      (appOf other publications otherUrl origin).service uuid filter :=
    Service.alike_of_error refused refused' filter
  simp only [App.ask_schema _ single, App.ask_data _ single, App.forPublication_schemas names,
    App.forPublication_rows names, (alike _).rows, (alike _).count, (alike .everything).schemas,
    and_self]

/-- Every request for the schemas or the rows of a publication is answered as its identifier, its
query and the call of the service demand, as far as the segment for the identifier is a text. -/
theorem answered_of_text (single : '/' ∉ segment.toList)
    (text : segmentText? segment = some given) :
    Answered stock publications baseUrl origin segment where
  schemas := identified_schemas stock publications baseUrl origin single text
  data := identified_data stock publications baseUrl origin single text
  steady other _ _ read rows alike :=
    status_steady stock other publications baseUrl origin single text read rows alike
  concealed _ names unseen other otherUrl :=
    ask_concealed stock other publications baseUrl otherUrl origin single names unseen

def diarySegment : String := "00000000-0000-0000-0000-000000000007"

def emptyDiary : Stock :=
  .directory (Service.diaryFiles (Text.encode Service.diaryDefinition) []) "data"

/-- The torn line of the diary spoils its count, but not the status of its rows. -/
theorem answered_diary :
    let app := appOf Service.diaryStock Service.diaryPublications "" none
    '/' ∉ diarySegment.toList ∧ segmentText? diarySegment = some diarySegment ∧
      Names diarySegment ⟨7⟩ ∧
      Answered Service.diaryStock Service.diaryPublications "" none diarySegment ∧
      (app.ask diarySegment "data" "").status = 200 ∧
      ((appOf emptyDiary Service.diaryPublications "" none).ask diarySegment "data" "").status =
        200 ∧
      (app.ask diarySegment "data" "count=true&gt_id=1").status = 500 := by
  intro app
  have single : '/' ∉ diarySegment.toList := by decide +kernel
  have text : segmentText? diarySegment = some diarySegment := by decide +kernel
  have names : Names diarySegment ⟨7⟩ := ⟨diarySegment, text, by decide +kernel⟩
  have answered : Answered Service.diaryStock Service.diaryPublications "" none diarySegment :=
    answered_of_text Service.diaryStock Service.diaryPublications "" none single text
  have read : RowsQuery.read? (App.publicationUrl diarySegment "data" "") =
      some ⟨none, none⟩ := by decide +kernel
  have sent : (app.ask diarySegment "data" "").status = 200 := by
    have opens : (Service.diary.rows ⟨7⟩ .everything).isOk := by decide +kernel
    cases opened : Service.diary.rows ⟨7⟩ .everything with
    | error error =>
      rw [opened] at opens
      contradiction
    | ok rows =>
      have streamed := ((answered.data "").further _ names).rows _ read (by decide)
      exact streamed.reports.succeeds_iff.2 ⟨rows, opened⟩
  have restocked : Stock.Restocked "diary" Service.diaryStock emptyDiary :=
    .directory ((Session.form_diary Service.diaryLines).trans (Session.form_diary []).symm)
      (show Directory.content _ _ _ = .ok Service.diaryLines from rfl)
      (show Directory.content _ _ _ = .ok [] from rfl)
  refine ⟨single, text, names, answered, sent, ?steady, ?count⟩
  case steady =>
    rw [← answered.steady emptyDiary "" _ read (by decide), sent]
    intro publication listed
    cases List.mem_singleton.1 listed
    exact restocked.opensAlike Service.diaryPublications
  case count =>
    have counting : RowsQuery.read? (App.publicationUrl diarySegment "data"
        "count=true&gt_id=1") = some ⟨some 1, some true⟩ := by decide +kernel
    have counted := ((answered.data "count=true&gt_id=1").further _ names).counts _ counting rfl
    refine counted.reports.fails_iff.2 ⟨.store (.invalidSubmission
      "data/diary/submissions.jsonl" 3 "not a JSON text"), ?_,
        ExportError.not_missing_invalidSubmission _ _ _⟩
    decide +kernel

def nothing : FileSystem := ⟨.directory [], []⟩

def emptyStock : Stock := .directory nothing "data"

/-- A path of slashes, which leads to the root but on to no file of submissions. -/
def farRoot : Publication := ⟨⟨7⟩, "", FilePath.slashes 4090, true⟩

/-- A count may fail although no error is among the submissions, which cannot be opened. -/
theorem count_fails_unopened :
    ¬(((appOf emptyStock [farRoot] "" none).ask diarySegment "data" "count=true").status = 500 ↔
        (emptyStock.store [farRoot]).YieldsError farRoot.form ⟨none⟩) := by
  have single : '/' ∉ diarySegment.toList := by decide +kernel
  have text : segmentText? diarySegment = some diarySegment := by decide +kernel
  have names : Names diarySegment ⟨7⟩ := ⟨diarySegment, text, by decide +kernel⟩
  have read : RowsQuery.read? (App.publicationUrl diarySegment "data" "count=true") =
      some ⟨none, some true⟩ := by decide +kernel
  have unopened : (emptyStock.store [farRoot]).submissions farRoot.form ⟨none⟩ =
      .error (.io "path too long") :=
    Directory.submissions_slashes (show nothing.root = .directory [] from rfl) (by decide)
      (by decide) (by decide) "data" _
  have identified := identified_data emptyStock [farRoot] "" none single text "count=true"
  have counted := (identified.further _ names).counts _ read rfl
  have fails := counted.fails_iff.2
    ⟨farRoot, rfl, .inl ⟨_, unopened, ExportError.not_missing_io _⟩⟩
  intro same
  obtain ⟨stored, error, opened, -⟩ := same.1 fails
  cases unopened.symm.trans opened

end SurveyTables.Http
