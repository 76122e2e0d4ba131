import SurveyTables.CommandLine.Run
import SurveyTables.Proofs.FileSystem.Create
import SurveyTables.Proofs.Store.Filter

/-! The output file of a command that fails before it has a row to write. A configuration that does
not load leaves the file alone. Whatever is refused later is refused too late: the file has been
made by then, and if it was there it has lost its content. -/
namespace SurveyTables.CommandLine

/-- Why an export has nothing to write: what is asked for cannot be opened, or has no such table. -/
inductive Refuses (service : Service) (request : DataRequest) : ExportError → Prop where
  | publication {error : StoreError}
      (refused : service.store.publication request.uuid = .error error) :
      Refuses service request (.store error)
  | form {publication : Publication} {error : StoreError}
      (found : service.store.publication request.uuid = .ok publication)
      (refused : service.store.form publication.form = .error error) :
      Refuses service request (.store error)
  | submissions {publication : Publication} {form : Form} {error : StoreError}
      (found : service.store.publication request.uuid = .ok publication)
      (formed : service.store.form publication.form = .ok form)
      (refused : service.store.submissions publication.form ⟨request.above⟩ = .error error) :
      Refuses service request (.store error)
  | table {publication : Publication} {form : Form} {stored : Feed StoreError Submission}
      (found : service.store.publication request.uuid = .ok publication)
      (formed : service.store.form publication.form = .ok form)
      (offered : service.store.submissions publication.form ⟨request.above⟩ = .ok stored)
      (csv : request.format = .csv)
      (unknown : (Layout.infer form).schema? request.table = none) :
      Refuses service request (.unknownTable request.table)

theorem export?_eq (service : Service) (request : DataRequest) :
    export? service request = (do
      let publication ← (service.store.publication request.uuid).mapError .store
      let form ← (service.store.form publication.form).mapError .store
      let stored ← (service.store.submissions publication.form ⟨request.above⟩).mapError .store
      let rows := (Exporter.ofForm form service.baseUrl).rows stored
      match request.format with
      | .json => return JsonArray.write rows
      | .csv =>
        match (Layout.infer form).schema? request.table with
        | some schema => return Csv.write schema rows
        | none => .error (.unknownTable request.table)) := by
  simp only [export?, Service.openRows, Service.layout, Service.publication, bind_assoc, pure_bind]
  rfl

/-- An export fails as a whole just if it is refused; an error among the rows is met in writing. -/
theorem export?_eq_error_iff {service : Service} {request : DataRequest} {error : ExportError} :
    export? service request = .error error ↔ Refuses service request error := by
  rw [export?_eq]
  simp only [Except.bind_eq_error, Except.mapError_eq_error, Except.mapError_eq_ok]
  constructor
  · rintro (⟨cause, refused, rfl⟩ | ⟨publication, found, failed⟩)
    · exact .publication refused
    rcases failed with ⟨cause, refused, rfl⟩ | ⟨form, formed, failed⟩
    · exact .form found refused
    rcases failed with ⟨cause, refused, rfl⟩ | ⟨stored, offered, failed⟩
    · exact .submissions found formed refused
    split at failed
    · contradiction
    · next csv =>
      split at failed
      · contradiction
      · next unknown =>
        cases failed
        exact .table found formed offered csv unknown
  · intro refuses
    cases refuses with
    | publication refused => exact .inl ⟨_, refused, rfl⟩
    | form found refused => exact .inr ⟨_, found, .inl ⟨_, refused, rfl⟩⟩
    | submissions found formed refused =>
      exact .inr ⟨_, found, .inr ⟨_, formed, .inl ⟨_, refused, rfl⟩⟩⟩
    | table found formed offered csv unknown =>
      refine .inr ⟨_, found, .inr ⟨_, formed, .inr ⟨_, offered, ?_⟩⟩⟩
      simp [csv, unknown]

/-- A file has been made with nothing in it, and nothing else has changed. -/
structure Emptied (files later : FileSystem) (path : String) : Prop where
  empty : later.read path = .ok []
  kept_iff : later.read path = files.read path ↔ files.read path = .ok []
  elsewhere : ∀ other, later.resolve? other ≠ later.resolve? path →
    later.read other = files.read other

theorem emptied_of_create? {files made : FileSystem} {path : String}
    (created : files.create? path [] = some made) : Emptied files made path where
  empty := FileSystem.read_create? created
  kept_iff := by
    rw [FileSystem.read_create? created]
    exact eq_comm
  elsewhere _ apart := FileSystem.read_create?_of_ne created apart

section

variable {files : FileSystem} {request : DataRequest} {config : Config} {path : String}

theorem runData_of_uncreated (loaded : Config.load files request.config = .ok config)
    (output : request.output = some path) (uncreated : files.create? path [] = none) :
    runData files request = .failed files "cannot write the output file" := by
  simp [runData, loaded, output, uncreated]

theorem runData_of_refuses {made : FileSystem} {error : ExportError}
    (loaded : Config.load files request.config = .ok config) (output : request.output = some path)
    (created : files.create? path [] = some made)
    (refuses : Refuses (loadService made config) request error) :
    runData files request = .failed made error.message := by
  simp [runData, loaded, output, created, export?_eq_error_iff.2 refuses]

end

/-- A command that exports to a file leaves the file as it was if the configuration does not load,
or the file cannot be made. An export that is refused after that loses what the file held. -/
theorem output_of_failed {files : FileSystem} {arguments : List String} {request : DataRequest}
    {path : String} (commanded : Command.read? arguments = some (.data request))
    (output : request.output = some path) :
    (∀ error, Config.load files request.config = .error error →
      run files arguments = .failed files error.message) ∧
    ∀ config, Config.load files request.config = .ok config →
      (files.create? path [] = none →
        run files arguments = .failed files "cannot write the output file") ∧
      ∀ made, files.create? path [] = some made →
        Emptied files made path ∧
        ∀ error, Refuses (loadService made config) request error →
          run files arguments = .failed made error.message := by
  have ran : run files arguments = runData files request := by
    rw [run, commanded]
    rfl
  rw [ran]
  constructor
  · intro error unloaded
    rw [runData, unloaded]
  · intro config loaded
    constructor
    · exact runData_of_uncreated loaded output
    · intro made created
      exact ⟨emptied_of_create? created, fun error => runData_of_refuses loaded output created⟩

/-- A data directory of which nothing is open, and what an export has left beside it. -/
def unopened (exported : List UInt8) : FileSystem :=
  ⟨.directory [("opendata.yaml", .file (Text.encode "data_dir: data\n")),
    ("data", .directory [("keep", .file [])]), ("out.json", .file exported)], []⟩

def unlistedRequest : DataRequest where
  config := defaultConfig
  uuid := ⟨1⟩
  above := none
  format := .json
  table := rootName
  output := some "out.json"

theorem output_of_unlisted :
    let arguments := ["data", "--uuid", "00000000-0000-0000-0000-000000000001",
      "--output", "out.json"]
    let files := unopened (Text.encode "[]")
    Command.read? arguments = some (.data unlistedRequest) ∧
      files.read "out.json" = .ok (Text.encode "[]") ∧
      (run files arguments).exitCode = 1 ∧
      (run files arguments).files.read "out.json" = .ok [] := by
  intro arguments files
  have commanded : Command.read? arguments = some (.data unlistedRequest) := by decide +kernel
  have loaded : Config.load files defaultConfig = .ok ⟨"", "data", []⟩ := by decide +kernel
  have unlisted : Refuses (loadService (unopened []) ⟨"", "data", []⟩) unlistedRequest
      (.store (.publicationNotFound "00000000-0000-0000-0000-000000000001")) :=
    .publication (by decide +kernel)
  obtain ⟨emptied, failed⟩ := ((output_of_failed commanded rfl).2 _ loaded).2 (unopened []) rfl
  rw [failed _ unlisted]
  exact ⟨commanded, rfl, rfl, emptied.empty⟩

end SurveyTables.CommandLine
