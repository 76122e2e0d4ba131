import SurveyTables.CommandLine.Command
import SurveyTables.Config
import SurveyTables.Export.Csv
import SurveyTables.Export.JsonArray
import SurveyTables.Service

/-! What a command does, from the files it finds to the files it leaves. -/
namespace SurveyTables.CommandLine

/-- A program ends with 0 if all went well, with 1 if the command failed, and with 2 if the
command line is none. What was written before a failure stays written. -/
structure Outcome where
  exitCode : Nat
  stdout : String
  files : FileSystem
  message : Option String

namespace Outcome

def failed (files : FileSystem) (message : String) : Outcome := ⟨1, "", files, some message⟩

def misused (files : FileSystem) : Outcome := ⟨2, "", files, some "unknown command or option"⟩

end Outcome

def loadService (files : FileSystem) (config : Config) : Service :=
  ⟨config.store files, config.baseUrl⟩

def runSchema (files : FileSystem) (configPath : String) (uuid : Uuid) : Outcome :=
  match Config.load files configPath with
  | .error error => .failed files error.message
  | .ok config =>
    match (loadService files config).schemas uuid with
    | .error error => .failed files error.message
    | .ok schemas => ⟨0, TableSchema.render schemas ++ "\n", files, none⟩

/-- The text that an export writes. A table that does not exist is found out before anything
is written. -/
def export? (service : Service) (request : DataRequest) : Except ExportError Written := do
  let (exporter, rows) ← service.openRows request.uuid ⟨request.above⟩
  match request.format with
  | .json => return JsonArray.write rows
  | .csv =>
    match exporter.layout.schema? request.table with
    | some schema => return Csv.write schema rows
    | none => .error (.unknownTable request.table)

def deliver (files : FileSystem) (output : Option String) (written : Written) : Outcome :=
  let (exitCode, message) := match written.outcome with
    | .ok _ => (0, none)
    | .error error => (1, some error.message)
  match output with
  | none => ⟨exitCode, written.text, files, message⟩
  | some path => ⟨exitCode, "", (files.create? path (Text.encode written.text)).getD files, message⟩

/-- The output file is made, or emptied, before the store is opened. -/
def runData (files : FileSystem) (request : DataRequest) : Outcome :=
  match Config.load files request.config with
  | .error error => .failed files error.message
  | .ok config =>
    match request.output.elim (some files) (files.create? · []) with
    | none => .failed files "cannot write the output file"
    | some files =>
      match export? (loadService files config) request with
      | .error error => .failed files error.message
      | .ok written => deliver files request.output written

def runCommand (files : FileSystem) : Command → Outcome
  | .schema config uuid => runSchema files config uuid
  | .data request => runData files request

def run (files : FileSystem) (arguments : List String) : Outcome :=
  match Command.read? arguments with
  | none => .misused files
  | some command => runCommand files command

end SurveyTables.CommandLine
