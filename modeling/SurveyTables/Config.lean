import SurveyTables.Store.Directory
import SurveyTables.Yaml.Document

/-! The configuration of the service: where the data are, which publications open them, and
the base address of attachments. -/
namespace SurveyTables

inductive ConfigError where
  | unreadable (path : String)
  | invalid (path : String)
  | duplicateUuid (uuid : Uuid)
  | missingDataDirectory (path : String)
deriving DecidableEq, Repr

namespace ConfigError

def message : ConfigError → String
  | unreadable path => "Cannot read configuration '" ++ path ++ "'"
  | invalid path => "Invalid configuration '" ++ path ++ "'"
  | duplicateUuid uuid => "Duplicate open data uuid: " ++ uuid.text
  | missingDataDirectory path => "Data directory '" ++ path ++ "' does not exist"

end ConfigError

structure Config where
  baseUrl : String
  dataDirectory : String
  publications : List Publication
deriving DecidableEq, Repr

namespace Publication

def ofYaml? (value : Yaml) : Option Publication := do
  let found ← value.fields? ["uuid", "name", "form", "active"]
  return {
    uuid := ← Yaml.required "uuid" (·.text?.bind Uuid.read?) found
    name := ← Yaml.optional "name" "" Yaml.text? found
    form := ← Yaml.required "form" Yaml.text? found
    active := ← Yaml.optional "active" true Yaml.bool? found }

end Publication

namespace Config

def ofYaml? (value : Yaml) : Option Config := do
  let found ← value.fields? ["base_url", "data_dir", "open_data"]
  return {
    baseUrl := ← Yaml.optional "base_url" "" Yaml.text? found
    dataDirectory := ← Yaml.required "data_dir" Yaml.text? found
    publications := ←
      Yaml.optional "open_data" [] (·.items?.bind (·.mapM Publication.ofYaml?)) found }

def read? (text : String) : Option Config := (Yaml.parse? text).bind ofYaml?

/-- The configuration with the data directory as seen from where the file's path starts. -/
def locate (path : String) (config : Config) : Config :=
  { config with dataDirectory := FilePath.join (FilePath.parent path) config.dataDirectory }

def firstRepeated : List Uuid → List Uuid → Option Uuid
  | _, [] => none
  | seen, uuid :: uuids =>
    if seen.contains uuid then some uuid else firstRepeated (uuid :: seen) uuids

def check (fs : FileSystem) (config : Config) : Except ConfigError Config :=
  if !fs.isDirectory config.dataDirectory then
    .error (.missingDataDirectory config.dataDirectory)
  else
    match firstRepeated [] (config.publications.map Publication.uuid) with
    | some uuid => .error (.duplicateUuid uuid)
    | none => .ok config

def load (fs : FileSystem) (path : String) : Except ConfigError Config := do
  let text ← match (fs.read path).toOption.bind Text.decode? with
    | some text => .ok text
    | none => .error (.unreadable path)
  let config ← match read? text with
    | some config => .ok config
    | none => .error (.invalid path)
  check fs (config.locate path)

def store (fs : FileSystem) (config : Config) : Store :=
  Directory.store fs config.dataDirectory config.publications

end Config

end SurveyTables
