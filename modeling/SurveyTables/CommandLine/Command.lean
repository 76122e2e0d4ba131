import SurveyTables.CommandLine.Option
import SurveyTables.Layout.Table
import SurveyTables.Uuid

/-! The commands of the program, as they are given on the command line. -/
namespace SurveyTables.CommandLine

inductive OutputFormat where
  | json
  | csv
deriving DecidableEq, Repr

structure DataRequest where
  config : String
  uuid : Uuid
  above : Option Int
  format : OutputFormat
  table : String
  output : Option String
deriving DecidableEq, Repr

inductive Command where
  | schema (config : String) (uuid : Uuid)
  | data (request : DataRequest)
deriving DecidableEq, Repr

def logLevel : OptionName := ⟨"log-level", some 'l'⟩
def configOption : OptionName := ⟨"config", some 'c'⟩
def uuidOption : OptionName := ⟨"uuid", some 'u'⟩
def aboveOption : OptionName := ⟨"gt-id", none⟩
def formatOption : OptionName := ⟨"format", some 'f'⟩
def tableOption : OptionName := ⟨"table", some 't'⟩
def outputOption : OptionName := ⟨"output", some 'o'⟩

def defaultConfig : String := "opendata.yaml"

def OutputFormat.read? (s : String) : Option OutputFormat :=
  if s = "json" then some .json else if s = "csv" then some .csv else none

/-- The path of a file, which is not empty. -/
def readPath? (s : String) : Option String := if s.isEmpty then none else some s

def optionalValue {α : Type} (name : OptionName) (read : String → Option α)
    (given : List (OptionName × String)) : Option (Option α) :=
  match given.lookup name with
  | none => some none
  | some value => (read value).map some

namespace Command

def readSchema? (arguments : List String) : Option Command := do
  let given ← readOptions? [logLevel, configOption, uuidOption] arguments
  let config ← optionalValue configOption readPath? given
  let uuid ← Uuid.read? (← given.lookup uuidOption)
  return .schema (config.getD defaultConfig) uuid

def readData? (arguments : List String) : Option Command := do
  let given ← readOptions? [logLevel, configOption, uuidOption, aboveOption, formatOption,
    tableOption, outputOption] arguments
  let config ← optionalValue configOption readPath? given
  let uuid ← Uuid.read? (← given.lookup uuidOption)
  let above ← optionalValue aboveOption Text.readInt64? given
  let format ← optionalValue formatOption OutputFormat.read? given
  let output ← optionalValue outputOption readPath? given
  return .data {
    config := config.getD defaultConfig
    uuid := uuid
    above := above
    format := format.getD .json
    table := (given.lookup tableOption).getD rootName
    output := output }

/-- Reads a command line. The level of logging may be given before the command's name too. -/
def read? (arguments : List String) : Option Command := do
  let (_, rest) ← readLeading? [logLevel] arguments
  match rest with
  | "schema" :: arguments => readSchema? arguments
  | "data" :: arguments => readData? arguments
  | _ => none

end Command

end SurveyTables.CommandLine
