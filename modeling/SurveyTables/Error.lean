import SurveyTables.Flatten
import SurveyTables.Json.Fault

/-! What can go wrong between a store of submissions and an exported table, with the message
and the code by which a caller is told. -/
namespace SurveyTables

/-- Failures of a store. Paths are those of the files that hold the offending text. -/
inductive StoreError where
  | publicationNotFound (uuid : String)
  | publicationInactive (uuid : String)
  | formNotFound (form : String)
  | invalidForm (path reason : String)
  | invalidSubmission (path : String) (line : Nat) (reason : String)
  | io (reason : String)
deriving DecidableEq, Repr

/-- Failures of an export. The last three are those of the writers. -/
inductive ExportError where
  | flatten (cause : FlattenError)
  | unknownTable (table : String)
  | store (cause : StoreError)
  | serialization (fault : Json.Fault)
  | csv (reason : String)
  | io (reason : String)
deriving DecidableEq, Repr

namespace FlattenError

def message : FlattenError → String
  | malformedRepeat instanceId path =>
    "Submission " ++ Text.intNumeral instanceId ++ ": repeat group '" ++ path ++
      "' does not hold a list"
  | malformedElement instanceId path ordinal =>
    "Submission " ++ Text.intNumeral instanceId ++ ": element " ++ Text.natNumeral ordinal ++
      " of repeat group '" ++ path ++ "' is not an object"
  | missingInstanceId => "Submission is missing an integer _id"
  | negativeInstanceId instanceId =>
    "Submission _id " ++ Text.intNumeral instanceId ++ " is negative"

def code : FlattenError → String
  | malformedRepeat _ _ | malformedElement _ _ _ => "MALFORMED_REPEAT"
  | missingInstanceId => "MISSING_INSTANCE_ID"
  | negativeInstanceId _ => "INVALID_INSTANCE_ID"

end FlattenError

namespace StoreError

def message : StoreError → String
  | publicationNotFound uuid => "Open data entry not found: " ++ uuid
  | publicationInactive uuid => "Open data entry is inactive: " ++ uuid
  | formNotFound form => "Form not found: " ++ form
  | invalidForm path reason => "Invalid form definition '" ++ path ++ "': " ++ reason
  | invalidSubmission path line reason =>
    "Invalid submission at " ++ path ++ ":" ++ Text.natNumeral line ++ ": " ++ reason
  | io reason => "IO error: " ++ reason

def code : StoreError → String
  | publicationNotFound _ => "OPEN_DATA_NOT_FOUND"
  | publicationInactive _ => "OPEN_DATA_INACTIVE"
  | formNotFound _ => "FORM_NOT_FOUND"
  | invalidForm _ _ => "INVALID_FORM"
  | invalidSubmission _ _ _ => "INVALID_SUBMISSION"
  | io _ => "IO_ERROR"

/-- Whether what was asked for is not there. A publication that is switched off counts as
not there. -/
def isNotFound : StoreError → Bool
  | publicationNotFound _ | publicationInactive _ | formNotFound _ => true
  | _ => false

def isClientError (error : StoreError) : Bool := error.isNotFound

end StoreError

namespace ExportError

def message : ExportError → String
  | flatten cause => cause.message
  | unknownTable table => "Unknown table: " ++ table
  | store cause => cause.message
  | serialization fault => "Serialization error: " ++ fault.text
  | csv reason => "CSV error: " ++ reason
  | io reason => "IO error: " ++ reason

def code : ExportError → String
  | flatten cause => cause.code
  | unknownTable _ => "UNKNOWN_TABLE"
  | store cause => cause.code
  | serialization _ => "SERIALIZATION_ERROR"
  | csv _ => "CSV_ERROR"
  | io _ => "IO_ERROR"

def isNotFound : ExportError → Bool
  | store cause => cause.isNotFound
  | _ => false

def isClientError : ExportError → Bool
  | unknownTable _ => true
  | store cause => cause.isClientError
  | _ => false

end ExportError

end SurveyTables
