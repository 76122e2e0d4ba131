import SurveyTables.Error
import SurveyTables.Json.Printer

/-! Answers to requests, and how errors are answered. -/
namespace SurveyTables.Http

/-- `aborted` says that the body broke off with an error after the headers were sent. -/
structure Response where
  status : Nat
  contentType : Option String
  body : String
  aborted : Bool
deriving DecidableEq, Repr

namespace Response

def empty (status : Nat) : Response := ⟨status, none, "", false⟩

def json (status : Nat) (body : String) : Response :=
  ⟨status, some "application/json", body, false⟩

def plain (status : Nat) (body : String) : Response :=
  ⟨status, some "text/plain; charset=utf-8", body, false⟩

def headersOnly (response : Response) : Response := { response with body := "", aborted := false }

end Response

inductive ApiError where
  | invalidUuid (given : String)
  | invalidQuery (reason : String)
  | failed (cause : ExportError)
  | internal (reason : String)
deriving DecidableEq, Repr

namespace ApiError

/-- What is not found is answered by 404, another fault of the caller by 400, every other
failure by 500. -/
def status : ApiError → Nat
  | invalidUuid _ | invalidQuery _ => 400
  | failed cause => if cause.isNotFound then 404 else if cause.isClientError then 400 else 500
  | internal _ => 500

def code : ApiError → String
  | invalidUuid _ => "INVALID_UUID"
  | invalidQuery _ => "INVALID_QUERY"
  | failed cause => cause.code
  | internal _ => "INTERNAL_ERROR"

def message : ApiError → String
  | invalidUuid given => "Invalid open data uuid: " ++ given
  | invalidQuery reason => "Invalid query parameters: " ++ reason
  | failed cause => cause.message
  | internal reason => reason

def body (error : ApiError) : String :=
  (Json.object [("error", .string error.message), ("code", .string error.code)]).compact

def response (error : ApiError) : Response := .json error.status error.body

end ApiError

end SurveyTables.Http
