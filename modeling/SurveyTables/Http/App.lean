import SurveyTables.Export.JsonArray
import SurveyTables.Http.Response
import SurveyTables.Http.Url
import SurveyTables.Service

/-! The web interface of the service: a health check, the schemas of a publication, and its
rows or their number. -/
namespace SurveyTables.Http

structure Request where
  method : String
  url : Url
deriving DecidableEq, Repr

/-- The origin is what browsers are told may read the answers; without one, all may. -/
structure App where
  service : Service
  origin : Option String

inductive Route where
  | health
  | schemas (publication : String)
  | rows (publication : String)
deriving DecidableEq, Repr

/-- The route of a path. The segment that names the publication may be anything, even
empty. -/
def Route.ofPath? (path : String) : Option Route :=
  match Text.split '/' path with
  | ["", "health"] => some .health
  | ["", "api", "v2", "open-data", publication, "schema"] => some (.schemas publication)
  | ["", "api", "v2", "open-data", publication, "data"] => some (.rows publication)
  | _ => none

structure RowsQuery where
  above : Option Int
  countOnly : Option Bool
deriving DecidableEq, Repr

namespace RowsQuery

def boolOf? (s : String) : Option Bool :=
  if s = "true" then some true else if s = "false" then some false else none

/-- Takes one more pair of the query into account. Unknown names are passed over; a known
one must have a good value and come once. -/
def add (query : RowsQuery) : Option String × Option String → Option RowsQuery
  | (some "gt_id", value) =>
    if query.above.isSome then none
    else do return { query with above := some (← Text.readInt64? (← value)) }
  | (some "count", value) =>
    if query.countOnly.isSome then none
    else do return { query with countOnly := some (← boolOf? (← value)) }
  | _ => some query

def read? (url : Url) : Option RowsQuery := url.queryPairs.foldlM add ⟨none, none⟩

def filter (query : RowsQuery) : SubmissionFilter := ⟨query.above⟩

end RowsQuery

namespace App

/-- Whether a text can stand in a header: it holds no control character but tabs. -/
def isHeaderText (s : String) : Bool :=
  s.toList.all fun c => c = '\t' || (32 ≤ c.toNat && c.toNat ≠ 127)

def create? (service : Service) (origin : Option String) : Option App :=
  if origin.all isHeaderText then some ⟨service, origin⟩ else none

def allowOrigin (app : App) : String := app.origin.getD "*"

def healthBody : String :=
  (Json.object [("status", .string "healthy"), ("service", .string "opendata-connector"),
    ("version", .string "0.1.0")]).compact

def uuidOf (given : String) : Except ApiError Uuid :=
  match Uuid.read? given with
  | some uuid => .ok uuid
  | none => .error (.invalidUuid given)

def schemas (app : App) (given : String) : Except ApiError Response := do
  let uuid ← uuidOf given
  let schemas ← (app.service.schemas uuid).mapError .failed
  return .json 200 (TableSchema.listToJson schemas).compact

/-- Rows are sent while they are made, so an error after the first chunk only cuts the body
short. -/
def rows (app : App) (given : String) (url : Url) : Except ApiError Response := do
  let uuid ← uuidOf given
  let query ← match RowsQuery.read? url with
    | some query => .ok query
    | none => .error (.invalidQuery "not a number above which to ask for or a truth value")
  if query.countOnly = some true then
    let count ← (app.service.count uuid query.filter).mapError .failed
    return .json 200 (Json.object [("count", .ofNat count)]).compact
  else
    let written := JsonArray.write (← (app.service.rows uuid query.filter).mapError .failed)
    return { Response.json 200 written.text with aborted := !written.outcome.isOk }

def forPublication (segment : String) (handle : String → Except ApiError Response) : Response :=
  match segmentText? segment with
  | none => .plain 400 "Invalid URL: Invalid UTF-8 in \x60uuid\x60"
  | some given =>
    match handle given with
    | .ok response => response
    | .error error => error.response

def get (app : App) (route : Route) (url : Url) : Response :=
  match route with
  | .health => .json 200 healthBody
  | .schemas segment => forPublication segment app.schemas
  | .rows segment => forPublication segment (app.rows · url)

/-- Answers a request. Requests for options are answered before a route is looked for. -/
def respond (app : App) (request : Request) : Response :=
  if request.method = "OPTIONS" then .empty 200
  else
    match Route.ofPath? request.url.path with
    | none => .empty 404
    | some route =>
      if request.method = "GET" then app.get route request.url
      else if request.method = "HEAD" then (app.get route request.url).headersOnly
      else .empty 405

end App

end SurveyTables.Http
