import SurveyTables.Json.Reader
import SurveyTables.Uuid

/-! Publications: public handles, each of which opens the data of one form to programs that
know its identifier. -/
namespace SurveyTables

/-- `form` is the name under which the store keeps the form. -/
structure Publication where
  uuid : Uuid
  name : String
  form : String
  active : Bool
deriving DecidableEq, Repr

namespace Publication

open Json (Reader)

def uuidReader : Reader Uuid := fun room raw => (Reader.string room raw).bind Uuid.read?

def reader : Reader Publication :=
  Reader.record ["uuid", "name", "form", "active"] fun room found => do
    return {
      uuid := ← Reader.required "uuid" uuidReader room found
      name := ← Reader.optional "name" "" Reader.string room found
      form := ← Reader.required "form" Reader.string room found
      active := ← Reader.optional "active" true Reader.bool room found }

def read? (s : String) : Option Publication := reader.text? s

end Publication

end SurveyTables
