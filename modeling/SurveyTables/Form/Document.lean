import SurveyTables.Form.Basic
import SurveyTables.Json.Printer
import SurveyTables.Json.Reader

/-! Forms as JSON documents. A title, choices and children may be left out when a form is
read; they are always written. -/
namespace SurveyTables

open Json (Reader)

def FieldKind.reader : Reader FieldKind := Reader.named FieldKind.ofName?

namespace Choice

def reader : Reader Choice :=
  Reader.record ["name", "label"] fun room found => do
    return {
      name := ← Reader.required "name" Reader.string room found
      label := ← Reader.optional "label" "" Reader.string room found }

def toJson (choice : Choice) : Json :=
  .object [("name", .string choice.name), ("label", .string choice.label)]

end Choice

namespace Field

def memberNames : List String := ["path", "type", "choices", "children"]

def readerWith (children : Reader (List Field)) : Reader Field :=
  Reader.record memberNames fun room found => do
    return {
      path := ← Reader.required "path" Reader.string room found
      kind := ← Reader.required "type" FieldKind.reader room found
      choices := ← Reader.optional "choices" [] (Reader.list Choice.reader) room found
      children := ← Reader.optional "children" [] children room found }

/-- Reads a field that nests at most `room` deep. A child nests two levels deeper than its
parent, inside the list of children. -/
def readNested : Nat → Json.Raw → Option Field
  | room + 2, raw =>
    readerWith (fun _ children => Reader.list (fun _ => readNested room) (room + 1) children)
      (room + 2) raw
  | room, raw => readerWith (fun _ _ => none) room raw

def reader : Reader Field := readNested

mutual

def toJson : Field → Json
  | ⟨path, kind, choices, children⟩ =>
    .object [("path", .string path), ("type", .string kind.name),
      ("choices", .array (choices.map Choice.toJson)), ("children", .array (listToJson children))]

def listToJson : List Field → List Json
  | [] => []
  | field :: fields => toJson field :: listToJson fields

end

end Field

namespace Form

def reader : Reader Form :=
  Reader.record ["id_string", "project_id", "title", "fields"] fun room found => do
    return {
      idString := ← Reader.required "id_string" Reader.string room found
      projectId := ← Reader.required "project_id" Reader.int64 room found
      title := ← Reader.optional "title" "" Reader.string room found
      fields := ← Reader.optional "fields" [] (Reader.list Field.reader) room found }

def read? (s : String) : Option Form := reader.text? s

def toJson (form : Form) : Json :=
  .object [("id_string", .string form.idString), ("project_id", .ofInt form.projectId),
    ("title", .string form.title), ("fields", .array (Field.listToJson form.fields))]

def text (form : Form) : String := form.toJson.compact

end Form

end SurveyTables
