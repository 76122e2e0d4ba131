import SurveyTables.Text.Numeral
import SurveyTables.Text.Segment

/-! Survey forms: a tree of fields, each known by its path from the top of the form. Groups
and repeat groups hold further fields; the answers to a repeat group are given any number of
times. -/
namespace SurveyTables

inductive FieldKind where
  | integer
  | decimal
  | text
  | date
  | dateTime
  | time
  | calculated
  | note
  | selectOne
  | selectMultiple
  | geopoint
  | photo
  | audio
  | video
  | file
  | group
  | repeatGroup
deriving DecidableEq, Repr

namespace FieldKind

def all : List FieldKind :=
  [integer, decimal, text, date, dateTime, time, calculated, note, selectOne, selectMultiple,
   geopoint, photo, audio, video, file, group, repeatGroup]

def name : FieldKind → String
  | integer => "integer"
  | decimal => "decimal"
  | text => "string"
  | date => "date"
  | dateTime => "datetime"
  | time => "time"
  | calculated => "calculate"
  | note => "note"
  | selectOne => "select_one"
  | selectMultiple => "select_multiple"
  | geopoint => "geopoint"
  | photo => "photo"
  | audio => "audio"
  | video => "video"
  | file => "file"
  | group => "group"
  | repeatGroup => "repeat"

def synonyms : FieldKind → List String
  | integer => ["int"]
  | text => ["text"]
  | dateTime => ["dateTime"]
  | selectOne => ["select one", "select1"]
  | selectMultiple => ["select all that apply", "select"]
  | photo => ["image"]
  | _ => []

def ofName? (s : String) : Option FieldKind :=
  all.find? fun kind => kind.name = s || s ∈ kind.synonyms

def isInteger (kind : FieldKind) : Bool := kind = integer

/-- Kinds whose answer is the name of an uploaded file. -/
def isMedia (kind : FieldKind) : Bool :=
  kind = photo || kind = audio || kind = video || kind = file

/-- Notes ask nothing; every other kind has or holds answers. -/
def carriesData (kind : FieldKind) : Bool := kind ≠ note

theorem mem_all (kind : FieldKind) : kind ∈ all := by cases kind <;> decide

end FieldKind

structure Choice where
  name : String
  label : String
deriving DecidableEq, Repr

structure Field where
  path : String
  kind : FieldKind
  choices : List Choice
  children : List Field

structure Form where
  idString : String
  projectId : Int
  title : String
  fields : List Field

namespace Field

def name (field : Field) : String := Text.leaf field.path

def choiceNames (field : Field) : List String := field.choices.map Choice.name

mutual

def withDescendants : Field → List Field
  | ⟨path, kind, choices, children⟩ =>
    ⟨path, kind, choices, children⟩ :: listWithDescendants children

def listWithDescendants : List Field → List Field
  | [] => []
  | field :: fields => withDescendants field ++ listWithDescendants fields

end

end Field

namespace Form

/-- The name under which a form's root table is known to other programs. -/
def connectionName (form : Form) : String :=
  Text.intNumeral form.projectId ++ "_" ++ form.idString

def allFields (form : Form) : List Field := Field.listWithDescendants form.fields

end Form

end SurveyTables
