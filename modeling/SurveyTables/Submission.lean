import SurveyTables.Json.Printer
import SurveyTables.Json.Reader
import SurveyTables.Text.Blank
import SurveyTables.Text.Segment

/-! Submissions: the answers to one form, given once, by full field path. A repeat group holds
a list of objects whose members are again named by full path. -/
namespace SurveyTables

structure Attachment where
  filename : String
  downloadUrl : String
  mimeType : Option String
deriving DecidableEq, Repr

namespace Attachment

def basename (attachment : Attachment) : String := Text.leaf attachment.filename

open Json (Reader) in
def reader : Reader Attachment :=
  Reader.record ["filename", "download_url", "mimetype"] fun room found => do
    return {
      filename := ← Reader.required "filename" Reader.string room found
      downloadUrl := ← Reader.required "download_url" Reader.string room found
      mimeType := ← Reader.optional "mimetype" none (Reader.nullable Reader.string) room found }

def ofJson? (value : Json) : Option Attachment := reader 1 (.ofJson value)

end Attachment

structure Submission where
  answers : Keyed Json

namespace Submission

/-- The member that holds the number under which the submission was stored. -/
def idKey : String := "_id"

/-- The member that lists the files that came along. -/
def attachmentsKey : String := "_attachments"

/-- A value that is not an object holds no answers. -/
def ofJson : Json → Submission
  | .object members => ⟨members⟩
  | _ => ⟨[]⟩

def read? (s : String) : Option Submission := (Json.read? s).map ofJson

def toJson (submission : Submission) : Json := .object submission.answers

def text (submission : Submission) : String := submission.toJson.compact

/-- An integer of 64 bits that is stored as a plain number or as text around it. -/
def integerOf? : Json → Option Int
  | .number n => n.int64?
  | .string s => Text.readInt64? (Text.trim s)
  | _ => none

def instanceId? (submission : Submission) : Option Int :=
  (submission.answers.get? idKey).bind integerOf?

/-- The files that came along; entries that do not read as one are passed over. -/
def attachments (submission : Submission) : List Attachment :=
  match submission.answers.get? attachmentsKey with
  | some (.array items) => items.filterMap Attachment.ofJson?
  | _ => []

end Submission

end SurveyTables
