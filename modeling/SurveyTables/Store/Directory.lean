import SurveyTables.FileSystem
import SurveyTables.Form.Document
import SurveyTables.Store.Basic
import SurveyTables.Text.Utf8

/-! Forms and submissions that are kept in files. A form has a directory below the data
directory, with its definition in `form.json` and its submissions in `submissions.jsonl`, one
JSON object a line. -/
namespace SurveyTables.Directory

def formFile : String := "form.json"

def submissionsFile : String := "submissions.jsonl"

def formDirectory (fs : FileSystem) (dataDirectory name : String) : Except StoreError String :=
  let path := FilePath.join dataDirectory name
  if fs.isDirectory path then .ok path else .error (.formNotFound name)

def readText (fs : FileSystem) (path : String) : Except StoreError (Option String) :=
  match fs.read path with
  | .error .absent => .ok none
  | .error .notAFile => .error (.io "not a file")
  | .error .pathTooLong => .error (.io "path too long")
  | .ok content =>
    match Text.decode? content with
    | some text => .ok (some text)
    | none => .error (.io "not valid UTF-8")

def form (fs : FileSystem) (dataDirectory name : String) : Except StoreError Form := do
  let path := FilePath.join (← formDirectory fs dataDirectory name) formFile
  match ← readText fs path with
  | none => .error (.formNotFound name)
  | some text =>
    match Form.read? text with
    | some form => .ok form
    | none => .error (.invalidForm path "not a form definition")

def lineFeed : UInt8 := 10

def carriageReturn : UInt8 := 13

/-- A line without the carriage return that may stand before its line feed. -/
def withoutReturn (line : List UInt8) : List UInt8 :=
  if line.getLast? = some carriageReturn then line.dropLast else line

/-- The lines of a file. What follows the last line feed is a line too, unless it is empty, and
keeps a carriage return at its end. -/
def lines (bytes : List UInt8) : List (List UInt8) :=
  let parts := Text.parts lineFeed bytes
  parts.dropLast.map withoutReturn ++ parts.getLast?.toList.filter (!·.isEmpty)

example : lines [97, 13, 13, 10, 10, 98, 13] = [[97, 13], [], [98, 13]] := by decide +kernel
example : lines [97, 10] = [[97]] ∧ lines [] = [] := by decide +kernel

/-- The submission that a line holds, if it holds one; blank lines hold none. -/
def readLine (path : String) (number : Nat) (text : String) :
    Except StoreError (Option Submission) :=
  if (Text.trim text).isEmpty then .ok none
  else
    match Json.read? text with
    | some (.object answers) => .ok (some ⟨answers⟩)
    | some _ => .error (.invalidSubmission path number "expected a JSON object")
    | none => .error (.invalidSubmission path number "not a JSON text")

/-- The results of reading lines that are numbered on from `number`. A line that is no UTF-8
text is an error and has no number. -/
def readLines (path : String) (filter : SubmissionFilter) :
    Nat → List (List UInt8) → List (Except StoreError Submission)
  | _, [] => []
  | number, line :: later =>
    match Text.decode? line with
    | none => .error (.io "not valid UTF-8") :: readLines path filter number later
    | some text =>
      let rest := readLines path filter (number + 1) later
      match readLine path number text with
      | .error error => .error error :: rest
      | .ok none => rest
      | .ok (some submission) => if filter.accepts submission then .ok submission :: rest else rest

/-- The submissions of a form. Without a file there are none; a directory in the file's place
opens and then fails at every request. -/
def submissions (fs : FileSystem) (dataDirectory name : String) (filter : SubmissionFilter) :
    Except StoreError (Feed StoreError Submission) := do
  let path := FilePath.join (← formDirectory fs dataDirectory name) submissionsFile
  match fs.read path with
  | .error .absent => return Feed.ofList []
  | .error .notAFile => return ⟨[], some (.io "not a file")⟩
  | .error .pathTooLong => .error (.io "path too long")
  | .ok content => return ⟨readLines path filter 1 (lines content), none⟩

def store (fs : FileSystem) (dataDirectory : String) (publications : List Publication) : Store where
  publications := publications
  form := form fs dataDirectory
  submissions := submissions fs dataDirectory

end SurveyTables.Directory
