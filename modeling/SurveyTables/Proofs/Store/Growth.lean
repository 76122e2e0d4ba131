import SurveyTables.Proofs.Store.Lines

/-! Stores that grow. A form's store takes in one submission after another, a file one line for
each, and delivers them in the order in which they came. -/
namespace SurveyTables

namespace Directory

theorem lines_append {bytes line : List UInt8} (ended : bytes.getLast?.all (· = lineFeed))
    (unbroken : lineFeed ∉ line) :
    lines (bytes ++ (line ++ [lineFeed])) = lines bytes ++ [withoutReturn line] := by
  induction bytes using lines_induction with
  | last front whole =>
    rw [eq_nil_of_ended whole ended, List.nil_append, lines_append_cons unbroken]
    rfl
  | ended first rest whole ih =>
    rw [ended_append_cons] at ended
    rw [List.append_assoc, List.cons_append, lines_append_cons whole, lines_append_cons whole,
      ih ended, List.cons_append]

def LineHolds (line : List UInt8) (submission : Submission) : Prop :=
  ∃ text, Text.decode? line = some text ∧ (Text.trim text).isEmpty = false ∧
    Json.read? text = some (.object submission.answers)

theorem readLine_eq_ok {path text : String} {number : Nat} {submission : Submission}
    (something : (Text.trim text).isEmpty = false)
    (reads : Json.read? text = some (.object submission.answers)) :
    readLine path number text = .ok (some submission) := by
  simp [readLine, something, reads]

theorem readLines_of_forall₂ {lines : List (List UInt8)} {stored : List Submission}
    (held : List.Forall₂ LineHolds lines stored) (path : String) (number : Nat) :
    readLines path .everything number lines = stored.map .ok := by
  induction held generalizing number with
  | nil => rfl
  | @cons line submission lines stored holds _ ih =>
    obtain ⟨text, decoded, something, reads⟩ := holds
    simp only [List.map_cons, readLines, decoded, readLine_eq_ok something reads, ih,
      SubmissionFilter.accepts_everything, if_true]

theorem form_eq_ok {fs : FileSystem} {dataDirectory name directory text : String} {form : Form}
    (found : formDirectory fs dataDirectory name = .ok directory)
    (there : fs.read (FilePath.join directory formFile) = .ok (Text.encode text))
    (reads : Form.read? text = some form) : Directory.form fs dataDirectory name = .ok form := by
  simp [Directory.form, readText, found, there, Text.decode?_encode, reads, bind, Except.bind]

def content (fs : FileSystem) (dataDirectory name : String) : Except StoreError (List UInt8) := do
  let path := FilePath.join (← formDirectory fs dataDirectory name) submissionsFile
  match fs.read path with
  | .error .absent => return []
  | .error .notAFile => .error (.io "not a file")
  | .error .pathTooLong => .error (.io "path too long")
  | .ok bytes => return bytes

theorem submissions_of_content {fs : FileSystem} {dataDirectory name : String}
    {bytes : List UInt8} (read : content fs dataDirectory name = .ok bytes)
    (filter : SubmissionFilter) :
    ∃ path, submissions fs dataDirectory name filter =
      .ok ⟨readLines path filter 1 (lines bytes), none⟩ := by
  obtain ⟨directory, found, read⟩ := Except.bind_eq_ok.1 read
  refine ⟨FilePath.join directory submissionsFile,
    submissions_eq_ok_iff.2 ⟨directory, found, ?_⟩⟩
  dsimp only [pure, Except.pure] at read
  cases there : fs.read (FilePath.join directory submissionsFile) with
  | error failure =>
    simp only [there] at read
    cases failure with
    | absent =>
      cases read
      exact .nothing
    | notAFile => contradiction
    | pathTooLong => contradiction
  | ok stored =>
    simp only [there] at read
    cases read
    exact .file bytes

end Directory

namespace Stock

theorem publication_store (stock other : Stock) (publications : List Publication) (uuid : Uuid) :
    (stock.store publications).publication uuid = (other.store publications).publication uuid := by
  cases stock <;> cases other <;> rfl

/-- A stock has a form under a name, with the given submissions; a file holds them line by
line. -/
inductive Holds (name : String) (form : Form) : Stock → List Submission → Prop
  | memory {held : Memory} {stored : List Submission}
      (kept : held.forms.get? name = some ⟨form, stored⟩) : Holds name form (.memory held) stored
  | directory {fs : FileSystem} {dataDirectory : String} {bytes : List UInt8}
      {stored : List Submission}
      (defined : Directory.form fs dataDirectory name = .ok form)
      (content : Directory.content fs dataDirectory name = .ok bytes)
      (held : List.Forall₂ Directory.LineHolds (Directory.lines bytes) stored) :
      Holds name form (.directory fs dataDirectory) stored

/-- One more submission is put behind those of a form. In memory the form is kept again with a
longer list; a file grows by bytes that add one line to its lines. -/
inductive Appends (name : String) (submission : Submission) : Stock → Stock → Prop
  | memory {held : Memory} {kept : KeptForm} (found : held.forms.get? name = some kept) :
      Appends name submission (.memory held)
        (.memory (held.keep name kept.form (kept.submissions ++ [submission])))
  | directory {fs later : FileSystem} {dataDirectory : String} {bytes more line : List UInt8}
      (before : Directory.content fs dataDirectory name = .ok bytes)
      (after : Directory.content later dataDirectory name = .ok (bytes ++ more))
      (grows : Directory.lines (bytes ++ more) = Directory.lines bytes ++ [line])
      (holds : Directory.LineHolds line submission)
      (same : Directory.form later dataDirectory name = Directory.form fs dataDirectory name) :
      Appends name submission (.directory fs dataDirectory) (.directory later dataDirectory)

namespace Holds

variable {name : String} {form : Form} {stock later : Stock} {stored : List Submission}

theorem append (holds : Holds name form stock stored) {submission : Submission}
    (appends : Appends name submission stock later) :
    Holds name form later (stored ++ [submission]) := by
  cases holds with
  | memory kept =>
    cases appends with
    | memory found =>
      cases kept.symm.trans found
      exact .memory ((Keyed.get?_insert ..).trans (if_pos rfl))
  | directory defined content held =>
    cases appends with
    | directory before after grows holds same =>
      cases content.symm.trans before
      refine .directory (same.trans defined) after ?_
      rw [grows]
      exact List.rel_append held (.cons holds .nil)

theorem form_store (holds : Holds name form stock stored) (publications : List Publication) :
    (stock.store publications).form name = .ok form := by
  cases holds with
  | memory kept => simp [store, Memory.store, Memory.lookup, kept, Except.map]
  | directory defined _ _ => exact defined

theorem submissions_store (holds : Holds name form stock stored)
    (publications : List Publication) :
    (stock.store publications).submissions name .everything = .ok (Feed.ofList stored) := by
  cases holds with
  | memory kept =>
    simp [store, Memory.store, Memory.lookup, kept, Except.map,
      SubmissionFilter.filter_everything]
  | directory _ content held =>
    obtain ⟨path, delivered⟩ := Directory.submissions_of_content content .everything
    rw [Directory.readLines_of_forall₂ held] at delivered
    exact delivered

end Holds

end Stock

end SurveyTables
