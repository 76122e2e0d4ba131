import SurveyTables.Proofs.FileSystem.Lookup
import SurveyTables.Proofs.Store.Lines

/-! Whether a feed comes to an end. What a file holds is exhausted after one result for each line at
most. A directory in the place of the file is never exhausted: each request is answered by the same
error again. -/
namespace SurveyTables

namespace Feed

variable {ε α : Type}

def after (feed : Feed ε α) : Nat → Feed ε α
  | 0 => feed
  | requests + 1 => after feed.pull.2 requests

def answer (feed : Feed ε α) (request : Nat) : Option (Except ε α) := (feed.after request).pull.1

theorem answer_succ (feed : Feed ε α) (request : Nat) :
    feed.answer (request + 1) = feed.pull.2.answer request := rfl

/-- The items answer the first requests, and the standing error all later ones. -/
theorem answer_eq (feed : Feed ε α) (request : Nat) :
    feed.answer request = feed.items[request]?.or (feed.standing.map .error) := by
  induction request generalizing feed with
  | zero =>
    obtain ⟨items, standing⟩ := feed
    cases items <;> cases standing <;> rfl
  | succ request ih =>
    rw [answer_succ, ih]
    obtain ⟨items, standing⟩ := feed
    cases items <;> cases standing <;> rfl

/-- The results answer one request after another, and nothing answers the requests after them. -/
def Delivers (feed : Feed ε α) (results : List (Except ε α)) : Prop :=
  ∀ request, feed.answer request = results[request]?

theorem delivers_iff {feed : Feed ε α} {results : List (Except ε α)} :
    feed.Delivers results ↔ feed.standing = none ∧ results = feed.items := by
  constructor
  · intro delivers
    have standing : feed.standing = none := by
      have behind := delivers (max feed.items.length results.length)
      rw [answer_eq, List.getElem?_eq_none (Nat.le_max_left ..),
        List.getElem?_eq_none (Nat.le_max_right ..)] at behind
      simpa using behind
    refine ⟨standing, List.ext_getElem? fun request => ?_⟩
    rw [← delivers request, answer_eq, standing, Option.map_none, Option.or_none]
  · rintro ⟨standing, rfl⟩ request
    rw [answer_eq, standing, Option.map_none, Option.or_none]

theorem exists_delivers_iff {feed : Feed ε α} :
    (∃ results, feed.Delivers results) ↔ feed.standing = none := by
  simp [delivers_iff]

end Feed

namespace Exporter

theorem standing_rows (exporter : Exporter) (stored : Feed StoreError Submission) :
    (exporter.rows stored).standing = stored.standing.map .store := rfl

theorem answer_rows (exporter : Exporter) (stored : Feed StoreError Submission) (request : Nat) :
    (exporter.rows stored).answer request = (stored.answer request).map exporter.result := by
  rw [Feed.answer_eq, Feed.answer_eq, items_rows, standing_rows, List.getElem?_map, Option.map_or,
    Option.map_map, Option.map_map]
  rfl

end Exporter

namespace Directory

def bytesAt (fs : FileSystem) (path : String) : List UInt8 := (fs.read path).toOption.getD []

/-- Whether a feed from a path ends: just if no directory is there, and then after one result for
each line of the file at most. A directory answers every request, always with the same error. -/
structure Ending {ε α : Type} (fs : FileSystem) (path : String) (failure : ε) (feed : Feed ε α) :
    Prop where
  ends : (∃ results, feed.Delivers results) ↔ fs.isDirectory path = false
  bounded : ∀ results, feed.Delivers results → results.length ≤ countLines (bytesAt fs path)
  endless : fs.isDirectory path = true → ∀ request, feed.answer request = some (.error failure)

variable {ε α : Type} {fs : FileSystem} {path : String} {failure : ε} {feed : Feed ε α}

theorem Ending.of_file (plain : fs.isDirectory path = false) (standing : feed.standing = none)
    (short : feed.items.length ≤ countLines (bytesAt fs path)) : Ending fs path failure feed where
  ends := ⟨fun _ => plain, fun _ => ⟨feed.items, Feed.delivers_iff.2 ⟨standing, rfl⟩⟩⟩
  bounded results delivers := by
    rw [(Feed.delivers_iff.1 delivers).2]
    exact short
  endless there := by
    rw [plain] at there
    contradiction

theorem Ending.of_directory (there : fs.isDirectory path = true) (items : feed.items = [])
    (standing : feed.standing = some failure) : Ending fs path failure feed where
  ends := by
    simp [Feed.delivers_iff, standing, there]
  bounded results delivers := by
    rw [(Feed.delivers_iff.1 delivers).2, items]
    exact Nat.zero_le _
  endless _ request := by
    rw [Feed.answer_eq, items, standing]
    rfl

/-- Rows come to an end as the submissions do of which they are made. -/
theorem Ending.rows {failure : StoreError} {stored : Feed StoreError Submission}
    (ending : Ending fs path failure stored) (exporter : Exporter) :
    Ending fs path (.store failure) (exporter.rows stored) where
  ends := by
    rw [← ending.ends, Feed.exists_delivers_iff, Feed.exists_delivers_iff, exporter.standing_rows,
      Option.map_eq_none_iff]
  bounded results delivers := by
    obtain ⟨standing, rfl⟩ := Feed.delivers_iff.1 delivers
    rw [exporter.standing_rows, Option.map_eq_none_iff] at standing
    rw [exporter.items_rows, List.length_map]
    exact ending.bounded stored.items (Feed.delivers_iff.2 ⟨standing, rfl⟩)
  endless there request := by
    rw [exporter.answer_rows, ending.endless there request]
    rfl

theorem length_readLines_le (path : String) (filter : SubmissionFilter) (number : Nat)
    (lines : List (List UInt8)) : (readLines path filter number lines).length ≤ lines.length := by
  rw [readLines_eq_filterMap]
  exact (List.length_filterMap_le ..).trans_eq List.length_zipIdx

theorem ending_of_offers {filter : SubmissionFilter} {feed : Feed StoreError Submission}
    (offers : Offers path filter (fs.read path) feed) : Ending fs path (.io "not a file") feed := by
  have plain_of_ne (other : fs.read path ≠ .error .notAFile) : fs.isDirectory path = false :=
    Bool.eq_false_iff.2 fun there => other (FileSystem.read_eq_notAFile_iff.2 there)
  cases read : fs.read path with
  | error failure =>
    rw [read] at offers
    cases offers with
    | nothing => exact .of_file (plain_of_ne (by simp [read])) rfl (Nat.zero_le _)
    | directory => exact .of_directory (FileSystem.read_eq_notAFile_iff.1 read) rfl rfl
  | ok bytes =>
    rw [read] at offers
    cases offers with
    | file =>
      refine .of_file (plain_of_ne (by simp [read])) rfl ?_
      have held : bytesAt fs path = bytes := by rw [bytesAt, read]; rfl
      rw [held, ← length_lines]
      exact length_readLines_le path filter 1 (lines bytes)

/-- The submissions of a form and the rows that are made of them come to an end together. -/
theorem ending_of_submissions {dataDirectory name : String} {filter : SubmissionFilter}
    {feed : Feed StoreError Submission}
    (opened : submissions fs dataDirectory name filter = .ok feed) :
    ∃ directory, formDirectory fs dataDirectory name = .ok directory ∧
      Ending fs (FilePath.join directory submissionsFile) (.io "not a file") feed ∧
      ∀ exporter : Exporter, Ending fs (FilePath.join directory submissionsFile)
        (.store (.io "not a file")) (exporter.rows feed) := by
  obtain ⟨directory, found, offers⟩ := submissions_eq_ok_iff.1 opened
  have ending := ending_of_offers offers
  exact ⟨directory, found, ending, ending.rows⟩

/-- A directory in the place of the file with the submissions of a form. -/
def hollowDiary : FileSystem where
  root := .directory [("data", .directory [("diary", .directory
    [("submissions.jsonl", .directory [])])])]
  workingDirectory := []

theorem ending_hollowDiary : ∃ feed,
    submissions hollowDiary "data" "diary" .everything = .ok feed ∧
      (¬ ∃ results, feed.Delivers results) ∧
      ∀ request, feed.answer request = some (.error (.io "not a file")) := by
  have found : formDirectory hollowDiary "data" "diary" = .ok "data/diary" := by decide +kernel
  have there : hollowDiary.isDirectory (FilePath.join "data/diary" submissionsFile) = true := by
    decide +kernel
  have opened : submissions hollowDiary "data" "diary" .everything =
      .ok ⟨[], some (.io "not a file")⟩ := by
    refine submissions_eq_ok_iff.2 ⟨_, found, ?_⟩
    rw [FileSystem.read_eq_notAFile_iff.2 there]
    exact .directory
  obtain ⟨directory, found', ending, -⟩ := ending_of_submissions opened
  cases found'.symm.trans found
  refine ⟨_, opened, ?_, ending.endless there⟩
  rw [ending.ends, there]
  exact nofun

end Directory

end SurveyTables
