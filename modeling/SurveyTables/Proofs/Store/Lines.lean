import SurveyTables.Proofs.Store.Filter
import SurveyTables.Proofs.Text.Segment

/-! The lines of a file and the numbers by which errors name them. Lines are counted as they are
read, and a line that is no text does not count, so lines behind it are named by a number that is
too small. -/
namespace SurveyTables.Directory

/-- A file is either one line without an end, or a line that is ended and what is behind it. -/
@[elab_as_elim]
theorem lines_induction {P : List UInt8 → Prop} (last : ∀ line, lineFeed ∉ line → P line)
    (ended : ∀ line rest, lineFeed ∉ line → P rest → P (line ++ lineFeed :: rest))
    (bytes : List UInt8) : P bytes := by
  induction h : bytes.length using Nat.strongRecOn generalizing bytes
  next length ih =>
  subst h
  by_cases broken : lineFeed ∈ bytes
  · obtain ⟨line, rest, rfl, unbroken⟩ := List.eq_append_cons_of_mem broken
    refine ended line rest unbroken (ih _ ?_ rest rfl)
    rw [List.length_append, List.length_cons]
    omega
  · exact last bytes broken

theorem lines_append_cons {line : List UInt8} (unbroken : lineFeed ∉ line) (rest : List UInt8) :
    lines (line ++ lineFeed :: rest) = withoutReturn line :: lines rest := by
  rw [lines, Text.parts_append_cons, Text.parts_of_not_mem unbroken]
  simp [lines, Text.parts]

theorem lines_of_not_mem {line : List UInt8} (unbroken : lineFeed ∉ line) :
    lines line = [line].filter (!·.isEmpty) := by
  rw [lines, Text.parts_of_not_mem unbroken]
  rfl

/-- Whether a file ends in a line feed, if it is not empty, is decided behind its first line. -/
theorem ended_append_cons (line rest : List UInt8) :
    (line ++ lineFeed :: rest).getLast?.all (· = lineFeed) =
      rest.getLast?.all (· = lineFeed) := by
  cases rest <;> simp [List.getLast?_append, List.getLast?_cons]

theorem eq_nil_of_ended {line : List UInt8} (unbroken : lineFeed ∉ line)
    (ended : line.getLast?.all (· = lineFeed)) : line = [] := by
  rcases line.eq_nil_or_concat with rfl | ⟨front, byte, rfl⟩
  · rfl
  · obtain rfl : byte = lineFeed := by simpa using ended
    simp at unbroken

/-- There are as many lines as line feeds, and one more if something follows the last of them. -/
def countLines (bytes : List UInt8) : Nat :=
  bytes.count lineFeed + if bytes.getLast?.all (· = lineFeed) then 0 else 1

theorem length_lines (bytes : List UInt8) : (lines bytes).length = countLines bytes := by
  rw [countLines]
  induction bytes using lines_induction with
  | last line unbroken =>
    rw [lines_of_not_mem unbroken, List.count_eq_zero_of_not_mem unbroken]
    split
    · next ended =>
      rw [eq_nil_of_ended unbroken ended]
      rfl
    · next unended =>
      have something : line ≠ [] := by
        rintro rfl
        exact unended rfl
      simp [something]
  | ended line rest unbroken ih =>
    rw [lines_append_cons unbroken, List.length_cons, ih, List.count_append, List.count_cons_self,
      List.count_eq_zero_of_not_mem unbroken, ended_append_cons]
    omega

/-- Bytes that stand between line feeds or the ends of a file, with `i` line feeds before them. -/
def LineAt (bytes : List UInt8) (i : Nat) (line : List UInt8) : Prop :=
  ∃ front back, bytes = front ++ line ++ back ∧ front.count lineFeed = i ∧
    front.getLast?.all (· = lineFeed) ∧ lineFeed ∉ line ∧ back.head?.all (· = lineFeed)

theorem eq_withoutReturn (line : List UInt8) :
    line = withoutReturn line ∨ line = withoutReturn line ++ [carriageReturn] := by
  rw [withoutReturn]
  split
  · next returns => exact .inr (List.dropLast_append_getLast? _ returns).symm
  · exact .inl rfl

theorem LineAt.behind {line rest found : List UInt8} {i : Nat} (stands : LineAt rest i found)
    (unbroken : lineFeed ∉ line) : LineAt (line ++ lineFeed :: rest) (i + 1) found := by
  obtain ⟨front, back, rfl, count, begins, whole, ends⟩ := stands
  refine ⟨line ++ lineFeed :: front, back, by simp, ?_, ?_, whole, ends⟩
  · rw [List.count_append, List.count_cons_self, List.count_eq_zero_of_not_mem unbroken, count,
      Nat.zero_add]
  · cases front <;> simp_all [List.getLast?_append, List.getLast?_cons]

/-- The lines that are read are those of the file, but for a carriage return. -/
theorem exists_lineAt {bytes line : List UInt8} {i : Nat} (there : (lines bytes)[i]? = some line) :
    ∃ raw, LineAt bytes i raw ∧ (raw = line ∨ raw = line ++ [carriageReturn]) := by
  induction bytes using lines_induction generalizing i with
  | last raw unbroken =>
    rw [lines_of_not_mem unbroken, List.filter_singleton] at there
    cases empty : raw.isEmpty with
    | true => simp [empty] at there
    | false =>
      rw [empty] at there
      obtain ⟨rfl, rfl⟩ : i = 0 ∧ raw = line := by simpa [List.getElem?_singleton] using there
      exact ⟨raw, ⟨[], [], by simp, rfl, rfl, unbroken, rfl⟩, .inl rfl⟩
  | ended raw rest unbroken ih =>
    rw [lines_append_cons unbroken] at there
    cases i with
    | zero =>
      cases there
      exact ⟨raw, ⟨[], lineFeed :: rest, by simp, rfl, rfl, unbroken, by simp⟩,
        eq_withoutReturn raw⟩
    | succ i =>
      obtain ⟨raw, stands, ending⟩ := ih there
      exact ⟨raw, stands.behind unbroken, ending⟩

/-- What reading a line under a number adds to the results. -/
def lineItem (path : String) (filter : SubmissionFilter) (number : Nat) (line : List UInt8) :
    Option (Except StoreError Submission) :=
  match Text.decode? line with
  | none => some (.error (.io "not valid UTF-8"))
  | some text =>
    match readLine path number text with
    | .error error => some (.error error)
    | .ok none => none
    | .ok (some submission) => if filter.accepts submission then some (.ok submission) else none

def isText (line : List UInt8) : Bool := (Text.decode? line).isSome

theorem readLines_cons (path : String) (filter : SubmissionFilter) (number : Nat)
    (line : List UInt8) (later : List (List UInt8)) :
    readLines path filter number (line :: later) =
      (lineItem path filter number line).toList ++
        readLines path filter (number + [line].countP isText) later := by
  rw [readLines, lineItem, List.countP_singleton, isText]
  cases decoded : Text.decode? line with
  | none => rfl
  | some text =>
    cases held : readLine path number text with
    | error error => simp [held]
    | ok submission? =>
      cases submission? with
      | none => simp [held]
      | some submission =>
        cases passes : filter.accepts submission <;> simp [held, passes]

/-- Each line is read under a number of its own, by which the texts before it are counted. -/
theorem readLines_eq_filterMap (path : String) (filter : SubmissionFilter) (number : Nat)
    (lines : List (List UInt8)) :
    readLines path filter number lines = lines.zipIdx.filterMap fun (line, i) =>
      lineItem path filter (number + (lines.take i).countP isText) line := by
  induction lines generalizing number with
  | nil => rfl
  | cons line later ih =>
    have onwards (i : Nat) : number + ((line :: later).take (i + 1)).countP isText =
        number + [line].countP isText + (later.take i).countP isText := by
      rw [List.take_succ_cons, List.countP_cons, List.countP_singleton]
      omega
    rw [readLines_cons, ih, List.zipIdx_cons, List.zipIdx_succ, List.filterMap_cons,
      List.filterMap_map]
    simp only [Function.comp_def, onwards]
    cases item : lineItem path filter number line <;> simp [item]

theorem readLine_eq_error {path text : String} {number : Nat} {error : StoreError}
    (invalid : readLine path number text = .error error) :
    ∃ reason, error = .invalidSubmission path number reason := by
  unfold readLine at invalid
  split at invalid
  · cases invalid
  · split at invalid
    · cases invalid
    all_goals
      cases invalid
      exact ⟨_, rfl⟩

/-- Only a line that is a text can be told of under its number. -/
theorem lineItem_eq_error {path path' reason : String} {filter : SubmissionFilter}
    {number number' : Nat} {line : List UInt8}
    (told : lineItem path filter number line =
      some (.error (.invalidSubmission path' number' reason))) :
    path' = path ∧ number' = number ∧ ∃ text, Text.decode? line = some text ∧
      readLine path number text = .error (.invalidSubmission path number reason) := by
  unfold lineItem at told
  split at told
  · cases told
  · next text decoded =>
    split at told
    · next error invalid =>
      obtain ⟨reason', rfl⟩ := readLine_eq_error invalid
      cases told
      exact ⟨rfl, rfl, text, decoded, invalid⟩
    · cases told
    · split at told <;> cases told

/-- What is delivered from a path, by what is read there. -/
inductive Offers (path : String) (filter : SubmissionFilter) :
    Except ReadFailure (List UInt8) → Feed StoreError Submission → Prop
  | nothing : Offers path filter (.error .absent) ⟨[], none⟩
  | directory : Offers path filter (.error .notAFile) ⟨[], some (.io "not a file")⟩
  | file (bytes : List UInt8) :
      Offers path filter (.ok bytes) ⟨readLines path filter 1 (lines bytes), none⟩

theorem submissions_eq_ok_iff {fs : FileSystem} {dataDirectory name : String}
    {filter : SubmissionFilter} {feed : Feed StoreError Submission} :
    submissions fs dataDirectory name filter = .ok feed ↔
      ∃ directory, formDirectory fs dataDirectory name = .ok directory ∧
        Offers (FilePath.join directory submissionsFile) filter
          (fs.read (FilePath.join directory submissionsFile)) feed := by
  rw [submissions, Except.bind_eq_ok]
  refine exists_congr fun directory => and_congr_right fun _ => ?_
  dsimp only [pure, Except.pure]
  cases fs.read (FilePath.join directory submissionsFile) with
  | error failure =>
    cases failure with
    | absent =>
      constructor
      · rintro ⟨⟩
        exact .nothing
      · rintro ⟨⟩
        rfl
    | notAFile =>
      constructor
      · rintro ⟨⟩
        exact .directory
      · rintro ⟨⟩
        rfl
    | pathTooLong =>
      constructor
      · rintro ⟨⟩
      · rintro ⟨⟩
  | ok bytes =>
    constructor
    · rintro ⟨⟩
      exact .file bytes
    · rintro ⟨⟩
      rfl

/-- A line of a file that holds no submission, told of under a number. The lines before it that
are no texts are not counted. -/
inductive Told (path : String) (bytes : List UInt8) (number : Nat) (reason : String) : Prop
  | intro {i : Nat} {raw line : List UInt8} {text : String} (stands : LineAt bytes i raw)
      (read : (lines bytes)[i]? = some line)
      (ending : raw = line ∨ raw = line ++ [carriageReturn])
      (decoded : Text.decode? line = some text)
      (invalid : readLine path number text = .error (.invalidSubmission path number reason))
      (counted : number = ((lines bytes).take i).countP isText + 1)
      (physical : number = i + 1 ↔ ∀ earlier ∈ (lines bytes).take i, isText earlier = true) :
      Told path bytes number reason

theorem told_of_readLines {path path' reason : String} {filter : SubmissionFilter}
    {bytes : List UInt8} {number : Nat}
    (told : .error (.invalidSubmission path' number reason) ∈
      readLines path filter 1 (lines bytes)) :
    path' = path ∧ Told path bytes number reason := by
  rw [readLines_eq_filterMap, List.mem_filterMap] at told
  obtain ⟨⟨line, i⟩, listed, told⟩ := told
  have read : (lines bytes)[i]? = some line := List.mem_zipIdx_iff_getElem?.1 listed
  obtain ⟨rfl, rfl, text, decoded, invalid⟩ := lineItem_eq_error told
  obtain ⟨raw, stands, ending⟩ := exists_lineAt read
  refine ⟨rfl, .intro stands read ending decoded invalid (Nat.add_comm 1 _) ?_⟩
  have before : ((lines bytes).take i).length = i := by
    rw [List.length_take]
    have := (List.getElem?_eq_some_iff.1 read).1
    omega
  rw [← List.countP_eq_length, before]
  omega

/-- Whatever is told of a line is told of a line of the file, but its number may be too small. -/
theorem told_of_submissions {fs : FileSystem} {dataDirectory name path reason : String}
    {filter : SubmissionFilter} {feed : Feed StoreError Submission} {number : Nat}
    (opened : submissions fs dataDirectory name filter = .ok feed)
    (told : .error (.invalidSubmission path number reason) ∈ feed.results) :
    ∃ bytes, fs.read path = .ok bytes ∧ Told path bytes number reason := by
  obtain ⟨directory, -, offers⟩ := submissions_eq_ok_iff.1 opened
  cases there : fs.read (FilePath.join directory submissionsFile) with
  | error failure =>
    rw [there] at offers
    cases offers <;> simp [Feed.results] at told
  | ok bytes =>
    rw [there] at offers
    cases offers with
    | file =>
      rw [Feed.results, Option.toList_none, List.map_nil, List.append_nil] at told
      obtain ⟨rfl, holds⟩ := told_of_readLines told
      exact ⟨bytes, there, holds⟩

def garbledDiary : FileSystem :=
  Service.diaryFiles (Text.encode Service.diaryDefinition) [255, lineFeed, 53]

def garbledItems : List (Except StoreError Submission) :=
  [.error (.io "not valid UTF-8"),
    .error (.invalidSubmission "data/diary/submissions.jsonl" 1 "expected a JSON object")]

/-- The second line is told of as the first. -/
theorem told_garbledDiary :
    submissions garbledDiary "data" "diary" .everything = .ok ⟨garbledItems, none⟩ ∧
      garbledDiary.read "data/diary/submissions.jsonl" = .ok [255, lineFeed, 53] ∧
      LineAt [255, lineFeed, 53] 1 [53] ∧
      Told "data/diary/submissions.jsonl" [255, lineFeed, 53] 1 "expected a JSON object" := by
  have found : formDirectory garbledDiary "data" "diary" = .ok "data/diary" := by
    decide +kernel
  have path : FilePath.join "data/diary" submissionsFile = "data/diary/submissions.jsonl" := by
    decide +kernel
  have there : garbledDiary.read "data/diary/submissions.jsonl" = .ok [255, lineFeed, 53] := by
    decide +kernel
  have items : readLines "data/diary/submissions.jsonl" .everything 1
      (lines [255, lineFeed, 53]) = garbledItems := rfl
  have opened : submissions garbledDiary "data" "diary" .everything =
      .ok ⟨garbledItems, none⟩ := by
    refine submissions_eq_ok_iff.2 ⟨_, found, ?_⟩
    rw [path, there, ← items]
    exact .file [255, lineFeed, 53]
  have listed : .error (.invalidSubmission "data/diary/submissions.jsonl" 1
      "expected a JSON object") ∈ Feed.results ⟨garbledItems, none⟩ := by
    simp [Feed.results, garbledItems]
  obtain ⟨bytes, read, told⟩ := told_of_submissions opened listed
  cases read.symm.trans there
  exact ⟨opened, there, ⟨[255, lineFeed], [], rfl, rfl, rfl, by decide, rfl⟩, told⟩

end SurveyTables.Directory
