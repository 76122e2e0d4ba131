import SurveyTables.Proofs.Json.Reading
import SurveyTables.Proofs.Store.Growth
import SurveyTables.Proofs.Text.Utf8

/-! Submissions written down in a file, each in its compact text on a line of its own. Lines may end
in either way, blank lines may stand between them, and the last one need not end at all; what is
read are the submissions. -/
namespace SurveyTables

namespace Text

def IsBlankText (s : String) : Prop := ∀ c ∈ s.toList, isBlank c = true

theorem trimmed_eq_nil_iff (cs : List Char) : trimmed cs = [] ↔ ∀ c ∈ cs, isBlank c = true := by
  rw [trimmed, List.reverse_eq_nil_iff, List.dropWhile_eq_nil_iff]
  simp only [List.mem_reverse]
  constructor
  · intro blank
    rw [← List.dropWhile_eq_nil_iff]
    by_contra some
    have visible := List.head_dropWhile_not isBlank some
    rw [blank _ (List.head_mem some)] at visible
    contradiction
  · exact fun blank c member => blank c (List.dropWhile_sublist _ |>.subset member)

theorem isEmpty_trim_iff (s : String) : (trim s).isEmpty = true ↔ IsBlankText s := by
  rw [String.isEmpty_iff, trim, String.ofList_eq_empty_iff, trimmed_eq_nil_iff]
  rfl

end Text

open Text (encode IsBlankText)

namespace Submission

/-- What was read from the text of an object. -/
def IsRead (submission : Submission) : Prop := ∃ s, Json.read? s = some submission.toJson

theorem toList_text (submission : Submission) :
    ∃ inside, submission.text.toList = '\x7b' :: inside ++ ['\x7d'] :=
  ⟨_, String.toList_ofList⟩

theorem not_isBlankText (submission : Submission) : ¬ IsBlankText submission.text := by
  obtain ⟨inside, text⟩ := submission.toList_text
  intro blank
  have brace := blank '\x7b' (by simp [text])
  exact absurd brace (by decide)

theorem newline_not_mem_text (submission : Submission) : '\n' ∉ submission.text.toList :=
  Json.newline_not_mem_compact submission.toJson

end Submission

/-- Texts that a list of submissions can be written down as. -/
inductive Transcript : String → List Submission → Prop
  | nothing {line : String} (blank : IsBlankText line) (unbroken : '\n' ∉ line.toList) :
      Transcript line []
  | last (submission : Submission) : Transcript submission.text [submission]
  | blank {line rest : String} {stored : List Submission} (blank : IsBlankText line)
      (unbroken : '\n' ∉ line.toList) (later : Transcript rest stored) :
      Transcript (line ++ "\n" ++ rest) stored
  | line (submission : Submission) {ending rest : String} {stored : List Submission}
      (ends : ending = "\n" ∨ ending = "\r\n") (later : Transcript rest stored) :
      Transcript (submission.text ++ ending ++ rest) (submission :: stored)

namespace Directory

theorem lineFeed_not_mem_encode {line : String} (unbroken : '\n' ∉ line.toList) :
    lineFeed ∉ encode line := by
  rw [Text.encode_eq, List.mem_flatMap]
  rintro ⟨c, member, feeds⟩
  have same := Text.toNat_of_mem_utf8EncodeChar (by decide) feeds
  obtain rfl : c = '\n' := Char.toNat_inj.1 same
  exact unbroken member

theorem encode_newline (line rest : String) :
    encode (line ++ "\n" ++ rest) = encode line ++ lineFeed :: encode rest := by
  have feed : encode "\n" = [lineFeed] := by decide
  rw [Text.encode_append, Text.encode_append, feed, List.append_assoc, List.singleton_append]

theorem lines_newline {line : String} (unbroken : '\n' ∉ line.toList) (rest : String) :
    lines (encode (line ++ "\n" ++ rest)) = withoutReturn (encode line) :: lines (encode rest) := by
  rw [encode_newline, lines_append_cons (lineFeed_not_mem_encode unbroken)]

def chomp (cs : List Char) : List Char := if cs.getLast? = some '\r' then cs.dropLast else cs

theorem withoutReturn_encode (cs : List Char) :
    withoutReturn (encode (String.ofList cs)) = encode (String.ofList (chomp cs)) := by
  rcases cs.eq_nil_or_concat with rfl | ⟨front, last, rfl⟩
  · rfl
  rw [List.concat_eq_append]
  have bytes : encode (String.ofList (front ++ [last])) =
      encode (String.ofList front) ++ String.utf8EncodeChar last := by
    simp [Text.encode_eq]
  by_cases returns : last = '\r'
  · subst returns
    have one : String.utf8EncodeChar '\r' = [carriageReturn] := by decide
    rw [bytes, one, withoutReturn, if_pos List.getLast?_concat, List.dropLast_concat, chomp,
      if_pos List.getLast?_concat, List.dropLast_concat]
  · have other : ¬ (encode (String.ofList front) ++ String.utf8EncodeChar last).getLast? =
        some carriageReturn := by
      rw [List.getLast?_append_of_ne_nil _ String.utf8EncodeChar_ne_nil]
      intro ends
      have same := Text.toNat_of_mem_utf8EncodeChar (by decide) (List.mem_of_getLast? ends)
      exact returns (Char.toNat_inj.1 same)
    have kept : ¬ (front ++ [last]).getLast? = some '\r' := by simpa using returns
    rw [bytes, withoutReturn, if_neg other, chomp, if_neg kept, bytes]

/-- A blank line is blank without its carriage return. -/
theorem withoutReturn_of_isBlankText {line : String} (blank : IsBlankText line) :
    ∃ shorter, IsBlankText shorter ∧ withoutReturn (encode line) = encode shorter := by
  refine ⟨String.ofList (chomp line.toList), ?_, ?_⟩
  · rw [IsBlankText, String.toList_ofList, chomp]
    split
    · exact fun c member => blank c (List.dropLast_subset _ member)
    · exact blank
  · rw [← withoutReturn_encode, String.ofList_toList]

/-- The line of a submission ends in a brace, so that only the return of its ending is dropped. -/
theorem withoutReturn_text (submission : Submission) :
    withoutReturn (encode submission.text) = encode submission.text ∧
      withoutReturn (encode (submission.text ++ "\r")) = encode submission.text := by
  obtain ⟨inside, text⟩ := submission.toList_text
  have braced : chomp submission.text.toList = submission.text.toList := by
    rw [chomp, text, List.getLast?_concat, if_neg (by decide)]
  have returned : chomp (submission.text ++ "\r").toList = submission.text.toList := by simp [chomp]
  have plain := withoutReturn_encode submission.text.toList
  have longer := withoutReturn_encode (submission.text ++ "\r").toList
  rw [braced, String.ofList_toList] at plain
  rw [returned, String.ofList_toList, String.ofList_toList] at longer
  exact ⟨plain, longer⟩

theorem readLines_blank {line : String} (blank : IsBlankText line) (path : String)
    (filter : SubmissionFilter) (number : Nat) (later : List (List UInt8)) :
    readLines path filter number (encode line :: later) =
      readLines path filter (number + 1) later := by
  have nothing : readLine path number line = .ok none :=
    if_pos ((Text.isEmpty_trim_iff line).2 blank)
  simp only [readLines, Text.decode?_encode, nothing]

theorem readLines_text {submission : Submission} (read : submission.IsRead) (path : String)
    (number : Nat) (later : List (List UInt8)) :
    readLines path .everything number (encode submission.text :: later) =
      .ok submission :: readLines path .everything (number + 1) later := by
  obtain ⟨_, read⟩ := read
  have something : (Text.trim submission.text).isEmpty = false :=
    Bool.eq_false_iff.2 (mt (Text.isEmpty_trim_iff _).1 submission.not_isBlankText)
  have held : readLine path number submission.text = .ok (some submission) :=
    readLine_eq_ok something (Json.read?_compact_of_read? read)
  simp only [readLines, Text.decode?_encode, held, SubmissionFilter.accepts_everything, if_true]

theorem lines_text (submission : Submission) {ending : String}
    (ends : ending = "\n" ∨ ending = "\r\n") (rest : String) :
    lines (encode (submission.text ++ ending ++ rest)) =
      encode submission.text :: lines (encode rest) := by
  have unbroken := submission.newline_not_mem_text
  obtain ⟨plain, longer⟩ := withoutReturn_text submission
  rcases ends with rfl | rfl
  · rw [lines_newline unbroken, plain]
  · have regroup : submission.text ++ "\r\n" = submission.text ++ "\r" ++ "\n" := by
      rw [String.append_assoc]
      rfl
    have unbroken : '\n' ∉ (submission.text ++ "\r").toList := by simpa using unbroken
    rw [regroup, lines_newline unbroken, longer]

theorem readLines_of_transcript {text : String} {stored : List Submission}
    (written : Transcript text stored) (read : ∀ submission ∈ stored, submission.IsRead)
    (path : String) (number : Nat) :
    readLines path .everything number (lines (encode text)) = stored.map .ok := by
  induction written generalizing number with
  | nothing blank unbroken =>
    rw [lines_of_not_mem (lineFeed_not_mem_encode unbroken), List.filter_singleton]
    cases (encode _).isEmpty with
    | false => exact readLines_blank blank path .everything number []
    | true => rfl
  | last submission =>
    rw [List.forall_mem_singleton] at read
    have something : [encode submission.text].filter (!·.isEmpty) = [encode submission.text] := by
      obtain ⟨inside, text⟩ := submission.toList_text
      simp [Text.encode_eq, text]
    rw [lines_of_not_mem (lineFeed_not_mem_encode submission.newline_not_mem_text), something]
    exact readLines_text read path number []
  | blank blank unbroken later ih =>
    obtain ⟨shorter, blank, line⟩ := withoutReturn_of_isBlankText blank
    rw [lines_newline unbroken, line, readLines_blank blank, ih read]
  | line submission ends later ih =>
    obtain ⟨first, read⟩ := List.forall_mem_cons.1 read
    rw [lines_text submission ends, readLines_text first, ih read, List.map_cons]

end Directory

end SurveyTables
