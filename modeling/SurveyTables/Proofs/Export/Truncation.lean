import SurveyTables.Proofs.Export.ArrayText
import SurveyTables.Proofs.Export.CsvText

/-! Exports that an error cuts short. Nothing is asked for after the error, what was written
before it stays, and the JSON text that was written is no document. -/
namespace SurveyTables

namespace JsonArray

/-- A feed, and how often it was asked for a result. -/
structure Metered where
  feed : Feed ExportError Row
  requests : Nat

namespace Metered

def pull (metered : Metered) : Option (Except ExportError Row) × Metered :=
  (metered.feed.pull.1, ⟨metered.feed.pull.2, metered.requests + 1⟩)

theorem requests_asked (metered : Metered) (requests : Nat) :
    (Chunks.asked pull metered requests).requests = metered.requests + requests := by
  induction requests generalizing metered with
  | zero => rfl
  | succ requests ih =>
    simp only [Chunks.asked, ih, pull]
    omega

theorem delivers {feed : Feed ExportError Row} {results : List (Except ExportError Row)}
    (delivers : Chunks.Delivers Feed.pull feed results) (requests : Nat) :
    Chunks.Delivers pull ⟨feed, requests⟩ results := by
  induction delivers generalizing requests with
  | nil feed => exact .nil _
  | cons first _ ih => exact .cons (by rw [pull, first]) (ih (requests + 1))

end Metered

end JsonArray

open JsonArray in
/-- The writers of rows of which an error is the first result after `before`. -/
structure CutShort (rows : Feed ExportError Row) (before : List Row) (error : ExportError) :
    Prop where
  /-- what each call answers, the first being call number nought -/
  answered : ∀ call, (Chunks.start (Metered.mk rows 0)).answer Metered.pull call =
    (.ok "[" :: (rowChunks true before).map Except.ok ++ [.error error])[call]?
  /-- how often the feed has been asked after a number of calls -/
  requested : ∀ calls,
    ((Chunks.start (Metered.mk rows 0)).after Metered.pull calls).source.requests =
      min (calls - 1) (before.length + 1)
  listed : chunks rows =
    .ok "[" :: (rowChunks true before).map Except.ok ++ [.error error]
  array : JsonArray.write rows = ⟨"[" ++ String.join (rowChunks true before), .error error⟩
  unfinished : Json.Raw.parse? (JsonArray.write rows).text = none
  table : ∀ schema, Csv.write schema rows =
    ⟨(Csv.write schema (.ofList before)).text, .error error⟩
  whole : ∀ schema, (Csv.write schema (.ofList before)).outcome.isOk

namespace Feed

variable {rows : Feed ExportError Row} {before : List Row} {error : ExportError}
  {later : List (Except ExportError Row)}

/-- The first error ends every export. -/
theorem cutShort_of_results (cut : rows.results = before.map .ok ++ .error error :: later) :
    CutShort rows before error := by
  have array := JsonArray.write_of_error cut
  have first : rows.results = (before.map .ok ++ [.error error]) ++ later := by simp [cut]
  have delivers := JsonArray.Metered.delivers (JsonArray.Chunks.delivers_of_results first) 0
  have calls := JsonArray.Chunks.answer_of_delivers true delivers
  refine ⟨?answered, ?requested, JsonArray.chunks_of_error cut, array, ?unfinished, ?table, ?whole⟩
  case answered =>
    intro call
    cases call with
    | zero => rfl
    | succ call => exact (calls call).1
  case requested =>
    intro number
    cases number with
    | zero => rfl
    | succ number =>
      have source := congrArg JsonArray.Metered.requests (calls number).2
      rwa [JsonArray.Metered.requests_asked, Nat.zero_add] at source
  case unfinished =>
    rw [array]
    exact JsonArray.parse?_opened before
  case table =>
    intro schema
    rw [Csv.write_of_ok (results_ofList before), Csv.write, cut, Csv.writeRows_error]
  case whole =>
    intro schema
    rw [Csv.write_of_ok (results_ofList before)]
    rfl

def halted : Feed ExportError Row where
  items := [
    .ok ⟨"data", 1, none, [("name", .text "row 1")], [], []⟩,
    .error (.flatten .missingInstanceId),
    .ok ⟨"data", 3, none, [("name", .text "row 3")], [], []⟩]
  standing := none

theorem cutShort_halted :
    halted.results = [⟨"data", 1, none, [("name", .text "row 1")], [], []⟩].map .ok ++
        .error (.flatten .missingInstanceId) ::
          [.ok ⟨"data", 3, none, [("name", .text "row 3")], [], []⟩] ∧
      CutShort halted [⟨"data", 1, none, [("name", .text "row 1")], [], []⟩]
        (.flatten .missingInstanceId) :=
  ⟨rfl, cutShort_of_results rfl⟩

end Feed

end SurveyTables
