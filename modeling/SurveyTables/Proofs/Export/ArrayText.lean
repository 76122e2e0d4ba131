import SurveyTables.Proofs.Export.Chunks
import SurveyTables.Proofs.Json.Parse

/-! The text of an array of rows, as long as it is open and when it is closed. -/
namespace SurveyTables.JsonArray

open Json

def lineChars (row : Row) : List Char := '\n' :: row.toJson.chars

theorem toList_join_laterChunks (rows : List Row) :
    (String.join (rowChunks false rows)).toList = (rows.map lineChars).flatMap (',' :: ·) := by
  induction rows with
  | nil => rfl
  | cons row rows ih =>
    simp [rowChunks, rowChunk, String.join_cons, ih, lineChars, Row.text, compact]

theorem toList_join_rowChunks (rows : List Row) :
    (String.join (rowChunks true rows)).toList = [','].intercalate (rows.map lineChars) := by
  cases rows with
  | nil => rfl
  | cons row rows =>
    have later := toList_join_laterChunks rows
    simp [rowChunks, rowChunk, String.join_cons, Sequence.intercalate_cons, later, lineChars,
      Row.text, compact]

theorem scans_opened (rows : List Row) :
    Scan.Scans ("[" ++ String.join (rowChunks true rows)).toList
      (.beginArray :: [.comma].intercalate ((rows.map Row.toJson).map tokens)) := by
  have lines : List.Forall₂ Scan.Scans (rows.map lineChars) ((rows.map Row.toJson).map tokens) := by
    rw [List.map_map]
    exact Sequence.forall₂_map_map fun row _ => (scans_chars row.toJson).space rfl
  intro rest breaks
  have opens : Scan.start '[' = some (.between, [.beginArray]) := rfl
  have bracket : "[".toList = ['['] := rfl
  rw [String.toList_append, toList_join_rowChunks, bracket, List.append_assoc,
    List.singleton_append, Scan.tokensFrom_punctuation opens,
    Scan.scans_intercalate lines rest breaks]
  simp [Function.comp_def]

/-- A text that ends after some rows is no JSON document. -/
theorem parse?_opened (rows : List Row) :
    Raw.parse? ("[" ++ String.join (rowChunks true rows)) = none :=
  Raw.parse?_of_unclosed (scans_opened rows).scan

theorem breaks_closing (isFirst : Bool) : Scan.Breaks (closing isFirst).toList := by
  cases isFirst <;> exact Scan.breaks_cons (by decide) _

theorem tokensFrom_closing (isFirst : Bool) :
    Scan.tokensFrom .between (closing isFirst).toList = some [.endArray] := by
  cases isFirst <;> rfl

theorem parse?_closed (rows : List Row) :
    Raw.parse? ("[" ++ String.join (rowChunks true rows) ++ closing rows.isEmpty) =
      some (.ofJson (.array (rows.map Row.toJson))) := by
  have whole := scans_opened rows _ (breaks_closing rows.isEmpty)
  rw [tokensFrom_closing, ← String.toList_append] at whole
  refine Raw.parse?_of_parses whole ?_
  have parses := parses_tokens (.array (rows.map Row.toJson))
  rwa [tokens, itemTokens_eq] at parses

end SurveyTables.JsonArray
