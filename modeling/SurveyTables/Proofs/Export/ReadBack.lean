import SurveyTables.Proofs.Export.ArrayText
import SurveyTables.Proofs.Flatten.Keys
import SurveyTables.Proofs.Row.Json

/-! An exported array, read back: one value for each root row, with all that the row holds. -/
namespace SurveyTables

namespace Exporter

variable {form : Form} {baseUrl : String} {submission : Submission} {row : Row} {table : Table}
  {answers : Keyed Json} {submissions : List Submission} {roots : List Row}

theorem rows_ofList {exporter : Exporter} (made : List.Forall₂ (fun submission root =>
    exporter.flatten submission = .ok root) submissions roots) :
    exporter.rows (.ofList submissions) = .ofList roots := by
  have same : (submissions.map fun submission =>
      (exporter.flatten submission).mapError ExportError.flatten) = roots.map .ok :=
    Sequence.map_eq_of_forall₂ made fun submission root made => by rw [made]; rfl
  simp only [rows, Feed.mapResults, Feed.ofList, List.map_map, Option.map_none]
  exact congrArg (Feed.mk · none) same

theorem results_rows {exporter : Exporter} (ok : submissions.mapM exporter.flatten = .ok roots) :
    (exporter.rows (.ofList submissions)).results = roots.map .ok := by
  rw [rows_ofList (Except.forall₂_of_mapM_eq_ok ok), Feed.results_ofList]

/-- The greatest number that an instance can have, whose children have longer ones. -/
def letters : Form where
  idString := "letters"
  projectId := 1
  title := "Letters"
  fields := [⟨"note", .text, [], []⟩,
    ⟨"page", .repeatGroup, [], [⟨"page/text", .text, [], []⟩, ⟨"page/line", .repeatGroup, [],
      [⟨"page/line/no", .integer, [], []⟩]⟩]⟩]

end Exporter

end SurveyTables
