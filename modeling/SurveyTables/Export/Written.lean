import SurveyTables.Error
import SurveyTables.Feed

/-! What a writer leaves behind. -/
namespace SurveyTables

/-- The text that was written, and the number of rows in it or the error that cut it short. -/
structure Written where
  text : String
  outcome : Except ExportError Nat

def Exporter.rows (exporter : Exporter) (submissions : Feed StoreError Submission) :
    Feed ExportError Row :=
  submissions.mapResults (fun submission => (exporter.flatten submission).mapError .flatten) .store

end SurveyTables
