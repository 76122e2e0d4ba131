import SurveyTables.Export.Written
import SurveyTables.Store.Basic

/-! The export service: it resolves the identifier of a publication and exports the data of
its form. -/
namespace SurveyTables

structure Service where
  store : Store
  baseUrl : String

namespace Service

def publication (service : Service) (uuid : Uuid) : Except ExportError Publication :=
  (service.store.publication uuid).mapError .store

def layout (service : Service) (uuid : Uuid) : Except ExportError (Publication × Layout) := do
  let publication ← service.publication uuid
  let form ← (service.store.form publication.form).mapError .store
  return (publication, Layout.infer form)

def schemas (service : Service) (uuid : Uuid) : Except ExportError (List TableSchema) := do
  return (← service.layout uuid).2.schemas

def openRows (service : Service) (uuid : Uuid) (filter : SubmissionFilter) :
    Except ExportError (Exporter × Feed ExportError Row) := do
  let (publication, layout) ← service.layout uuid
  let submissions ← (service.store.submissions publication.form filter).mapError .store
  let exporter : Exporter := ⟨layout, service.baseUrl⟩
  return (exporter, exporter.rows submissions)

def rows (service : Service) (uuid : Uuid) (filter : SubmissionFilter) :
    Except ExportError (Feed ExportError Row) := do
  return (← service.openRows uuid filter).2

/-- The number of submissions that pass; the form itself is not read. -/
def count (service : Service) (uuid : Uuid) (filter : SubmissionFilter) :
    Except ExportError Nat := do
  let publication ← service.publication uuid
  (service.store.count publication.form filter).mapError .store

end Service

end SurveyTables
