import SurveyTables.Error
import SurveyTables.Feed
import SurveyTables.Publication

/-! Stores of submissions. A store resolves the identifier of a publication to a form and
delivers the form's submissions one by one. -/
namespace SurveyTables

/-- Which submissions are asked for: those numbered above `above`, or all. -/
structure SubmissionFilter where
  above : Option Int
deriving DecidableEq, Repr

namespace SubmissionFilter

def everything : SubmissionFilter := ⟨none⟩

/-- A submission without a readable number is let through, so that its export can fail. -/
def accepts (filter : SubmissionFilter) (submission : Submission) : Bool :=
  match filter.above, submission.instanceId? with
  | some above, some id => above < id
  | _, _ => true

end SubmissionFilter

/-- What an export needs from a store; forms are looked up by the name that a publication
gives. -/
structure Store where
  publications : List Publication
  form : String → Except StoreError Form
  submissions : String → SubmissionFilter → Except StoreError (Feed StoreError Submission)

namespace Store

/-- The first publication with the identifier, which must be switched on. -/
def publication (store : Store) (uuid : Uuid) : Except StoreError Publication :=
  match store.publications.find? (·.uuid = uuid) with
  | none => .error (.publicationNotFound uuid.text)
  | some publication =>
    if publication.active then .ok publication else .error (.publicationInactive uuid.text)

/-- How many submissions a form has; the first error among them is the answer instead. -/
def count (store : Store) (form : String) (filter : SubmissionFilter) : Except StoreError Nat := do
  (← store.submissions form filter).count

end Store

end SurveyTables
