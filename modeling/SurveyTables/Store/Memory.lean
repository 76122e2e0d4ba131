import SurveyTables.Store.Basic

/-! Forms and submissions that are kept in memory. -/
namespace SurveyTables

structure KeptForm where
  form : Form
  submissions : List Submission

/-- Kept forms by name; a form that is kept again replaces the one before. -/
structure Memory where
  forms : Keyed KeptForm

namespace Memory

def empty : Memory := ⟨[]⟩

def keep (memory : Memory) (name : String) (form : Form) (submissions : List Submission) : Memory :=
  ⟨Keyed.insert name ⟨form, submissions⟩ memory.forms⟩

def lookup (memory : Memory) (name : String) : Except StoreError KeptForm :=
  match memory.forms.get? name with
  | some kept => .ok kept
  | none => .error (.formNotFound name)

def store (memory : Memory) (publications : List Publication) : Store where
  publications := publications
  form name := (memory.lookup name).map KeptForm.form
  submissions name filter :=
    (memory.lookup name).map fun kept => Feed.ofList (kept.submissions.filter filter.accepts)

end Memory

end SurveyTables
