import SurveyTables.Http.Response
import SurveyTables.Proofs.Json.Parse
import SurveyTables.Service

/-! What the status of an answer tells of the call behind it. Calls of the service fail in the store
only, and of a store's failures those are told apart in which nothing is there. -/
namespace SurveyTables

/-- There is no publication, it is switched off, or there is no form. -/
inductive ExportError.Missing : ExportError → Prop
  | publication (uuid : String) : Missing (.store (.publicationNotFound uuid))
  | inactive (uuid : String) : Missing (.store (.publicationInactive uuid))
  | form (name : String) : Missing (.store (.formNotFound name))

theorem ExportError.isNotFound_iff {error : ExportError} :
    error.isNotFound = true ↔ error.Missing := by
  constructor
  · intro missing
    rcases error with _ | _ | cause | _ | _ | _
    case store =>
      cases cause with
      | publicationNotFound uuid => exact .publication uuid
      | publicationInactive uuid => exact .inactive uuid
      | formNotFound name => exact .form name
      | _ => contradiction
    all_goals contradiction
  · intro missing
    cases missing <;> rfl

theorem ExportError.not_missing_io (reason : String) : ¬Missing (.store (.io reason)) := by
  rintro ⟨⟩

theorem ExportError.not_missing_invalidSubmission (path : String) (line : Nat) (reason : String) :
    ¬Missing (.store (.invalidSubmission path line reason)) := by
  rintro ⟨⟩

/-- Whatever a call fails with comes from the store. -/
def FailsInStore {α : Type} (call : Except ExportError α) : Prop :=
  ∀ error, call = .error error → ∃ cause, error = .store cause

namespace FailsInStore

variable {α β : Type}

theorem ok (value : α) : FailsInStore (.ok value) := by
  rintro _ ⟨⟩

theorem mapError (call : Except StoreError α) : FailsInStore (call.mapError .store) := by
  intro error failed
  cases call with
  | error cause => exact ⟨cause, (Except.error.inj failed).symm⟩
  | ok value => contradiction

theorem bind {call : Except ExportError α} {next : α → Except ExportError β}
    (first : FailsInStore call) (rest : ∀ value, FailsInStore (next value)) :
    FailsInStore (call >>= next) := by
  cases call with
  | error error => exact fun _ failed => first _ (congrArg _ (Except.error.inj failed))
  | ok value => exact rest value

end FailsInStore

namespace Service

theorem failsInStore_layout (service : Service) (uuid : Uuid) :
    FailsInStore (service.layout uuid) :=
  (FailsInStore.mapError _).bind fun _ => (FailsInStore.mapError _).bind fun _ => .ok _

theorem failsInStore_schemas (service : Service) (uuid : Uuid) :
    FailsInStore (service.schemas uuid) :=
  (service.failsInStore_layout uuid).bind fun _ => .ok _

theorem failsInStore_rows (service : Service) (uuid : Uuid) (filter : SubmissionFilter) :
    FailsInStore (service.rows uuid filter) := by
  refine FailsInStore.bind ?_ fun _ => .ok _
  exact (service.failsInStore_layout uuid).bind fun _ => (FailsInStore.mapError _).bind fun _ =>
    .ok _

theorem failsInStore_count (service : Service) (uuid : Uuid) (filter : SubmissionFilter) :
    FailsInStore (service.count uuid filter) :=
  (FailsInStore.mapError _).bind fun _ => .mapError _

end Service

namespace Http

/-- The answer is an error that has a code for programs and a message for people. -/
structure Response.Refuses (answer : Response) (status : Nat) (code : String) : Prop where
  status : answer.status = status
  contentType : answer.contentType = some "application/json"
  body : ∃ message, Json.read? answer.body =
    some (.object [("error", .string message), ("code", .string code)])

theorem Response.Refuses.unique {answer : Response} {status status' : Nat} {code code' : String}
    (refuses : answer.Refuses status code) (refuses' : answer.Refuses status' code') :
    status = status' ∧ code = code' := by
  obtain ⟨message, body⟩ := refuses.body
  obtain ⟨message', body'⟩ := refuses'.body
  have same := body.symm.trans body'
  simp only [Option.some.injEq, Json.object.injEq, List.cons.injEq, Prod.mk.injEq,
    Json.string.injEq] at same
  exact ⟨refuses.status.symm.trans refuses'.status, same.2.1.2⟩

theorem ApiError.refuses_response (error : ApiError) :
    error.response.Refuses error.status error.code := by
  have distinct : (Json.object [("error", .string error.message), ("code", .string error.code)]
      ).Distinct :=
    .object (by simp) (by simp [Json.Distinct.string])
  refine ⟨rfl, rfl, error.message, Json.read?_compact distinct ?_⟩
  simp [Json.depth, Json.depthOfMembers, Json.nestingLimit]

/-- How an answer stands to the call of the service that was made for it. -/
structure Reports {α : Type} (call : Except ExportError α) (answer : Response) : Prop where
  succeeds_iff : answer.status = 200 ↔ ∃ value, call = .ok value
  missing_iff : answer.status = 404 ↔ ∃ error, call = .error error ∧ error.Missing
  fails_iff : answer.status = 500 ↔ ∃ error, call = .error error ∧ ¬error.Missing
  code : ∀ error, call = .error error → answer.Refuses answer.status error.code

/-- What is answered when a call was made. -/
def answerTo {α : Type} (call : Except ExportError α) (deliver : α → Response) : Response :=
  match call with
  | .ok value => deliver value
  | .error error => (ApiError.failed error).response

theorem ApiError.status_failed {error : ExportError} (inStore : ∃ cause, error = .store cause) :
    (error.Missing ∧ (failed error).status = 404) ∨
      (¬error.Missing ∧ (failed error).status = 500) := by
  obtain ⟨cause, rfl⟩ := inStore
  rw [← ExportError.isNotFound_iff, status]
  -- In the store, whatever is the caller's fault is not found.
  cases missing : cause.isNotFound <;>
    simp [ExportError.isNotFound, ExportError.isClientError, StoreError.isClientError, missing]

theorem reports_answerTo {α : Type} {call : Except ExportError α} {deliver : α → Response}
    (inStore : FailsInStore call) (delivered : ∀ value, (deliver value).status = 200) :
    Reports call (answerTo call deliver) := by
  cases call with
  | ok value => constructor <;> simp [answerTo, delivered]
  | error error =>
    have status : (answerTo (.error error) deliver).status = (ApiError.failed error).status := rfl
    have code := ApiError.refuses_response (.failed error)
    rcases ApiError.status_failed (inStore error rfl) with ⟨missing, is⟩ | ⟨missing, is⟩
    all_goals
      rw [is] at status
      refine ⟨?_, ?_, ?_, ?code⟩
      case code =>
        rintro _ ⟨⟩
        exact code
      all_goals simp [status, missing]

end Http

end SurveyTables
