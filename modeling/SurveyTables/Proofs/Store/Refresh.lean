import Mathlib.Logic.Relation
import SurveyTables.Proofs.Export.ReadBack
import SurveyTables.Proofs.Store.Growth

/-! Incremental refresh. A client of a growing store asks each time for the submissions above the
greatest number that it has received. Row for row it then has what one request for all
submissions delivers, however appends and requests follow each other. -/
namespace SurveyTables

def Feed.values {ε α : Type} (feed : Feed ε α) : List α := feed.results.filterMap Except.toOption

theorem Feed.values_ofList {ε α : Type} (values : List α) :
    (ofList values : Feed ε α).values = values := by
  rw [Feed.values, results_ofList, List.filterMap_map]
  exact List.filterMap_some

namespace SubmissionFilter

/-- What a client asks for that has received the given rows. -/
def beyond (received : List Row) : SubmissionFilter := ⟨(received.map Row.id).max?.map Int.ofNat⟩

/-- That is everything, or what is above the greatest number. -/
theorem beyond_cases (received : List Row) :
    (received = [] ∧ beyond received = everything) ∨
    ∃ last ∈ received, beyond received = ⟨some (last.id : Int)⟩ ∧
      ∀ row ∈ received, row.id ≤ last.id := by
  cases greatest : (received.map Row.id).max? with
  | none =>
    obtain rfl : received = [] := by simpa using greatest
    exact .inl ⟨rfl, rfl⟩
  | some id =>
    obtain ⟨member, below⟩ := List.max?_eq_some_iff.1 greatest
    obtain ⟨last, has, rfl⟩ := List.mem_map.1 member
    refine .inr ⟨last, has, ?_, fun row member => below _ (List.mem_map_of_mem member)⟩
    rw [beyond, greatest]
    rfl

end SubmissionFilter

theorem Exporter.rows_unique (exporter : Exporter) : Relator.RightUnique
    (List.Forall₂ fun submission row => exporter.flatten submission = .ok row) :=
  Relator.RightUnique.forall₂ fun _ _ _ ok ok' => Except.ok.inj (ok.symm.trans ok')

/-- What a client goes on asking for: one publication, at a service that goes on publishing it. -/
structure Subscription where
  publications : List Publication
  uuid : Uuid
  baseUrl : String

namespace Subscription

def service (subscription : Subscription) (stock : Stock) : Service :=
  ⟨stock.store subscription.publications, subscription.baseUrl⟩

def rows (subscription : Subscription) (stock : Stock) (filter : SubmissionFilter) :
    Except ExportError (Feed ExportError Row) :=
  (subscription.service stock).rows subscription.uuid filter

/-- Of rows with increasing numbers, those beyond the first ones are the other ones. -/
theorem rows_beyond {subscription : Subscription} {stock : Stock} {received new : List Row}
    (everything : subscription.rows stock .everything = .ok (.ofList (received ++ new)))
    (increasing : (received ++ new).Pairwise (·.id < ·.id)) :
    subscription.rows stock (.beyond received) = .ok (.ofList new) := by
  obtain ⟨rfl, asks⟩ | ⟨last, has, asks, below⟩ := SubmissionFilter.beyond_cases received
  · rw [asks]
    exact everything
  have old : ∀ row ∈ received, ¬ Exporter.isAbove last.id (.ok row) := by
    intro row member
    have small := below row member
    rw [Exporter.isAbove, Exporter.numberOf?, decide_eq_true_eq]
    omega
  have others : ∀ row ∈ new, Exporter.isAbove last.id (.ok row) := by
    intro row member
    have large := (List.pairwise_append.1 increasing).2.2 last has row member
    rw [Exporter.isAbove, Exporter.numberOf?, decide_eq_true_eq]
    omega
  have kept : (received ++ new).filter (fun row => Exporter.isAbove last.id (.ok row)) = new := by
    rw [List.filter_append, List.filter_eq_nil_iff.2 old, List.filter_eq_self.2 others,
      List.nil_append]
  have filtered : subscription.rows stock ⟨some (last.id : Int)⟩ =
      (subscription.rows stock .everything).map (Feed.filter (Exporter.isAbove last.id)) :=
    Service.rows_eq_filter ..
  rw [asks, filtered, everything, Except.map, Feed.filter_ofList, kept]

end Subscription

/-- A store, the submissions that were appended to it and the rows that a client has received. -/
structure Session where
  stock : Stock
  stored : List Submission
  received : List Row

namespace Session

/-- The client asks for what is beyond the rows that it has, and adds what it is given. -/
def refresh (subscription : Subscription) (session : Session) : Session :=
  match subscription.rows session.stock (.beyond session.received) with
  | .ok feed => { session with received := session.received ++ feed.values }
  | .error _ => session

/-- Nothing is stored under the publication's form yet, and nothing received. -/
structure Starts (subscription : Subscription) (publication : Publication) (form : Form)
    (session : Session) : Prop where
  published : (subscription.service session.stock).store.publication subscription.uuid =
    .ok publication
  empty : session.stock.Holds publication.form form []
  stored : session.stored = []
  received : session.received = []

/-- Either a submission that flattens is appended, with a number above those before, or the
client asks. -/
inductive Step (subscription : Subscription) (publication : Publication) (form : Form) :
    Session → Session → Prop
  | append {session : Session} {later : Stock} {submission : Submission} {row : Row} {number : Nat}
      (appends : session.stock.Appends publication.form submission later)
      (flattens : (Exporter.ofForm form subscription.baseUrl).flatten submission = .ok row)
      (numbered : submission.instanceId? = some (number : Int))
      (increases : ∀ earlier ∈ session.stored, ∀ before, earlier.instanceId? = some before →
        before < number) :
      Step subscription publication form session
        ⟨later, session.stored ++ [submission], session.received⟩
  | refresh {session : Session} :
      Step subscription publication form session (session.refresh subscription)

/-- What has been received is the beginning of `all`, the rows of what is stored. -/
structure Invariant (subscription : Subscription) (publication : Publication) (form : Form)
    (session : Session) (all : List Row) : Prop where
  published : (subscription.service session.stock).store.publication subscription.uuid =
    .ok publication
  holds : session.stock.Holds publication.form form session.stored
  made : List.Forall₂ (fun submission row =>
    (Exporter.ofForm form subscription.baseUrl).flatten submission = .ok row) session.stored all
  increasing : all.Pairwise (·.id < ·.id)
  begun : session.received <+: all

variable {subscription : Subscription} {publication : Publication} {form : Form}
  {first session later : Session} {all : List Row}

namespace Invariant

theorem rows_everything (invariant : Invariant subscription publication form session all) :
    subscription.rows session.stock .everything = .ok (.ofList all) :=
  Service.rows_eq_ok_iff.2 ⟨publication, form, _, invariant.published,
    invariant.holds.form_store _, invariant.holds.submissions_store _,
    Exporter.rows_ofList invariant.made⟩

theorem rows_beyond (invariant : Invariant subscription publication form session all) :
    ∃ new, session.received ++ new = all ∧
      subscription.rows session.stock (.beyond session.received) = .ok (.ofList new) := by
  obtain ⟨new, whole⟩ := invariant.begun
  refine ⟨new, whole, Subscription.rows_beyond ?_ ?_⟩
  · rw [whole]
    exact invariant.rows_everything
  · rw [whole]
    exact invariant.increasing

theorem refresh_eq (invariant : Invariant subscription publication form session all) :
    session.refresh subscription = { session with received := all } := by
  obtain ⟨new, rfl, answered⟩ := invariant.rows_beyond
  rw [refresh, answered]
  dsimp only
  rw [Feed.values_ofList]

theorem of_starts (starts : Starts subscription publication form session) :
    Invariant subscription publication form session [] where
  published := starts.published
  holds := starts.stored ▸ starts.empty
  made := starts.stored ▸ .nil
  increasing := .nil
  begun := starts.received ▸ List.nil_prefix

theorem step (invariant : Invariant subscription publication form session all)
    (stepped : Step subscription publication form session later) :
    ∃ all, Invariant subscription publication form later all := by
  cases stepped with
  | @append later submission row number appends flattens numbered increases =>
    refine ⟨all ++ [row], ?published, invariant.holds.append appends,
      List.rel_append invariant.made (.cons flattens .nil), ?increasing,
      invariant.begun.trans (List.prefix_append ..)⟩
    case published => exact (Stock.publication_store ..).trans invariant.published
    case increasing =>
      refine List.pairwise_append.2 ⟨invariant.increasing, List.pairwise_singleton .., ?_⟩
      intro before member last isLast
      obtain rfl := List.mem_singleton.1 isLast
      obtain ⟨earlier, stored, ok⟩ := Sequence.exists_of_mem_right invariant.made member
      have above := increases earlier stored _ (Exporter.exists_root_of_flatten ok).2.2
      have same := (Exporter.exists_root_of_flatten flattens).2.2.symm.trans numbered
      have same := Option.some.inj same
      omega
  | refresh =>
    rw [invariant.refresh_eq]
    exact ⟨all, { invariant with begun := List.prefix_refl all }⟩

theorem steps (starts : Starts subscription publication form first)
    (steps : Relation.ReflTransGen (Step subscription publication form) first session) :
    ∃ all, Invariant subscription publication form session all := by
  induction steps with
  | refl => exact ⟨[], of_starts starts⟩
  | tail _ stepped ih =>
    obtain ⟨all, invariant⟩ := ih
    exact invariant.step stepped

end Invariant

/-- Whatever has happened, a client that asks is answered without an error, and then has the row of
every stored submission, once and in order: what a request for everything delivers. -/
theorem received_refresh_of_steps (starts : Starts subscription publication form first)
    (steps : Relation.ReflTransGen (Step subscription publication form) first session) :
    ∃ all new,
      subscription.rows session.stock .everything = .ok (.ofList all) ∧
      List.Forall₂ (fun submission row =>
        (Exporter.ofForm form subscription.baseUrl).flatten submission = .ok row)
        session.stored all ∧
      subscription.rows session.stock (.beyond session.received) = .ok (.ofList new) ∧
      session.received ++ new = all ∧ (session.refresh subscription).received = all := by
  obtain ⟨all, invariant⟩ := Invariant.steps starts steps
  obtain ⟨new, whole, answered⟩ := invariant.rows_beyond
  exact ⟨all, new, invariant.rows_everything, invariant.made, answered, whole,
    congrArg received invariant.refresh_eq⟩

def diaryForm : Form := ⟨"diary", 1, "", [⟨"day", .text, [], []⟩]⟩

def diaryPublication : Publication := ⟨⟨7⟩, "", "diary", true⟩

def diarySubscription : Subscription := ⟨[diaryPublication], ⟨7⟩, ""⟩

/-- A client of the diary, the submissions of which are in a file. -/
def diarySession (bytes : List UInt8) (stored : List Submission) (received : List Row) : Session :=
  ⟨.directory (Service.diaryFiles (Text.encode Service.diaryDefinition) bytes) "data", stored,
    received⟩

def monday : Submission := ⟨[("_id", .ofNat 1), ("day", .string "Mon")]⟩

def mondayRow : Row := ⟨"data", 1, none, [("day", .text "Mon")], [], []⟩

def mondayLine : List UInt8 := Text.encode "\x7b\"_id\": 1, \"day\": \"Mon\"\x7d"

def mondayBytes : List UInt8 := mondayLine ++ [Directory.lineFeed]

/-- The number is in a text, between blanks. -/
def tuesday : Submission := ⟨[("_id", .string " 02 "), ("day", .string "Tue")]⟩

def tuesdayRow : Row := ⟨"data", 2, none, [("day", .text "Tue")], [], []⟩

def tuesdayLine : List UInt8 := Text.encode "\x7b\"_id\": \" 02 \", \"day\": \"Tue\"\x7d\r"

def tuesdayBytes : List UInt8 := mondayBytes ++ (tuesdayLine ++ [Directory.lineFeed])

theorem form_diary (bytes : List UInt8) :
    Directory.form (Service.diaryFiles (Text.encode Service.diaryDefinition) bytes) "data" "diary" =
      .ok diaryForm :=
  Directory.form_eq_ok (show Directory.formDirectory _ _ _ = .ok "data/diary" from rfl) rfl rfl

theorem flatten_monday : (Exporter.ofForm diaryForm "").flatten monday = .ok mondayRow := by
  rw [← Exporter.flattenTo_eq_flatten 1]
  decide +kernel

theorem flatten_tuesday : (Exporter.ofForm diaryForm "").flatten tuesday = .ok tuesdayRow := by
  rw [← Exporter.flattenTo_eq_flatten 1]
  decide +kernel

theorem starts_diary :
    Starts diarySubscription diaryPublication diaryForm (diarySession [] [] []) where
  published := rfl
  empty := .directory (form_diary []) rfl .nil
  stored := rfl
  received := rfl

theorem step_monday : Step diarySubscription diaryPublication diaryForm (diarySession [] [] [])
    (diarySession mondayBytes [monday] []) := by
  have grows : Directory.lines ([] ++ mondayBytes) =
      Directory.lines [] ++ [Directory.withoutReturn mondayLine] :=
    Directory.lines_append rfl (by decide +kernel)
  have holds : Directory.LineHolds (Directory.withoutReturn mondayLine) monday :=
    ⟨"\x7b\"_id\": 1, \"day\": \"Mon\"\x7d", by decide +kernel, by decide +kernel,
      by decide +kernel⟩
  have numbered : monday.instanceId? = some ((1 : Nat) : Int) := by decide +kernel
  exact .append (.directory rfl rfl grows holds ((form_diary _).trans (form_diary _).symm))
    flatten_monday numbered (List.forall_mem_nil _)

theorem step_tuesday : Step diarySubscription diaryPublication diaryForm
    (diarySession mondayBytes [monday] [mondayRow])
    (diarySession tuesdayBytes [monday, tuesday] [mondayRow]) := by
  have grows : Directory.lines tuesdayBytes =
      Directory.lines mondayBytes ++ [Directory.withoutReturn tuesdayLine] :=
    Directory.lines_append (by decide +kernel) (by decide +kernel)
  have holds : Directory.LineHolds (Directory.withoutReturn tuesdayLine) tuesday :=
    ⟨"\x7b\"_id\": \" 02 \", \"day\": \"Tue\"\x7d", by decide +kernel, by decide +kernel,
      by decide +kernel⟩
  have numbered : tuesday.instanceId? = some ((2 : Nat) : Int) := by decide +kernel
  have increases : ∀ earlier ∈ [monday], ∀ before, earlier.instanceId? = some before →
      before < ((2 : Nat) : Int) := by
    intro earlier member before numbered
    have first : monday.instanceId? = some 1 := by decide +kernel
    rw [List.mem_singleton.1 member, first] at numbered
    cases numbered
    decide
  exact .append (.directory rfl rfl grows holds ((form_diary _).trans (form_diary _).symm))
    flatten_tuesday numbered increases

theorem received_refresh_diary : ∃ session,
    Starts diarySubscription diaryPublication diaryForm (diarySession [] [] []) ∧
      Relation.ReflTransGen (Step diarySubscription diaryPublication diaryForm)
        (diarySession [] [] []) session ∧
      session.stored = [monday, tuesday] ∧ session.received = [mondayRow] ∧
      (session.refresh diarySubscription).received = [mondayRow, tuesdayRow] := by
  obtain ⟨all, invariant⟩ := Invariant.steps starts_diary (.single step_monday)
  obtain rfl : all = [mondayRow] :=
    Exporter.rows_unique _ invariant.made (.cons flatten_monday .nil)
  have asks : Step diarySubscription diaryPublication diaryForm
      (diarySession mondayBytes [monday] []) (diarySession mondayBytes [monday] [mondayRow]) := by
    have refreshed : (diarySession mondayBytes [monday] []).refresh diarySubscription =
        diarySession mondayBytes [monday] [mondayRow] := invariant.refresh_eq
    rw [← refreshed]
    exact .refresh
  have steps := ((Relation.ReflTransGen.single step_monday).tail asks).tail step_tuesday
  obtain ⟨all, new, -, made, -, -, received⟩ := received_refresh_of_steps starts_diary steps
  rw [Exporter.rows_unique _ made (.cons flatten_monday (.cons flatten_tuesday .nil))] at received
  exact ⟨_, starts_diary, steps, rfl, rfl, received⟩

end Session

end SurveyTables
