/-! Feeds: results that are asked for one by one, some of which may be errors. -/
namespace SurveyTables

/-- After its items a feed is exhausted, unless it has a `standing` error; that error then
answers every further request. -/
structure Feed (ε α : Type) where
  items : List (Except ε α)
  standing : Option ε

namespace Feed

variable {ε ζ α β : Type}

def ofList (values : List α) : Feed ε α := ⟨values.map .ok, none⟩

def next : Feed ε α → Option (Except ε α × Feed ε α)
  | ⟨item :: items, standing⟩ => some (item, ⟨items, standing⟩)
  | ⟨[], some error⟩ => some (.error error, ⟨[], some error⟩)
  | ⟨[], none⟩ => none

/-- Asks the feed for a result; an exhausted feed stays as it is. -/
def pull (feed : Feed ε α) : Option (Except ε α) × Feed ε α :=
  match feed.next with
  | some (result, later) => (some result, later)
  | none => (none, feed)

def mapResults (onValue : α → Except ζ β) (onError : ε → ζ) (feed : Feed ε α) : Feed ζ β where
  items := feed.items.map fun
    | .ok value => onValue value
    | .error error => .error (onError error)
  standing := feed.standing.map onError

/-- The results up to the standing error, which is listed once. -/
def results (feed : Feed ε α) : List (Except ε α) :=
  feed.items ++ feed.standing.toList.map .error

theorem results_ofList (values : List α) : (ofList values : Feed ε α).results = values.map .ok := by
  simp [results, ofList]

/-- How many values a list of results holds, or its first error. -/
def countValues : List (Except ε α) → Except ε Nat
  | [] => .ok 0
  | .ok _ :: rest => (countValues rest).map (· + 1)
  | .error error :: _ => .error error

def count (feed : Feed ε α) : Except ε Nat := countValues feed.results

end Feed

end SurveyTables
