import SurveyTables.Export.Written

/-! Rows as a JSON array, one row a line. The array is written in chunks: one that opens it,
one for each row with the separator before it, and one that closes it. The first error ends
the chunks and leaves the array open. -/
namespace SurveyTables.JsonArray

def rowChunk (isFirst : Bool) (row : Row) : String :=
  (if isFirst then "\n" else ",\n") ++ row.text

def closing (isFirst : Bool) : String := if isFirst then "]" else "\n]"

/-- How far an array is written: not at all, opened, with a row in it, or to its end. -/
inductive Phase where
  | opening
  | first
  | rest
  | done
deriving DecidableEq, Repr

/-- Chunks that are asked for one by one. Rows come from a source of any kind, which is asked
for one row at a time. -/
structure Chunks (σ : Type) where
  source : σ
  phase : Phase

namespace Chunks

variable {σ : Type} (pull : σ → Option (Except ExportError Row) × σ)

def start (source : σ) : Chunks σ := ⟨source, .opening⟩

def nextRow (isFirst : Bool) (source : σ) : Option (Except ExportError String) × Chunks σ :=
  match pull source with
  | (some (.ok row), later) => (some (.ok (rowChunk isFirst row)), ⟨later, .rest⟩)
  | (some (.error error), later) => (some (.error error), ⟨later, .done⟩)
  | (none, later) => (some (.ok (closing isFirst)), ⟨later, .done⟩)

def next (chunks : Chunks σ) : Option (Except ExportError String) × Chunks σ :=
  match chunks.phase with
  | .opening => (some (.ok "["), ⟨chunks.source, .first⟩)
  | .first => nextRow pull true chunks.source
  | .rest => nextRow pull false chunks.source
  | .done => (none, chunks)

end Chunks

structure Tally where
  feed : Feed ExportError Row
  given : Nat

def Tally.pull (tally : Tally) : Option (Except ExportError Row) × Tally :=
  match tally.feed.pull with
  | (some (.ok row), later) => (some (.ok row), ⟨later, tally.given + 1⟩)
  | (result, later) => (result, ⟨later, tally.given⟩)

namespace Chunks

/-- A bound on the chunks that are still to come. -/
def bound (chunks : Chunks Tally) : Nat :=
  match chunks.phase with
  | .opening => chunks.source.feed.items.length + 2
  | .first | .rest => chunks.source.feed.items.length + 1
  | .done => 0

theorem bound_nextRow (isFirst : Bool) (tally : Tally) :
    (nextRow Tally.pull isFirst tally).2.bound < tally.feed.items.length + 1 := by
  obtain ⟨⟨items, standing⟩, given⟩ := tally
  cases items with
  | nil => cases standing <;> simp [nextRow, Tally.pull, Feed.pull, Feed.next, bound]
  | cons item items => cases item <;> simp [nextRow, Tally.pull, Feed.pull, Feed.next, bound]

theorem bound_next {chunks later : Chunks Tally} {chunk : Except ExportError String}
    (found : chunks.next Tally.pull = (some chunk, later)) : later.bound < chunks.bound := by
  obtain ⟨tally, phase⟩ := chunks
  obtain rfl : (next Tally.pull ⟨tally, phase⟩).2 = later := by rw [found]
  cases phase with
  | opening => exact Nat.lt_succ_self _
  | first => exact bound_nextRow true tally
  | rest => exact bound_nextRow false tally
  | done => simp [next] at found

def toList (chunks : Chunks Tally) : List (Except ExportError String) :=
  match _found : chunks.next Tally.pull with
  | (some chunk, later) => chunk :: later.toList
  | (none, _) => []
termination_by chunks.bound
decreasing_by exact bound_next _found

/-- Writes chunk after chunk until there is none, or an error instead of one. -/
def writeAll (chunks : Chunks Tally) : Written :=
  match _found : chunks.next Tally.pull with
  | (some (.ok chunk), later) =>
    let rest := later.writeAll
    ⟨chunk ++ rest.text, rest.outcome⟩
  | (some (.error error), _) => ⟨"", .error error⟩
  | (none, ended) => ⟨"", .ok ended.source.given⟩
termination_by chunks.bound
decreasing_by exact bound_next _found

end Chunks

def chunks (rows : Feed ExportError Row) : List (Except ExportError String) :=
  (Chunks.start (Tally.mk rows 0)).toList

/-- The whole array, and the number of its rows or the error that left it open. -/
def write (rows : Feed ExportError Row) : Written := (Chunks.start (Tally.mk rows 0)).writeAll

end SurveyTables.JsonArray
