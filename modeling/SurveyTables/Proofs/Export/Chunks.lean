import Mathlib.Data.List.Basic
import SurveyTables.Export.JsonArray

/-! Which chunks the rows of a source give, call by call, and what the source is asked for. -/
namespace SurveyTables

namespace Feed

variable {ε α : Type}

/-- Asking for a result that is to come takes it out of the feed; a standing error stays. -/
theorem pull_of_results {feed : Feed ε α} {result : Except ε α} {results : List (Except ε α)}
    (next : feed.results = result :: results) :
    ∃ later, feed.pull = (some result, later) ∧ (later.results = results ∨ results = []) := by
  obtain ⟨items, standing⟩ := feed
  cases items with
  | cons item items =>
    obtain ⟨rfl, rfl⟩ := List.cons.inj next
    exact ⟨_, rfl, .inl rfl⟩
  | nil =>
    cases standing with
    | none => cases next
    | some error =>
      obtain ⟨rfl, rfl⟩ := List.cons.inj next
      exact ⟨_, rfl, .inr rfl⟩

theorem countValues_ok (values : List α) :
    countValues (values.map (Except.ok (ε := ε))) = .ok values.length := by
  induction values with
  | nil => rfl
  | cons value values ih => simp [countValues, ih, Except.map]

theorem countValues_error (before : List α) (error : ε) (later : List (Except ε α)) :
    countValues (before.map .ok ++ .error error :: later) = .error error := by
  induction before with
  | nil => rfl
  | cons value before ih => simp [countValues, ih, Except.map]

end Feed

namespace JsonArray

def rowChunks (isFirst : Bool) : List Row → List String
  | [] => []
  | row :: rows => rowChunk isFirst row :: rowChunks false rows

/-- The chunks of results after the one that opens the array. -/
def chunksAfter (isFirst : Bool) :
    List (Except ExportError Row) → List (Except ExportError String)
  | [] => [.ok (closing isFirst)]
  | .ok row :: rest => .ok (rowChunk isFirst row) :: chunksAfter false rest
  | .error error :: _ => [.error error]

theorem chunksAfter_ok (isFirst : Bool) (rows : List Row) :
    chunksAfter isFirst (rows.map .ok) =
      (rowChunks isFirst rows ++ [closing (isFirst && rows.isEmpty)]).map .ok := by
  induction rows generalizing isFirst with
  | nil => simp [chunksAfter, rowChunks]
  | cons row rows ih => simp [chunksAfter, rowChunks, ih]

theorem chunksAfter_error (isFirst : Bool) (before : List Row) (error : ExportError)
    (later : List (Except ExportError Row)) :
    chunksAfter isFirst (before.map .ok ++ .error error :: later) =
      (rowChunks isFirst before).map .ok ++ [.error error] := by
  induction before generalizing isFirst with
  | nil => rfl
  | cons row before ih => simp [chunksAfter, rowChunks, ih]

/-- The text of the chunks before the first error. -/
def textBeforeError : List (Except ExportError String) → String
  | .ok chunk :: rest => chunk ++ textBeforeError rest
  | _ => ""

theorem textBeforeError_ok (pieces : List String) :
    textBeforeError (pieces.map .ok) = String.join pieces := by
  induction pieces with
  | nil => rfl
  | cons piece pieces ih => simp [textBeforeError, ih]

theorem textBeforeError_error (pieces : List String) (error : ExportError) :
    textBeforeError (pieces.map .ok ++ [.error error]) = String.join pieces := by
  induction pieces with
  | nil => rfl
  | cons piece pieces ih => simp [textBeforeError, ih]

/-- An array that is open and may have rows in it. -/
def Phase.opened (isFirst : Bool) : Phase := if isFirst then .first else .rest

namespace Chunks

section Source

variable {σ : Type} (pull : σ → Option (Except ExportError Row) × σ)

theorem next_opened (isFirst : Bool) (source : σ) :
    next pull ⟨source, .opened isFirst⟩ = nextRow pull isFirst source := by
  cases isFirst <;> rfl

def after (chunks : Chunks σ) : Nat → Chunks σ
  | 0 => chunks
  | calls + 1 => after (chunks.next pull).2 calls

def answer (chunks : Chunks σ) (call : Nat) : Option (Except ExportError String) :=
  ((chunks.after pull call).next pull).1

def asked (source : σ) : Nat → σ
  | 0 => source
  | requests + 1 => asked (pull source).2 requests

/-- The source answers with these results, one after another, if it is asked as often. -/
inductive Delivers : σ → List (Except ExportError Row) → Prop
  | nil (source : σ) : Delivers source []
  | cons {source later : σ} {result : Except ExportError Row}
      {results : List (Except ExportError Row)} (first : pull source = (some result, later))
      (rest : Delivers later results) : Delivers source (result :: results)

variable {pull}

theorem answer_succ (chunks : Chunks σ) (call : Nat) :
    chunks.answer pull (call + 1) = (chunks.next pull).2.answer pull call := rfl

theorem after_done (source : σ) (calls : Nat) :
    after pull ⟨source, .done⟩ calls = ⟨source, .done⟩ := by
  induction calls with
  | zero => rfl
  | succ calls ih => exact ih

theorem answer_done (source : σ) (call : Nat) : answer pull ⟨source, .done⟩ call = none := by
  rw [answer, after_done]
  rfl

theorem nextRow_ok {isFirst : Bool} {source later : σ} {row : Row}
    (first : pull source = (some (.ok row), later)) :
    nextRow pull isFirst source =
      (some (.ok (rowChunk isFirst row)), ⟨later, .opened false⟩) := by
  rw [nextRow, first]
  rfl

theorem nextRow_error {isFirst : Bool} {source later : σ} {error : ExportError}
    (first : pull source = (some (.error error), later)) :
    nextRow pull isFirst source = (some (.error error), ⟨later, .done⟩) := by
  rw [nextRow, first]

/-- After an error nothing more is answered, and the source is not asked again. -/
theorem answer_of_delivers (isFirst : Bool) {before : List Row} {error : ExportError}
    {source : σ} (delivers : Delivers pull source (before.map .ok ++ [.error error]))
    (call : Nat) :
    answer pull ⟨source, .opened isFirst⟩ call =
        ((rowChunks isFirst before).map Except.ok ++ [.error error])[call]? ∧
      (after pull ⟨source, .opened isFirst⟩ call).source =
        asked pull source (min call (before.length + 1)) := by
  -- Each row takes one call and one request; the error takes the last of both, and the phase after
  -- it asks for nothing.
  induction before generalizing isFirst source call with
  | nil =>
    obtain _ | ⟨first, -⟩ := delivers
    have next := (next_opened pull isFirst source).trans (nextRow_error first)
    cases call with
    | zero => simp [answer, after, next, asked, rowChunks]
    | succ call =>
      rw [answer_succ, after, next]
      simp [answer_done, after_done, asked, rowChunks, first]
  | cons row before ih =>
    obtain _ | ⟨first, rest⟩ := delivers
    have next := (next_opened pull isFirst source).trans (nextRow_ok first)
    cases call with
    | zero => simp [answer, after, next, asked, rowChunks]
    | succ call =>
      have later := ih false rest call
      rw [answer_succ, after, next]
      simpa [rowChunks, asked, first, Nat.add_min_add_right] using later

end Source

theorem delivers_of_results {feed : Feed ExportError Row}
    {results later : List (Except ExportError Row)} (listed : feed.results = results ++ later) :
    Delivers Feed.pull feed results := by
  induction results generalizing feed with
  | nil => exact .nil feed
  | cons result results ih =>
    obtain ⟨rest, first, same | none⟩ := Feed.pull_of_results listed
    · exact .cons first (ih same)
    · obtain ⟨rfl, rfl⟩ := List.append_eq_nil_iff.1 none
      exact .cons first (.nil rest)

theorem toList_of_next {chunks later : Chunks Tally} {chunk : Except ExportError String}
    (next : chunks.next Tally.pull = (some chunk, later)) :
    chunks.toList = chunk :: later.toList := by
  rw [toList]
  split <;> simp_all

theorem toList_done (tally : Tally) : toList ⟨tally, .done⟩ = [] := by
  rw [toList]
  rfl

/-- A feed is asked until it is exhausted or answers with an error. -/
theorem toList_opened (isFirst : Bool) (feed : Feed ExportError Row) (given : Nat) :
    toList ⟨⟨feed, given⟩, .opened isFirst⟩ = chunksAfter isFirst feed.results := by
  -- Only when the items are used up does it matter whether an error stands.
  obtain ⟨items, standing⟩ := feed
  induction items generalizing isFirst given with
  | nil =>
    have next := next_opened Tally.pull isFirst ⟨⟨[], standing⟩, given⟩
    cases standing with
    | none =>
      rw [toList_of_next next, toList_done]
      rfl
    | some error =>
      rw [toList_of_next (next.trans (nextRow_error rfl)), toList_done]
      rfl
  | cons item items ih =>
    have next := next_opened Tally.pull isFirst ⟨⟨item :: items, standing⟩, given⟩
    cases item with
    | error error =>
      rw [toList_of_next (next.trans (nextRow_error rfl)), toList_done]
      rfl
    | ok row =>
      rw [toList_of_next (next.trans (nextRow_ok rfl)), ih]
      rfl

theorem writeAll_of_next {chunks later : Chunks Tally} {chunk : String}
    (next : chunks.next Tally.pull = (some (.ok chunk), later)) :
    chunks.writeAll = ⟨chunk ++ later.writeAll.text, later.writeAll.outcome⟩ := by
  rw [writeAll]
  split <;> simp_all

theorem writeAll_of_error {chunks later : Chunks Tally} {error : ExportError}
    (next : chunks.next Tally.pull = (some (.error error), later)) :
    chunks.writeAll = ⟨"", .error error⟩ := by
  rw [writeAll]
  split <;> simp_all

theorem writeAll_done (tally : Tally) : writeAll ⟨tally, .done⟩ = ⟨"", .ok tally.given⟩ := by
  rw [writeAll]
  rfl

theorem writeAll_opened (isFirst : Bool) (feed : Feed ExportError Row) (given : Nat) :
    writeAll ⟨⟨feed, given⟩, .opened isFirst⟩ =
      ⟨textBeforeError (chunksAfter isFirst feed.results), feed.count.map (given + ·)⟩ := by
  obtain ⟨items, standing⟩ := feed
  induction items generalizing isFirst given with
  | nil =>
    have next := next_opened Tally.pull isFirst ⟨⟨[], standing⟩, given⟩
    cases standing with
    | none =>
      rw [writeAll_of_next next, writeAll_done]
      rfl
    | some error =>
      rw [writeAll_of_error (next.trans (nextRow_error rfl))]
      rfl
  | cons item items ih =>
    have next := next_opened Tally.pull isFirst ⟨⟨item :: items, standing⟩, given⟩
    cases item with
    | error error =>
      rw [writeAll_of_error (next.trans (nextRow_error rfl))]
      rfl
    | ok row =>
      have counted : (Feed.mk (.ok row :: items) standing).count =
          (Feed.mk items standing).count.map (· + 1) := rfl
      rw [writeAll_of_next (next.trans (nextRow_ok rfl)), ih, counted]
      congr 1
      cases (Feed.mk items standing).count with
      | error error => rfl
      | ok count => simp [Except.map, Nat.add_comm count, Nat.add_assoc]

end Chunks

theorem chunks_eq (rows : Feed ExportError Row) :
    chunks rows = .ok "[" :: chunksAfter true rows.results := by
  rw [chunks, Chunks.toList_of_next rfl]
  exact congrArg _ (Chunks.toList_opened true rows 0)

theorem write_eq (rows : Feed ExportError Row) :
    write rows = ⟨"[" ++ textBeforeError (chunksAfter true rows.results), rows.count⟩ := by
  have rest : Chunks.writeAll ⟨⟨rows, 0⟩, .first⟩ =
      ⟨textBeforeError (chunksAfter true rows.results), rows.count⟩ := by
    refine (Chunks.writeAll_opened true rows 0).trans ?_
    cases rows.count <;> simp [Except.map]
  rw [write, Chunks.writeAll_of_next rfl]
  exact congrArg (fun later => Written.mk ("[" ++ later.text) later.outcome) rest

theorem write_of_ok {rows : Feed ExportError Row} {roots : List Row}
    (whole : rows.results = roots.map .ok) :
    write rows =
      ⟨"[" ++ String.join (rowChunks true roots) ++ closing roots.isEmpty, .ok roots.length⟩ := by
  rw [write_eq, whole, chunksAfter_ok, textBeforeError_ok, Feed.count, whole, Feed.countValues_ok]
  simp [String.append_assoc]

theorem chunks_of_error {rows : Feed ExportError Row} {before : List Row} {error : ExportError}
    {later : List (Except ExportError Row)}
    (cut : rows.results = before.map .ok ++ .error error :: later) :
    chunks rows = .ok "[" :: (rowChunks true before).map .ok ++ [.error error] := by
  rw [chunks_eq, cut, chunksAfter_error]
  rfl

theorem write_of_error {rows : Feed ExportError Row} {before : List Row} {error : ExportError}
    {later : List (Except ExportError Row)}
    (cut : rows.results = before.map .ok ++ .error error :: later) :
    write rows = ⟨"[" ++ String.join (rowChunks true before), .error error⟩ := by
  rw [write_eq, cut, chunksAfter_error, textBeforeError_error, Feed.count, cut,
    Feed.countValues_error]

end JsonArray

end SurveyTables
