import Mathlib.Data.List.TakeWhile
import SurveyTables.Text.Segment

/-! Cutting at a separator and putting together again, and the last segment of a path. -/
namespace SurveyTables.Text

variable {α : Type} [DecidableEq α] {separator : α}

theorem parts_cons_self (xs : List α) :
    parts separator (separator :: xs) = [] :: parts separator xs := by
  simp [parts, cut]

theorem parts_cons_of_ne {x : α} (different : x ≠ separator) {xs part : List α}
    {later : List (List α)} (rest : parts separator xs = part :: later) :
    parts separator (x :: xs) = (x :: part) :: later := by
  obtain ⟨first, later⟩ := List.cons.inj rest
  have longer : cut separator (x :: xs) = (x :: (cut separator xs).1, (cut separator xs).2) :=
    if_neg different
  rw [parts, longer, first, later]

theorem parts_append_cons (xs ys : List α) :
    parts separator (xs ++ separator :: ys) = parts separator xs ++ parts separator ys := by
  induction xs with
  | nil => exact parts_cons_self ys
  | cons x xs ih =>
    by_cases same : x = separator
    · subst same
      rw [List.cons_append, parts_cons_self, parts_cons_self, ih, List.cons_append]
    · rw [List.cons_append, parts_cons_of_ne same ih, parts_cons_of_ne same rfl]
      rfl

theorem parts_of_not_mem {xs : List α} (whole : separator ∉ xs) : parts separator xs = [xs] := by
  induction xs with
  | nil => rfl
  | cons x xs ih =>
    obtain ⟨different, whole⟩ := not_or.1 (mt List.mem_cons.2 whole)
    exact parts_cons_of_ne (Ne.symm different) (ih whole)

theorem parts_replicate (separator : α) (n : Nat) :
    parts separator (List.replicate n separator) = List.replicate (n + 1) [] := by
  induction n with
  | zero => rfl
  | succ n ih =>
    rw [List.replicate_succ, parts_cons_self, ih]
    rfl

theorem split_append_cons (separator : Char) (front back : List Char) :
    split separator (String.ofList (front ++ separator :: back)) =
      split separator (String.ofList front) ++ split separator (String.ofList back) := by
  simp [split, parts_append_cons]

theorem split_of_not_mem {separator : Char} {s : String} (whole : separator ∉ s.toList) :
    split separator s = [s] := by
  simp [split, parts_of_not_mem whole]

/-! ### Last segments -/

theorem lastSegment_of_not_mem {cs : List Char} (whole : '/' ∉ cs) : lastSegment cs = cs := by
  have all : ∀ c ∈ cs.reverse, decide (c ≠ '/') = true := by
    intro c member
    have different : c ≠ '/' := by
      rintro rfl
      exact whole (List.mem_reverse.1 member)
    simpa using different
  rw [lastSegment, List.takeWhile_eq_self_iff.2 all, List.reverse_reverse]

theorem lastSegment_append_slash (front back : List Char) :
    lastSegment (front ++ '/' :: back) = lastSegment back := by
  have turned : (front ++ '/' :: back).reverse = back.reverse ++ '/' :: front.reverse := by simp
  rw [lastSegment, turned, List.takeWhile_append, lastSegment]
  split
  · next all =>
    have whole := (List.takeWhile_prefix (· ≠ '/')).eq_of_length all
    rw [whole]
    simp
  · rfl

theorem slash_not_mem_lastSegment (cs : List Char) : '/' ∉ lastSegment cs := by
  intro member
  have passes := List.mem_takeWhile_imp (List.mem_reverse.1 member)
  simp only [ne_eq, not_true_eq_false, decide_false, Bool.false_eq_true] at passes

theorem eq_lastSegment_or (cs : List Char) :
    cs = lastSegment cs ∨ ∃ front, cs = front ++ '/' :: lastSegment cs := by
  induction cs with
  | nil => exact .inl rfl
  | cons c cs ih =>
    rcases ih with whole | ⟨front, below⟩
    · have single : '/' ∉ cs := whole ▸ slash_not_mem_lastSegment cs
      by_cases slash : c = '/'
      · subst slash
        right
        exact ⟨[], by rw [← List.nil_append ('/' :: cs), lastSegment_append_slash, ← whole]⟩
      · left
        rw [lastSegment_of_not_mem]
        simp [single, Ne.symm slash]
    · right
      refine ⟨c :: front, ?_⟩
      rw [below, ← List.cons_append, lastSegment_append_slash,
        lastSegment_of_not_mem (slash_not_mem_lastSegment _)]

theorem lastSegment_append (front : List Char) {back : List Char} (whole : '/' ∉ back) :
    lastSegment (front ++ back) = lastSegment front ++ back := by
  have longer : '/' ∉ lastSegment front ++ back := by
    simp [slash_not_mem_lastSegment, whole]
  rcases eq_lastSegment_or front with single | ⟨above, below⟩
  · rw [single, lastSegment_of_not_mem (slash_not_mem_lastSegment front)]
    exact lastSegment_of_not_mem longer
  · rw [below, List.append_assoc, List.cons_append, lastSegment_append_slash,
      lastSegment_append_slash, lastSegment_of_not_mem longer,
      lastSegment_of_not_mem (slash_not_mem_lastSegment _)]

/-- What stands in front of a text with a slash does not matter. -/
theorem lastSegment_append_of_mem (front : List Char) {back : List Char} (broken : '/' ∈ back) :
    lastSegment (front ++ back) = lastSegment back := by
  rcases eq_lastSegment_or back with single | ⟨above, below⟩
  · exact absurd (single ▸ broken) (slash_not_mem_lastSegment back)
  · rw [below, ← List.append_assoc, lastSegment_append_slash, lastSegment_append_slash]

theorem lastSegment_dropWhile_slash (cs : List Char) :
    lastSegment (cs.dropWhile (· = '/')) = lastSegment cs := by
  induction cs with
  | nil => rfl
  | cons c cs ih =>
    by_cases slash : c = '/'
    · subst slash
      rw [List.dropWhile_cons_of_pos (by decide), ih]
      exact (lastSegment_append_slash [] cs).symm
    · rw [List.dropWhile_cons_of_neg (by simpa using slash)]

/-- A path ends in a segment: it has the segment behind its last slash, or is the segment. -/
structure EndsIn (path segment : String) : Prop where
  single : '/' ∉ segment.toList
  last : path = segment ∨ ∃ front, path = front ++ "/" ++ segment

theorem endsIn_leaf (path : String) : EndsIn path (leaf path) := by
  constructor
  · rw [leaf, String.toList_ofList]
    exact slash_not_mem_lastSegment path.toList
  · rcases eq_lastSegment_or path.toList with whole | ⟨front, below⟩
    · left
      rw [leaf, ← whole, String.ofList_toList]
    · right
      refine ⟨String.ofList front, String.toList_injective ?_⟩
      simpa [leaf] using below

theorem EndsIn.leaf_eq {path segment : String} (ends : EndsIn path segment) :
    leaf path = segment := by
  apply String.toList_injective
  rw [leaf, String.toList_ofList]
  rcases ends.last with rfl | ⟨front, rfl⟩
  · exact lastSegment_of_not_mem ends.single
  · have split : (front ++ "/" ++ segment).toList = front.toList ++ '/' :: segment.toList := by
      simp [String.toList_append]
    rw [split, lastSegment_append_slash, lastSegment_of_not_mem ends.single]

theorem endsIn_iff {path segment : String} : EndsIn path segment ↔ segment = leaf path := by
  constructor
  · intro ends
    exact ends.leaf_eq.symm
  · rintro rfl
    exact endsIn_leaf path

/-- Two paths end in one segment. -/
def SameEnd (path other : String) : Prop := ∃ segment, EndsIn path segment ∧ EndsIn other segment

theorem leaf_eq_leaf_iff {path other : String} : leaf path = leaf other ↔ SameEnd path other := by
  constructor
  · intro same
    exact ⟨leaf path, endsIn_leaf path, same ▸ endsIn_leaf other⟩
  · rintro ⟨segment, ends, ends'⟩
    rw [ends.leaf_eq, ends'.leaf_eq]

theorem sameEnd_self (path : String) : SameEnd path path :=
  ⟨leaf path, endsIn_leaf path, endsIn_leaf path⟩

theorem startsWith_iff {start s : String} :
    startsWith start s = true ↔ ∃ rest, s = start ++ rest := by
  rw [startsWith, List.isPrefixOf_iff_prefix]
  constructor
  · rintro ⟨rest, whole⟩
    refine ⟨String.ofList rest, String.toList_injective ?_⟩
    rw [String.toList_append, String.toList_ofList, whole]
  · rintro ⟨rest, rfl⟩
    rw [String.toList_append]
    exact List.prefix_append _ _

end SurveyTables.Text
