import SurveyTables.Text.Blank

/-! The words of a text. However many blanks, and whichever, stand between the words and around
them, the words are read back. -/
namespace SurveyTables.Text

/-- What can stand between blanks. -/
def IsWord (word : String) : Prop := word ≠ "" ∧ ∀ c ∈ word.toList, isBlank c = false

instance : DecidablePred IsWord := fun word =>
  decidable_of_iff (word ≠ "" ∧ word.toList.all (!isBlank ·) = true) (by simp [IsWord])

/-- Words in order, with blanks around them and at least one blank between two of them. -/
inductive Spaced : List String → List Char → Prop
  | nil {gap : List Char} (blank : ∀ c ∈ gap, isBlank c = true) : Spaced [] gap
  | last {gap : List Char} {word : String} (blank : ∀ c ∈ gap, isBlank c = true)
      (isWord : IsWord word) : Spaced [word] (gap ++ word.toList)
  | cons {gap rest : List Char} {word : String} {words : List String} {c : Char}
      (blank : ∀ c ∈ gap, isBlank c = true) (isWord : IsWord word) (ends : isBlank c = true)
      (spaced : Spaced words rest) : Spaced (word :: words) (gap ++ (word.toList ++ c :: rest))

/-- All runs of characters that are not blank, the first one included. -/
def wordRuns (cs : List Char) : List (List Char) :=
  if (runs cs).1.isEmpty then (runs cs).2 else (runs cs).1 :: (runs cs).2

theorem words_eq (s : String) : words s = (wordRuns s.toList).map String.ofList := rfl

theorem runs_cons (c : Char) (cs : List Char) :
    runs (c :: cs) = if isBlank c then ([], wordRuns cs) else (c :: (runs cs).1, (runs cs).2) :=
  rfl

theorem wordRuns_append_of_blank {gap : List Char} (blank : ∀ c ∈ gap, isBlank c = true)
    (cs : List Char) : wordRuns (gap ++ cs) = wordRuns cs := by
  induction gap with
  | nil => rfl
  | cons c gap ih =>
    obtain ⟨here, later⟩ := List.forall_mem_cons.1 blank
    rw [List.cons_append, wordRuns, runs_cons, if_pos here, ← ih later]
    rfl

theorem runs_append_of_visible {word : List Char} (visible : ∀ c ∈ word, isBlank c = false)
    (cs : List Char) : runs (word ++ cs) = (word ++ (runs cs).1, (runs cs).2) := by
  induction word with
  | nil => rfl
  | cons c word ih =>
    obtain ⟨here, later⟩ := List.forall_mem_cons.1 visible
    rw [List.cons_append, runs_cons, if_neg (by simp [here]), ih later, List.cons_append]

/-- A word ends where the text ends or a blank follows. -/
theorem wordRuns_word_append {word : String} (isWord : IsWord word) (cs : List Char)
    (ends : (runs cs).1 = []) : wordRuns (word.toList ++ cs) = word.toList :: (runs cs).2 := by
  have some : word.toList.isEmpty = false := by
    rw [List.isEmpty_eq_false_iff]
    exact fun none => isWord.1 (String.toList_eq_nil_iff.1 none)
  rw [wordRuns, runs_append_of_visible isWord.2, ends, List.append_nil, some]
  rfl

theorem words_of_spaced {words : List String} {s : String} (spaced : Spaced words s.toList) :
    Text.words s = words := by
  have read : ∀ {words cs}, Spaced words cs → wordRuns cs = words.map String.toList := by
    intro words cs spaced
    induction spaced with
    | nil blank =>
      have none := wordRuns_append_of_blank blank []
      rwa [List.append_nil] at none
    | @last gap word blank isWord =>
      have one := wordRuns_word_append isWord [] rfl
      rw [List.append_nil] at one
      rw [wordRuns_append_of_blank blank, one]
      rfl
    | @cons gap rest word words c blank isWord ends spaced ih =>
      have after : runs (c :: rest) = ([], wordRuns rest) := by rw [runs_cons, if_pos ends]
      rw [wordRuns_append_of_blank blank, wordRuns_word_append isWord _ (by rw [after]), after, ih,
        List.map_cons]
  rw [words_eq, read spaced, List.map_map]
  simp [Function.comp_def]

end SurveyTables.Text
