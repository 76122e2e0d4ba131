import SurveyTables.Layout.Table
import SurveyTables.Proofs.Header.Index
import SurveyTables.Proofs.Text.Segment

/-! Clean headers, and the names that fields of a repeat group give to their columns. No index goes
on behind a slash, so the indices of a path can be removed before or after its leaf is taken, and
the groups above a leaf do not matter. What does matter is how much of the leaf is left when the
path of the repeat group has been cut off. -/
namespace SurveyTables.Header

/-! ### Clean headers -/

theorem lastSegment_withoutIndices (cs : List Char) :
    Text.lastSegment (withoutIndices cs) = withoutIndices (Text.lastSegment cs) := by
  have whole : '/' ∉ withoutIndices (Text.lastSegment cs) := by
    intro member
    exact Text.slash_not_mem_lastSegment cs ((withoutIndices_sublist _).subset member)
  rcases Text.eq_lastSegment_or cs with single | ⟨front, below⟩
  · rw [single, Text.lastSegment_of_not_mem (Text.slash_not_mem_lastSegment cs)]
    exact Text.lastSegment_of_not_mem whole
  · rw [below, withoutIndices_append_slash, Text.lastSegment_append_slash,
      Text.lastSegment_append_slash, Text.lastSegment_of_not_mem whole,
      Text.lastSegment_of_not_mem (Text.slash_not_mem_lastSegment _)]

theorem toList_clean (header : String) :
    (clean header).toList = withoutIndices (Text.lastSegment header.toList) := by
  rw [clean, String.toList_ofList, lastSegment_withoutIndices]

theorem clean_congr {header other : String}
    (same : Text.lastSegment header.toList = Text.lastSegment other.toList) :
    clean header = clean other := by
  apply String.toList_injective
  rw [toList_clean, toList_clean, same]

theorem clean_below (front header : String) : clean (front ++ "/" ++ header) = clean header := by
  apply clean_congr
  have split : (front ++ "/" ++ header).toList = front.toList ++ '/' :: header.toList := by simp
  rw [split, Text.lastSegment_append_slash]

/-- The path of the repeat group and the round leave no trace in a clean header. -/
theorem clean_ofRound (repeatPath fieldPath : String) (round : Nat) :
    clean (ofRound repeatPath fieldPath round) =
      clean (String.ofList (relativePath repeatPath.toList fieldPath.toList)) := by
  have split : ofRound repeatPath fieldPath round =
      (repeatPath ++ "[" ++ Text.natNumeral round ++ "]") ++ "/" ++
        String.ofList (relativePath repeatPath.toList fieldPath.toList) := by
    apply String.toList_injective
    simp [ofRound]
  rw [split, clean_below]

/-- How a clean header comes from a header: its leaf is taken and the indices are taken out, in
either order. -/
structure CleansTo (header cleaned : String) : Prop where
  single : '/' ∉ cleaned.toList
  /-- what is left of the leaf without its indices, and nothing else -/
  strips_leaf : ∀ s, (∃ leaf, Text.EndsIn header leaf ∧ Strips leaf.toList s.toList) ↔ s = cleaned
  /-- the leaf of what is left of the header without its indices, and nothing else -/
  leaf_strips : ∀ s, (∃ stripped, Strips header.toList stripped.toList ∧ Text.EndsIn stripped s) ↔
    s = cleaned
  /-- whatever stands above the header does not show -/
  below : ∀ front, clean (front ++ "/" ++ header) = cleaned

theorem exists_strips_leaf_iff {header s : String} :
    (∃ leaf, Text.EndsIn header leaf ∧ Strips leaf.toList s.toList) ↔ s = clean header := by
  simp only [Text.endsIn_iff, exists_eq_left, strips_iff]
  rw [Text.leaf, String.toList_ofList, ← toList_clean, String.toList_inj]

theorem exists_leaf_strips_iff {header s : String} :
    (∃ stripped, Strips header.toList stripped.toList ∧ Text.EndsIn stripped s) ↔
      s = clean header := by
  have only (stripped : String) : Strips header.toList stripped.toList ↔
      stripped = String.ofList (withoutIndices header.toList) := by
    rw [strips_iff, ← String.toList_inj, String.toList_ofList]
  simp only [only, exists_eq_left, Text.endsIn_iff]
  rw [Text.leaf, String.toList_ofList, clean]

theorem slash_not_mem_clean (header : String) : '/' ∉ (clean header).toList := by
  rw [clean, String.toList_ofList]
  exact Text.slash_not_mem_lastSegment _

/-- Indices can be taken out before or after the leaf is taken; so neither what stands above a
header nor the round of a repeat group shows in the clean header. -/
theorem cleansTo_clean :
    (∀ header, CleansTo header (clean header)) ∧
      ∀ repeatPath fieldPath round later,
        clean (ofRound repeatPath fieldPath round) = clean (ofRound repeatPath fieldPath later) := by
  constructor
  · intro header
    exact {
      single := slash_not_mem_clean header
      strips_leaf := fun _ => exists_strips_leaf_iff
      leaf_strips := fun _ => exists_leaf_strips_iff
      below := fun front => clean_below front header }
  · intro repeatPath fieldPath round later
    rw [clean_ofRound, clean_ofRound]

example : clean "a[1/2]" = "2]" := by decide +kernel

/-! ### Base names -/

/-- A path goes on behind the path of a repeat group, and not by a further segment. -/
def RunsOn (repeatPath fieldPath rest : String) : Prop :=
  fieldPath = repeatPath ++ rest ∧ '/' ∉ rest.toList

/-- How the base name that a field has in the table of a repeat group stands to the field's clean
leaf. -/
structure BaseNames (repeatPath fieldPath base : String) : Prop where
  leaf : (∀ rest, ¬RunsOn repeatPath fieldPath rest) → base = clean fieldPath
  /-- the leaf of the repeat path is cut off from the leaf of the field -/
  cut : ∀ rest, RunsOn repeatPath fieldPath rest →
    base = clean rest ∧ clean fieldPath = clean (Text.leaf repeatPath ++ rest)
  /-- the base name is the clean leaf just if the cut takes away nothing that shows -/
  eq_clean_iff : base = clean fieldPath ↔ ∀ rest, RunsOn repeatPath fieldPath rest →
    clean (Text.leaf repeatPath ++ rest) = clean rest
  /-- what a repeat group with an ordinary name takes away is its name -/
  shortened : ∀ rest, RunsOn repeatPath fieldPath rest →
    '[' ∉ (Text.leaf repeatPath).toList → clean fieldPath = Text.leaf repeatPath ++ base

theorem clean_relativePath {repeatPath fieldPath : String}
    (apart : ∀ rest, ¬RunsOn repeatPath fieldPath rest) :
    clean (String.ofList (relativePath repeatPath.toList fieldPath.toList)) =
      clean fieldPath := by
  apply clean_congr
  rw [String.toList_ofList, relativePath]
  split
  · next begins =>
    obtain ⟨rest, continued⟩ := List.isPrefixOf_iff_prefix.1 begins
    have broken : '/' ∈ rest := by
      by_contra whole
      refine apart (String.ofList rest) ⟨?_, by rwa [String.toList_ofList]⟩
      apply String.toList_injective
      rw [String.toList_append, String.toList_ofList, continued]
    rw [← continued, List.drop_left, Text.lastSegment_dropWhile_slash,
      Text.lastSegment_append_of_mem _ broken]
  · rfl

theorem relativePath_of_runsOn {repeatPath fieldPath rest : String}
    (runs : RunsOn repeatPath fieldPath rest) :
    relativePath repeatPath.toList fieldPath.toList = rest.toList := by
  obtain ⟨rfl, whole⟩ := runs
  have begins : repeatPath.toList.isPrefixOf (repeatPath.toList ++ rest.toList) = true :=
    List.isPrefixOf_iff_prefix.2 (List.prefix_append _ _)
  rw [relativePath, String.toList_append, if_pos begins, List.drop_left]
  cases behind : rest.toList with
  | nil => rfl
  | cons c cs =>
    have different : c ≠ '/' := by
      rintro rfl
      exact whole (behind ▸ List.mem_cons_self)
    rw [List.dropWhile_cons_of_neg (by simpa using different)]

theorem clean_of_runsOn {repeatPath fieldPath rest : String}
    (runs : RunsOn repeatPath fieldPath rest) :
    clean fieldPath = clean (Text.leaf repeatPath ++ rest) := by
  obtain ⟨rfl, whole⟩ := runs
  apply clean_congr
  rw [String.toList_append, String.toList_append, Text.leaf, String.toList_ofList,
    Text.lastSegment_append _ whole, Text.lastSegment_append _ whole,
    Text.lastSegment_of_not_mem (Text.slash_not_mem_lastSegment _)]

/-- A name without an opening bracket stays whole in front of a clean leaf. -/
theorem clean_append {name rest : String} (plain : '[' ∉ name.toList)
    (single : '/' ∉ name.toList) (whole : '/' ∉ rest.toList) :
    clean (name ++ rest) = name ++ clean rest := by
  apply String.toList_injective
  have together : '/' ∉ (name ++ rest).toList := by
    rw [String.toList_append]
    simp [single, whole]
  rw [toList_clean, Text.lastSegment_of_not_mem together, String.toList_append,
    withoutIndices_append plain, String.toList_append, toList_clean,
    Text.lastSegment_of_not_mem whole]

/-- The base name of a field in the table of a repeat group is the clean leaf of its path, unless
the path goes on within the last segment of the group's path. -/
theorem baseNames_baseName {table : Table} {repeatPath : String}
    (below : table.repeatPath = some repeatPath) (field : Field) :
    BaseNames repeatPath field.path (table.baseName field) := by
  have named : table.baseName field =
      clean (String.ofList (relativePath repeatPath.toList field.path.toList)) := by
    rw [Table.baseName, below]
    exact clean_ofRound repeatPath field.path 1
  have leaf (apart : ∀ rest, ¬RunsOn repeatPath field.path rest) :
      table.baseName field = clean field.path := named.trans (clean_relativePath apart)
  have cut (rest : String) (runs : RunsOn repeatPath field.path rest) :
      table.baseName field = clean rest := by
    rw [named, relativePath_of_runsOn runs, String.ofList_toList]
  refine ⟨leaf, fun rest runs => ⟨cut rest runs, clean_of_runsOn runs⟩, ⟨?_, ?_⟩, ?_⟩
  · intro same rest runs
    rw [← clean_of_runsOn runs, ← same, cut rest runs]
  · intro nothing
    by_cases apart : ∀ rest, ¬RunsOn repeatPath field.path rest
    · exact leaf apart
    · obtain ⟨rest, runs⟩ := not_forall_not.1 apart
      rw [cut rest runs, clean_of_runsOn runs, nothing rest runs]
  · intro rest runs plain
    have single : '/' ∉ (Text.leaf repeatPath).toList := by
      rw [Text.leaf, String.toList_ofList]
      exact Text.slash_not_mem_lastSegment _
    rw [cut rest runs, clean_of_runsOn runs, clean_append plain single runs.2]

/-- The age of a child, whose path only begins like that of the group. -/
def childAge : Field := ⟨"child_age", .integer, [], []⟩

theorem baseNames_childAge :
    (Table.start "child" "1_f_child" (some "child")).baseName childAge = "_age" ∧
      clean childAge.path = "child_age" ∧ RunsOn "child" childAge.path "_age" ∧
      BaseNames "child" childAge.path "_age" := by
  have short : (Table.start "child" "1_f_child" (some "child")).baseName childAge = "_age" := by
    decide +kernel
  refine ⟨short, by decide +kernel, ⟨by decide, by decide⟩, ?_⟩
  have names : BaseNames "child" childAge.path
      ((Table.start "child" "1_f_child" (some "child")).baseName childAge) :=
    baseNames_baseName rfl childAge
  rwa [short] at names

end SurveyTables.Header
