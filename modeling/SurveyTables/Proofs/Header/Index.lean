import SurveyTables.Header

/-! The indices that are taken out of a text: first the one that begins furthest to the left, then
those of the text behind it. The scan in one pass takes out just these and leaves all else; what
remains around a taken index may look like an index again and stays. No index goes on behind a
slash. -/
namespace SurveyTables.Header

/-- An index: decimal digits of any script, at least one, between brackets. -/
def IsIndex (cs : List Char) : Prop :=
  ∃ digits, digits ≠ [] ∧ (∀ d ∈ digits, Text.isDecimalDigit d = true) ∧
    cs = '[' :: (digits ++ [']'])

def HasIndex (cs front rest : List Char) : Prop :=
  ∃ index, IsIndex index ∧ cs = front ++ (index ++ rest)

/-- The index between `front` and `rest` is the first: no other begins further to the left. -/
structure FirstIndex (cs front rest : List Char) : Prop where
  found : HasIndex cs front rest
  leftmost : ∀ before behind, HasIndex cs before behind → front.length ≤ before.length

/-- Taking out the first index, and then those of the rest, leaves `stripped`. -/
inductive Strips : List Char → List Char → Prop
  | plain {cs : List Char} (none : ∀ front rest, ¬HasIndex cs front rest) : Strips cs cs
  | index {cs front rest stripped : List Char} (first : FirstIndex cs front rest)
      (later : Strips rest stripped) : Strips cs (front ++ stripped)

/-! ### Where an index begins -/

theorem afterIndex?_digits {digits : List Char}
    (all : ∀ d ∈ digits, Text.isDecimalDigit d = true) {seen : Bool}
    (begun : seen = true ∨ digits ≠ []) (rest : List Char) :
    afterIndex? seen (digits ++ ']' :: rest) = some rest := by
  induction digits generalizing seen with
  | nil =>
    have begun : seen = true := begun.resolve_right (by simp)
    simp [afterIndex?, Text.isDecimalDigit_close, begun]
  | cons d digits ih =>
    rw [List.cons_append, afterIndex?, if_pos (all d List.mem_cons_self)]
    exact ih (fun e member => all e (List.mem_cons_of_mem d member)) (.inl rfl)

theorem exists_digits_of_afterIndex? {seen : Bool} {cs rest : List Char}
    (found : afterIndex? seen cs = some rest) :
    ∃ digits, (seen = true ∨ digits ≠ []) ∧
      (∀ d ∈ digits, Text.isDecimalDigit d = true) ∧ cs = digits ++ ']' :: rest := by
  induction cs generalizing seen with
  | nil => contradiction
  | cons c cs ih =>
    rw [afterIndex?] at found
    split at found
    · next digit =>
      obtain ⟨digits, -, all, rfl⟩ := ih found
      exact ⟨c :: digits, by simp, by simpa [digit] using all, rfl⟩
    · split at found
      · next closes =>
        obtain ⟨begun, rfl⟩ : seen = true ∧ c = ']' := by simpa using closes
        obtain rfl := Option.some.inj found
        exact ⟨[], .inl begun, by simp, rfl⟩
      · contradiction

theorem hasIndex_nil_iff {c : Char} {cs rest : List Char} :
    HasIndex (c :: cs) [] rest ↔ c = '[' ∧ afterIndex? false cs = some rest := by
  constructor
  · rintro ⟨index, ⟨digits, nonempty, all, rfl⟩, split⟩
    obtain ⟨rfl, rfl⟩ : c = '[' ∧ cs = digits ++ ']' :: rest := by simpa using split
    exact ⟨rfl, afterIndex?_digits all (.inr nonempty) rest⟩
  · rintro ⟨rfl, found⟩
    obtain ⟨digits, begun, all, rfl⟩ := exists_digits_of_afterIndex? found
    have nonempty : digits ≠ [] := begun.resolve_left (by simp)
    exact ⟨'[' :: (digits ++ [']']), ⟨digits, nonempty, all, rfl⟩, by simp⟩

theorem hasIndex_cons_iff {c d : Char} {cs front rest : List Char} :
    HasIndex (c :: cs) (d :: front) rest ↔ c = d ∧ HasIndex cs front rest := by
  simp only [HasIndex, List.cons_append, List.cons.injEq]
  constructor
  · rintro ⟨index, is, same, split⟩
    exact ⟨same, index, is, split⟩
  · rintro ⟨same, index, is, split⟩
    exact ⟨index, is, same, split⟩

theorem not_hasIndex_nil (front rest : List Char) : ¬HasIndex [] front rest := by
  rintro ⟨index, ⟨digits, -, -, rfl⟩, split⟩
  simp at split

theorem forall_not_hasIndex_nil_iff {c : Char} {cs : List Char} :
    (∀ rest, ¬HasIndex (c :: cs) [] rest) ↔ (c = '[' → afterIndex? false cs = none) := by
  simp only [hasIndex_nil_iff, not_and, Option.eq_none_iff_forall_ne_some, ne_eq]
  exact forall_comm

/-- Behind a character that begins no index, the first index stays the first. -/
theorem firstIndex_cons_iff {c d : Char} {cs front rest : List Char} :
    FirstIndex (c :: cs) (d :: front) rest ↔
      c = d ∧ (∀ behind, ¬HasIndex (c :: cs) [] behind) ∧ FirstIndex cs front rest := by
  constructor
  · rintro ⟨found, leftmost⟩
    obtain ⟨rfl, later⟩ := hasIndex_cons_iff.1 found
    refine ⟨rfl, fun behind has => ?_, later, fun before behind has => ?_⟩
    · exact absurd (leftmost [] behind has) (by simp)
    · exact Nat.le_of_succ_le_succ
        (leftmost (c :: before) behind (hasIndex_cons_iff.2 ⟨rfl, has⟩))
  · rintro ⟨rfl, none, found, leftmost⟩
    refine ⟨hasIndex_cons_iff.2 ⟨rfl, found⟩, fun before behind has => ?_⟩
    cases before with
    | nil => exact absurd has (none behind)
    | cons d before =>
      exact Nat.succ_le_succ (leftmost before behind (hasIndex_cons_iff.1 has).2)

/-! ### The scan -/

theorem withoutIndices_index {cs rest : List Char} (found : afterIndex? false cs = some rest) :
    withoutIndices ('[' :: cs) = withoutIndices rest := by
  have opens : (if '[' = '[' then afterIndex? false cs else none) = some rest := by
    rw [if_pos rfl, found]
  rw [withoutIndices]
  split
  · next other same => rw [Option.some.inj (opens.symm.trans same)]
  · next none => cases opens.symm.trans none

theorem withoutIndices_kept {c : Char} {cs : List Char}
    (none : c = '[' → afterIndex? false cs = none) :
    withoutIndices (c :: cs) = c :: withoutIndices cs := by
  have plain : (if c = '[' then afterIndex? false cs else Option.none) = Option.none := by
    split
    · next bracket => exact none bracket
    · rfl
  rw [withoutIndices]
  split
  · next other same => cases plain.symm.trans same
  · rfl

theorem scan_induction {P : List Char → Prop} (nil : P [])
    (index : ∀ cs rest, afterIndex? false cs = some rest → P rest → P ('[' :: cs))
    (kept : ∀ c cs, (c = '[' → afterIndex? false cs = none) → P cs → P (c :: cs))
    (cs : List Char) : P cs := by
  fun_induction withoutIndices cs with
  | case1 => exact nil
  | case2 c cs rest found ih =>
    split at found
    · next bracket => exact bracket ▸ index cs rest found ih
    · contradiction
  | case3 c cs missing ih =>
    refine kept c cs (fun bracket => ?_) ih
    rwa [dif_pos bracket] at missing

theorem suffix_of_afterIndex? {seen : Bool} {cs rest : List Char}
    (found : afterIndex? seen cs = some rest) : rest <:+ cs := by
  obtain ⟨digits, -, -, rfl⟩ := exists_digits_of_afterIndex? found
  exact (List.suffix_cons ']' rest).trans (List.suffix_append digits (']' :: rest))

theorem withoutIndices_sublist (cs : List Char) : (withoutIndices cs).Sublist cs := by
  induction cs using scan_induction with
  | nil => simp [withoutIndices]
  | index cs rest found ih =>
    rw [withoutIndices_index found]
    exact (ih.trans (suffix_of_afterIndex? found).sublist).trans (List.sublist_cons_self _ cs)
  | kept c cs none ih =>
    rw [withoutIndices_kept none]
    exact ih.cons_cons c

theorem afterIndex?_append_slash (seen : Bool) (front back : List Char) :
    afterIndex? seen (front ++ '/' :: back) =
      (afterIndex? seen front).map (· ++ '/' :: back) := by
  induction front generalizing seen with
  | nil => simp [afterIndex?, Text.isDecimalDigit_slash]
  | cons c front ih =>
    rw [List.cons_append, afterIndex?, afterIndex?]
    split
    · exact ih true
    · split <;> rfl

/-- The scan never looks behind a slash before it has come there. -/
theorem withoutIndices_append_slash (front back : List Char) :
    withoutIndices (front ++ '/' :: back) =
      withoutIndices front ++ '/' :: withoutIndices back := by
  have slash : withoutIndices ('/' :: back) = '/' :: withoutIndices back :=
    withoutIndices_kept fun bracket => absurd bracket (by decide)
  induction front using scan_induction with
  | nil => simpa only [List.nil_append, withoutIndices] using slash
  | index front rest found ih =>
    have further : afterIndex? false (front ++ '/' :: back) = some (rest ++ '/' :: back) := by
      rw [afterIndex?_append_slash, found, Option.map_some]
    rw [List.cons_append, withoutIndices_index further, withoutIndices_index found, ih]
  | kept c front none ih =>
    have further : c = '[' → afterIndex? false (front ++ '/' :: back) = Option.none := by
      intro bracket
      rw [afterIndex?_append_slash, none bracket, Option.map_none]
    rw [List.cons_append, withoutIndices_kept further, withoutIndices_kept none, ih,
      List.cons_append]

/-- What holds no opening bracket stays as it is, whatever follows it. -/
theorem withoutIndices_append {front : List Char} (plain : '[' ∉ front) (back : List Char) :
    withoutIndices (front ++ back) = front ++ withoutIndices back := by
  induction front with
  | nil => rfl
  | cons c front ih =>
    obtain ⟨different, plain⟩ := not_or.1 (mt List.mem_cons.2 plain)
    have kept : c = '[' → afterIndex? false (front ++ back) = none :=
      fun bracket => absurd bracket.symm different
    rw [List.cons_append, withoutIndices_kept kept, ih plain, List.cons_append]

/-! ### What the scan takes out -/

/-- A character that begins no index stays in front of what is left behind it. -/
theorem Strips.kept {c : Char} {cs stripped : List Char}
    (none : ∀ rest, ¬HasIndex (c :: cs) [] rest) (strips : Strips cs stripped) :
    Strips (c :: cs) (c :: stripped) := by
  cases strips with
  | plain free =>
    refine .plain fun front rest has => ?_
    cases front with
    | nil => exact none rest has
    | cons d front => exact free front rest (hasIndex_cons_iff.1 has).2
  | index first later => exact .index (firstIndex_cons_iff.2 ⟨rfl, none, first⟩) later

theorem strips_withoutIndices (cs : List Char) : Strips cs (withoutIndices cs) := by
  induction cs using scan_induction with
  | nil =>
    rw [withoutIndices]
    exact .plain not_hasIndex_nil
  | index cs rest found ih =>
    have first : FirstIndex ('[' :: cs) [] rest :=
      ⟨hasIndex_nil_iff.2 ⟨rfl, found⟩, fun _ _ _ => Nat.zero_le _⟩
    rw [withoutIndices_index found]
    exact .index first ih
  | kept c cs none ih =>
    rw [withoutIndices_kept none]
    exact ih.kept (forall_not_hasIndex_nil_iff.2 none)

theorem withoutIndices_of_not_hasIndex {cs : List Char}
    (none : ∀ front rest, ¬HasIndex cs front rest) : withoutIndices cs = cs := by
  induction cs with
  | nil => simp [withoutIndices]
  | cons c cs ih =>
    rw [withoutIndices_kept (forall_not_hasIndex_nil_iff.1 (none [])), ih]
    exact fun front rest has => none (c :: front) rest (hasIndex_cons_iff.2 ⟨rfl, has⟩)

theorem withoutIndices_of_firstIndex {cs front rest : List Char}
    (first : FirstIndex cs front rest) :
    withoutIndices cs = front ++ withoutIndices rest := by
  induction front generalizing cs with
  | nil =>
    cases cs with
    | nil => exact absurd first.found (not_hasIndex_nil [] rest)
    | cons c cs =>
      obtain ⟨rfl, found⟩ := hasIndex_nil_iff.1 first.found
      rw [withoutIndices_index found, List.nil_append]
  | cons d front ih =>
    cases cs with
    | nil => exact absurd first.found (not_hasIndex_nil (d :: front) rest)
    | cons c cs =>
      obtain ⟨rfl, none, first⟩ := firstIndex_cons_iff.1 first
      rw [withoutIndices_kept (forall_not_hasIndex_nil_iff.1 none), ih first, List.cons_append]

/-- The scan in one pass takes out the indices one after the other, the first one first. -/
theorem strips_iff {cs stripped : List Char} :
    Strips cs stripped ↔ stripped = withoutIndices cs := by
  constructor
  · intro strips
    induction strips with
    | plain none => exact (withoutIndices_of_not_hasIndex none).symm
    | index first _ ih => rw [withoutIndices_of_firstIndex first, ih]
  · rintro rfl
    exact strips_withoutIndices cs

end SurveyTables.Header
