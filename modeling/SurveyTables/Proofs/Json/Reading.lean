import SurveyTables.Proofs.Json.Parse

/-! Values that were read. They can be told from what a program may write: no object gives a name
twice, and they nest no deeper than a text may. Both make them come back from their own text, which
holds no line break however it was read. -/
namespace SurveyTables.Json

theorem depthOfItems_le {items : List Json} {room : Nat}
    (each : ∀ item ∈ items, item.depth ≤ room) : depthOfItems items ≤ room := by
  induction items with
  | nil => exact Nat.zero_le room
  | cons item items ih =>
    rw [List.forall_mem_cons] at each
    exact Nat.max_le.2 ⟨each.1, ih each.2⟩

theorem depthOfMembers_le {members : List (String × Json)} {room : Nat}
    (each : ∀ member ∈ members, member.2.depth ≤ room) : depthOfMembers members ≤ room := by
  induction members with
  | nil => exact Nat.zero_le room
  | cons member members ih =>
    rw [List.forall_mem_cons] at each
    exact Nat.max_le.2 ⟨each.1, ih each.2⟩

/-- Such values come back from their own texts. -/
def Fits (room : Nat) (j : Json) : Prop := j.Distinct ∧ j.depth ≤ room

theorem Fits.array {room : Nat} {items : List Json} (each : ∀ item ∈ items, Fits room item) :
    Fits (room + 1) (.array items) :=
  ⟨.array fun item member => (each item member).1,
    Nat.succ_le_succ (depthOfItems_le fun item member => (each item member).2)⟩

/-- Of the members that give one name, all but one are dropped. -/
theorem Fits.object {room : Nat} {members : List (String × Json)}
    (each : ∀ member ∈ members, Fits room member.2) :
    Fits (room + 1) (.object (Keyed.ofList members)) := by
  have kept (member : String × Json) (inside : member ∈ Keyed.ofList members) :
      Fits room member.2 := each member (Keyed.mem_of_mem_ofList inside)
  exact ⟨.object (Keyed.nodup_keys_ofList members) fun member inside => (kept member inside).1,
    Nat.succ_le_succ (depthOfMembers_le fun member inside => (kept member inside).2)⟩

namespace Raw

mutual

theorem fits_of_toJson? {room : Nat} : ∀ {raw : Raw} {j : Json}, toJson? room raw = some j →
    j.Fits room
  | .null, _, rfl => ⟨.null, Nat.zero_le room⟩
  | .bool b, _, rfl => ⟨.bool b, Nat.zero_le room⟩
  | .number n, _, rfl => ⟨.number n, Nat.zero_le room⟩
  | .literal l, j, read => by
    obtain ⟨s, -, rfl⟩ := Option.map_eq_some_iff.1 read
    exact ⟨.string s, Nat.zero_le room⟩
  | .array items, j, read => by
    cases room with
    | zero => contradiction
    | succ room =>
      obtain ⟨values, inside, rfl⟩ := Option.map_eq_some_iff.1 read
      exact .array (fits_of_itemsToJson? inside)
  | .object members, j, read => by
    cases room with
    | zero => contradiction
    | succ room =>
      obtain ⟨values, inside, rfl⟩ := Option.map_eq_some_iff.1 read
      exact .object (fits_of_membersToJson? inside)

theorem fits_of_itemsToJson? {room : Nat} : ∀ {items : List Raw} {values : List Json},
    itemsToJson? room items = some values → ∀ value ∈ values, value.Fits room
  | [], _, rfl => by simp
  | item :: items, values, read => by
    simp only [itemsToJson?, bind, Option.bind_eq_some_iff] at read
    obtain ⟨first, readFirst, later, readLater, ⟨⟩⟩ := read
    exact List.forall_mem_cons.2 ⟨fits_of_toJson? readFirst, fits_of_itemsToJson? readLater⟩

theorem fits_of_membersToJson? {room : Nat} :
    ∀ {members : List (Literal × Raw)} {values : List (String × Json)},
      membersToJson? room members = some values → ∀ value ∈ values, value.2.Fits room
  | [], _, rfl => by simp
  | (name, raw) :: members, values, read => by
    simp only [membersToJson?, bind, Option.bind_eq_some_iff] at read
    obtain ⟨_, -, first, readFirst, later, readLater, ⟨⟩⟩ := read
    exact List.forall_mem_cons.2 ⟨fits_of_toJson? readFirst, fits_of_membersToJson? readLater⟩

end

end Raw

/-- A value that was read from some text is read from its compact text as well. -/
theorem read?_compact_of_read? {s : String} {j : Json} (read : read? s = some j) :
    read? j.compact = some j := by
  obtain ⟨raw, -, read⟩ := Option.bind_eq_some_iff.1 read
  obtain ⟨distinct, deep⟩ := Raw.fits_of_toJson? read
  exact read?_compact distinct deep

/-! Compact text holds no control characters: those of a text are written as escapes, and no others
stand between. -/

/-- A character that is no control character of the first block. -/
def IsPlain (c : Char) : Prop := 0x20 ≤ c.toNat

instance (c : Char) : Decidable (IsPlain c) := inferInstanceAs (Decidable (0x20 ≤ c.toNat))

theorem isPlain_of_all {cs : List Char} (all : cs.all (decide <| IsPlain ·) = true) :
    ∀ c ∈ cs, IsPlain c := by
  simpa using all

theorem isPlain_hexDigit : ∀ n < 16, IsPlain (Text.hexDigit n) := by decide

theorem isPlain_of_mem_hexNumeral (count n : Nat) : ∀ c ∈ Text.hexNumeral count n, IsPlain c := by
  induction count generalizing n with
  | zero => simp [Text.hexNumeral]
  | succ count ih =>
    rw [Text.hexNumeral, List.forall_mem_append, List.forall_mem_singleton]
    exact ⟨ih (n / 16), isPlain_hexDigit _ (Nat.mod_lt n (by decide))⟩

theorem isPlain_of_mem_escape (c : Char) : ∀ e ∈ escape c, IsPlain e := by
  unfold escape
  split_ifs with quote backslash b f n r t control
  all_goals try exact isPlain_of_all (by decide)
  · simp only [List.forall_mem_cons]
    exact ⟨by decide, by decide, isPlain_of_mem_hexNumeral 4 c.toNat⟩
  · exact List.forall_mem_singleton.2 (Nat.le_of_not_lt control)

theorem isPlain_of_mem_quoted (s : String) : ∀ c ∈ quoted s, IsPlain c := by
  intro c member
  simp only [quoted, List.cons_append, List.mem_cons, List.mem_append, List.mem_flatMap,
    List.not_mem_nil, or_false] at member
  rcases member with rfl | ⟨e, -, member⟩ | rfl
  · decide
  · exact isPlain_of_mem_escape e c member
  · decide

theorem isPlain_of_isNumeric {c : Char} (numeric : Scan.isNumeric c = true) : IsPlain c := by
  simp only [Scan.isNumeric, Bool.or_eq_true, decide_eq_true_eq] at numeric
  rcases numeric with ((((digit | rfl) | rfl) | rfl) | rfl) | rfl
  · have least : 48 ≤ c.val := (by simpa [Char.isDigit] using digit : _ ∧ _).1
    exact Nat.le_trans (by decide) (UInt32.le_iff_toNat_le.1 least)
  all_goals decide

theorem isPlain_of_mem_enclosed {opening closing : Char} (opens : IsPlain opening)
    (closes : IsPlain closing) {parts : List (List Char)}
    (each : ∀ part ∈ parts, ∀ c ∈ part, IsPlain c) :
    ∀ c ∈ opening :: [','].intercalate parts ++ [closing], IsPlain c := by
  rw [List.forall_mem_append, List.forall_mem_cons, List.forall_mem_singleton]
  refine ⟨⟨opens, ?_⟩, closes⟩
  cases parts with
  | nil => simp [List.intercalate]
  | cons first later =>
    obtain ⟨plain, each⟩ := List.forall_mem_cons.1 each
    rw [Sequence.intercalate_cons, List.forall_mem_append, List.forall_mem_flatMap]
    refine ⟨plain, fun part inside => ?_⟩
    exact List.forall_mem_cons.2 ⟨by decide, each part inside⟩

theorem isPlain_of_mem_chars (j : Json) : ∀ c ∈ j.chars, IsPlain c := by
  induction j using induction with
  | null => exact isPlain_of_all (by decide)
  | bool b => cases b <;> exact isPlain_of_all (by decide)
  | number n => exact fun c member => isPlain_of_isNumeric (n.isNumeric_of_mem_chars c member)
  | string s => exact isPlain_of_mem_quoted s
  | array items ih =>
    rw [chars, itemChars_eq]
    exact isPlain_of_mem_enclosed (by decide) (by decide) (List.forall_mem_map.2 ih)
  | object members ih =>
    rw [chars, memberChars_eq]
    refine isPlain_of_mem_enclosed (by decide) (by decide) (List.forall_mem_map.2 ?_)
    intro member inside
    rw [List.forall_mem_append, List.forall_mem_cons]
    exact ⟨isPlain_of_mem_quoted member.1, by decide, ih member inside⟩

theorem newline_not_mem_compact (j : Json) : '\n' ∉ j.compact.toList := by
  rw [compact, String.toList_ofList]
  exact fun member => absurd (isPlain_of_mem_chars j _ member) (by decide)

end SurveyTables.Json
