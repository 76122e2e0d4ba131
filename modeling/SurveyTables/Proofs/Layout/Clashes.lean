import SurveyTables.Proofs.Layout.Kept
import SurveyTables.Proofs.Layout.Taken

/-! Which fields have their columns. A table keeps a field with all its columns and its binding, or
with none of them; the first field to ask for a name gets it. -/
namespace SurveyTables

/-- The declarations whose columns a table has, of those in `met`. -/
structure Table.Admits (layout : Layout) (met : Declaration → Prop) (table : Table)
    (kept : List Declaration) : Prop where
  ordered : kept.Pairwise fun d e => d.address < e.address
  own : ∀ d ∈ kept, met d ∧ d.inside = table.repeatPath ∧ d.field.kind.hasColumns = true
  /-- a field is left out if a name that it asks for is taken before it, or asked for twice -/
  dropped_iff : ∀ d, met d → d.inside = table.repeatPath → d.field.kind.hasColumns = true →
    (d ∉ kept ↔
      (∃ name ∈ d.field.namesIn table.repeatPath,
        layout.Taken (fun e => met e ∧ e.address < d.address) kept table.repeatPath name) ∨
      ¬ (d.field.namesIn table.repeatPath).Nodup)
  columns : table.schema.columns = Table.linkageOf table.repeatPath ++
    kept.flatMap fun d => d.field.columnsIn table.repeatPath
  sources : table.bindings.filter (·.rows? = none) =
    kept.map fun d => (table.contribution d.field).2

namespace Table

/-- Nothing but its path, its kind and its choices decides what a field contributes. -/
theorem contribution_eq_of_field {field other : Field} (path : field.path = other.path)
    (kind : field.kind = other.kind) (choices : field.choices = other.choices) (table : Table) :
    table.contribution field = table.contribution other := by
  obtain ⟨path', kind', choices', children⟩ := field
  obtain ⟨path'', kind'', choices'', children'⟩ := other
  obtain rfl : path' = path'' := path
  obtain rfl : kind' = kind'' := kind
  obtain rfl : choices' = choices'' := choices
  have base : table.baseName ⟨path', kind', choices', children⟩ =
      table.baseName ⟨path', kind', choices', children'⟩ := by
    unfold baseName
    cases table.repeatPath <;> rfl
  cases kind' <;> simp [contribution, base, Field.choiceNames]

/-- What is known of a table when a walk has met some declarations: which of them it keeps, and that
its taken names are those of what it keeps and has opened. -/
structure Settled (declared : List Declaration) (layout : Layout) (table : Table)
    (kept : List Declaration) : Prop
    extends table.Admits layout (· ∈ declared) kept where
  taken : ∀ name, name ∈ table.taken ↔
    layout.Taken (· ∈ declared) kept table.repeatPath name

variable {declared kept : List Declaration} {last : Declaration} {layout next : Layout}
  {table changed : Table}

theorem Admits.snoc (admits : table.Admits layout (· ∈ declared) kept)
    (follows : last.Follows declared layout next)
    (other : last.inside = table.repeatPath → last.field.kind.hasColumns = false)
    (path : changed.repeatPath = table.repeatPath)
    (columns : changed.schema.columns = table.schema.columns)
    (sources : changed.bindings.filter (·.rows? = none) = table.bindings.filter (·.rows? = none)) :
    changed.Admits next (· ∈ declared ++ [last]) kept where
  ordered := admits.ordered
  own := by
    intro d member
    obtain ⟨known, own⟩ := admits.own d member
    exact ⟨List.mem_append_left _ known, path ▸ own⟩
  dropped_iff := by
    intro d known own kind
    rw [path] at own ⊢
    rcases List.mem_append.1 known with known | new
    · simp only [admits.dropped_iff d known own kind, follows.taken_earlier (fun _ _ => .rfl) known]
    · obtain rfl := List.mem_singleton.1 new
      rw [other own] at kind
      contradiction
  columns := by
    rw [columns, path]
    exact admits.columns
  sources := by
    rw [sources, admits.sources]
    exact List.map_congr_left fun d _ => by rw [contribution_congr path]

theorem Settled.not_mem (settled : table.Settled declared layout kept)
    (follows : last.Follows declared layout next) : last ∉ kept :=
  fun member => follows.not_mem (settled.own last member).1

/-- A declaration that is no field of a table, and opens no table from it, changes nothing there. -/
theorem Settled.other (settled : table.Settled declared layout kept)
    (follows : last.Follows declared layout next)
    (other : last.inside = table.repeatPath → last.field.kind = .repeatGroup ∧
      ∃ e ∈ declared, e.field.kind = .repeatGroup ∧ e.field.path = last.field.path)
    (path : changed.repeatPath = table.repeatPath)
    (columns : changed.schema.columns = table.schema.columns)
    (sources : changed.bindings.filter (·.rows? = none) = table.bindings.filter (·.rows? = none))
    (taken : changed.taken = table.taken) :
    changed.Settled (declared ++ [last]) next kept where
  toAdmits := by
    refine settled.toAdmits.snoc follows (fun own => ?_) path columns sources
    rw [(other own).1]
    rfl
  taken name := by
    have unkept := settled.not_mem follows
    rw [taken, path, settled.taken, follows.taken_snoc fun _ _ => .rfl]
    constructor
    · exact .inl
    · rintro (old | ⟨member, -⟩ | ⟨own, -, new, -⟩)
      · exact old
      · exact absurd member unkept
      · obtain ⟨-, e, known, kind, same⟩ := other own
        exact absurd same (new e known kind)

/-- Nothing changes in a table that a declaration does not stand in. -/
theorem Settled.elsewhere (settled : table.Settled declared layout kept)
    (follows : last.Follows declared layout next) (apart : table.repeatPath ≠ last.inside) :
    table.Settled (declared ++ [last]) next kept :=
  settled.other follows (fun same => absurd same.symm apart) rfl rfl rfl rfl

theorem addField_of_canClaim {field : Field}
    (free : table.canClaim (field.namesIn table.repeatPath) = true) :
    table.addField field =
      { table with
        schema := { table.schema with
          columns := table.schema.columns ++ field.columnsIn table.repeatPath }
        bindings := table.bindings ++ [(table.contribution field).2]
        taken := table.taken ++ field.namesIn table.repeatPath } := by
  rw [Field.namesIn, ← fst_contribution] at free
  rw [addField]
  dsimp only
  rw [if_pos free, Field.namesIn, fst_contribution]

theorem addField_of_not_canClaim {field : Field}
    (clash : table.canClaim (field.namesIn table.repeatPath) ≠ true) :
    table.addField field = table := by
  rw [Field.namesIn, ← fst_contribution] at clash
  rw [addField]
  dsimp only
  rw [if_neg clash]

theorem Settled.keep (settled : table.Settled declared layout kept)
    (follows : last.Follows declared layout next) (own : last.inside = table.repeatPath)
    (kind : last.field.kind.hasColumns = true)
    (free : table.canClaim (last.field.namesIn table.repeatPath) = true) :
    (table.addField last.field).Settled (declared ++ [last]) next (kept ++ [last]) := by
  obtain ⟨unused, distinct⟩ := canClaim_iff.1 free
  have part : ∀ e ∈ declared, e ∈ kept ↔ e ∈ kept ++ [last] := by
    intro e known
    have different : e ≠ last := fun same => follows.not_mem (same ▸ known)
    simp [different]
  have added := addField_of_canClaim free
  have path : (table.addField last.field).repeatPath = table.repeatPath := repeatPath_addField ..
  refine { ordered := ?ordered, own := ?own, dropped_iff := ?dropped, columns := ?columns,
           sources := ?sources, taken := ?taken }
  case ordered =>
    refine List.pairwise_append.2 ⟨settled.ordered, List.pairwise_singleton .., ?_⟩
    intro e member d new
    obtain rfl := List.mem_singleton.1 new
    exact follows.behind e (settled.own e member).1
  case own =>
    intro d member
    rw [path]
    rcases List.mem_append.1 member with old | new
    · obtain ⟨known, rest⟩ := settled.own d old
      exact ⟨List.mem_append_left _ known, rest⟩
    · obtain rfl := List.mem_singleton.1 new
      exact ⟨List.mem_append_right _ List.mem_cons_self, own, kind⟩
  case dropped =>
    intro d known own' kind'
    rw [path] at own' ⊢
    rcases List.mem_append.1 known with known | new
    · rw [← part d known, settled.dropped_iff d known own' kind']
      simp only [follows.taken_earlier part known]
    · obtain rfl := List.mem_singleton.1 new
      simp only [← follows.taken_before part, ← settled.taken]
      constructor
      · exact fun dropped => absurd (List.mem_append_right _ List.mem_cons_self) dropped
      · rintro (⟨name, asks, taken⟩ | twice)
        · exact absurd taken (unused name asks)
        · exact absurd distinct twice
  case columns =>
    rw [path, added, List.flatMap_append, ← List.append_assoc, ← settled.columns]
    simp
  case sources =>
    have same : kept.map (fun d => ((table.addField last.field).contribution d.field).2) =
        kept.map fun d => (table.contribution d.field).2 :=
      List.map_congr_left fun d _ => by rw [contribution_congr path]
    rw [List.map_append, same, List.map_singleton, contribution_congr path, ← settled.sources, added,
      List.filter_append]
    congr 1
    simp [rows?_contribution]
  case taken =>
    intro name
    rw [path, added, List.mem_append, settled.taken, follows.taken_snoc part]
    have kept : last ∈ kept ++ [last] := List.mem_append_right _ List.mem_cons_self
    constructor
    · exact Or.imp_right fun asks => .inl ⟨kept, asks⟩
    · rintro (old | ⟨-, asks⟩ | ⟨-, repeats, -⟩)
      · exact .inl old
      · exact .inr asks
      · rw [repeats] at kind
        contradiction

theorem Settled.drop (settled : table.Settled declared layout kept)
    (follows : last.Follows declared layout next) (own : last.inside = table.repeatPath)
    (kind : last.field.kind.hasColumns = true)
    (clash : table.canClaim (last.field.namesIn table.repeatPath) ≠ true) :
    (table.addField last.field).Settled (declared ++ [last]) next kept := by
  have unkept := settled.not_mem follows
  rw [addField_of_not_canClaim clash]
  refine { settled with own := ?own, dropped_iff := ?dropped, taken := ?taken }
  case own =>
    intro d member
    obtain ⟨known, rest⟩ := settled.own d member
    exact ⟨List.mem_append_left _ known, rest⟩
  case dropped =>
    intro d known own' kind'
    rcases List.mem_append.1 known with known | new
    · simp only [settled.dropped_iff d known own' kind',
        follows.taken_earlier (fun _ _ => .rfl) known]
    · obtain rfl := List.mem_singleton.1 new
      simp only [← follows.taken_before (fun _ _ => .rfl), ← settled.taken]
      refine ⟨fun _ => ?_, fun _ => unkept⟩
      rw [Ne, canClaim_iff, not_and_or] at clash
      exact clash.imp_left fun used => by simpa using used
  case taken =>
    intro name
    rw [settled.taken, follows.taken_snoc fun _ _ => .rfl]
    constructor
    · exact .inl
    · rintro (old | ⟨member, -⟩ | ⟨-, repeats, -⟩)
      · exact old
      · exact absurd member unkept
      · rw [repeats] at kind
        contradiction

/-- A repeat group that opens a table reserves the name of that table. -/
theorem Settled.adopt (settled : table.Settled declared layout kept)
    (follows : last.Follows declared layout next) (own : last.inside = table.repeatPath)
    (kind : last.field.kind = .repeatGroup)
    (new : ∀ e ∈ declared, e.field.kind = .repeatGroup → e.field.path ≠ last.field.path)
    {opened : String} (calls : ∀ name, next.Calls last.field.path name ↔ name = opened)
    (child : Nat) :
    (table.adopt opened last.field.path child).Settled (declared ++ [last]) next kept where
  toAdmits := by
    refine settled.toAdmits.snoc follows (fun _ => by rw [kind]; rfl) rfl rfl ?_
    simp [Table.adopt, bindRows, reserve, Binding.rows?]
  taken name := by
    have unkept := settled.not_mem follows
    have taken : (table.adopt opened last.field.path child).taken = table.taken ++ [opened] := rfl
    rw [taken, List.mem_append, List.mem_singleton, settled.taken,
      follows.taken_snoc fun _ _ => .rfl, calls]
    constructor
    · exact Or.imp_right fun same => .inr ⟨own, kind, new, same⟩
    · rintro (old | ⟨member, -⟩ | ⟨-, -, -, same⟩)
      · exact .inl old
      · exact absurd member unkept
      · exact .inr same

theorem settled_start (name connection : String) {inside : Option String}
    (outside : ∀ e ∈ declared, e.inside ≠ inside) :
    (start name connection inside).Settled declared layout [] where
  ordered := .nil
  own _ member := absurd member List.not_mem_nil
  dropped_iff d known own := absurd own (outside d known)
  columns := by simp [start]
  sources := rfl
  taken other := by
    constructor
    · exact .reserved
    · rintro (link | ⟨-, member, -⟩ | ⟨known, own, -⟩)
      · exact link
      · exact absurd member List.not_mem_nil
      · exact absurd own (outside _ known)

end Table

namespace Layout

/-- All tables are settled by the declarations that a walk has met. -/
def AllSettled (before : List Entry) (layout : Layout) : Prop :=
  ∀ declared : List Declaration, declared.Pairwise (fun d e => d.address < e.address) →
    Declaration.Matches declared before →
      ∀ table ∈ layout.tables, ∃ kept, table.Settled declared layout kept

section

variable {connection : String} {before : List Entry} {layout next : Layout} {entry : Entry}
  {declared : List Declaration} {last : Declaration} {place child : Nat} {table : Table}
  {name : String}

theorem settled_field (laid : Laid before layout) (later : ∀ e ∈ declared, e.address < last.address)
    (has : last.met? = some entry) (found : layout.table? place = some table)
    (own : table.repeatPath = entry.inside) (plain : entry.repeat? = none)
    (settled : ∀ table ∈ layout.tables, ∃ kept, table.Settled declared layout kept) :
    ∀ table ∈ (layout.modifyTable place (·.addField entry.field)).tables,
      ∃ kept, table.Settled (declared ++ [last])
        (layout.modifyTable place (·.addField entry.field)) kept := by
  obtain ⟨inside, path, kind, choices, columns⟩ := Declaration.of_met?_eq_some has
  have owned := own.trans inside.symm
  have follows : last.Follows declared layout (layout.modifyTable place (·.addField entry.field)) :=
    ⟨later, fun e _ _ name => (calls_modifyTable (fun _ => Table.repeatPath_addField ..)
      (fun _ => name_addField ..) e.field.path name).symm⟩
  refine laid.forall_mem_modifyTable found ?_ ?_
  · intro other member different
    obtain ⟨kept, here⟩ := settled other member
    exact ⟨kept, here.elsewhere follows (owned ▸ different)⟩
  · obtain ⟨kept, here⟩ := settled table (mem_tables_of_table? found)
    have unlike : last.field.kind ≠ .repeatGroup := by
      intro same
      rw [Entry.repeat?, if_pos (kind.symm.trans same)] at plain
      contradiction
    have asks : table.addField entry.field = table.addField last.field := by
      rw [Table.addField, Table.contribution_eq_of_field path.symm kind.symm choices.symm]
      rfl
    rw [asks]
    by_cases free : table.canClaim (last.field.namesIn table.repeatPath) = true
    · exact ⟨kept ++ [last], here.keep follows owned.symm (columns unlike) free⟩
    · exact ⟨kept, here.drop follows owned.symm (columns unlike) free⟩

/-- A repeat group of a known path changes neither columns nor taken names. -/
theorem settled_sharing (laid : Laid before layout) (behind : Declaration.Matches declared before)
    (later : ∀ e ∈ declared, e.address < last.address) (has : last.met? = some entry)
    (found : layout.table? place = some table) (repeats : entry.field.kind = .repeatGroup)
    (known : layout.placeOf? entry.field.path = some child)
    (settled : ∀ table ∈ layout.tables, ∃ kept, table.Settled declared layout kept) :
    ∀ table ∈ (layout.modifyTable place (·.bindRows entry.field.path child)).tables,
      ∃ kept, table.Settled (declared ++ [last])
        (layout.modifyTable place (·.bindRows entry.field.path child)) kept := by
  obtain ⟨-, path, kind, -⟩ := Declaration.of_met?_eq_some has
  have follows : last.Follows declared layout
      (layout.modifyTable place (·.bindRows entry.field.path child)) :=
    ⟨later, fun e _ _ name => (calls_modifyTable (fun _ => Table.repeatPath_bindRows ..)
      (fun _ => name_bindRows ..) e.field.path name).symm⟩
  have shared : ∃ e ∈ declared, e.field.kind = .repeatGroup ∧ e.field.path = last.field.path := by
    obtain ⟨shared, at?, own'⟩ := table?_of_placeOf? known
    rw [path]
    exact behind.exists_of_mem_paths
      (laid.mem_paths_of_mem_tables (mem_tables_of_table? at?) own')
  refine laid.forall_mem_modifyTable found ?_ ?_
  · intro other member _
    obtain ⟨kept, here⟩ := settled other member
    exact ⟨kept, here.other follows (fun _ => ⟨kind.trans repeats, shared⟩) rfl rfl rfl rfl⟩
  · obtain ⟨kept, here⟩ := settled table (mem_tables_of_table? found)
    refine ⟨kept, here.other follows (fun _ => ⟨kind.trans repeats, shared⟩) rfl rfl ?_ rfl⟩
    simp [Table.bindRows, Binding.rows?]

/-- A table that is opened has the name given to it, and no other table has its path. -/
theorem calls_opened_iff (laid : Laid before layout) {path connection' name' : String}
    (unknown : path ∉ Entry.paths before) :
    ((layout.modifyTable place (·.adopt name path child)).append
        (Table.start name connection' (some path))).Calls path name' ↔ name' = name := by
  rw [calls_opened]
  constructor
  · rintro (⟨old, member, own', -⟩ | ⟨-, rfl⟩)
    · exact absurd (laid.mem_paths_of_mem_tables member own') unknown
    · rfl
  · rintro rfl
    exact .inr ⟨rfl, rfl⟩

/-- A repeat group of a new path takes the name of the table that it opens, which has no fields
yet. -/
theorem settled_opening (placed : Entry.Placed before) (laid : Laid before layout)
    (behind : Declaration.Matches declared before)
    (later : ∀ e ∈ declared, e.address < last.address) (has : last.met? = some entry)
    (found : layout.table? place = some table) (own : table.repeatPath = entry.inside)
    (repeats : entry.field.kind = .repeatGroup) (unknown : entry.field.path ∉ Entry.paths before)
    (settled : ∀ table ∈ layout.tables, ∃ kept, table.Settled declared layout kept)
    (opened : next = (layout.modifyTable place
        (·.adopt name entry.field.path layout.tables.length)).append
      (Table.start name (connection ++ "_" ++ name) (some entry.field.path))) :
    ∀ table ∈ next.tables, ∃ kept, table.Settled (declared ++ [last]) next kept := by
  obtain ⟨inside, path, kind, -⟩ := Declaration.of_met?_eq_some has
  have owned := own.trans inside.symm
  have fresh : ∀ e ∈ declared, e.field.kind = .repeatGroup → e.field.path ≠ entry.field.path :=
    fun e member kind same => unknown (same ▸ behind.mem_paths member kind)
  have follows : last.Follows declared layout next := by
    refine ⟨later, fun e member kind name' => ?_⟩
    rw [opened, calls_opened]
    constructor
    · exact .inl
    · rintro (old | ⟨same, -⟩)
      · exact old
      · exact absurd same.symm (fresh e member kind)
  have called (name' : String) : next.Calls last.field.path name' ↔ name' = name := by
    rw [opened, path]
    exact calls_opened_iff laid unknown
  rw [opened] at follows called ⊢
  refine forall_mem_append (laid.forall_mem_modifyTable found ?_ ?_) ?_
  · intro other member different
    obtain ⟨kept, here⟩ := settled other member
    exact ⟨kept, here.elsewhere follows (owned ▸ different)⟩
  · obtain ⟨kept, here⟩ := settled table (mem_tables_of_table? found)
    have adopted := here.adopt follows owned.symm (kind.trans repeats)
      (path.symm ▸ fresh) called layout.tables.length
    rw [path] at adopted
    exact ⟨kept, adopted⟩
  · have outside := laid.inside_ne placed found own unknown
    refine ⟨[], Table.settled_start _ _ fun e member => ?_⟩
    rcases List.mem_append.1 member with earlier | new
    · obtain ⟨entry', met, has'⟩ := Sequence.exists_of_mem_left behind earlier
      rw [(Declaration.of_met?_eq_some has').1]
      exact outside entry' (List.mem_append_left _ met)
    · obtain rfl := List.mem_singleton.1 new
      rw [inside]
      exact outside entry (List.mem_append_right _ List.mem_cons_self)

theorem allSettled_step (placed : Entry.Placed before) (laid : Laid before layout)
    (step : Step connection before layout entry next) (settled : AllSettled before layout) :
    AllSettled (before ++ [entry]) next := by
  intro all ordered behind
  obtain ⟨declared, last, rfl, behind, has⟩ := behind.exists_snoc
  obtain ⟨ordered, -, later⟩ := List.pairwise_append.1 ordered
  have later : ∀ e ∈ declared, e.address < last.address :=
    fun e member => later e member last List.mem_cons_self
  have settled := settled declared ordered behind
  cases step with
  | field found own plain => exact settled_field laid later has found own plain settled
  | sharing found own declares known =>
    obtain ⟨repeats, -, rfl⟩ := Entry.repeat?_eq_some declares
    exact settled_sharing laid behind later has found repeats known settled
  | opening found own declares unknown fresh =>
    obtain ⟨repeats, -, rfl⟩ := Entry.repeat?_eq_some declares
    exact settled_opening placed laid behind later has found own repeats unknown settled rfl

end

theorem allSettled_infer (form : Form) : AllSettled form.entries (infer form) := by
  refine infer_induction form ?_ fun _ _ _ _ placed laid step settled =>
    allSettled_step placed laid step settled
  intro declared _ behind table member
  obtain rfl := List.mem_singleton.1 member
  obtain rfl := List.forall₂_nil_right_iff.1 behind
  exact ⟨[], Table.settled_start _ _ fun e member => absurd member List.not_mem_nil⟩

/-- Each table of a form's layout has the columns of the fields that it keeps, one after the other
as they were declared. -/
theorem admits_infer (form : Form) : ∀ table ∈ (infer form).tables,
    ∃ kept, table.Admits (infer form) form.Declares kept := by
  intro table member
  let met := form.declarations.filter (·.met?.isSome)
  have declares {e : Declaration} (vocal : e.field.kind ≠ .note ∧ e.field.kind ≠ .group) :
      e ∈ met ↔ form.Declares e := by
    rw [List.mem_filter, Form.mem_declarations]
    simp [Declaration.met?, vocal]
  have ordered : met.Pairwise fun d e => d.address < e.address :=
    form.pairwise_declarations.filter _
  have behind : Declaration.Matches met form.entries :=
    form.entries_eq_filterMap ▸ Declaration.matches_filter _
  obtain ⟨kept, settled⟩ := allSettled_infer form met ordered behind table member
  have vocal_of_hasColumns {d : Declaration} (kind : d.field.kind.hasColumns = true) :
      d.field.kind ≠ .note ∧ d.field.kind ≠ .group := by
    simp only [FieldKind.hasColumns, Bool.and_eq_true, decide_eq_true_eq] at kind
    exact kind.1
  refine ⟨kept, { settled.toAdmits with own := ?own, dropped_iff := ?dropped }⟩
  case own =>
    intro d listed
    obtain ⟨known, own, kind⟩ := settled.own d listed
    exact ⟨(declares (vocal_of_hasColumns kind)).1 known, own, kind⟩
  case dropped =>
    intro d known own kind
    rw [settled.dropped_iff d ((declares (vocal_of_hasColumns kind)).2 known) own kind]
    have same (name : String) : (infer form).Taken (fun e => e ∈ met ∧ e.address < d.address) kept
          table.repeatPath name ↔
        (infer form).Taken (fun e => form.Declares e ∧ e.address < d.address) kept
          table.repeatPath name := by
      refine taken_congr (fun e which => ?_) (fun _ _ => .rfl) fun _ _ _ _ => .rfl
      have vocal : e.field.kind ≠ .note ∧ e.field.kind ≠ .group := by
        rcases which with listed | listed | repeats
        · exact vocal_of_hasColumns (settled.own e listed).2.2
        · exact vocal_of_hasColumns (settled.own e listed).2.2
        · simp [repeats]
      rw [declares vocal]
    simp only [same]

/-- Five fields that ask for a name that is reserved, that a choice of another field, a repeat group
or the field itself has already, and two that get what they ask for. -/
def market : Form where
  idString := "market"
  projectId := 2
  title := "Market"
  fields := [⟨"_id", .text, [], []⟩,
    ⟨"a", .selectMultiple, [⟨"b_c", ""⟩], []⟩, ⟨"a_b", .selectMultiple, [⟨"c", ""⟩], []⟩,
    ⟨"stalls", .repeatGroup, [], [⟨"stalls/name", .text, [], []⟩]⟩,
    ⟨"g", .group, [], [⟨"stalls", .text, [], []⟩, ⟨"open", .integer, [], []⟩]⟩,
    ⟨"days", .selectMultiple, [⟨"Mo", ""⟩, ⟨"Tu", ""⟩, ⟨"Mo", ""⟩], []⟩,
    ⟨"open", .date, [], []⟩]

theorem admits_market :
    (infer market).root ∈ (infer market).tables ∧
      (infer market).root.schema.columnIds = ["_id", "a_b_c", "open"] ∧
      ∃ kept, (infer market).root.Admits (infer market) market.Declares kept :=
  ⟨List.mem_cons_self, by decide +kernel, admits_infer market _ List.mem_cons_self⟩

end Layout

end SurveyTables
