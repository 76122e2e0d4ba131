import SurveyTables.Proofs.Form.Declaration
import SurveyTables.Proofs.Layout.Names

/-! Names that are taken. When a field asks for its columns, names are gone that are reserved, that
fields before it have, or that belong to child tables opened before it from the same table. -/
namespace SurveyTables

namespace Field

/-- The name that a field has in a table: its path in the root table, its clean header in the table
of a repeat path. -/
def nameIn (field : Field) : Option String → String
  | none => String.ofList (field.path.toList.map fun c => if c = '/' then '_' else c)
  | some repeatPath => Header.clean (Header.ofRound repeatPath field.path 1)

/-- The columns that a field asks for in a table. -/
def columnsIn (field : Field) (inside : Option String) : List Column :=
  let name := field.nameIn inside
  match field.kind with
  | .selectMultiple =>
    field.choices.map fun choice => .named (name ++ "_" ++ choice.name) .string
  | .geopoint =>
    ["latitude", "longitude", "altitude", "precision"].map fun part =>
      .named ("_" ++ name ++ "_" ++ part) .string
  | .integer => [.named name .int]
  | _ => [.named name .string]

def namesIn (field : Field) (inside : Option String) : List String :=
  (field.columnsIn inside).map Column.id

end Field

/-- The table of a repeat path has the name. -/
def Layout.Calls (layout : Layout) (path name : String) : Prop :=
  ∃ child ∈ layout.tables, child.repeatPath = some path ∧ child.name = name

/-- The names that are taken in a table once the declarations in `met` have been met and, of these,
those in `kept` have been kept: reserved names, columns, and names of child tables that were opened
from this table. -/
inductive Layout.Taken (layout : Layout) (met : Declaration → Prop) (kept : List Declaration)
    (inside : Option String) : String → Prop
  | reserved {name : String} (link : name ∈ linkColumns) : Taken layout met kept inside name
  | column {earlier : Declaration} {name : String} (known : met earlier) (member : earlier ∈ kept)
      (asks : name ∈ earlier.field.namesIn inside) : Taken layout met kept inside name
  | child {opening : Declaration} {name : String} (known : met opening)
      (own : opening.inside = inside) (kind : opening.field.kind = .repeatGroup)
      (first : ∀ other, met other → other.field.kind = .repeatGroup →
        other.field.path = opening.field.path → ¬ other.address < opening.address)
      (calls : layout.Calls opening.field.path name) : Taken layout met kept inside name

namespace Layout

variable {layout next : Layout} {met met' : Declaration → Prop} {kept kept' : List Declaration}
  {inside : Option String} {name : String}

theorem Taken.imp (taken : layout.Taken met kept inside name)
    (same : ∀ e, e ∈ kept ∨ e.field.kind = .repeatGroup → (met e ↔ met' e))
    (part : ∀ e, met e → e ∈ kept → e ∈ kept')
    (calls : ∀ e, met e → e.field.kind = .repeatGroup → ∀ name,
      layout.Calls e.field.path name → next.Calls e.field.path name) :
    next.Taken met' kept' inside name := by
  cases taken with
  | reserved link => exact .reserved link
  | column known member asks =>
    exact .column ((same _ (.inl member)).1 known) (part _ known member) asks
  | child known own kind first called =>
    refine .child ((same _ (.inr kind)).1 known) own kind (fun other known' kind' => ?_)
      (calls _ known kind _ called)
    exact first other ((same other (.inr kind')).2 known') kind'

theorem taken_congr
    (same : ∀ e, e ∈ kept ∨ e ∈ kept' ∨ e.field.kind = .repeatGroup → (met e ↔ met' e))
    (part : ∀ e, met e → (e ∈ kept ↔ e ∈ kept'))
    (calls : ∀ e, met e → e.field.kind = .repeatGroup → ∀ name,
      layout.Calls e.field.path name ↔ next.Calls e.field.path name) :
    layout.Taken met kept inside name ↔ next.Taken met' kept' inside name := by
  constructor
  · intro taken
    exact taken.imp (fun e which => same e (which.imp_right .inr))
      (fun e known => (part e known).1) fun e known kind name => (calls e known kind name).1
  · intro taken
    refine taken.imp (fun e which => (same e (.inr which)).symm) (fun e known member => ?_)
      fun e known kind name => (calls e ((same e (.inr (.inr kind))).2 known) kind name).2
    exact (part e ((same e (.inr (.inl member))).2 known)).2 member

theorem calls_modifyTable {layout : Layout} {place : Nat} {f : Table → Table}
    (paths : ∀ table, (f table).repeatPath = table.repeatPath)
    (names : ∀ table, (f table).name = table.name) (path name : String) :
    (layout.modifyTable place f).Calls path name ↔ layout.Calls path name := by
  have labels : (layout.modifyTable place f).tables.map
      (fun table => (table.repeatPath, table.name)) =
        layout.tables.map fun table => (table.repeatPath, table.name) :=
    map_tables_modifyTable fun table => by rw [paths, names]
  have mem {some : Layout} : some.Calls path name ↔
      (Option.some path, name) ∈ some.tables.map fun table => (table.repeatPath, table.name) := by
    simp [Calls]
  rw [mem, labels, mem]

theorem calls_append {layout : Layout} {table : Table} {path name : String} :
    (layout.append table).Calls path name ↔
      layout.Calls path name ∨ table.repeatPath = some path ∧ table.name = name := by
  simp [Calls, tables_append, or_and_right, exists_or]

theorem calls_opened {layout : Layout} {place child : Nat}
    {name connection path path' name' : String} :
    ((layout.modifyTable place (·.adopt name path child)).append
        (Table.start name connection (some path))).Calls path' name' ↔
      layout.Calls path' name' ∨ path = path' ∧ name = name' := by
  rw [calls_append, calls_modifyTable (fun _ => Table.repeatPath_adopt ..)
    (fun _ => name_adopt ..)]
  simp [Table.start, Table.name]

end Layout

theorem Table.fst_contribution (table : Table) (field : Field) :
    (table.contribution field).1 = field.columnsIn table.repeatPath := by
  obtain ⟨path, kind, choices, children⟩ := field
  have base : table.baseName ⟨path, kind, choices, children⟩ =
      Field.nameIn ⟨path, kind, choices, children⟩ table.repeatPath := by
    unfold baseName Field.nameIn
    cases table.repeatPath <;> rfl
  cases kind <;> simp [contribution, Field.columnsIn, base, Selection.columns, Selection.column,
    Field.choiceNames, Geopoint.columns, Geopoint.column, Geopoint.parts, FieldKind.isInteger]

/-- One more declaration behind others, with the layouts before and after it. -/
structure Declaration.Follows (declared : List Declaration) (last : Declaration)
    (layout next : Layout) : Prop where
  behind : ∀ e ∈ declared, e.address < last.address
  calls : ∀ e ∈ declared, e.field.kind = .repeatGroup → ∀ name,
    layout.Calls e.field.path name ↔ next.Calls e.field.path name

namespace Declaration.Follows

variable {declared kept kept' : List Declaration} {last : Declaration} {layout next : Layout}
  {inside : Option String} {name : String}

theorem not_mem (follows : last.Follows declared layout next) : last ∉ declared :=
  fun member => List.lt_irrefl _ (follows.behind last member)

theorem taken_before (follows : last.Follows declared layout next)
    (part : ∀ e ∈ declared, e ∈ kept ↔ e ∈ kept') :
    layout.Taken (· ∈ declared) kept inside name ↔
      next.Taken (fun e => e ∈ declared ++ [last] ∧ e.address < last.address) kept' inside name := by
  refine Layout.taken_congr (fun e _ => ?_) part follows.calls
  rw [List.mem_append, List.mem_singleton]
  constructor
  · exact fun member => ⟨.inl member, follows.behind e member⟩
  · rintro ⟨member | rfl, before⟩
    · exact member
    · exact absurd before (List.lt_irrefl _)

theorem taken_earlier (follows : last.Follows declared layout next)
    (part : ∀ e ∈ declared, e ∈ kept ↔ e ∈ kept') {earlier : Declaration}
    (member : earlier ∈ declared) :
    layout.Taken (fun e => e ∈ declared ∧ e.address < earlier.address) kept inside name ↔
      next.Taken (fun e => e ∈ declared ++ [last] ∧ e.address < earlier.address) kept' inside
        name := by
  refine Layout.taken_congr (fun e _ => ?_) (fun e known => part e known.1)
    fun e known => follows.calls e known.1
  rw [List.mem_append, List.mem_singleton]
  constructor
  · exact fun known => ⟨.inl known.1, known.2⟩
  · rintro ⟨known | rfl, before⟩
    · exact ⟨known, before⟩
    · exact absurd (List.lt_trans before (follows.behind _ member)) (List.lt_irrefl _)

theorem taken_snoc (follows : last.Follows declared layout next)
    (part : ∀ e ∈ declared, e ∈ kept ↔ e ∈ kept') :
    next.Taken (· ∈ declared ++ [last]) kept' inside name ↔
      layout.Taken (· ∈ declared) kept inside name ∨
      (last ∈ kept' ∧ name ∈ last.field.namesIn inside) ∨
      (last.inside = inside ∧ last.field.kind = .repeatGroup ∧
        (∀ other ∈ declared, other.field.kind = .repeatGroup →
          other.field.path ≠ last.field.path) ∧
        next.Calls last.field.path name) := by
  constructor
  · intro taken
    cases taken with
    | reserved link => exact .inl (.reserved link)
    | column known member asks =>
      rcases List.mem_append.1 known with known | new
      · exact .inl (.column known ((part _ known).2 member) asks)
      · obtain rfl := List.mem_singleton.1 new
        exact .inr (.inl ⟨member, asks⟩)
    | child known own kind first called =>
      rcases List.mem_append.1 known with known | new
      · refine .inl (.child known own kind (fun other known' => ?_)
          ((follows.calls _ known kind _).2 called))
        exact first other (List.mem_append_left _ known')
      · obtain rfl := List.mem_singleton.1 new
        refine .inr (.inr ⟨own, kind, fun other known' kind' same => ?_, called⟩)
        exact first other (List.mem_append_left _ known') kind' same (follows.behind other known')
  · rintro (taken | ⟨member, asks⟩ | ⟨own, kind, new, called⟩)
    · cases taken with
      | reserved link => exact .reserved link
      | column known member asks =>
        exact .column (List.mem_append_left _ known) ((part _ known).1 member) asks
      | child known own kind first called =>
        refine .child (List.mem_append_left _ known) own kind (fun other known' kind' same => ?_)
          ((follows.calls _ known kind _).1 called)
        rcases List.mem_append.1 known' with known' | last'
        · exact first other known' kind' same
        · obtain rfl := List.mem_singleton.1 last'
          exact fun before => List.lt_irrefl _ (List.lt_trans before (follows.behind _ known))
    · exact .column (List.mem_append_right _ List.mem_cons_self) member asks
    · refine .child (List.mem_append_right _ List.mem_cons_self) own kind
        (fun other known kind' same => ?_) called
      rcases List.mem_append.1 known with known | last'
      · exact absurd same (new other known kind')
      · obtain rfl := List.mem_singleton.1 last'
        exact List.lt_irrefl _

end Declaration.Follows

end SurveyTables
