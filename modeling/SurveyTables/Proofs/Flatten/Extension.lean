import SurveyTables.Proofs.Flatten.Agreement
import SurveyTables.Proofs.Flatten.Faults
import SurveyTables.Proofs.Layout.Extension
import SurveyTables.Proofs.Row.Position

/-! Exports of forms that get further fields. A layout that extends another one makes of the same
answers rows that extend those of the other: what a row's old repeat groups hold comes first, so
that the ordinals of the old rows, and with them their numbers, stay what they were. -/
namespace SurveyTables

/-- Two exports of one submission, the second by a layout that extends the layout of the first. -/
structure Origin.Extends (old new : Origin) : Prop where
  layout : old.exporter.layout.Extends new.exporter.layout
  named : ∀ table ∈ old.exporter.layout.tables, table.WellNamed
  named' : ∀ table ∈ new.exporter.layout.tables, table.WellNamed
  resolved : ∀ table ∈ old.exporter.layout.tables, ∀ path place, (path, place) ∈ table.repeats →
    ∃ child, old.exporter.layout.table? place = some child
  baseUrl : new.exporter.baseUrl = old.exporter.baseUrl
  attachments : new.attachments = old.attachments

theorem Origin.Extends.cells_eq {origin origin' : Origin} (extended : origin.Extends origin')
    (answers : Keyed Json) (binding : Binding) :
    binding.cells origin' answers = binding.cells origin answers := by
  cases binding <;> simp only [Binding.cells, extended.baseUrl, extended.attachments]

namespace Table

variable {old new : Table}

theorem Extends.name_eq (extended : old.Extends new) : new.name = old.name := extended.schema.name

theorem Extends.mem_repeats (extended : old.Extends new) {path : String} {place : Nat}
    (bound : (path, place) ∈ old.repeats) : (path, place) ∈ new.repeats :=
  Table.mem_repeats.2 (extended.bindings.subset (Table.mem_repeats.1 bound))

theorem Extends.exists_elements (extended : old.Extends new) (answers : Keyed Json) :
    ∃ more, new.elements answers = old.elements answers ++ more := by
  obtain ⟨later, bindings⟩ := extended.bindings
  exact ⟨_, by rw [elements, ← bindings, List.flatMap_append]; rfl⟩

theorem Extends.cells_prefix {origin origin' : Origin} (extended : old.Extends new)
    (exports : origin.Extends origin') (member : old ∈ origin.exporter.layout.tables)
    (member' : new ∈ origin'.exporter.layout.tables) (answers : Keyed Json) :
    old.cells origin answers <+: new.cells origin' answers := by
  obtain ⟨later, bindings⟩ := extended.bindings
  have same : old.bindings.flatMap (·.cells origin' answers) =
      old.bindings.flatMap (·.cells origin answers) :=
    List.flatMap_congr fun binding _ => exports.cells_eq answers binding
  rw [(exports.named old member).cells_eq, (exports.named' new member').cells_eq, ← bindings,
    List.flatMap_append, same]
  exact List.prefix_append ..

end Table

theorem Layout.Extends.childNames_subset {layout layout' : Layout}
    (extended : layout.Extends layout') {old new : Table} (longer : old.Extends new) :
    layout.childNames old ⊆ layout'.childNames new := by
  intro name listed
  obtain ⟨path, place, child, bound, found, rfl⟩ := mem_childNames.1 listed
  obtain ⟨child', found', same⟩ := extended place child found
  exact mem_childNames.2
    ⟨path, place, child', longer.mem_repeats bound, found', same.name_eq⟩

namespace Flatten

variable {origin origin' : Origin}

/-- Whatever row a new table makes of answers, the old one makes a row of them that it extends. -/
def Lengthens (origin origin' : Origin) (old new : Table) (answers : Keyed Json) : Prop :=
  ∀ id parent row', row origin' new answers id parent = .ok row' →
    ∃ made, row origin old answers id parent = .ok made ∧ made.Extends row'

/-- The rows of elements and of further ones behind them, if the objects among the elements make
rows that extend others. -/
theorem exists_childRows {parent : ParentLink} {ordinal : Nat} {elements more : List Element}
    {rows' : List Row}
    (each : ∀ path place members, .item path place (.object members) ∈ elements →
      ∃ child child', origin.exporter.layout.table? place = some child ∧
        origin'.exporter.layout.table? place = some child' ∧
        Lengthens origin origin' child child' members)
    (ok : childRows origin' parent ordinal (elements ++ more) = .ok rows') :
    ∃ rows front back, childRows origin parent ordinal elements = .ok rows ∧
      rows' = front ++ back ∧ List.Forall₂ Row.Extends rows front := by
  induction elements generalizing ordinal rows' with
  | nil => exact ⟨[], [], rows', by rw [childRows], rfl, .nil⟩
  | cons element rest ih =>
    have resolved : ∀ path place members, element = .item path place (.object members) →
        ∃ child', origin'.exporter.layout.table? place = some child' := by
      rintro path place members rfl
      obtain ⟨_, child', -, found', -⟩ := each path place members List.mem_cons_self
      exact ⟨child', found'⟩
    obtain ⟨first', later', makes, calls', rfl⟩ := exists_makes_of_childRows_cons resolved ok
    obtain ⟨later, front, back, calls, rfl, related⟩ :=
      ih (fun path place members listed =>
        each path place members (List.mem_cons_of_mem _ listed)) calls'
    cases makes with
    | @item path place _ members table _ known call' =>
      obtain ⟨child, child', found, found', below⟩ := each path place members List.mem_cons_self
      obtain rfl := Option.some.inj (found'.symm.trans known)
      obtain ⟨first, call, extended⟩ := below _ _ _ call'
      exact ⟨first :: later, first' :: front, back, childRows_cons_of_makes (.item found call) calls,
        rfl, .cons extended related⟩

theorem exists_row (exports : origin.Extends origin') (table : Table) (answers : Keyed Json) :
    table ∈ origin.exporter.layout.tables → ∀ table' ∈ origin'.exporter.layout.tables,
      table.Extends table' → Lengthens origin origin' table table' answers := by
  refine answers_induction (fun table answers ih => ?_) table answers
  intro member table' member' extended id parent row' call'
  obtain ⟨children', calls', rfl⟩ := row_ok_iff.1 call'
  obtain ⟨more, elements⟩ := extended.exists_elements answers
  rw [elements, extended.name_eq] at calls'
  have each : ∀ path place members, .item path place (.object members) ∈ table.elements answers →
      ∃ child child', origin.exporter.layout.table? place = some child ∧
        origin'.exporter.layout.table? place = some child' ∧
        Lengthens origin origin' child child' members := by
    intro path place members listed
    obtain ⟨bound, -⟩ := Table.mem_elements.1 listed
    obtain ⟨child, found⟩ := exports.resolved table member path place bound
    obtain ⟨child', found', longer⟩ := exports.layout place child found
    exact ⟨child, child', found, found', ih path place members child listed
      (Layout.mem_tables_of_table? found) child' (Layout.mem_tables_of_table? found') longer⟩
  obtain ⟨children, front, back, calls, rfl, below⟩ := exists_childRows each calls'
  refine ⟨_, row_ok_iff.2 ⟨children, calls, rfl⟩, ?_⟩
  exact .mk extended.name_eq rfl rfl (extended.cells_prefix exports member member' answers)
    (exports.layout.childNames_subset extended) rfl below

end Flatten

/-- A row that is as it was in every column that its table had. -/
structure Row.Persists (schema : TableSchema) (old new : Row) : Prop where
  table : new.table = old.table
  id : new.id = old.id
  parent : new.parent = old.parent
  values : ∀ column ∈ schema.columnIds, ∃ cell,
    old.get? column = some cell ∧ new.get? column = some cell

/-- A cell that is found is found in a row that extends the row. -/
theorem Row.Extends.get?_eq_some {old new : Row} (extended : old.Extends new) {column : String}
    {cell : Cell} (found : old.get? column = some cell) : new.get? column = some cell := by
  obtain ⟨-, id, parent, ⟨more, columns⟩⟩ := extended
  have same : old.columns.get? column = some cell → new.columns.get? column = some cell := by
    intro found
    rw [← columns, Keyed.get?, List.lookup_append, ← Keyed.get?, found]
    rfl
  rw [get?, id, parent]
  rw [get?] at found
  split_ifs at found ⊢ <;> first | exact found | exact same found

namespace Exporter

theorem extends_origin (form : Form) (fields : List Field) (baseUrl : String)
    (submission : Submission) : ((ofForm form baseUrl).origin submission).Extends
      ((ofForm (form.extend fields) baseUrl).origin submission) where
  layout := Layout.extends_infer form fields
  named := Layout.wellNamed_infer form
  named' := Layout.wellNamed_infer (form.extend fields)
  resolved table member path place bound := by
    obtain ⟨child, found, -⟩ := Layout.exists_table_of_mem_repeats form member bound
    exact ⟨child, found⟩
  baseUrl := rfl
  attachments := rfl

theorem exists_extends_of_flatten {form : Form} {fields : List Field} {baseUrl : String}
    {submission : Submission} {root' : Row}
    (ok : (ofForm (form.extend fields) baseUrl).flatten submission = .ok root') :
    ∃ root, (ofForm form baseUrl).flatten submission = .ok root ∧ root.Extends root' := by
  obtain ⟨id, numbered, call'⟩ := flatten_ok_iff.1 ok
  obtain ⟨table', found', extended⟩ := Layout.extends_infer form fields 0 _ rfl
  cases found'
  obtain ⟨root, call, longer⟩ := Flatten.exists_row (extends_origin form fields baseUrl submission)
    _ submission.answers (Layout.root_mem_tables _) _ (Layout.root_mem_tables _) extended id none
    root' call'
  exact ⟨root, flatten_ok_iff.2 ⟨id, numbered, call⟩, longer⟩

/-- What a client sees of a form that gets further fields: the tables that it knows, with more
columns behind theirs, and each row that it knows at its place, as it was. -/
structure Stable (form : Form) (fields : List Field) (baseUrl : String) : Prop where
  schemas : ∀ (place : Nat) (schema : TableSchema),
    (Layout.infer form).schemas[place]? = some schema →
    ∃ schema', (Layout.infer (form.extend fields)).schemas[place]? = some schema' ∧
      schema.Extends schema'
  rows : ∀ submission root', (ofForm (form.extend fields) baseUrl).flatten submission = .ok root' →
    ∃ root, (ofForm form baseUrl).flatten submission = .ok root ∧
      (∀ row ∈ root.withDescendants, ∃ position, root.at? position = some row) ∧
      ∀ position row, root.at? position = some row → ∃ schema row',
        (Layout.infer form).schema? row.table = some schema ∧
        root'.at? position = some row' ∧ row.Persists schema row'

theorem stable_of_extend (form : Form) (fields : List Field) (baseUrl : String) :
    Stable form fields baseUrl where
  schemas place schema found := by
    rw [Layout.schemas, List.getElem?_map] at found
    obtain ⟨table, there, rfl⟩ := Option.map_eq_some_iff.1 found
    obtain ⟨table', there', extended⟩ := Layout.extends_infer form fields place table there
    refine ⟨table'.schema, ?_, extended.schema⟩
    rw [Layout.schemas, List.getElem?_map]
    exact Option.map_eq_some_iff.2 ⟨table', there', rfl⟩
  rows submission root' ok := by
    obtain ⟨root, made, extended⟩ := exists_extends_of_flatten ok
    refine ⟨root, made, fun row => Row.mem_withDescendants_iff_at?.1, ?_⟩
    intro position row leads
    have member := Row.mem_withDescendants_iff_at?.2 ⟨position, leads⟩
    obtain ⟨table, answers, built⟩ :=
      (BuiltFrom.of_flatten made).exists_of_mem_withDescendants member
    obtain ⟨row', leads', extended⟩ := extended.exists_at? leads
    have known := (Layout.namesApart_infer form).schema?_eq_some built.mem_tables
    refine ⟨table.schema, row', built.table_eq ▸ known, leads', ?_⟩
    refine ⟨extended.table_eq, extended.id_eq, extended.parent_eq, ?_⟩
    intro name listed
    obtain ⟨column, inTable, rfl⟩ := List.mem_map.1 listed
    obtain ⟨cell, found⟩ := Option.isSome_iff_exists.1 (built.present inTable)
    exact ⟨cell, found, extended.get?_eq_some found⟩

/-- A household with the names of its children. -/
def clan : Form where
  idString := "clan"
  projectId := 1
  title := "Clan"
  fields := [⟨"head", .text, [], []⟩,
    ⟨"kid", .repeatGroup, [], [⟨"kid/name", .text, [], []⟩]⟩]

/-- Of the children, asked for a second time, also the ages, and where the household lives. -/
def clanMore : List Field :=
  [⟨"kid", .repeatGroup, [], [⟨"kid/age", .text, [], []⟩]⟩, ⟨"village", .text, [], []⟩]

def clanAnswers : Submission :=
  ⟨[("_id", .ofNat 3), ("village", .string "Ngara"), ("kid", .array [.object
    [("kid/age", .ofNat 4), ("kid/name", .string "Amina")]])]⟩

def clanKid (id : Nat) (more : Keyed Cell) : Row :=
  ⟨"kid", id, some ⟨3, "data"⟩, ("name", .text "Amina") :: more, [], []⟩

def clanRow : Row := ⟨"data", 3, none, [("head", .null)], ["kid"], [clanKid 11 []]⟩

/-- The child stands there twice, the second time under an ordinal that was not in use. -/
def clanMoreRow : Row :=
  ⟨"data", 3, none, [("head", .null), ("village", .text "Ngara")], ["kid"],
    [clanKid 11 [("age", .text "4")], clanKid 17 [("age", .text "4")]]⟩

theorem stable_clan : (ofForm (clan.extend clanMore) "").flatten clanAnswers = .ok clanMoreRow ∧
    (ofForm clan "").flatten clanAnswers = .ok clanRow ∧
    ∃ schema row', (Layout.infer clan).schema? "kid" = some schema ∧
      clanMoreRow.at? [("kid", 0)] = some row' ∧ (clanKid 11 []).Persists schema row' := by
  have made' : (ofForm (clan.extend clanMore) "").flatten clanAnswers = .ok clanMoreRow := by
    rw [← flattenTo_eq_flatten 2]
    decide +kernel
  have made : (ofForm clan "").flatten clanAnswers = .ok clanRow := by
    rw [← flattenTo_eq_flatten 2]
    decide +kernel
  obtain ⟨root, same, -, each⟩ := (stable_of_extend clan clanMore "").rows clanAnswers _ made'
  obtain rfl : clanRow = root := Except.ok.inj (made.symm.trans same)
  exact ⟨made', made, each [("kid", 0)] (clanKid 11 []) rfl⟩

end Exporter

end SurveyTables
