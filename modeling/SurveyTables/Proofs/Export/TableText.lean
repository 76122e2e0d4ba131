import SurveyTables.Proofs.Export.CsvText
import SurveyTables.Proofs.Export.ReadBack
import SurveyTables.Proofs.Linkage.Roots

/-! An exported table, read back: one record for each row of the table, in the order in which the
exported array has these rows. -/
namespace SurveyTables

namespace Json.Raw

mutual

/-- The objects of a tree, each before those inside it, with the names under which they stand. An
array stands under its own name, its items under that of the array. -/
def objects (name : Literal) : Raw → List (Literal × Raw)
  | .array items => itemObjects name items
  | .object members => (name, .object members) :: memberObjects members
  | _ => []

def itemObjects (name : Literal) : List Raw → List (Literal × Raw)
  | [] => []
  | item :: items => objects name item ++ itemObjects name items

def memberObjects : List (Literal × Raw) → List (Literal × Raw)
  | [] => []
  | (name, value) :: members => objects name value ++ memberObjects members

end

theorem itemObjects_eq (name : Literal) (items : List Raw) :
    itemObjects name items = items.flatMap (objects name) := by
  induction items with
  | nil => rfl
  | cons item items ih => rw [itemObjects, ih, List.flatMap_cons]

theorem memberObjects_eq (members : List (Literal × Raw)) :
    memberObjects members = members.flatMap fun member => objects member.1 member.2 := by
  induction members with
  | nil => rfl
  | cons member members ih => rw [memberObjects, ih, List.flatMap_cons]

end Json.Raw

namespace Row

open Json (Raw Literal)

/-- A row as it stands in the text, under the name of its table. -/
def written (row : Row) : Literal × Raw := (.ofText row.table, .ofJson row.toJson)

theorem objects_cell (name : Literal) (cell : Cell) :
    Raw.objects name (.ofJson cell.toJson) = [] := by
  cases cell <;> rfl

theorem objects_linkMembers (id : Nat) (parent : Option ParentLink) :
    ((linkMembers id parent).flatMap fun member =>
      Raw.objects (.ofText member.1) (.ofJson member.2)) = [] := by
  cases parent <;> simp only [linkMembers, idJson_eq] <;> rfl

theorem objects_columns (columns : Keyed Cell) :
    ((columns.map fun entry => (entry.1, entry.2.toJson)).flatMap fun member =>
      Raw.objects (.ofText member.1) (.ofJson member.2)) = [] := by
  rw [List.flatMap_map, List.flatMap_eq_nil_iff]
  exact fun entry _ => objects_cell _ entry.2

/-- The text of a row has the rows below it as its objects, in depth-first order. -/
theorem objects_toJson (row : Row) :
    Raw.objects (.ofText row.table) (.ofJson row.toJson) = row.withDescendants.map written := by
  induction row using induction with
  | step row ih =>
    have below : ∀ table, Raw.objects (.ofText table)
        (.ofJson (.array ((row.childrenIn table).map toJson))) =
          ((row.childrenIn table).flatMap withDescendants).map written := by
      intro table
      rw [Raw.ofJson, Raw.objects, Raw.itemObjects_eq, Json.ofItems_eq, List.map_map,
        List.flatMap_map, List.map_flatMap]
      refine List.flatMap_congr fun child member => ?_
      obtain ⟨isChild, rfl⟩ := mem_childrenIn.1 member
      exact ih child isChild
    have inside : (row.members.flatMap fun member =>
        Raw.objects (.ofText member.1) (.ofJson member.2)) =
          (row.childRows.flatMap withDescendants).map written := by
      rw [members, List.flatMap_append, List.flatMap_append, objects_linkMembers,
        objects_columns, List.flatMap_map, childRows, List.flatMap_assoc, List.map_flatMap]
      exact List.flatMap_congr fun table _ => below table
    rw [withDescendants_eq, List.map_cons, ← inside, written, toJson_eq, Raw.ofJson,
      Raw.objects, Raw.memberObjects_eq, Json.ofMembers_eq, List.flatMap_map]

/-- The text of a cell in a table: nothing for a missing value, a text as it is, a number in
decimal digits. -/
inductive PrintsAs (row : Row) (column : String) : String → Prop
  | null (value : row.get? column = some .null) : PrintsAs row column ""
  | int {n : Int} (value : row.get? column = some (.int n)) :
      PrintsAs row column (Text.intNumeral n)
  | text {s : String} (value : row.get? column = some (.text s)) : PrintsAs row column s

theorem printsAs_cellsOf {row : Row} {columns : List String}
    (present : ∀ column ∈ columns, (row.get? column).isSome) :
    List.Forall₂ row.PrintsAs columns (Csv.cellsOf columns row) := by
  rw [Csv.cellsOf, List.forall₂_map_right_iff, List.forall₂_same]
  intro column member
  obtain ⟨cell, value⟩ := Option.isSome_iff_exists.1 (present column member)
  rw [value]
  cases cell with
  | null => exact .null value
  | int n => exact .int value
  | text s => exact .text value

end Row

namespace Csv

theorem flatMap_recordsOf (schema : TableSchema) (roots : List Row) :
    roots.flatMap (recordsOf schema) =
      (((Exporter.rowsOf roots).filter (·.table = schema.name)).map
        (cellsOf schema.columnIds)).map record := by
  rw [Exporter.rowsOf, List.filter_flatMap, List.map_flatMap, List.map_flatMap]
  refine List.flatMap_congr fun root _ => ?_
  rw [recordsOf, Row.rowsInTable, List.map_map]
  rfl

theorem read?_table {columns : List String} (fielded : columns ≠ []) (rows : List Row) :
    read? (record columns ++ String.join ((rows.map (cellsOf columns)).map record)) =
      some (columns :: rows.map (cellsOf columns)) := by
  rw [← String.join_cons, ← List.map_cons]
  refine read?_records ?_
  simpa [cellsOf] using ⟨fielded, fun _ _ => fielded⟩

end Csv

namespace Exporter

variable {form : Form} {baseUrl : String} {submissions : List Submission} {roots : List Row}

theorem exists_builtFrom_of_mem_rowsOf
    (ok : submissions.mapM (ofForm form baseUrl).flatten = .ok roots) {row : Row}
    (member : row ∈ rowsOf roots) :
    ∃ submission table answers,
      BuiltFrom (ofForm form baseUrl) submission row table answers := by
  obtain ⟨root, isRoot, below⟩ := List.mem_flatMap.1 member
  obtain ⟨submission, -, made⟩ :=
    Sequence.exists_of_mem_right (Except.forall₂_of_mapM_eq_ok ok) isRoot
  exact ⟨submission, (BuiltFrom.of_flatten made).exists_of_mem_withDescendants below⟩

/-- The objects of an exported array are its rows, in depth-first order. -/
theorem objects_of_mapM (ok : submissions.mapM (ofForm form baseUrl).flatten = .ok roots) :
    Json.Raw.objects (.ofText (Layout.infer form).root.name)
      (.ofJson (.array (roots.map Row.toJson))) = (rowsOf roots).map Row.written := by
  rw [Json.Raw.ofJson, Json.Raw.objects, Json.Raw.itemObjects_eq, Json.ofItems_eq, List.map_map,
    List.flatMap_map, rowsOf, List.map_flatMap]
  refine List.flatMap_congr fun root member => ?_
  obtain ⟨submission, -, made⟩ :=
    Sequence.exists_of_mem_right (Except.forall₂_of_mapM_eq_ok ok) member
  have named : root.table = (Layout.infer form).root.name := (BuiltFrom.of_flatten made).table_eq
  rw [← named]
  exact root.objects_toJson

/-- Every table of an export reads back, whatever the form declares: its columns, then a record
for each of its rows. The rows come in the order of the exported array, in which they are the
objects that stand under the table's name. -/
theorem records_of_mapM (form : Form) (baseUrl : String) (submissions : List Submission)
    (roots : List Row) (ok : submissions.mapM (ofForm form baseUrl).flatten = .ok roots)
    (name : String) (listed : name ∈ (Layout.infer form).names) :
    ∃ schema tree records,
      (Layout.infer form).schema? name = some schema ∧
      Json.Raw.parse? (JsonArray.write ((ofForm form baseUrl).rows (.ofList submissions))).text =
        some tree ∧
      tree.objects (.ofText (Layout.infer form).root.name) = (rowsOf roots).map Row.written ∧
      (Csv.write schema ((ofForm form baseUrl).rows (.ofList submissions))).outcome =
        .ok records.length ∧
      Csv.read? (Csv.write schema ((ofForm form baseUrl).rows (.ofList submissions))).text =
        some (schema.columnIds :: records) ∧
      List.Forall₂ (fun row record => List.Forall₂ row.PrintsAs schema.columnIds record)
        ((rowsOf roots).filter (·.table = name)) records := by
  obtain ⟨table, member, rfl⟩ := List.mem_map.1 listed
  have found := (Layout.namesApart_infer form).schema?_eq_some member
  have whole := results_rows ok
  have columns : table.schema.columnIds ≠ [] := by
    rw [TableSchema.columnIds, (Layout.wellNamed_infer form table member).columns]
    cases table.repeatPath <;> simp [Table.linkageOf]
  have rows := Csv.flatMap_recordsOf table.schema roots
  have written := Csv.write_of_ok whole table.schema
  rw [rows] at written
  refine ⟨table.schema, .ofJson (.array (roots.map Row.toJson)),
    ((rowsOf roots).filter (·.table = table.name)).map (Csv.cellsOf table.schema.columnIds),
    found, ?parsed, objects_of_mapM ok, ?counted, ?read, ?cells⟩
  case parsed =>
    rw [JsonArray.write_of_ok whole]
    exact JsonArray.parse?_closed roots
  case counted =>
    rw [written, List.length_map]
    rfl
  case read =>
    rw [written]
    exact Csv.read?_table columns _
  case cells =>
    rw [List.forall₂_map_right_iff, List.forall₂_same]
    intro row inTable
    obtain ⟨inExport, same⟩ := List.mem_filter.1 inTable
    obtain ⟨submission, other, answers, built⟩ := exists_builtFrom_of_mem_rowsOf ok inExport
    have named : other.name = table.name := by
      rw [← built.table_eq]
      simpa using same
    obtain rfl := (Layout.namesApart_infer form).eq_of_name built.mem_tables member named
    refine Row.printsAs_cellsOf ?_
    simp only [TableSchema.columnIds, List.forall_mem_map]
    exact fun column => built.present

/-- Names and answers that need quotation marks, in rows that lie two tables deep. -/
def shop : Form where
  idString := "shop"
  projectId := 1
  title := "Shop"
  fields := [⟨"name, \"full\"", .text, [], []⟩,
    ⟨"sale", .repeatGroup, [], [⟨"sale/goods", .repeatGroup, [],
      [⟨"sale/goods/price\n", .integer, [], []⟩, ⟨"sale/goods/label", .text, [], []⟩]⟩]⟩]

def shopSubmissions : List Submission :=
  [⟨[("_id", .ofNat 1), ("sale", .array [.object [("sale/goods", .array [
      .object [("sale/goods/price\n", .string "-3"), ("sale/goods/label", .string "a, \"b\"\r\n")],
      .object [("sale/goods/label", .string "")]])]])]⟩,
    ⟨[("_id", .ofNat 2), ("name, \"full\"", .string "x"),
      ("sale", .array [.object [("sale/goods", .array [.object []])]])]⟩]

def shopRows : List Row :=
  [⟨"data", 1, none, [("name, \"full\"", .null)], ["sale"],
      [⟨"sale", 4, some ⟨1, "data"⟩, [], ["goods"],
        [⟨"goods", 16, some ⟨4, "sale"⟩, [("price\n", .int (-3)), ("label", .text "a, \"b\"\r\n")],
            [], []⟩,
          ⟨"goods", 23, some ⟨4, "sale"⟩, [("price\n", .null), ("label", .text "")], [], []⟩]⟩]⟩,
    ⟨"data", 2, none, [("name, \"full\"", .text "x")], ["sale"],
      [⟨"sale", 7, some ⟨2, "data"⟩, [], ["goods"],
        [⟨"goods", 37, some ⟨7, "sale"⟩, [("price\n", .null), ("label", .null)], [], []⟩]⟩]⟩]

theorem records_shop :
    shopSubmissions.mapM (ofForm shop "").flatten = .ok shopRows ∧
      "goods" ∈ (Layout.infer shop).names ∧
      ∃ schema tree records,
        (Layout.infer shop).schema? "goods" = some schema ∧
        Json.Raw.parse? (JsonArray.write ((ofForm shop "").rows (.ofList shopSubmissions))).text =
          some tree ∧
        tree.objects (.ofText (Layout.infer shop).root.name) =
          (rowsOf shopRows).map Row.written ∧
        (Csv.write schema ((ofForm shop "").rows (.ofList shopSubmissions))).outcome =
          .ok records.length ∧
        Csv.read? (Csv.write schema ((ofForm shop "").rows (.ofList shopSubmissions))).text =
          some (schema.columnIds :: records) ∧
        List.Forall₂ (fun row record => List.Forall₂ row.PrintsAs schema.columnIds record)
          ((rowsOf shopRows).filter (·.table = "goods")) records := by
  have ok : shopSubmissions.mapM (ofForm shop "").flatten = .ok shopRows := by
    rw [← flattenTo_eq_flatten 3]
    decide +kernel
  have listed : "goods" ∈ (Layout.infer shop).names := by decide +kernel
  exact ⟨ok, listed, records_of_mapM shop "" shopSubmissions shopRows ok "goods" listed⟩

end Exporter

end SurveyTables
