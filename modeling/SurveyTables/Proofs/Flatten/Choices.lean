import SurveyTables.Proofs.Flatten.Cells
import SurveyTables.Proofs.Flatten.Refusals
import SurveyTables.Proofs.Text.Words

/-! The columns of select-multiple fields. Each declared choice has a column of its own, which
tells whether the choice was picked. In which of its two forms an answer was stored, and in which
order, how often and beside which undeclared ones the choices were picked, leaves no trace there,
and none at all if nothing else is read at the field's path. -/
namespace SurveyTables

namespace Selection

/-- An answer that holds picks: a text of which they are the words, or a list of which they are
the texts. -/
inductive Stores (picks : List String) : Option Json → Prop
  | text {s : String} (spaced : Text.Spaced picks s.toList) : Stores picks (some (.string s))
  | list {items : List Json} (texts : items.filterMap textOf? = picks) :
      Stores picks (some (.array items))

theorem Stores.exists_picks {picks : List String} {answer : Option Json}
    (stores : Stores picks answer) :
    ∃ stored, answer = some stored ∧ stored ≠ .null ∧ Selection.picks stored = picks := by
  cases stores with
  | text spaced => exact ⟨_, rfl, by simp, Text.words_of_spaced spaced⟩
  | list texts => exact ⟨_, rfl, by simp, texts⟩

/-- The cells of a field's choices, of which some were picked. -/
def cells (base : String) (choices picks : List String) : Keyed Cell :=
  choices.map fun choice =>
    (column "" base choice, .text (if choice ∈ picks then "TRUE" else "FALSE"))

/-- Only which of the declared choices were picked counts. -/
theorem cells_congr {base : String} {choices picks others : List String}
    (same : ∀ choice ∈ choices, choice ∈ picks ↔ choice ∈ others) :
    cells base choices picks = cells base choices others :=
  List.map_congr_left fun choice member => by simp only [same choice member]

theorem flags_congr {base : String} {choices picks others : List String}
    (same : ∀ choice ∈ choices, choice ∈ picks ↔ choice ∈ others) :
    flags "" base choices picks = flags "" base choices others :=
  congrArg Keyed.ofList
    (List.map_congr_left fun choice member => by simp only [flag, same choice member])

theorem keys_cells (base : String) (choices picks : List String) :
    (cells base choices picks).keys = columns "" base choices := by
  simp [cells, Keyed.keys, columns, Function.comp_def]

end Selection

namespace Binding

/-- Two objects of answers say the same of a field: they are equal at its path, or it is a
select-multiple field and among the picks in both are the same of its choices. -/
inductive SaysSame : Binding → Keyed Json → Keyed Json → Prop
  | equal {binding : Binding} {answers other : Keyed Json}
      (stored : answers.get? binding.path = other.get? binding.path) :
      SaysSame binding answers other
  | picks {path base : String} {choices picks others : List String} {answers other : Keyed Json}
      (stores : Selection.Stores picks (answers.get? path))
      (stores' : Selection.Stores others (other.get? path))
      (agree : ∀ choice ∈ choices, choice ∈ picks ↔ choice ∈ others) :
      SaysSame (selection path base choices) answers other

theorem cells_of_stores {origin : Origin} {answers : Keyed Json} {path base : String}
    {choices picks : List String} (stores : Selection.Stores picks (answers.get? path)) :
    (selection path base choices).cells origin answers =
      (Selection.flags "" base choices picks).map fun entry => (entry.1, .text entry.2) := by
  obtain ⟨stored, answered, nonNull, rfl⟩ := stores.exists_picks
  simp only [cells, answered]

theorem cells_selection {origin : Origin} {answers : Keyed Json} {path base : String}
    {choices picks : List String} (stores : Selection.Stores picks (answers.get? path))
    (distinct : (Selection.columns "" base choices).Nodup) :
    (selection path base choices).cells origin answers = Selection.cells base choices picks := by
  rw [cells_of_stores stores, Selection.flags_of_nodup distinct, List.map_map]
  rfl

theorem cells_of_saysSame {binding : Binding} {answers other : Keyed Json} (origin : Origin)
    (same : binding.SaysSame answers other) :
    binding.cells origin answers = binding.cells origin other := by
  cases same with
  | equal stored => exact cells_congr origin stored
  | picks stores stores' agree =>
    rw [cells_of_stores stores, cells_of_stores stores', Selection.flags_congr agree]

/-- Of a submission, its files and the base URL are shown in cells, but not its number; and its
files only in links. -/
theorem cells_origin {origin other : Origin} {binding : Binding}
    (exporter : origin.exporter = other.exporter)
    (files : (∃ path column, binding = media path column) →
      origin.attachments = other.attachments) (answers : Keyed Json) :
    binding.cells origin answers = binding.cells other answers := by
  cases binding with
  | media path column => simp only [cells, exporter, files ⟨path, column, rfl⟩]
  | _ => rfl

theorem cells_eq_of_saysSame {origin other : Origin} {binding : Binding}
    {answers answers' : Keyed Json} (exporter : origin.exporter = other.exporter)
    (files : (∃ path column, binding = media path column) →
      origin.attachments = other.attachments) (same : binding.SaysSame answers answers') :
    binding.cells origin answers = binding.cells other answers' :=
  (cells_of_saysSame origin same).trans (cells_origin exporter files answers')

end Binding

theorem Keyed.filter_of_sublist {α : Type} {entries part : Keyed α}
    (distinct : entries.keys.Nodup) (sublist : part.Sublist entries) :
    entries.filter (fun entry => entry.1 ∈ part.keys) = part := by
  refine Sequence.filter_eq_of_sublist sublist (distinct.of_map _) fun entry member => ?_
  rw [decide_eq_true_eq]
  constructor
  · intro named
    obtain ⟨other, inPart, same⟩ := List.mem_map.1 named
    obtain rfl := List.inj_on_of_nodup_map distinct (sublist.subset inPart) member same
    exact inPart
  · exact List.mem_map_of_mem

/-- The cells that a row has in some columns. -/
def Row.cellsIn (row : Row) (columns : List String) : Keyed Cell :=
  row.columns.filter fun cell => cell.1 ∈ columns

namespace Exporter

open Selection (Stores)

/-- What the rows of a table show of a select-multiple field, and what else of a submission depends
on the form in which the picks were stored. -/
structure ShowsPicks (exporter : Exporter) (table : Table) (field : Field) : Prop where
  /-- each declared choice has a column of its own -/
  columns : ∀ choice ∈ field.choiceNames,
    .named (Selection.column "" (table.baseName field) choice) .string ∈ table.schema.columns
  distinct : (Selection.columns "" (table.baseName field) field.choiceNames).Nodup
  /-- the column of a choice tells whether it was picked -/
  flag : ∀ submission row answers picks,
    BuiltFrom exporter submission row table answers → Stores picks (answers.get? field.path) →
    ∀ choice ∈ field.choiceNames,
      row.columns.get? (Selection.column "" (table.baseName field) choice) =
        some (.text (if choice ∈ picks then "TRUE" else "FALSE"))
  /-- in the field's columns there is one cell for each choice, in the order of the choices -/
  cells : ∀ submission row answers picks,
    BuiltFrom exporter submission row table answers → Stores picks (answers.get? field.path) →
    row.cellsIn (Selection.columns "" (table.baseName field) field.choiceNames) =
      Selection.cells (table.baseName field) field.choiceNames picks
  /-- rows for which the same declared choices were picked have the same cells there, however the
  picks were stored -/
  same : ∀ first second row other answers answers' picks picks',
    BuiltFrom exporter first row table answers → Stores picks (answers.get? field.path) →
    BuiltFrom exporter second other table answers' → Stores picks' (answers'.get? field.path) →
    (∀ choice ∈ field.choiceNames, choice ∈ picks ↔ choice ∈ picks') →
    row.cellsIn (Selection.columns "" (table.baseName field) field.choiceNames) =
      other.cellsIn (Selection.columns "" (table.baseName field) field.choiceNames)
  /-- the columns of a field of which the answers say the same have the same cells as well, unless
  they hold links to files and the submissions have other files -/
  beside : ∀ first second row other answers answers',
    BuiltFrom exporter first row table answers → BuiltFrom exporter second other table answers' →
    ∀ binding ∈ table.bindings, binding.SaysSame answers answers' →
      ((∃ path column, binding = .media path column) → first.attachments = second.attachments) →
      row.cellsIn (binding.columns.map Column.id) = other.cellsIn (binding.columns.map Column.id)
  /-- all columns are the same if the answers say the same of every field -/
  whole : ∀ first second row other answers answers',
    BuiltFrom exporter first row table answers → BuiltFrom exporter second other table answers' →
    first.attachments = second.attachments →
    (∀ binding ∈ table.bindings, binding.rows? = none → binding.SaysSame answers answers') →
    row.columns = other.columns
  /-- submissions have one result if they say the same of every field, at the root and in every
  element of a repeat group -/
  result : ∀ first second : Submission, first.instanceId? = second.instanceId? →
    first.attachments = second.attachments →
    exporter.layout.Agree Binding.SaysSame exporter.layout.root first.answers second.answers →
    exporter.flatten first = exporter.flatten second
  /-- where the form of the picks shows in some field, it still does not make a submission fail -/
  exported : ∀ first second : Submission, first.instanceId? = second.instanceId? →
    exporter.layout.SameGroups exporter.layout.root first.answers second.answers →
    Except.FailAlike (exporter.flatten first) (exporter.flatten second)

variable {form : Form} {baseUrl : String} {submission : Submission} {row : Row} {table : Table}
  {answers : Keyed Json}

/-- A row has, in the columns of a binding, the cells that the binding gives and no others. -/
theorem BuiltFrom.cellsIn_keys
    (built : BuiltFrom (ofForm form baseUrl) submission row table answers) {binding : Binding}
    (bound : binding ∈ table.bindings) {cells : Keyed Cell}
    (given : binding.cells ((ofForm form baseUrl).origin submission) answers = cells) :
    row.cellsIn cells.keys = cells := by
  have valid := Layout.wellNamed_infer form table built.mem_tables
  have distinct : row.columns.keys.Nodup := by
    rw [built.columns_eq, valid.keys_cells]
    exact valid.nodup_fieldNames
  have inside : cells.Sublist row.columns := by
    rw [built.columns_eq, valid.cells_eq, ← given, List.flatMap_def]
    exact List.sublist_flatten_of_mem (List.mem_map_of_mem bound)
  exact Keyed.filter_of_sublist distinct inside

theorem contribution_selectMultiple {field : Field} (kind : field.kind = .selectMultiple)
    (table : Table) : table.contribution field =
      ((Selection.columns "" (table.baseName field) field.choiceNames).map
          (Column.named · .string),
        .selection field.path (table.baseName field) field.choiceNames) := by
  rw [Table.contribution, kind]

theorem BuiltFrom.cellsIn_columns
    (built : BuiltFrom (ofForm form baseUrl) submission row table answers) {binding : Binding}
    (bound : binding ∈ table.bindings) :
    row.cellsIn (binding.columns.map Column.id) =
      binding.cells ((ofForm form baseUrl).origin submission) answers := by
  have valid := Layout.wellNamed_infer form table built.mem_tables
  have fits := binding.forall₂_cells ((ofForm form baseUrl).origin submission) answers
    (valid.nodup_columns bound)
  rw [← Column.map_fst_of_fits fits]
  exact built.cellsIn_keys bound rfl

/-- What a kept select-multiple field shows does not depend on how its picks were stored, nor does
what else is exported as long as it is not read at the same path. -/
theorem showsPicks_ofForm (form : Form) (baseUrl : String) {table : Table}
    (member : table ∈ (Layout.infer form).tables) {field : Field} (keeps : table.Keeps field)
    (kind : field.kind = .selectMultiple) : ShowsPicks (ofForm form baseUrl) table field := by
  have valid := Layout.wellNamed_infer form table member
  have contribution := contribution_selectMultiple kind table
  have bound := keeps.binding
  rw [contribution] at bound
  have distinct : (Selection.columns "" (table.baseName field) field.choiceNames).Nodup := by
    have names := valid.nodup_columns bound
    simpa [Binding.columns, Column.named, Function.comp_def] using names
  have given : ∀ {submission row answers picks},
      BuiltFrom (ofForm form baseUrl) submission row table answers →
      Stores picks (answers.get? field.path) →
      row.cellsIn (Selection.columns "" (table.baseName field) field.choiceNames) =
        Selection.cells (table.baseName field) field.choiceNames picks := by
    intro submission row answers picks built stores
    rw [← Selection.keys_cells (table.baseName field) field.choiceNames picks]
    exact built.cellsIn_keys bound (Binding.cells_selection stores distinct)
  refine { columns := ?columns, distinct, flag := ?flag, cells := fun _ _ _ _ => given,
           same := ?same, beside := ?beside, whole := ?whole, result := ?result,
           exported := ?exported }
  case columns =>
    intro choice declared
    apply keeps.columns
    rw [contribution]
    exact List.mem_map_of_mem (List.mem_map_of_mem declared)
  case flag =>
    intro submission row answers picks built stores choice declared
    rw [built.columns_eq]
    refine valid.get?_cells bound ?_
    rw [Binding.cells_selection stores distinct]
    exact List.mem_map_of_mem declared
  case same =>
    intro first second row other answers answers' picks picks' built stores built' stores' agree
    rw [given built stores, given built' stores', Selection.cells_congr agree]
  case beside =>
    intro first second row other answers answers' built built' binding bound same files
    rw [built.cellsIn_columns bound, built'.cellsIn_columns bound]
    exact Binding.cells_eq_of_saysSame rfl files same
  case whole =>
    intro first second row other answers answers' built built' files same
    rw [built.columns_eq, built'.columns_eq, valid.cells_eq, valid.cells_eq]
    refine List.flatMap_congr fun binding member => ?_
    cases rows : binding.rows? with
    | none => exact Binding.cells_eq_of_saysSame rfl (fun _ => files) (same binding member rows)
    | some => cases binding <;> first | rfl | contradiction
  case result =>
    intro first second numbers files agree
    exact flatten_congr numbers files (fun origin _ _ _ => Binding.cells_of_saysSame origin) agree
  case exported => exact fun first second => flatten_failAlike

def fruit : Field :=
  ⟨"fruit", .selectMultiple, [⟨"apple", ""⟩, ⟨"pear", ""⟩, ⟨"plum", ""⟩], []⟩

def basket : Form where
  idString := "basket"
  projectId := 2
  title := "Basket"
  fields := [⟨"day", .text, [], []⟩, fruit]

def basketAnswers (stored : Json) : Submission :=
  ⟨[("_id", .ofNat 6), ("fruit", stored), ("day", .string "Monday")]⟩

def basketText : Json := .string "\u3000pear\t kiwi\u00a0apple pear"

def basketList : Json := .array [.string "apple", .ofNat 7, .string "pear", .array [.string "plum"]]

def basketRow : Row :=
  ⟨"data", 6, none, [("day", .text "Monday"), ("fruit_apple", .text "TRUE"),
    ("fruit_pear", .text "TRUE"), ("fruit_plum", .text "FALSE")], [], []⟩

theorem stores_basketText : Stores ["pear", "kiwi", "apple", "pear"] (some basketText) := by
  have pear : Text.IsWord "pear" := by decide +kernel
  have kiwi : Text.IsWord "kiwi" := by decide +kernel
  have apple : Text.IsWord "apple" := by decide +kernel
  have wide : ∀ c ∈ ['\u3000'], Text.isBlank c = true :=
    List.forall_mem_singleton.2 (by decide +kernel)
  have space : ∀ c ∈ [' '], Text.isBlank c = true :=
    List.forall_mem_singleton.2 (by decide +kernel)
  have none : ∀ c ∈ [], Text.isBlank c = true := List.forall_mem_nil _
  exact .text (.cons wide pear (c := '\t') (by decide +kernel)
    (.cons space kiwi (c := '\u00a0') (by decide +kernel)
      (.cons none apple (c := ' ') (by decide +kernel) (.last none pear))))

theorem showsPicks_basket :
    (ofForm basket "").flatten (basketAnswers basketText) = .ok basketRow ∧
      (ofForm basket "").flatten (basketAnswers basketList) = .ok basketRow ∧
      Stores ["pear", "kiwi", "apple", "pear"] (some basketText) ∧
      Stores ["apple", "pear"] (some basketList) ∧
      ShowsPicks (ofForm basket "") (Layout.infer basket).root fruit := by
  have keeps : (Layout.infer basket).root.Keeps fruit := by decide +kernel
  have member := Layout.root_mem_tables (Layout.infer basket)
  refine ⟨?text, ?list, stores_basketText, .list rfl, showsPicks_ofForm basket "" member keeps rfl⟩
  all_goals
    rw [← flattenTo_eq_flatten 1]
    decide +kernel

/-- What a row shows of the same picks of a kept field, stored in two forms. -/
structure ToldApart (beside field : Field) (others : Keyed Json) (stored stored' : Json)
    (shown shown' : Except FlattenError (Keyed Cell)) : Prop where
  keeps : (Layout.infer ⟨"basket", 2, "Basket", [beside, field]⟩).root.Keeps field
  stores : ∃ picks, Stores picks (some stored) ∧ Stores picks (some stored')
  first : ((ofForm ⟨"basket", 2, "Basket", [beside, field]⟩ "").flatten
    ⟨(field.path, stored) :: others⟩).map Row.columns = shown
  second : ((ofForm ⟨"basket", 2, "Basket", [beside, field]⟩ "").flatten
    ⟨(field.path, stored') :: others⟩).map Row.columns = shown'
  apart : shown ≠ shown'

theorem ToldApart.of_flattenTo {beside field : Field} {others : Keyed Json} {stored stored' : Json}
    {shown shown' : Except FlattenError (Keyed Cell)}
    (keeps : (Layout.infer ⟨"basket", 2, "Basket", [beside, field]⟩).root.Keeps field)
    (stores : ∃ picks, Stores picks (some stored) ∧ Stores picks (some stored'))
    (first : ((ofForm ⟨"basket", 2, "Basket", [beside, field]⟩ "").flattenTo 1
      ⟨(field.path, stored) :: others⟩).map Row.columns = shown)
    (second : ((ofForm ⟨"basket", 2, "Basket", [beside, field]⟩ "").flattenTo 1
      ⟨(field.path, stored') :: others⟩).map Row.columns = shown')
    (apart : shown ≠ shown') : ToldApart beside field others stored stored' shown shown' := by
  rw [flattenTo_eq_flatten] at first second
  exact { keeps, stores, first, second, apart }

def fives (path : String) : Field := ⟨path, .selectMultiple, [⟨"5", ""⟩], []⟩

/-- A text field at the same path shows what was stored, files are named in a list alone, a list is
no number, and a text does not hold a repeat group. -/
theorem toldApart_fives :
    ToldApart ⟨"fruit", .text, [], []⟩ (fives "fruit") [("_id", .ofNat 1)] (.string "5")
        (.array [.string "5"]) (.ok [("fruit", .text "5"), ("fruit_5", .text "TRUE")])
        (.ok [("fruit", .text "[\"5\"]"), ("fruit_5", .text "TRUE")]) ∧
      ToldApart ⟨"photo", .photo, [], []⟩ (fives Submission.attachmentsKey)
        [("_id", .ofNat 1), ("photo", .string "a.jpg")] (.string "5")
        (.array [.string "5", .object [("filename", .string "a.jpg"),
          ("download_url", .string "/1")]])
        (.ok [("photo", .text "a.jpg"), ("_attachments_5", .text "TRUE")])
        (.ok [("photo", .text "/1"), ("_attachments_5", .text "TRUE")]) ∧
      ToldApart ⟨"hint", .note, [], []⟩ (fives Submission.idKey) [] (.string "5")
        (.array [.string "5"]) (.ok [("_id_5", .text "TRUE")]) (.error .missingInstanceId) ∧
      ToldApart ⟨"fruit", .repeatGroup, [], []⟩ (fives "fruit") [("_id", .ofNat 1)] (.string "")
        (.array []) (.error (.malformedRepeat 1 "fruit")) (.ok [("fruit_5", .text "FALSE")]) := by
  have five : Text.IsWord "5" := by decide +kernel
  have one : Stores ["5"] (some (.string "5")) := .text (.last (List.forall_mem_nil _) five)
  have none : Stores [] (some (.string "")) := .text (.nil (List.forall_mem_nil _))
  refine ⟨?text, ?files, ?number, ?group⟩
  case text =>
    exact .of_flattenTo (by decide +kernel) ⟨_, one, .list rfl⟩ (by decide +kernel)
      (by decide +kernel) (by decide)
  case files =>
    exact .of_flattenTo (by decide +kernel) ⟨_, one, .list rfl⟩ (by decide +kernel)
      (by decide +kernel) (by decide)
  case number =>
    exact .of_flattenTo (by decide +kernel) ⟨_, one, .list rfl⟩ (by decide +kernel)
      (by decide +kernel) (by decide)
  case group =>
    exact .of_flattenTo (by decide +kernel) ⟨_, none, .list rfl⟩ (by decide +kernel)
      (by decide +kernel) (by decide)

end Exporter

end SurveyTables
