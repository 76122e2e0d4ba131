import SurveyTables.Flatten
import SurveyTables.Form.Document
import SurveyTables.Proofs.Json.Reader

/-! Forms written down again. A form can be written in many ways, with synonyms of kinds, with
fields by their position, in any order or left out; it is written down in one. That text is read as
the same form, unless it nests deeper than a text may, which happens just beyond 62 levels of
fields: what may be left out is written, and takes a level of its own. -/
namespace SurveyTables

open Json (Reader Raw)

theorem FieldKind.ofName?_name (kind : FieldKind) : ofName? kind.name = some kind := by
  cases kind <;> decide

namespace Choice

theorem reader_toJson (choice : Choice) (room : Nat) :
    reader (room + 1) (.ofJson choice.toJson) = some choice := by
  rw [reader, toJson, Reader.record_object]
  · simp [Reader.required, Reader.optional, Keyed.get?_cons]
  · decide
  · rfl

theorem list_reader_toJson (choices : List Choice) {room : Nat} (deep : 2 ≤ room) :
    Reader.list reader room (.ofJson (.array (choices.map toJson))) = some choices := by
  obtain ⟨below, rfl⟩ : ∃ below, room = below + 2 := ⟨room - 2, by omega⟩
  rw [Reader.list_array, List.mapM_map]
  induction choices with
  | nil => rfl
  | cons choice choices ih => simp [reader_toJson, ih]

end Choice

namespace Field

mutual

def height : Field → Nat
  | ⟨_, _, _, children⟩ => listHeight children + 1

def listHeight : List Field → Nat
  | [] => 0
  | field :: fields => max (height field) (listHeight fields)

end

theorem listToJson_eq (fields : List Field) : listToJson fields = fields.map toJson := by
  induction fields with
  | nil => rfl
  | cons field fields ih => rw [listToJson, ih, List.map_cons]

/-- A field is read back if its choices and its children are. -/
theorem readerWith_toJson (inner : Reader (List Field)) (room : Nat) (field : Field) :
    readerWith inner (room + 1) (.ofJson field.toJson) = do
      let choices ← Reader.list Choice.reader room
        (.ofJson (.array (field.choices.map Choice.toJson)))
      let children ← inner room (.ofJson (.array (field.children.map toJson)))
      return { field with choices, children } := by
  obtain ⟨path, kind, choices, children⟩ := field
  rw [readerWith, toJson, listToJson_eq, Reader.record_object]
  · simp [Reader.required, Reader.optional, Keyed.get?_cons, FieldKind.reader,
      FieldKind.ofName?_name]
  · decide
  · rfl

/-! A field is written in an object, and its children in a list inside; the list of its choices
stands beside them and takes two more levels, one of them for its choices. -/

mutual

theorem readNested_toJson : ∀ (field : Field) (room : Nat), 2 * field.height < room →
    readNested room (.ofJson field.toJson) = some field
  | ⟨path, kind, choices, children⟩, room, deep => by
    rw [height] at deep
    obtain ⟨below, rfl⟩ : ∃ below, room = below + 2 := ⟨room - 2, by omega⟩
    have inside := mapM_readNested children below (by omega)
    have chosen := Choice.list_reader_toJson choices (show 2 ≤ below + 1 by omega)
    rw [readNested, readerWith_toJson]
    simp [chosen, Reader.list_array, List.mapM_map, inside, Function.comp_def]

theorem mapM_readNested : ∀ (fields : List Field) (room : Nat), 2 * listHeight fields < room →
    fields.mapM (fun field => readNested room (.ofJson field.toJson)) = some fields
  | [], _, _ => rfl
  | field :: fields, room, deep => by
    rw [listHeight] at deep
    have first := readNested_toJson field room (by omega)
    have others := mapM_readNested fields room (by omega)
    simp [first, others]

end

mutual

theorem readNested_eq_none : ∀ (field : Field) (room : Nat), room < 2 * field.height →
    readNested room (.ofJson field.toJson) = none
  | _, 0, _ => rfl
  | field, 1, _ => by
    have nothing : readNested 1 (.ofJson field.toJson) =
        readerWith (fun _ _ => none) 1 (.ofJson field.toJson) := rfl
    simp [nothing, readerWith_toJson]
  | ⟨path, kind, choices, children⟩, room + 2, deep => by
    rw [height] at deep
    have inside := mapM_readNested_eq_none children room (by omega)
    rw [readNested, readerWith_toJson]
    simp [Reader.list_array, List.mapM_map, inside, Function.comp_def]

theorem mapM_readNested_eq_none : ∀ (fields : List Field) (room : Nat),
    room < 2 * listHeight fields →
      fields.mapM (fun field => readNested room (.ofJson field.toJson)) = none
  | [], _, deep => absurd deep (Nat.not_lt_zero _)
  | field :: fields, room, deep => by
    rw [listHeight] at deep
    by_cases first : room < 2 * field.height
    · simp [readNested_eq_none field room first]
    · have others := mapM_readNested_eq_none fields room (by omega)
      simp [others]

end

end Field

namespace Form

def height (form : Form) : Nat := Field.listHeight form.fields

theorem fits_of_read? {s : String} {form : Form} (read : read? s = some form) :
    Text.FitsInt64 form.projectId := by
  obtain ⟨raw, -, read⟩ := Option.bind_eq_some_iff.1 read
  simp only [reader, Reader.record, Json.nestingLimit, bind, Option.bind_eq_some_iff] at read
  obtain ⟨found, -, idString, -, projectId, given, title, -, fields, -, ⟨⟩⟩ := read
  obtain ⟨raw, -, number⟩ := Option.bind_eq_some_iff.1 given
  exact Reader.fits_of_int64 number

theorem read?_text {form : Form} (fits : Text.FitsInt64 form.projectId) :
    read? form.text = do
      let fields ← form.fields.mapM fun field => Field.readNested 125 (.ofJson field.toJson)
      return { form with fields } := by
  rw [read?, Reader.text?, text, Json.parse?_compact, Option.bind_some, Json.nestingLimit, toJson,
    Field.listToJson_eq, reader, Reader.record_object]
  · simp [Reader.required, Reader.optional, Keyed.get?_cons, Reader.int64_ofInt fits,
      Reader.list_array, List.mapM_map, Field.reader, Function.comp_def]
  · decide
  · rfl

/-- What is written down when a form is read, and what is read from that. -/
structure WritesBack (form : Form) : Prop where
  reads : read? form.text = some form
  layout : ∀ again, read? form.text = some again → Layout.infer again = Layout.infer form
  flatten : ∀ again, read? form.text = some again → ∀ baseUrl submission,
    (Exporter.ofForm again baseUrl).flatten submission =
      (Exporter.ofForm form baseUrl).flatten submission
  text : ∀ again, read? form.text = some again → again.text = form.text

theorem writesBack_of_reads {form : Form} (reads : read? form.text = some form) :
    WritesBack form where
  reads := reads
  layout again read := by
    obtain rfl := Option.some.inj (reads.symm.trans read)
    rfl
  flatten again read baseUrl submission := by
    obtain rfl := Option.some.inj (reads.symm.trans read)
    rfl
  text again read := by
    obtain rfl := Option.some.inj (reads.symm.trans read)
    rfl

/-- A form that was read from any text is read from its own text, just if its fields nest on at
most 62 levels; with more, its text nests too deep to be read at all. -/
theorem writesBack_of_read? {s : String} {form : Form} (read : read? s = some form) :
    (form.height ≤ 62 → WritesBack form) ∧ (62 < form.height → read? form.text = none) := by
  have written := read?_text (fits_of_read? read)
  constructor
  · intro shallow
    apply writesBack_of_reads
    rw [height] at shallow
    have fields := Field.mapM_readNested form.fields 125 (by omega)
    simp [written, fields]
  · intro deep
    rw [height] at deep
    have fields := Field.mapM_readNested_eq_none form.fields 125 (by omega)
    simp [written, fields]

/-- Records by position and by name in one text, an unknown member, and kinds in other words. -/
def shorthand : String :=
  "[\"f\",-3,\"\",[\x7b\"x\":0,\"type\":\"repeat\",\"path\":\"v\",\"children\":" ++
    "[[\"n\",\x7b\"int\":null\x7d]]\x7d,[\"q\",\"select1\",[[\"a\"]]]]]"

def visits : Form where
  idString := "f"
  projectId := -3
  title := ""
  fields := [
    ⟨"v", .repeatGroup, [], [⟨"n", .integer, [], []⟩]⟩,
    ⟨"q", .selectOne, [⟨"a", ""⟩], []⟩]

theorem writesBack_visits :
    read? shorthand = some visits ∧ visits.height ≤ 62 ∧ WritesBack visits := by
  have read : read? shorthand = some visits := rfl
  have shallow : visits.height ≤ 62 := by decide
  exact ⟨read, shallow, (writesBack_of_read? read).1 shallow⟩

end Form

end SurveyTables
