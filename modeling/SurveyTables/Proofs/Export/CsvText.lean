import SurveyTables.Export.Csv
import SurveyTables.Proofs.Sequence

/-! A reader of comma-separated values, and the text that tables are written as. Fields end at a
comma or a line feed, records at a line feed. A field that begins with a quotation mark ends at
one, and may hold any characters, quotation marks doubled; in other fields no quotation mark and
no carriage return may stand. Lines without any character are no records. -/
namespace SurveyTables.Csv

namespace Reader

inductive Place where
  | line
  | field
  | plain
  | quoted
  /-- after a quotation mark, which ends the field unless another one follows -/
  | quote
deriving DecidableEq, Repr

end Reader

/-- A reader inside a text. The characters of the field that is being read, the fields before it
in its record and the records before that one are kept newest first. -/
structure Reader where
  place : Reader.Place
  chars : List Char
  fields : List String
  records : List (List String)
deriving DecidableEq, Repr

namespace Reader

def start : Reader := ⟨.line, [], [], []⟩

def endField (reader : Reader) : Reader :=
  ⟨.field, [], String.ofList reader.chars.reverse :: reader.fields, reader.records⟩

def endRecord (reader : Reader) : Reader :=
  ⟨.line, [], [], reader.endField.fields.reverse :: reader.records⟩

def add (reader : Reader) (place : Place) (c : Char) : Reader :=
  { reader with place := place, chars := c :: reader.chars }

def separate (reader : Reader) (c : Char) : Option Reader :=
  if c = ',' then some reader.endField
  else if c = '\n' then some reader.endRecord
  else none

def unquoted (reader : Reader) (c : Char) : Option Reader :=
  if c = ',' ∨ c = '\n' ∨ c = '"' ∨ c = '\r' then reader.separate c
  else some (reader.add .plain c)

def step (reader : Reader) (c : Char) : Option Reader :=
  match reader.place with
  | .line =>
    if c = '\n' then some reader
    else if c = '"' then some { reader with place := .quoted }
    else reader.unquoted c
  | .field => if c = '"' then some { reader with place := .quoted } else reader.unquoted c
  | .plain => reader.unquoted c
  | .quoted => if c = '"' then some { reader with place := .quote } else some (reader.add .quoted c)
  | .quote => if c = '"' then some (reader.add .quoted c) else reader.separate c

/-- The records of a text that ends here; the last line feed may be missing. -/
def finish (reader : Reader) : Option (List (List String)) :=
  match reader.place with
  | .line => some reader.records.reverse
  | .quoted => none
  | _ => some reader.endRecord.records.reverse

end Reader

def read? (s : String) : Option (List (List String)) :=
  (s.toList.foldlM Reader.step Reader.start).bind Reader.finish

namespace Reader

variable {fields : List String} {records : List (List String)}

theorem foldlM_plain {cs : List Char} (chars : List Char)
    (clean : ∀ c ∈ cs, ¬ (c = ',' ∨ c = '\n' ∨ c = '"' ∨ c = '\r')) :
    cs.foldlM step ⟨.plain, chars, fields, records⟩ =
      some ⟨.plain, cs.reverse ++ chars, fields, records⟩ := by
  induction cs generalizing chars with
  | nil => rfl
  | cons c cs ih =>
    simp only [List.forall_mem_cons] at clean
    have first : step ⟨.plain, chars, fields, records⟩ c =
        some ⟨.plain, c :: chars, fields, records⟩ := if_neg clean.1
    rw [List.foldlM_cons, first]
    simpa using ih (c :: chars) clean.2

theorem foldlM_doubled (cs chars : List Char) :
    (doubled cs).foldlM step ⟨.quoted, chars, fields, records⟩ =
      some ⟨.quoted, cs.reverse ++ chars, fields, records⟩ := by
  induction cs generalizing chars with
  | nil => rfl
  | cons c cs ih =>
    have first : (if c = '"' then ['"', '"'] else [c]).foldlM step
        ⟨.quoted, chars, fields, records⟩ = some ⟨.quoted, c :: chars, fields, records⟩ := by
      by_cases quote : c = '"'
      · rw [if_pos quote, quote]
        rfl
      · simp [quote, step, add]
    rw [doubled, List.flatMap_cons, List.foldlM_append, first]
    refine (ih (c :: chars)).trans ?_
    simp

/-- A quoted field is read as the field; so is a field that needs no quotation marks. -/
theorem exists_place {place : Place} (begins : place = .line ∨ place = .field)
    (fields : List String) (records : List (List String)) (field : String) :
    ∃ ended, (ended = .quote ∨ ended = .plain ∨ ended = place ∧ fieldChars field = []) ∧
      (fieldChars field).foldlM step ⟨place, [], fields, records⟩ =
        some ⟨ended, field.toList.reverse, fields, records⟩ := by
  have opens : step ⟨place, [], fields, records⟩ '"' = some ⟨.quoted, [], fields, records⟩ := by
    rcases begins with rfl | rfl <;> rfl
  by_cases quotes : needsQuotes field
  · have closes : step ⟨.quoted, field.toList.reverse, fields, records⟩ '"' =
        some ⟨.quote, field.toList.reverse, fields, records⟩ := rfl
    refine ⟨.quote, .inl rfl, ?_⟩
    rw [fieldChars, if_pos quotes, List.cons_append, List.foldlM_cons, opens]
    simp [foldlM_doubled, closes]
  · have clean : ∀ c ∈ field.toList, ¬ (c = ',' ∨ c = '\n' ∨ c = '"' ∨ c = '\r') := by
      simp only [needsQuotes, List.any_eq_true, Bool.or_eq_true, decide_eq_true_eq,
        not_exists, not_and] at quotes
      intro c member special
      exact quotes c member (by grind)
    rw [fieldChars, if_neg quotes]
    cases letters : field.toList with
    | nil => exact ⟨place, .inr (.inr ⟨rfl, rfl⟩), rfl⟩
    | cons c cs =>
      rw [letters, List.forall_mem_cons] at clean
      have quote : c ≠ '"' := fun same => clean.1 (.inr (.inr (.inl same)))
      have lineFeed : c ≠ '\n' := fun same => clean.1 (.inr (.inl same))
      have first : step ⟨place, [], fields, records⟩ c = some ⟨.plain, [c], fields, records⟩ := by
        have added : unquoted ⟨place, [], fields, records⟩ c =
            some ⟨.plain, [c], fields, records⟩ := if_neg clean.1
        rcases begins with rfl | rfl <;> simp [step, quote, lineFeed, added]
      refine ⟨.plain, .inr (.inl rfl), ?_⟩
      rw [List.foldlM_cons, first]
      simpa using foldlM_plain [c] clean.2

theorem step_comma {place : Place} (outside : place ≠ .quoted) (chars : List Char) :
    step ⟨place, chars, fields, records⟩ ',' =
      some ⟨.field, [], String.ofList chars.reverse :: fields, records⟩ := by
  cases place with
  | quoted => contradiction
  | _ => rfl

theorem step_lineFeed {place : Place} (outside : place ≠ .quoted) (begun : place ≠ .line)
    (chars : List Char) :
    step ⟨place, chars, fields, records⟩ '\n' =
      some ⟨.line, [], [], (String.ofList chars.reverse :: fields).reverse :: records⟩ := by
  cases place with
  | quoted => contradiction
  | line => contradiction
  | _ => rfl

theorem foldlM_comma {place : Place} (begins : place = .line ∨ place = .field)
    (fields : List String) (records : List (List String)) (field : String) (rest : List Char) :
    (fieldChars field ++ ',' :: rest).foldlM step ⟨place, [], fields, records⟩ =
      rest.foldlM step ⟨.field, [], field :: fields, records⟩ := by
  obtain ⟨ended, which, read⟩ := exists_place begins fields records field
  have outside : ended ≠ .quoted := by
    rcases which with rfl | rfl | ⟨rfl, -⟩
    · decide
    · decide
    · rcases begins with rfl | rfl <;> decide
  rw [List.foldlM_append, read]
  simp [step_comma outside]

theorem foldlM_lineFeed {place : Place} (begins : place = .line ∨ place = .field)
    (fields : List String) (records : List (List String)) (field : String)
    (written : place = .field ∨ fieldChars field ≠ []) :
    (fieldChars field ++ ['\n']).foldlM step ⟨place, [], fields, records⟩ =
      some ⟨.line, [], [], (field :: fields).reverse :: records⟩ := by
  obtain ⟨ended, which, read⟩ := exists_place begins fields records field
  have apart : ended ≠ .quoted ∧ ended ≠ .line := by
    rcases which with rfl | rfl | ⟨rfl, empty⟩
    · decide
    · decide
    · rcases written with rfl | letters
      · decide
      · exact absurd empty letters
  rw [List.foldlM_append, read]
  simp [step_lineFeed apart.1 apart.2]

theorem foldlM_laterFields (fields : List String) (records : List (List String)) (field : String)
    (later : List String) :
    ([','].intercalate ((field :: later).map fieldChars) ++ ['\n']).foldlM step
        ⟨.field, [], fields, records⟩ =
      some ⟨.line, [], [], (fields.reverse ++ field :: later) :: records⟩ := by
  induction later generalizing field fields with
  | nil => simpa [List.intercalate] using foldlM_lineFeed (.inr rfl) fields records field (.inl rfl)
  | cons next later ih =>
    have first := foldlM_comma (.inr rfl) fields records field
      ([','].intercalate ((next :: later).map fieldChars) ++ ['\n'])
    rw [ih, List.reverse_cons, List.append_assoc, List.singleton_append] at first
    rw [List.map_cons, List.map_cons, List.intercalate_cons_cons]
    simpa using first

theorem eq_empty_of_fieldChars {field : String} (blank : fieldChars field = []) : field = "" := by
  unfold fieldChars at blank
  split at blank
  · cases blank
  · exact String.toList_inj.1 blank

theorem foldlM_recordChars {record : List String} (fielded : record ≠ [])
    (records : List (List String)) :
    (recordChars record).foldlM step ⟨.line, [], [], records⟩ =
      some ⟨.line, [], [], record :: records⟩ := by
  obtain ⟨field, later, rfl⟩ := List.exists_cons_of_ne_nil fielded
  cases later with
  | nil =>
    by_cases blank : fieldChars field = []
    · rw [eq_empty_of_fieldChars blank]
      rfl
    · have line := foldlM_lineFeed (.inl rfl) [] records field (.inr blank)
      simpa [recordChars, List.intercalate, blank] using line
  | cons next later =>
    have line := foldlM_laterFields [field] records next later
    rw [← foldlM_comma (.inl rfl)] at line
    have text : recordChars (field :: next :: later) = fieldChars field ++
        ',' :: ([','].intercalate ((next :: later).map fieldChars) ++ ['\n']) := by
      simp [recordChars, List.intercalate_cons_cons]
    rw [text]
    simpa using line

theorem foldlM_records {records : List (List String)}
    (fielded : ∀ record ∈ records, record ≠ []) (before : List (List String)) :
    (records.flatMap recordChars).foldlM step ⟨.line, [], [], before⟩ =
      some ⟨.line, [], [], records.reverse ++ before⟩ := by
  induction records generalizing before with
  | nil => rfl
  | cons first records ih =>
    rw [List.forall_mem_cons] at fielded
    rw [List.flatMap_cons, List.foldlM_append, foldlM_recordChars fielded.1 before]
    simpa using ih fielded.2 (first :: before)

end Reader

/-- A text of written records is read as these records. -/
theorem read?_records {records : List (List String)} (fielded : ∀ record ∈ records, record ≠ []) :
    read? (String.join (records.map record)) = some records := by
  have text : (String.join (records.map record)).toList = records.flatMap recordChars := by
    simp [List.flatMap_map, record]
  have run := Reader.foldlM_records fielded []
  rw [List.append_nil] at run
  simp [read?, text, Reader.start, run, Reader.finish]

example : read? "a,\"b\"\"\n\"\n\n\"\"" = some [["a", "b\"\n"], [""]] := by decide +kernel
example : read? "a\"b\n" = none ∧ read? "\"a" = none ∧ read? "\"a\"b\n" = none := by decide +kernel

theorem foldr_append (records : List String) (later : String) :
    records.foldr (· ++ ·) later = String.join records ++ later := by
  induction records with
  | nil => simp
  | cons record records ih => rw [List.foldr_cons, ih, String.join_cons, String.append_assoc]

theorem writeRows_ok (schema : TableSchema) (roots : List Row) :
    writeRows schema (roots.map .ok) =
      ⟨String.join (roots.flatMap (recordsOf schema)),
        .ok (roots.flatMap (recordsOf schema)).length⟩ := by
  induction roots with
  | nil => rfl
  | cons root roots ih => simp [writeRows, ih, foldr_append, Except.map]

theorem writeRows_error (schema : TableSchema) (before : List Row) (error : ExportError)
    (later : List (Except ExportError Row)) :
    writeRows schema (before.map .ok ++ .error error :: later) =
      ⟨String.join (before.flatMap (recordsOf schema)), .error error⟩ := by
  induction before with
  | nil => rfl
  | cons root before ih => simp [writeRows, ih, foldr_append, Except.map]

theorem write_of_ok {rows : Feed ExportError Row} {roots : List Row}
    (whole : rows.results = roots.map .ok) (schema : TableSchema) :
    write schema rows =
      ⟨record schema.columnIds ++ String.join (roots.flatMap (recordsOf schema)),
        .ok (roots.flatMap (recordsOf schema)).length⟩ := by
  simp [write, whole, writeRows_ok]

end SurveyTables.Csv
