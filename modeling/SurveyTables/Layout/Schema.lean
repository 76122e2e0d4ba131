import SurveyTables.Json.Printer
import SurveyTables.Json.Reader

/-! Table schemas: what a program that imports a table needs to know of it. -/
namespace SurveyTables

inductive ColumnType where
  | int
  | string
deriving DecidableEq, Repr

namespace ColumnType

def name : ColumnType → String
  | int => "int"
  | string => "string"

def ofName? (s : String) : Option ColumnType := [int, string].find? (·.name = s)

end ColumnType

structure Column where
  id : String
  type : ColumnType
  label : String
deriving DecidableEq, Repr

namespace Column

def named (id : String) (type : ColumnType) : Column := ⟨id, type, id⟩

def toJson (column : Column) : Json :=
  .object [("id", .string column.id), ("dataType", .string column.type.name),
    ("alias", .string column.label)]

open Json (Reader) in
def reader : Reader Column :=
  Reader.record ["id", "dataType", "alias"] fun room found => do
    return {
      id := ← Reader.required "id" Reader.string room found
      type := ← Reader.required "dataType" (Reader.named ColumnType.ofName?) room found
      label := ← Reader.required "alias" Reader.string room found }

end Column

structure TableSchema where
  name : String
  connectionName : String
  columns : List Column
deriving DecidableEq, Repr

namespace TableSchema

def columnIds (schema : TableSchema) : List String := schema.columns.map Column.id

def toJson (schema : TableSchema) : Json :=
  .object [("table_alias", .string schema.name),
    ("connection_name", .string schema.connectionName),
    ("column_headers", .array (schema.columns.map Column.toJson))]

open Json (Reader) in
def reader : Reader TableSchema :=
  Reader.record ["table_alias", "connection_name", "column_headers"] fun room found => do
    return {
      name := ← Reader.required "table_alias" Reader.string room found
      connectionName := ← Reader.required "connection_name" Reader.string room found
      columns := ← Reader.required "column_headers" (Reader.list Column.reader) room found }

def read? (s : String) : Option TableSchema := reader.text? s

def listToJson (schemas : List TableSchema) : Json := .array (schemas.map toJson)

def render (schemas : List TableSchema) : String := (listToJson schemas).pretty

end TableSchema

end SurveyTables
