import SchemaArchive.Json.Value
import SchemaArchive.Schema.Table

/-!
# Schemas in JSON

Tables, columns and constraints as JSON objects, written with their keys in a fixed order and
read back.  The member `type` tells the sorts of constraints apart; an index without a name has
no member `name`, while a column without a default has a null one.

* `Table.toJson`, `Table.ofJson?` — one table; `Table.listToJson`, `Table.listOfJson?` — a schema.
-/

namespace SchemaArchive

namespace Column

/-- The keys of a column, in order. -/
def jsonKeys : List String :=
  ["name", "type", "unsigned", "nullable", "default", "auto_increment"]

/-- A column as JSON. -/
def toJson (c : Column) : Json :=
  .object [
    ("name", .string c.name),
    ("type", .string c.type),
    ("unsigned", .bool c.unsigned),
    ("nullable", .bool c.nullable),
    ("default", .ofText? c.defaultValue),
    ("auto_increment", .bool c.autoIncrement)]

/-- Reads a column. -/
def ofJson? (v : Json) : Option Column :=
  match v.record? jsonKeys with
  | some [name, type, unsigned, nullable, defaultValue, autoIncrement] => do
    return {
      name := ← name.text?
      type := ← type.text?
      unsigned := ← unsigned.bool?
      nullable := ← nullable.bool?
      defaultValue := ← defaultValue.optionalText?
      autoIncrement := ← autoIncrement.bool? }
  | _ => none

end Column

namespace Reference

/-- A reference as JSON. -/
def toJson (r : Reference) : Json :=
  .object [("table", .string r.table), ("columns", .ofTexts r.columns)]

/-- Reads a reference. -/
def ofJson? (v : Json) : Option Reference :=
  match v.record? ["table", "columns"] with
  | some [table, columns] => do
    return ⟨← table.text?, ← columns.list? Json.text?⟩
  | _ => none

end Reference

namespace Constraint

/-- The member `name` of an index, if the index has a name. -/
def nameMember : Option String → List (String × Json)
  | some name => [("name", .string name)]
  | none => []

/-- A constraint as JSON. -/
def toJson : Constraint → Json
  | primaryKey columns =>
    .object [("type", .string "PRIMARY KEY"), ("columns", .ofTexts columns)]
  | unique name columns =>
    .object (("type", .string "UNIQUE") :: (nameMember name ++ [("columns", .ofTexts columns)]))
  | key name columns =>
    .object (("type", .string "KEY") :: (nameMember name ++ [("columns", .ofTexts columns)]))
  | foreignKey name columns target =>
    .object [
      ("type", .string "FOREIGN KEY"),
      ("name", .string name),
      ("columns", .ofTexts columns),
      ("references", target.toJson)]

/-- Reads what a constraint of the sort `type` says. -/
def ofJsonContent? (type : String) (v : Json) : Option Constraint :=
  if type = "PRIMARY KEY" then
    match v.record? ["columns"] with
    | some [columns] => do return primaryKey (← columns.list? Json.text?)
    | _ => none
  else if type = "UNIQUE" then
    match v.record? ["name", "columns"] with
    | some [name, columns] => do
      return unique (← name.optionalText?) (← columns.list? Json.text?)
    | _ => none
  else if type = "KEY" then
    match v.record? ["name", "columns"] with
    | some [name, columns] => do
      return key (← name.optionalText?) (← columns.list? Json.text?)
    | _ => none
  else if type = "FOREIGN KEY" then
    match v.record? ["name", "columns", "references"] with
    | some [name, columns, target] => do
      return foreignKey (← name.text?) (← columns.list? Json.text?) (← Reference.ofJson? target)
    | _ => none
  else none

/-- Reads a constraint.  Its sort is the member `type` of an object, or the first of a list. -/
def ofJson? : Json → Option Constraint
  | .object members => do
    ofJsonContent? (← (Json.memberOrNull members "type").text?) (.object members)
  | .array (type :: items) => do ofJsonContent? (← type.text?) (.array items)
  | _ => none

end Constraint

namespace Table

/-- A table as JSON. -/
def toJson (t : Table) : Json :=
  .object [
    ("table_name", .string t.name),
    ("fields", .array (t.columns.map Column.toJson)),
    ("constraints", .array (t.constraints.map Constraint.toJson))]

/-- Reads a table. -/
def ofJson? (v : Json) : Option Table :=
  match v.record? ["table_name", "fields", "constraints"] with
  | some [name, columns, constraints] => do
    return {
      name := ← name.text?
      columns := ← columns.list? Column.ofJson?
      constraints := ← constraints.list? Constraint.ofJson? }
  | _ => none

/-- A schema as JSON. -/
def listToJson (tables : List Table) : Json :=
  .array (tables.map toJson)

/-- Reads a schema. -/
def listOfJson? (v : Json) : Option (List Table) :=
  v.list? ofJson?

end Table

end SchemaArchive
