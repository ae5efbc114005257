import SchemaArchive.Archive.Basic
import SchemaArchive.Json.Reader
import SchemaArchive.Schema.Exchange

/-!
# Archives between runs

The text in which an archive is kept from one run of the program to the next: its relations with
their last numbers and their rows, in JSON.

* `Archive.toText` writes an archive, `Archive.ofText?` reads one.
-/

namespace SchemaArchive

/-- A relation as JSON: its last number, and each row as its number and its values. -/
def Relation.toJson {α : Type} (values : α → List Json) (r : Relation α) : Json :=
  let rows := r.rows.map fun row => .array (.ofNat row.id :: values row.value)
  .array [.ofNat r.lastId, .array rows]

/-- Reads a row. -/
def Row.ofJson? {α : Type} (ofValues : List Json → Option α) : Json → Option (Row α)
  | .array (id :: values) => do return ⟨← id.nat?, ← ofValues values⟩
  | _ => none

/-- Reads a relation. -/
def Relation.ofJson? {α : Type} (ofValues : List Json → Option α) : Json → Option (Relation α)
  | .array [lastId, rows] => do return ⟨← lastId.nat?, ← rows.list? (Row.ofJson? ofValues)⟩
  | _ => none

/-- The values of a version. -/
def VersionRow.values (row : VersionRow) : List Json :=
  [.string row.name, .ofText? row.description, .string row.createdAt]

/-- Reads the values of a version. -/
def VersionRow.ofValues? : List Json → Option VersionRow
  | [name, description, createdAt] => do
    return ⟨← name.text?, ← description.optionalText?, ← createdAt.text?⟩
  | _ => none

/-- The values of a table. -/
def TableRow.values (row : TableRow) : List Json :=
  [.ofNat row.version, .string row.name]

/-- Reads the values of a table. -/
def TableRow.ofValues? : List Json → Option TableRow
  | [version, name] => do return ⟨← version.nat?, ← name.text?⟩
  | _ => none

/-- The values of a column. -/
def ColumnRow.values (row : ColumnRow) : List Json :=
  [.ofNat row.table, row.column.toJson, .ofNat row.order]

/-- Reads the values of a column. -/
def ColumnRow.ofValues? : List Json → Option ColumnRow
  | [table, column, order] => do return ⟨← table.nat?, ← Column.ofJson? column, ← order.nat?⟩
  | _ => none

/-- The values of a constraint. -/
def ConstraintRow.values (row : ConstraintRow) : List Json :=
  [.ofNat row.table, .ofText? row.name, .string row.kind]

/-- Reads the values of a constraint. -/
def ConstraintRow.ofValues? : List Json → Option ConstraintRow
  | [table, name, kind] => do return ⟨← table.nat?, ← name.optionalText?, ← kind.text?⟩
  | _ => none

/-- Reads three numbers. -/
def threeNumbers? : List Json → Option (Nat × Nat × Nat)
  | [a, b, c] => do return (← a.nat?, ← b.nat?, ← c.nat?)
  | _ => none

/-- The values of a member. -/
def MemberRow.values (row : MemberRow) : List Json :=
  [.ofNat row.constraint, .ofNat row.column, .ofNat row.order]

/-- Reads the values of a member. -/
def MemberRow.ofValues? (values : List Json) : Option MemberRow :=
  (threeNumbers? values).map fun (constraint, column, order) => ⟨constraint, column, order⟩

/-- The values of a reference. -/
def ReferenceRow.values (row : ReferenceRow) : List Json :=
  [.ofNat row.constraint, .ofNat row.table]

/-- Reads the values of a reference. -/
def ReferenceRow.ofValues? : List Json → Option ReferenceRow
  | [constraint, table] => do return ⟨← constraint.nat?, ← table.nat?⟩
  | _ => none

/-- The values of a target. -/
def TargetRow.values (row : TargetRow) : List Json :=
  [.ofNat row.reference, .ofNat row.column, .ofNat row.order]

/-- Reads the values of a target. -/
def TargetRow.ofValues? (values : List Json) : Option TargetRow :=
  (threeNumbers? values).map fun (reference, column, order) => ⟨reference, column, order⟩

namespace Archive

/-- An archive as JSON. -/
def toJson (a : Archive) : Json :=
  .array [
    a.versions.toJson VersionRow.values,
    a.tables.toJson TableRow.values,
    a.columns.toJson ColumnRow.values,
    a.constraints.toJson ConstraintRow.values,
    a.members.toJson MemberRow.values,
    a.references.toJson ReferenceRow.values,
    a.targets.toJson TargetRow.values]

/-- Reads an archive. -/
def ofJson? : Json → Option Archive
  | .array [versions, tables, columns, constraints, members, references, targets] => do
    return {
      versions := ← Relation.ofJson? VersionRow.ofValues? versions
      tables := ← Relation.ofJson? TableRow.ofValues? tables
      columns := ← Relation.ofJson? ColumnRow.ofValues? columns
      constraints := ← Relation.ofJson? ConstraintRow.ofValues? constraints
      members := ← Relation.ofJson? MemberRow.ofValues? members
      references := ← Relation.ofJson? ReferenceRow.ofValues? references
      targets := ← Relation.ofJson? TargetRow.ofValues? targets }
  | _ => none

/-- The text in which an archive is kept. -/
def toText (a : Archive) : String :=
  String.ofList a.toJson.compact

/-- Reads the text in which an archive is kept. -/
def ofText? (text : String) : Option Archive :=
  Json.ofChars? text.toList >>= ofJson?

end Archive

end SchemaArchive
