import SchemaArchive.Archive.Version
import SchemaArchive.Json.Value

/-!
# Versions in JSON

The tree of a version as a JSON object, with its keys in a fixed order.
-/

namespace SchemaArchive

/-- A column as JSON. -/
def StoredColumn.toJson (c : StoredColumn) : Json :=
  .object [
    ("id", .ofNat c.id),
    ("table_id", .ofNat c.tableId),
    ("field_name", .string c.column.name),
    ("field_type", .string c.column.type),
    ("is_unsigned", .bool c.column.unsigned),
    ("is_nullable", .bool c.column.nullable),
    ("default_value", .ofText? c.column.defaultValue),
    ("is_auto_increment", .bool c.column.autoIncrement),
    ("field_order", .ofNat c.order)]

/-- A constrained column as JSON. -/
def StoredMember.toJson (m : StoredMember) : Json :=
  .object [
    ("id", .ofNat m.id),
    ("constraint_id", .ofNat m.constraintId),
    ("field_id", .ofNat m.columnId),
    ("column_order", .ofNat m.order),
    ("field_name", .string m.columnName)]

/-- A column referred to as JSON. -/
def StoredTarget.toJson (t : StoredTarget) : Json :=
  .object [
    ("id", .ofNat t.id),
    ("reference_id", .ofNat t.referenceId),
    ("referenced_field_id", .ofNat t.columnId),
    ("column_order", .ofNat t.order),
    ("field_name", .string t.columnName)]

/-- A reference as JSON. -/
def StoredReference.toJson (r : StoredReference) : Json :=
  .object [
    ("id", .ofNat r.id),
    ("constraint_id", .ofNat r.constraintId),
    ("referenced_table_id", .ofNat r.tableId),
    ("referenced_table_name", .string r.tableName),
    ("columns", .array (r.targets.map StoredTarget.toJson))]

/-- A constraint as JSON. -/
def StoredConstraint.toJson (c : StoredConstraint) : Json :=
  .object [
    ("id", .ofNat c.id),
    ("table_id", .ofNat c.tableId),
    ("constraint_name", .ofText? c.name),
    ("constraint_type", .string c.kind.text),
    ("columns", .array (c.members.map StoredMember.toJson)),
    ("reference", (c.reference.map StoredReference.toJson).getD .null)]

/-- A table as JSON. -/
def StoredTable.toJson (t : StoredTable) : Json :=
  .object [
    ("id", .ofNat t.id),
    ("schema_version_id", .ofNat t.versionId),
    ("table_name", .string t.name),
    ("fields", .array (t.columns.map StoredColumn.toJson)),
    ("constraints", .array (t.constraints.map StoredConstraint.toJson))]

/-- A version as JSON. -/
def Version.toJson (v : Version) : Json :=
  .object [
    ("id", .ofNat v.id),
    ("version_name", .string v.name),
    ("description", .ofText? v.description),
    ("created_at", .string v.createdAt),
    ("tables", .array (v.tables.map StoredTable.toJson))]

end SchemaArchive
