import SchemaArchive.Archive.Exchange
import SchemaArchive.Proofs.Schema.JsonText

/-!
# Versions as JSON texts

The JSON of a version holds its whole tree: a reader that knows nothing but the keys finds every
number, name and place again, the kinds of the constraints, and which references, names, defaults
and descriptions there are.  With the texts of JSON values this gives the same for the text in which
a version is handed out.

* `Version.ofJson?` — the reader, with one definition for each node of the tree.
* `Version.ofJson?_toJson` — it finds what has been written, with one lemma for each node.
* `Version.ofText?_pretty` — and so it does in texts.
-/

namespace SchemaArchive

/-! ## Reading nodes -/

/-- The value as something that is null if it is missing. -/
def Json.optional? {α : Type} (read : Json → Option α) : Json → Option (Option α)
  | null => some none
  | v => (read v).map some

/-- Reads a column. -/
def StoredColumn.ofJson? (v : Json) : Option StoredColumn :=
  match v.record? ["id", "table_id", "field_name", "field_type", "is_unsigned", "is_nullable",
    "default_value", "is_auto_increment", "field_order"] with
  | some [id, tableId, name, type, unsigned, nullable, defaultValue, autoIncrement, order] => do
    return {
      id := ← id.nat?
      tableId := ← tableId.nat?
      column := {
        name := ← name.text?
        type := ← type.text?
        unsigned := ← unsigned.bool?
        nullable := ← nullable.bool?
        defaultValue := ← defaultValue.optionalText?
        autoIncrement := ← autoIncrement.bool? }
      order := ← order.nat? }
  | _ => none

/-- Reads a constrained column. -/
def StoredMember.ofJson? (v : Json) : Option StoredMember :=
  match v.record? ["id", "constraint_id", "field_id", "column_order", "field_name"] with
  | some [id, constraintId, columnId, order, columnName] => do
    return {
      id := ← id.nat?
      constraintId := ← constraintId.nat?
      columnId := ← columnId.nat?
      order := ← order.nat?
      columnName := ← columnName.text? }
  | _ => none

/-- Reads a column referred to. -/
def StoredTarget.ofJson? (v : Json) : Option StoredTarget :=
  match v.record? ["id", "reference_id", "referenced_field_id", "column_order", "field_name"] with
  | some [id, referenceId, columnId, order, columnName] => do
    return {
      id := ← id.nat?
      referenceId := ← referenceId.nat?
      columnId := ← columnId.nat?
      order := ← order.nat?
      columnName := ← columnName.text? }
  | _ => none

/-- Reads a reference. -/
def StoredReference.ofJson? (v : Json) : Option StoredReference :=
  match v.record? ["id", "constraint_id", "referenced_table_id", "referenced_table_name",
    "columns"] with
  | some [id, constraintId, tableId, tableName, targets] => do
    return {
      id := ← id.nat?
      constraintId := ← constraintId.nat?
      tableId := ← tableId.nat?
      tableName := ← tableName.text?
      targets := ← targets.list? StoredTarget.ofJson? }
  | _ => none

/-- Reads a constraint. -/
def StoredConstraint.ofJson? (v : Json) : Option StoredConstraint :=
  match v.record? ["id", "table_id", "constraint_name", "constraint_type", "columns",
    "reference"] with
  | some [id, tableId, name, kind, members, reference] => do
    return {
      id := ← id.nat?
      tableId := ← tableId.nat?
      name := ← name.optionalText?
      kind := ← (ConstraintKind.ofText (← kind.text?)).toOption
      members := ← members.list? StoredMember.ofJson?
      reference := ← reference.optional? StoredReference.ofJson? }
  | _ => none

/-- Reads a table. -/
def StoredTable.ofJson? (v : Json) : Option StoredTable :=
  match v.record? ["id", "schema_version_id", "table_name", "fields", "constraints"] with
  | some [id, versionId, name, columns, constraints] => do
    return {
      id := ← id.nat?
      versionId := ← versionId.nat?
      name := ← name.text?
      columns := ← columns.list? StoredColumn.ofJson?
      constraints := ← constraints.list? StoredConstraint.ofJson? }
  | _ => none

/-- Reads a version. -/
def Version.ofJson? (v : Json) : Option Version :=
  match v.record? ["id", "version_name", "description", "created_at", "tables"] with
  | some [id, name, description, createdAt, tables] => do
    return {
      id := ← id.nat?
      name := ← name.text?
      description := ← description.optionalText?
      createdAt := ← createdAt.text?
      tables := ← tables.list? StoredTable.ofJson? }
  | _ => none

/-- The version that a JSON text holds. -/
def Version.ofText? (text : String) : Option Version :=
  Json.ofChars? text.toList >>= ofJson?

/-! ## What is written is found -/

@[simp] theorem Json.nat?_ofNat (n : Nat) : (ofNat n).nat? = some n := rfl

/-- What may be missing is found if it can be found where it is there, and is never null. -/
theorem Json.optional?_getD {α : Type} {write : α → Json} {read : Json → Option α}
    (h : ∀ a, read (write a) = some a) (hnull : ∀ a, write a ≠ null) (value : Option α) :
    ((value.map write).getD null).optional? read = some value := by
  cases value with
  | none => rfl
  | some a =>
    show (write a).optional? read = some (some a)
    rw [optional?, h, Option.map_some]
    exact hnull a

theorem StoredColumn.ofJson?_toJson (c : StoredColumn) : ofJson? c.toJson = some c := by
  have hmembers : c.toJson.record? ["id", "table_id", "field_name", "field_type", "is_unsigned",
      "is_nullable", "default_value", "is_auto_increment", "field_order"] =
        some [.ofNat c.id, .ofNat c.tableId, .string c.column.name, .string c.column.type,
          .bool c.column.unsigned, .bool c.column.nullable, .ofText? c.column.defaultValue,
          .bool c.column.autoIncrement, .ofNat c.order] := by
    rfl
  simp [ofJson?, hmembers, Json.text?, Json.bool?, Json.optionalText?_ofText?]

theorem StoredMember.ofJson?_toJson (m : StoredMember) : ofJson? m.toJson = some m := by
  have hmembers : m.toJson.record? ["id", "constraint_id", "field_id", "column_order",
      "field_name"] = some [.ofNat m.id, .ofNat m.constraintId, .ofNat m.columnId, .ofNat m.order,
        .string m.columnName] := by
    rfl
  simp [ofJson?, hmembers, Json.text?]

theorem StoredTarget.ofJson?_toJson (t : StoredTarget) : ofJson? t.toJson = some t := by
  have hmembers : t.toJson.record? ["id", "reference_id", "referenced_field_id", "column_order",
      "field_name"] = some [.ofNat t.id, .ofNat t.referenceId, .ofNat t.columnId, .ofNat t.order,
        .string t.columnName] := by
    rfl
  simp [ofJson?, hmembers, Json.text?]

theorem StoredReference.ofJson?_toJson (r : StoredReference) : ofJson? r.toJson = some r := by
  have hmembers : r.toJson.record? ["id", "constraint_id", "referenced_table_id",
      "referenced_table_name", "columns"] = some [.ofNat r.id, .ofNat r.constraintId,
        .ofNat r.tableId, .string r.tableName, .array (r.targets.map StoredTarget.toJson)] := by
    rfl
  simp [ofJson?, hmembers, Json.text?, Json.list?_map StoredTarget.ofJson?_toJson]

theorem StoredConstraint.ofJson?_toJson (c : StoredConstraint) : ofJson? c.toJson = some c := by
  have hmembers : c.toJson.record? ["id", "table_id", "constraint_name", "constraint_type",
      "columns", "reference"] = some [.ofNat c.id, .ofNat c.tableId, .ofText? c.name,
        .string c.kind.text, .array (c.members.map StoredMember.toJson),
        (c.reference.map StoredReference.toJson).getD .null] := by
    rfl
  have hreference : ((c.reference.map StoredReference.toJson).getD .null).optional?
      StoredReference.ofJson? = some c.reference :=
    Json.optional?_getD StoredReference.ofJson?_toJson (by simp [StoredReference.toJson]) _
  simp [ofJson?, hmembers, hreference, Json.text?, Json.optionalText?_ofText?, Except.toOption,
    Json.list?_map StoredMember.ofJson?_toJson]

theorem StoredTable.ofJson?_toJson (t : StoredTable) : ofJson? t.toJson = some t := by
  have hmembers : t.toJson.record? ["id", "schema_version_id", "table_name", "fields",
      "constraints"] = some [.ofNat t.id, .ofNat t.versionId, .string t.name,
        .array (t.columns.map StoredColumn.toJson),
        .array (t.constraints.map StoredConstraint.toJson)] := by
    rfl
  simp [ofJson?, hmembers, Json.text?, Json.list?_map StoredColumn.ofJson?_toJson,
    Json.list?_map StoredConstraint.ofJson?_toJson]

namespace Version

/-- A version is read back from its JSON. -/
theorem ofJson?_toJson (v : Version) : ofJson? v.toJson = some v := by
  have hmembers : v.toJson.record? ["id", "version_name", "description", "created_at", "tables"] =
      some [.ofNat v.id, .string v.name, .ofText? v.description, .string v.createdAt,
        .array (v.tables.map StoredTable.toJson)] := by
    rfl
  simp [ofJson?, hmembers, Json.text?, Json.optionalText?_ofText?,
    Json.list?_map StoredTable.ofJson?_toJson]

/-- A version is read back from its text. -/
theorem ofText?_pretty (v : Version) : ofText? (String.ofList v.toJson.pretty) = some v := by
  rw [ofText?, String.toList_ofList, Json.ofChars?_pretty]
  exact ofJson?_toJson v

end Version

end SchemaArchive
