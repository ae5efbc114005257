import SchemaArchive.Archive.Basic
import SchemaArchive.Archive.StoreError
import SchemaArchive.Archive.Version

/-!
# Loading versions

The tree of a version is put together in two steps.  Six queries give the rows of the version, one
for each relation; a row belongs to a version if the rows that it names do.  Tables and constraints
come in the order of their numbers, columns by their table and their place in it, members by their
constraint and their place, targets by their reference and their place.  Then every row takes those
that name it, from the targets of references up to the tables of the version.

* `orderBy` — the rows of a query in their order.
* `Archive.loadVersion` — the tree of a version, unless the kind of a constraint is unknown.
* `Archive.get?` and `Archive.getByName?` load one version, `Archive.list` lists all of them, the
  newest first.
-/

namespace SchemaArchive

/-! ## Order -/

section Order

variable {α : Type}

/-- The row in front of the first one that does not come before it. -/
def insertOrdered (le : α → α → Bool) (row : α) : List α → List α
  | [] => [row]
  | other :: rows =>
    if le row other then row :: other :: rows else other :: insertOrdered le row rows

/-- The rows in ascending order.  Rows of the same rank stay as they are. -/
def orderBy (le : α → α → Bool) : List α → List α
  | [] => []
  | row :: rows => insertOrdered le row (orderBy le rows)

/-- The order by owners, and by places among the rows of one owner. -/
def placeLe (owner place : α → Nat) (x y : α) : Bool :=
  owner x < owner y || (owner x == owner y && place x ≤ place y)

end Order

namespace Archive

/-! ## What a version owns -/

/-- Does the table with this number belong to the version? -/
def ownsTable (a : Archive) (version table : Nat) : Bool :=
  a.tables.rows.any fun row => row.id == table && row.value.version == version

/-- Does the constraint with this number belong to the version? -/
def ownsConstraint (a : Archive) (version constraint : Nat) : Bool :=
  a.constraints.rows.any fun row => row.id == constraint && a.ownsTable version row.value.table

/-- Does the reference with this number belong to the version? -/
def ownsReference (a : Archive) (version reference : Nat) : Bool :=
  a.references.rows.any fun row =>
    row.id == reference && a.ownsConstraint version row.value.constraint

/-! ## Queries -/

/-- A table, without what it owns. -/
def loadTable (row : Row TableRow) : StoredTable where
  id := row.id
  versionId := row.value.version
  name := row.value.name
  columns := []
  constraints := []

/-- A column. -/
def loadColumn (row : Row ColumnRow) : StoredColumn where
  id := row.id
  tableId := row.value.table
  column := row.value.column
  order := row.value.order

/-- A constraint, without what it owns.  Its kind is read from the text. -/
def loadConstraint (row : Row ConstraintRow) : Except StoreError StoredConstraint :=
  match ConstraintKind.ofText row.value.kind with
  | .error e => .error (.unknownKind e)
  | .ok kind => .ok {
      id := row.id
      tableId := row.value.table
      name := row.value.name
      kind
      members := []
      reference := none }

/-- A member with the name of its column, if the column is there. -/
def loadMember? (a : Archive) (row : Row MemberRow) : Option StoredMember := do
  let column ← a.columns.find? row.value.column
  return {
    id := row.id
    constraintId := row.value.constraint
    columnId := row.value.column
    order := row.value.order
    columnName := column.value.column.name }

/-- A reference with the name of its table, if the table is there, without its targets. -/
def loadReference? (a : Archive) (row : Row ReferenceRow) : Option StoredReference := do
  let table ← a.tables.find? row.value.table
  return {
    id := row.id
    constraintId := row.value.constraint
    tableId := row.value.table
    tableName := table.value.name
    targets := [] }

/-- A target with the name of its column, if the column is there. -/
def loadTarget? (a : Archive) (row : Row TargetRow) : Option StoredTarget := do
  let column ← a.columns.find? row.value.column
  return {
    id := row.id
    referenceId := row.value.reference
    columnId := row.value.column
    order := row.value.order
    columnName := column.value.column.name }

/-- The tables of a version. -/
def selectTables (a : Archive) (version : Nat) : List StoredTable :=
  let rows := a.tables.rows.filter (·.value.version == version)
  orderBy (fun t u => t.id ≤ u.id) (rows.map loadTable)

/-- The columns of all tables of a version. -/
def selectColumns (a : Archive) (version : Nat) : List StoredColumn :=
  let rows := a.columns.rows.filter fun row => a.ownsTable version row.value.table
  orderBy (placeLe (·.tableId) (·.order)) (rows.map loadColumn)

/-- The constraints of all tables of a version. -/
def selectConstraints (a : Archive) (version : Nat) : Except StoreError (List StoredConstraint) :=
  let rows := a.constraints.rows.filter fun row => a.ownsTable version row.value.table
  (orderBy (fun k l => k.id ≤ l.id) rows).mapM loadConstraint

/-- The members of all constraints of a version. -/
def selectMembers (a : Archive) (version : Nat) : List StoredMember :=
  let rows := a.members.rows.filter fun row => a.ownsConstraint version row.value.constraint
  orderBy (placeLe (·.constraintId) (·.order)) (rows.filterMap a.loadMember?)

/-- The references of all constraints of a version. -/
def selectReferences (a : Archive) (version : Nat) : List StoredReference :=
  let rows := a.references.rows.filter fun row => a.ownsConstraint version row.value.constraint
  rows.filterMap a.loadReference?

/-- The targets of all references of a version. -/
def selectTargets (a : Archive) (version : Nat) : List StoredTarget :=
  let rows := a.targets.rows.filter fun row => a.ownsReference version row.value.reference
  orderBy (placeLe (·.referenceId) (·.order)) (rows.filterMap a.loadTarget?)

end Archive

/-! ## The tree -/

/-- The reference with its targets. -/
def StoredReference.take (targets : List StoredTarget) (r : StoredReference) : StoredReference :=
  { r with targets := targets.filter (·.referenceId == r.id) }

/-- The constraint with its members and its reference.  Of several references the last one
counts. -/
def StoredConstraint.take (members : List StoredMember) (references : List StoredReference)
    (k : StoredConstraint) : StoredConstraint :=
  { k with
    members := members.filter (·.constraintId == k.id)
    reference := (references.filter (·.constraintId == k.id)).getLast? }

/-- The table with its columns and its constraints. -/
def StoredTable.take (columns : List StoredColumn) (constraints : List StoredConstraint)
    (t : StoredTable) : StoredTable :=
  { t with
    columns := columns.filter (·.tableId == t.id)
    constraints := constraints.filter (·.tableId == t.id) }

namespace Archive

/-- A version with all that it owns. -/
def loadVersion (a : Archive) (row : Row VersionRow) : Except StoreError Version := do
  let tables := a.selectTables row.id
  let columns := a.selectColumns row.id
  let constraints ← a.selectConstraints row.id
  let members := a.selectMembers row.id
  let references := (a.selectReferences row.id).map (.take (a.selectTargets row.id))
  return {
    id := row.id
    name := row.value.name
    description := row.value.description
    createdAt := row.value.createdAt
    tables := tables.map (.take columns (constraints.map (.take members references))) }

/-- The version of a row, if there is one. -/
def loadVersion? (a : Archive) : Option (Row VersionRow) → Except StoreError (Option Version)
  | none => .ok none
  | some row => (a.loadVersion row).map some

/-- The version with this number. -/
def get? (a : Archive) (id : Int) : Except StoreError (Option Version) :=
  a.loadVersion? (a.versions.rows.find? fun row => (row.id : Int) == id)

/-- The version of exactly this name. -/
def getByName? (a : Archive) (name : String) : Except StoreError (Option Version) :=
  a.loadVersion? (a.versions.rows.find? (·.value.name == name))

/-- What a list says of a version. -/
def summary (row : Row VersionRow) : VersionSummary where
  id := row.id
  name := row.value.name
  description := row.value.description
  createdAt := row.value.createdAt

/-- All versions, the newest first. -/
def list (a : Archive) : List VersionSummary :=
  orderBy (fun s t => t.id ≤ s.id) (a.versions.rows.map summary)

end Archive

end SchemaArchive
