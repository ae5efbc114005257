import SchemaArchive.Schema.Table

/-!
# A version and all that it owns

The tree of a stored version: its tables in order, their columns and constraints, and for each
constraint the columns that it constrains and, for a foreign key, those that it refers to.  Every
node carries its own number and that of the node which contains it.

* `Version.toTables` is the schema that a version holds.
-/

namespace SchemaArchive

/-- A column, with its place in its table. -/
structure StoredColumn where
  id : Nat
  tableId : Nat
  column : Column
  order : Nat
  deriving DecidableEq, Repr

/-- A column that a constraint constrains, with its place in the constraint. -/
structure StoredMember where
  id : Nat
  constraintId : Nat
  columnId : Nat
  order : Nat
  columnName : String
  deriving DecidableEq, Repr

/-- A column that a foreign key refers to, with its place in the reference. -/
structure StoredTarget where
  id : Nat
  referenceId : Nat
  columnId : Nat
  order : Nat
  columnName : String
  deriving DecidableEq, Repr

/-- What a foreign key refers to. -/
structure StoredReference where
  id : Nat
  constraintId : Nat
  tableId : Nat
  tableName : String
  targets : List StoredTarget
  deriving DecidableEq, Repr

/-- A constraint. -/
structure StoredConstraint where
  id : Nat
  tableId : Nat
  name : Option String
  kind : ConstraintKind
  members : List StoredMember
  reference : Option StoredReference
  deriving DecidableEq, Repr

/-- A table. -/
structure StoredTable where
  id : Nat
  versionId : Nat
  name : String
  columns : List StoredColumn
  constraints : List StoredConstraint
  deriving DecidableEq, Repr

/-- A version. -/
structure Version where
  id : Nat
  name : String
  description : Option String
  createdAt : String
  tables : List StoredTable
  deriving DecidableEq, Repr

/-- What lists say of a version. -/
structure VersionSummary where
  id : Nat
  name : String
  description : Option String
  createdAt : String
  deriving DecidableEq, Repr

/-- What a foreign key refers to, by names.  It is nothing at all if no reference is stored. -/
def StoredConstraint.target (c : StoredConstraint) : Reference :=
  match c.reference with
  | some r => ⟨r.tableName, r.targets.map (·.columnName)⟩
  | none => ⟨"", []⟩

/-- The constraint that is stored, by names. -/
def StoredConstraint.toConstraint (c : StoredConstraint) : Constraint :=
  let columns := c.members.map (·.columnName)
  match c.kind with
  | .primaryKey => .primaryKey columns
  | .unique => .unique c.name columns
  | .key | .index => .key c.name columns
  | .foreignKey => .foreignKey (c.name.getD "") columns c.target

/-- The table that is stored. -/
def StoredTable.toTable (t : StoredTable) : Table where
  name := t.name
  columns := t.columns.map (·.column)
  constraints := t.constraints.map StoredConstraint.toConstraint

/-- The first column of exactly this name. -/
def StoredTable.column? (t : StoredTable) (name : String) : Option StoredColumn :=
  t.columns.find? (·.column.name == name)

/-- The schema that a version holds. -/
def Version.toTables (v : Version) : List Table :=
  v.tables.map StoredTable.toTable

/-- The first table of exactly this name. -/
def Version.table? (v : Version) (name : String) : Option StoredTable :=
  v.tables.find? (·.name == name)

end SchemaArchive
