import SchemaArchive.Archive.Load
import SchemaArchive.Archive.StoreError
import SchemaArchive.Script.Statement

/-!
# Storing versions

A version is written in two rounds: first all tables with their columns, then all constraints
with what they refer to, so that a foreign key may refer to a table declared after its own.  The
names of versions, of the tables of a version and of the columns of a table have to be unique.  A
constraint keeps those of its columns that its table has, and a reference those that the table
referred to has; other names are passed over.

Writing that fails half-way leaves the rows and the numbers of its first half.  So a version is
written in a transaction, which is rolled back when writing fails and committed when it succeeds.
What is answered is read from the archive behind the commit.

* `Writing` — steps that change an archive, also when they fail.
* `Transaction` — beginning, carrying out, committing and rolling back.
* `Archive.store`, `Archive.importScript` — one more version.
-/

namespace SchemaArchive

/-- A step of writing.  It has an outcome or fails, and leaves the archive as far as it got. -/
abbrev Writing (α : Type) := ExceptT StoreError (StateM Archive) α

/-- A table that has been written, with its number and those of its columns, by name. -/
structure WrittenTable where
  table : Table
  id : Nat
  columnIds : List (String × Nat)

/-- The numbers of the columns with these names, without the names that no column has. -/
def WrittenTable.idsOf (w : WrittenTable) (names : List String) : List Nat :=
  names.filterMap fun name => w.columnIds.lookup name

namespace Writing

/-! ## Rows -/

/-- Writes the row of a version. -/
def version (value : VersionRow) : Writing Nat := fun a =>
  if a.versions.rows.any (·.value.name == value.name) then (.error (.duplicate .version), a)
  else (.ok a.versions.nextId, { a with versions := a.versions.insert value })

/-- Writes the row of a table. -/
def tableRow (value : TableRow) : Writing Nat := fun a =>
  if a.tables.rows.any fun row =>
      row.value.version == value.version && row.value.name == value.name then
    (.error (.duplicate .table), a)
  else (.ok a.tables.nextId, { a with tables := a.tables.insert value })

/-- Writes the row of a column. -/
def columnRow (value : ColumnRow) : Writing Nat := fun a =>
  if a.columns.rows.any fun row =>
      row.value.table == value.table && row.value.column.name == value.column.name then
    (.error (.duplicate .column), a)
  else (.ok a.columns.nextId, { a with columns := a.columns.insert value })

/-- Writes the row of a constraint. -/
def constraintRow (value : ConstraintRow) : Writing Nat := fun a =>
  (.ok a.constraints.nextId, { a with constraints := a.constraints.insert value })

/-- Writes the row of a reference. -/
def referenceRow (value : ReferenceRow) : Writing Nat := fun a =>
  (.ok a.references.nextId, { a with references := a.references.insert value })

/-- Writes the members of a constraint, in order. -/
def members (constraint : Nat) (columns : List Nat) : Writing Unit := fun a =>
  let rows : List MemberRow :=
    columns.mapIdx fun i column => { constraint, column, order := i + 1 }
  (.ok (), { a with members := a.members.insertAll rows })

/-- Writes the targets of a reference, in order. -/
def targets (reference : Nat) (columns : List Nat) : Writing Unit := fun a =>
  let rows : List TargetRow :=
    columns.mapIdx fun i column => { reference, column, order := i + 1 }
  (.ok (), { a with targets := a.targets.insertAll rows })

/-! ## First round: tables and columns -/

/-- Writes columns of a table, the first of which has the place `order`. -/
def columns (table : Nat) : (order : Nat) → List Column → Writing (List (String × Nat))
  | _, [] => return []
  | order, c :: cs => do
    let id ← columnRow { table, column := c, order }
    let ids ← columns table (order + 1) cs
    return (c.name, id) :: ids

/-- Writes a table with its columns. -/
def table (version : Nat) (t : Table) : Writing WrittenTable := do
  let id ← tableRow { version, name := t.name }
  let columnIds ← columns id 1 t.columns
  return { table := t, id, columnIds }

/-! ## Second round: constraints and what they refer to -/

/-- Writes what a foreign key refers to. -/
def reference (written : List WrittenTable) (owner : WrittenTable) (constraint : Nat)
    (name : String) (target : Reference) : Writing Unit := do
  match written.find? (·.table.name == target.table) with
  | none => throw (.unresolvedReference owner.table.name name target.table)
  | some referenced => do
    let id ← referenceRow { constraint, table := referenced.id }
    targets id (referenced.idsOf target.columns)

/-- Writes a constraint of the table `owner`. -/
def constraint (written : List WrittenTable) (owner : WrittenTable) (c : Constraint) :
    Writing Unit := do
  let id ← constraintRow { table := owner.id, name := c.name?, kind := c.kind.text }
  members id (owner.idsOf c.columns)
  match c.reference? with
  | none => return ()
  | some target => reference written owner id (c.name?.getD "") target

/-- Writes the constraints of all tables. -/
def constraints (written : List WrittenTable) : Writing Unit :=
  written.forM fun owner => owner.table.constraints.forM (constraint written owner)

/-- Writes a whole schema as a version, and gives the number of the version. -/
def schema (value : VersionRow) (tables : List Table) : Writing Nat := do
  let id ← version value
  let written ← tables.mapM (table id)
  constraints written
  return id

end Writing

/-! ## Transactions -/

/-- A transaction: the archive as it was when the transaction began, and as it is within. -/
structure Transaction where
  before : Archive
  within : Archive

namespace Transaction

/-- Carries out a step of writing.  The transaction goes on from where the step leaves off, also
when it fails. -/
def carryOut {ε α : Type} (t : Transaction) (p : ExceptT ε (StateM Archive) α) :
    Except ε α × Transaction :=
  let (result, within) := p t.within
  (result, { t with within })

/-- Ends the transaction and keeps what was written. -/
def commit (t : Transaction) : Archive :=
  t.within

/-- Ends the transaction and gives up what was written, rows and numbers. -/
def rollback (t : Transaction) : Archive :=
  t.before

end Transaction

namespace Archive

/-- Begins a transaction. -/
def begin (a : Archive) : Transaction where
  before := a
  within := a

/-- The version that has just been stored under this number. -/
def readBack (a : Archive) (id : Nat) : Except StoreError Version :=
  match a.get? id with
  | .error e => .error e
  | .ok none => .error .notFound
  | .ok (some v) => .ok v

/-- Stores a schema as a new version, and gives the version as it is read back. -/
def store (a : Archive) (value : VersionRow) (tables : List Table) :
    Except StoreError Version × Archive :=
  match a.begin.carryOut (Writing.schema value tables) with
  | (.error e, t) => (.error e, t.rollback)
  | (.ok id, t) => (t.commit.readBack id, t.commit)

/-- Stores the schema of a script as a new version. -/
def importScript (a : Archive) (value : VersionRow) (script : String) :
    Except StoreError Version × Archive :=
  match readScript script with
  | .error e => (.error (.parse e), a)
  | .ok tables => a.store value tables

end Archive

end SchemaArchive
