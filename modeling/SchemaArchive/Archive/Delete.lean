import SchemaArchive.Archive.Basic

/-!
# Deleting versions

Deleting a version removes its row and then, relation by relation, every row that names a row
which is no longer there.

* `Archive.delete` — deletes a version, and says whether there was one.
-/

namespace SchemaArchive.Archive

/-- Is there a version with this number? -/
def hasVersion (a : Archive) (id : Int) : Bool :=
  a.versions.rows.any fun row => (row.id : Int) == id

/-- The archive without the rows that name a row which is not there. -/
def withoutOrphans (a : Archive) : Archive :=
  let tables := a.tables.keep fun row => a.versions.has row.value.version
  let columns := a.columns.keep fun row => tables.has row.value.table
  let constraints := a.constraints.keep fun row => tables.has row.value.table
  let members := a.members.keep fun row =>
    constraints.has row.value.constraint && columns.has row.value.column
  let references := a.references.keep fun row =>
    constraints.has row.value.constraint && tables.has row.value.table
  let targets := a.targets.keep fun row =>
    references.has row.value.reference && columns.has row.value.column
  { a with tables, columns, constraints, members, references, targets }

/-- Deletes the version with this number and all that it owns, and says whether it was there. -/
def delete (a : Archive) (id : Int) : Bool × Archive :=
  if a.hasVersion id then
    (true, { a with versions := a.versions.keep fun row => (row.id : Int) != id }.withoutOrphans)
  else (false, a)

end SchemaArchive.Archive
