import SchemaArchive.Archive.Relation
import SchemaArchive.Schema.Table

/-!
# The archive

An archive keeps versions of schemas.  A version is spread over seven relations: the versions
themselves, their tables, the tables' columns and constraints, the members of each constraint
(the columns that it constrains), the references of foreign keys, and the targets of each
reference (the columns that it refers to).  Rows name each other by number.
-/

namespace SchemaArchive

/-- A version: its name, which no other version has, and when it was stored. -/
structure VersionRow where
  name : String
  description : Option String
  createdAt : String
  deriving DecidableEq, Repr

/-- A table of a version. -/
structure TableRow where
  version : Nat
  name : String
  deriving DecidableEq, Repr

/-- A column of a table, with its place in it, counted from one. -/
structure ColumnRow where
  table : Nat
  column : Column
  order : Nat
  deriving DecidableEq, Repr

/-- A constraint of a table, with the text of its kind. -/
structure ConstraintRow where
  table : Nat
  name : Option String
  kind : String
  deriving DecidableEq, Repr

/-- A column that a constraint constrains, with its place in the constraint. -/
structure MemberRow where
  constraint : Nat
  column : Nat
  order : Nat
  deriving DecidableEq, Repr

/-- The table that a foreign key refers to. -/
structure ReferenceRow where
  constraint : Nat
  table : Nat
  deriving DecidableEq, Repr

/-- A column that a foreign key refers to, with its place in the reference. -/
structure TargetRow where
  reference : Nat
  column : Nat
  order : Nat
  deriving DecidableEq, Repr

/-- An archive of schema versions. -/
structure Archive where
  versions : Relation VersionRow := {}
  tables : Relation TableRow := {}
  columns : Relation ColumnRow := {}
  constraints : Relation ConstraintRow := {}
  members : Relation MemberRow := {}
  references : Relation ReferenceRow := {}
  targets : Relation TargetRow := {}
  deriving DecidableEq, Repr

/-- The archive in which nothing has ever been stored. -/
def Archive.empty : Archive := {}

end SchemaArchive
