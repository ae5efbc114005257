import SchemaArchive.Schema.Constraint

/-!
# Tables of a schema

A schema is a list of tables in the order of their declaration; a table has a name, columns and
constraints.  Names are compared exactly, and nothing here forbids two tables or two columns of
one name: that is for the archive to refuse.
-/

namespace SchemaArchive

/-- A column as declared.  A column admits NULL unless it says otherwise, and `defaultValue` is
the text of its default, `"NULL"` when that was written out. -/
structure Column where
  name : String
  /-- The type with its arguments, for instance `VARCHAR(255)`. -/
  type : String
  unsigned : Bool := false
  nullable : Bool := true
  defaultValue : Option String := none
  autoIncrement : Bool := false
  deriving DecidableEq, Repr

/-- A table as declared. -/
structure Table where
  name : String
  columns : List Column := []
  constraints : List Constraint := []
  deriving DecidableEq, Repr

namespace Table

/-- The first column of exactly this name. -/
def column? (t : Table) (name : String) : Option Column :=
  t.columns.find? (·.name == name)

/-- The table's foreign keys, in order. -/
def foreignKeys (t : Table) : List Constraint :=
  t.constraints.filter Constraint.isForeignKey

/-- The constraints that are not foreign keys, in order. -/
def indexes (t : Table) : List Constraint :=
  t.constraints.filter (!·.isForeignKey)

/-- The name that the `number`-th foreign key of a table gets when it has none of its own. -/
def generatedName (table : String) (number : Nat) : String :=
  table ++ "_ibfk_" ++ toString number

end Table

end SchemaArchive
