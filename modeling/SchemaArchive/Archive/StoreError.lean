import SchemaArchive.Schema.Constraint
import SchemaArchive.Script.ParseError

/-!
# Why an archive fails

A script may not be readable, a name may be taken, or a foreign key may refer to a table that is
not part of the schema.  A version may not be readable either: the text that stands for the kind of
a constraint may be unknown, and a version that has just been stored may not be there.

* `StoreError.causes` — what lies behind the message of an error, step by step.
-/

namespace SchemaArchive

/-- The names that have to be unique: of versions in the archive, of tables in a version, and of
columns in a table. -/
inductive UniqueName where
  | version
  | table
  | column
  deriving DecidableEq, Repr

/-- The places where names have to differ. -/
def UniqueName.text : UniqueName → String
  | version => "schema_versions.version_name"
  | table => "schema_tables.schema_version_id, schema_tables.table_name"
  | column => "schema_fields.table_id, schema_fields.field_name"

/-- Why a version cannot be stored or loaded. -/
inductive StoreError where
  /-- The script cannot be read. -/
  | parse (error : ParseError)
  /-- A foreign key refers to a table that is not part of the schema. -/
  | unresolvedReference (table constraint target : String)
  /-- A name is taken. -/
  | duplicate (names : UniqueName)
  /-- The text that stands for the kind of a constraint is unknown. -/
  | unknownKind (error : UnknownConstraintKind)
  /-- The version that has been stored is not found again. -/
  | notFound
  deriving DecidableEq, Repr

/-- How a failure that the database reports is introduced. -/
def databaseReport (detail : String) : String :=
  "error returned from database: " ++ detail

/-- How a failure to read a value is introduced. -/
def decodingReport (column detail : String) : String :=
  "error occurred while decoding column " ++ column ++ ": " ++ detail

/-- How any failure to keep or to find data is introduced. -/
def persistenceReport (detail : String) : String :=
  "Persistence error: " ++ detail

/-- What is said about names that are not unique. -/
def UniqueName.violation (names : UniqueName) : String :=
  "(code: 2067) UNIQUE constraint failed: " ++ names.text

/-- What is said about a row that has to be there and is not. -/
def noRows : String :=
  "no rows returned by a query that expected to return at least one row"

namespace StoreError

/-- What is said about a version that cannot be stored or loaded. -/
def message : StoreError → String
  | parse error => error.message
  | unresolvedReference table constraint target =>
    "Foreign key " ++ constraint ++ " on table " ++ table ++ " references unknown table " ++ target
  | duplicate names => persistenceReport (databaseReport names.violation)
  | unknownKind error => persistenceReport (decodingReport "constraint_type" error.message)
  | notFound => persistenceReport noRows

/-- What lies behind the message, from the outside in. -/
def causes : StoreError → List String
  | duplicate names => [databaseReport names.violation, names.violation]
  | unknownKind error => [decodingReport "constraint_type" error.message, error.message]
  | notFound => [noRows]
  | _ => []

end StoreError

end SchemaArchive
