import SchemaArchive.Archive.Delete
import SchemaArchive.Archive.Store
import SchemaArchive.Script.Render

/-!
# Operations on an archive

What one can ask of an archive, and what it answers.  `Archive.perform` carries out one
operation, `Archive.run` several in a row.
-/

namespace SchemaArchive

/-- What one can ask of an archive. -/
inductive Operation where
  /-- Store the schema of a script as a new version. -/
  | importScript (script name : String) (description : Option String)
  /-- Store a schema as a new version. -/
  | store (tables : List Table) (name : String) (description : Option String)
  /-- Load the version with this number. -/
  | get (id : Int)
  /-- Load the version of this name. -/
  | getByName (name : String)
  /-- List all versions. -/
  | list
  /-- Delete the version with this number. -/
  | delete (id : Int)
  /-- Write the version with this number as a script. -/
  | script (id : Int)
  /-- Give the schema of the version with this number. -/
  | tables (id : Int)
  deriving DecidableEq, Repr

/-- What an archive answers. -/
inductive Answer where
  | stored (version : Version)
  | failed (error : StoreError)
  | found (version : Option Version)
  | listed (versions : List VersionSummary)
  | deleted (there : Bool)
  | script (text : Option String)
  | tables (tables : Option (List Table))
  deriving DecidableEq, Repr

/-- The answer to an operation that may fail. -/
def Answer.of {α : Type} (answer : α → Answer) : Except StoreError α → Answer
  | .ok x => answer x
  | .error e => .failed e

/-- Carries out an operation at a given time. -/
def Archive.perform (a : Archive) (time : String) : Operation → Answer × Archive
  | .importScript script name description =>
    let (result, a) := a.importScript { name, description, createdAt := time } script
    (.of .stored result, a)
  | .store tables name description =>
    let (result, a) := a.store { name, description, createdAt := time } tables
    (.of .stored result, a)
  | .get id => (.of .found (a.get? id), a)
  | .getByName name => (.of .found (a.getByName? name), a)
  | .list => (.listed a.list, a)
  | .delete id =>
    let (there, a) := a.delete id
    (.deleted there, a)
  | .script id => (.of (fun v => .script (v.map fun v => renderScript v.toTables)) (a.get? id), a)
  | .tables id => (.of (fun v => .tables (v.map Version.toTables)) (a.get? id), a)

/-- Carries out operations one after another, each at its time, and gives all the answers. -/
def Archive.run (a : Archive) : List (String × Operation) → List Answer × Archive
  | [] => ([], a)
  | (time, operation) :: operations =>
    let (answer, a) := a.perform time operation
    let (answers, a) := a.run operations
    (answer :: answers, a)

end SchemaArchive
