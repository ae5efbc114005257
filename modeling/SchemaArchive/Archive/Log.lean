import SchemaArchive.Archive.Operation
import SchemaArchive.Text.Visible

/-!
# The log of an archive

What operations write to the log: a version that has been stored or deleted, and writing that is
rolled back.  Which entries are shown is for others to say, by their level or by anything else.
Entries that only help to find errors are not part of it.

* `Archive.logOf` — the entries of an operation.
-/

namespace SchemaArchive

/-- How much an entry of the log matters. -/
inductive LogLevel where
  | information
  | warning
  deriving DecidableEq, Repr

/-- The word for a level. -/
def LogLevel.text : LogLevel → String
  | information => "INFO"
  | warning => "WARN"

/-- An entry of the log. -/
inductive LogEntry where
  /-- A version could not be written, and what was written is given up. -/
  | rollingBack (name error : String)
  /-- A version of so many tables has been stored. -/
  | stored (name : String) (id tables : Nat)
  /-- A version has been deleted. -/
  | deleted (id : Int)
  deriving DecidableEq, Repr

namespace LogEntry

/-- How much the entry matters. -/
def level : LogEntry → LogLevel
  | rollingBack _ _ => .warning
  | _ => .information

/-- The part of the program that the entries come from. -/
def source : String :=
  "ddlgraph::store"

/-- What the entry says. -/
def text : LogEntry → String
  | rollingBack name error =>
    "rolling back schema import version=" ++ Text.visible name ++ " error=" ++ error
  | stored name id tables =>
    "stored schema version version=" ++ Text.visible name ++ " id=" ++ toString id ++
      " tables=" ++ toString tables
  | deleted id => "deleted schema version id=" ++ toString id

end LogEntry

namespace Archive

/-- The entry about a schema that is stored as a new version, or is not. -/
def logOfStoring (a : Archive) (value : VersionRow) (tables : List Table) : LogEntry :=
  match (a.begin.carryOut (Writing.schema value tables)).1 with
  | .error e => .rollingBack value.name e.message
  | .ok id => .stored value.name id tables.length

/-- The entries of an operation.  A script that cannot be read is not written at all. -/
def logOf (a : Archive) (time : String) : Operation → List LogEntry
  | .importScript script name description =>
    match readScript script with
    | .error _ => []
    | .ok tables => [a.logOfStoring { name, description, createdAt := time } tables]
  | .store tables name description =>
    [a.logOfStoring { name, description, createdAt := time } tables]
  | .delete id => if (a.delete id).1 then [.deleted id] else []
  | _ => []

end Archive

end SchemaArchive
