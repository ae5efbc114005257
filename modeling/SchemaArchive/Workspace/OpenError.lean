import SchemaArchive.Archive.StoreError
import SchemaArchive.Text.Utf8
import SchemaArchive.Text.Visible

/-!
# Why an archive cannot be opened

Either its address makes no sense, or the database behind the address cannot be used.  The text
of a failure says which of the two it is before it says what the failure is.
-/

namespace SchemaArchive

/-- Why an archive cannot be opened. -/
inductive OpenError where
  /-- The name of the file, with its percent signs resolved, is no text. -/
  | notUtf8 (fault : Text.Utf8.Fault)
  /-- The address has a parameter that means nothing. -/
  | unknownParameter (name : String)
  /-- The address has a parameter whose value means nothing. -/
  | unknownValue (name value : String)
  /-- There is a NUL in the name of the file. -/
  | nulInName
  /-- The name of the file names a machine. -/
  | foreignAuthority (authority : String)
  /-- The name of the file asks for a way to open it that means nothing. -/
  | unknownMode (sort value : String)
  /-- The name of the file asks for more than the address allows. -/
  | forbiddenMode (value : String)
  /-- There is no such way to reach files. -/
  | unknownFileSystem (name : String)
  /-- There is no place for the file. -/
  | cannotOpen
  /-- The file holds something else. -/
  | notAnArchive
  /-- There is no archive yet, and none may be made. -/
  | readOnly
  deriving DecidableEq, Repr

/-- What is said where something would change that may not be changed. -/
def readOnlyDetail : String :=
  "(code: 8) attempt to write a readonly database"

namespace OpenError

/-- The failure itself. -/
def detail : OpenError → String
  | notUtf8 fault => fault.message
  | unknownParameter name =>
    "unknown query parameter \x60" ++ name ++ "\x60 while parsing connection URL"
  | unknownValue name value =>
    "unknown value " ++ Text.visible value ++ " for \x60" ++ name ++ "\x60"
  | nulInName => "filename passed to SQLite must not contain nul bytes"
  | foreignAuthority authority => "(code: 1) invalid uri authority: " ++ authority
  | unknownMode sort value => "(code: 1) no such " ++ sort ++ " mode: " ++ value
  | forbiddenMode value => "(code: 3) access mode not allowed: " ++ value
  | unknownFileSystem name => "(code: 1) no such vfs: " ++ name
  | cannotOpen => "(code: 14) unable to open database file"
  | notAnArchive => "(code: 26) file is not a database"
  | readOnly => readOnlyDetail

/-- The failure with the part of the program that reports it. -/
def report (e : OpenError) : String :=
  match e with
  | notUtf8 _ | unknownParameter _ | unknownValue _ _ => "error with configuration: " ++ e.detail
  | nulInName => "error communicating with database: " ++ e.detail
  | foreignAuthority _ | unknownMode _ _ | forbiddenMode _ | unknownFileSystem _
  | cannotOpen | notAnArchive | readOnly => databaseReport e.detail

/-- What lies behind an archive that cannot be opened, from the outside in. -/
def causes (e : OpenError) : List String :=
  [persistenceReport e.report, e.report, e.detail]

end OpenError

end SchemaArchive
