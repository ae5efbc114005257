import SchemaArchive.Archive.Exchange
import SchemaArchive.Archive.Log
import SchemaArchive.CommandLine.Arguments
import SchemaArchive.CommandLine.Help
import SchemaArchive.Json.Printer
import SchemaArchive.Schema.Exchange
import SchemaArchive.Settings
import SchemaArchive.Workspace.Opening

/-!
# Running a command

A run of the program takes its arguments, the environment and the workspace, and gives what it
prints, the code with which it ends, and the workspace as it leaves it.  The arguments are read
first, then the settings; parsing a script needs nothing but its file, and every other command
opens the archive, after that reads its file if it has one, and carries out one operation.  What is
shown of the log depends on how its filter is understood, which is for others to say.

* `run` — a whole run.
* `Command.operation` — the operation that a command stands for.
-/

namespace SchemaArchive

/-- What a run prints, and the code with which it ends.  On standard error come first the entries
of the log, and then the report of what went wrong. -/
structure Outcome where
  exitCode : Nat
  stdout : String := ""
  log : List LogEntry := []
  report : String := ""
  deriving DecidableEq, Repr

/-- Why a run fails: what happened, and what lies behind it, from the outside in. -/
structure Failure where
  message : String
  causes : List String := []
  deriving DecidableEq, Repr

namespace Failure

/-- A cause with its lines indented.  Of several causes each has its number in front. -/
def causeText (number : Option Nat) (cause : String) : List Char :=
  let first :=
    match number with
    | some n => "    ".toList ++ (toString n).toList ++ ": ".toList
    | none => "    ".toList
  let next := (if number.isSome then "       " else "    ").toList
  '\n' :: (first ++ cause.toList.flatMap fun c => if c == '\n' then '\n' :: next else [c])

/-- The causes of a failure, under a heading. -/
def causesText : List String → List Char
  | [] => []
  | [cause] => "\n\nCaused by:".toList ++ causeText none cause
  | causes =>
    "\n\nCaused by:".toList ++ (causes.mapIdx fun i cause => causeText (some i) cause).flatten

/-- The text that reports a failure. -/
def text (f : Failure) : String :=
  "Error: " ++ f.message ++ String.ofList (causesText f.causes) ++ "\n"

/-- The outcome of a run that fails. -/
def outcome (f : Failure) : Outcome where
  exitCode := 1
  report := f.text

/-- The failure to read a script. -/
def ofReadError (path : String) (e : ReadError) : Failure where
  message := "Failed to read " ++ path
  causes := [e.message]

/-- The failure to open an archive. -/
def ofOpenError (url : String) (e : OpenError) : Failure where
  message := "Failed to open " ++ url
  causes := e.causes

/-- The failure to store a version. -/
def ofStoreError (e : StoreError) : Failure where
  message := e.message
  causes := e.causes

/-- The failure to change an archive that may not be changed. -/
def readOnly : Failure where
  message := persistenceReport (databaseReport readOnlyDetail)
  causes := [databaseReport readOnlyDetail, readOnlyDetail]

end Failure

/-- A text that is a line of its own. -/
def line (text : String) : String :=
  text ++ "\n"

/-- The line that a list has for a version. -/
def VersionSummary.line (v : VersionSummary) : String :=
  SchemaArchive.line
    (toString v.id ++ "\t" ++ v.name ++ "\t" ++ v.createdAt ++ "\t" ++ v.description.getD "")

/-- A version as it is printed. -/
def Version.print (v : Version) : PrintFormat → String
  | .json => line (String.ofList v.toJson.pretty)
  | .script => renderScript v.toTables

/-- The tables of a script as they are printed. -/
def printTables (tables : List Table) (pretty : Bool) : String :=
  let v := Table.listToJson tables
  line (String.ofList (if pretty then v.pretty else v.compact))

namespace Command

/-- Prints the tables of a script. -/
def parseFile (w : Workspace) (file : String) (pretty : Bool) : Except Failure String :=
  match w.readScript file with
  | .error e => .error (.ofReadError file e)
  | .ok script =>
    match readScript script with
    | .error e => .error { message := e.message }
    | .ok tables => .ok (printTables tables pretty)

/-- The operation on the archive that a command stands for.  Parsing a script is none. -/
def operation (w : Workspace) : Command → Except Failure (Option Operation)
  | parse _ _ => .ok none
  | importFile file name description =>
    match w.readScript file with
    | .error e => .error (.ofReadError file e)
    | .ok script => .ok (some (.importScript script name description))
  | print (.byId id) _ => .ok (some (.get id))
  | print (.byName name) _ => .ok (some (.getByName name))
  | list => .ok (some .list)
  | delete id => .ok (some (.delete id))

/-- What a command prints for the archive's answer. -/
def report (c : Command) : Answer → Except Failure String
  | .stored v => .ok (line (toString v.id))
  | .failed e => .error (.ofStoreError e)
  | .found none => .error { message := "Schema version not found" }
  | .found (some v) =>
    match c with
    | print _ format => .ok (v.print format)
    | _ => .ok ""
  | .listed versions => .ok (String.join (versions.map VersionSummary.line))
  | .deleted true => .ok ""
  | .deleted false =>
    match c with
    | delete id => .error { message := "Schema version " ++ toString id ++ " not found" }
    | _ => .ok ""
  | .script _ | .tables _ => .ok ""

/-- The failure of an operation that would change an archive.  A script is read before anything
is changed. -/
def refusal? : Operation → Option Failure
  | .importScript script _ _ =>
    match readScript script with
    | .error e => some (.ofStoreError (.parse e))
    | .ok _ => some .readOnly
  | .store _ _ _ | .delete _ => some .readOnly
  | _ => none

/-- Carries out a command on an open archive at a given time. -/
def onArchive (c : Command) (w : Workspace) (time : String) (o : OpenArchive) :
    Except Failure String × Archive :=
  match c.operation w with
  | .error f => (.error f, o.archive)
  | .ok none => (.ok "", o.archive)
  | .ok (some operation) =>
    match if o.write then none else refusal? operation with
    | some f => (.error f, o.archive)
    | none =>
      let (answer, a) := o.archive.perform time operation
      (c.report answer, a)

/-- The entry of the log about an operation that would change an archive, which may not be
changed. -/
def refusalLog : Operation → List LogEntry
  | .importScript script name _ =>
    match readScript script with
    | .error _ => []
    | .ok _ => [.rollingBack name Failure.readOnly.message]
  | .store _ name _ => [.rollingBack name Failure.readOnly.message]
  | _ => []

/-- The entries of the log for a command on an open archive. -/
def logOnArchive (c : Command) (w : Workspace) (time : String) (o : OpenArchive) : List LogEntry :=
  match c.operation w with
  | .ok (some operation) =>
    match if o.write then none else refusal? operation with
    | some _ => refusalLog operation
    | none => o.archive.logOf time operation
  | _ => []

/-- The entries of the log for a command with the archive at an address. -/
def log (c : Command) (w : Workspace) (time url : String) : List LogEntry :=
  match c with
  | parse _ _ => []
  | _ =>
    match w.openArchive url with
    | (.error _, _) => []
    | (.ok o, w) => c.logOnArchive w time o

/-- Carries out a command with the archive at an address. -/
def perform (c : Command) (w : Workspace) (time url : String) :
    Except Failure String × Workspace :=
  match c with
  | parse file pretty => (parseFile w file pretty, w)
  | _ =>
    match w.openArchive url with
    | (.error e, w) => (.error (.ofOpenError url e), w)
    | (.ok o, w) =>
      let (result, a) := c.onArchive w time o
      (result, w.keep o a)

end Command

/-- How filters of the log are understood: which entries the text of a filter lets through, if it
is one. -/
abbrev FilterReader := String → Option (LogEntry → Bool)

/-- The entries that a filter lets through.  A text that is no filter lets all of these through. -/
def shownEntries (filters : FilterReader) (filter : String) (entries : List LogEntry) :
    List LogEntry :=
  match filters filter with
  | some test => entries.filter test
  | none => entries

/-- The outcome of a result, with the entries of the log. -/
def outcomeOf (log : List LogEntry) : Except Failure String → Outcome
  | .ok text => { exitCode := 0, stdout := text, log }
  | .error f => { f.outcome with log }

/-- A run of the program at a given time. -/
def run (filters : FilterReader) (w : Workspace) (env : String → Option String) (time : String)
    (arguments : List String) : Outcome × Workspace :=
  match Request.ofArguments arguments with
  | .error e => ({ exitCode := 2, report := line ("error: " ++ e.message) }, w)
  | .ok .programVersion => ({ exitCode := 0, stdout := line "ddlgraph 0.1.0" }, w)
  | .ok (.help topic) => ({ exitCode := 0, stdout := topic.page.text }, w)
  | .ok (.command databaseUrl c) =>
    match Settings.load env with
    | .error e => (({ message := e.message : Failure }).outcome, w)
    | .ok settings =>
      let url := databaseUrl.getD settings.databaseUrl
      let log := shownEntries filters settings.logFilter (c.log w time url)
      let (result, w) := c.perform w time url
      (outcomeOf log result, w)

/-- The file that a command reads. -/
def Command.scriptPath? : Command → Option String
  | parse file _ => some file
  | importFile file _ _ => some file
  | _ => none

/-- The files and directories that a run may look at. -/
def placesOf (env : String → Option String) (arguments : List String) : List Path :=
  match Request.ofArguments arguments, Settings.load env with
  | .ok (.command databaseUrl c), .ok settings =>
    let archive? :=
      match Location.ofUrl (databaseUrl.getD settings.databaseUrl) with
      | .ok location => location.file?
      | .error _ => none
    (c.scriptPath?.toList ++ archive?.toList).flatMap fun path =>
      Path.passed (Path.start path) (Path.names path)
  | _, _ => []

end SchemaArchive
