import SchemaArchive.Archive.Saved
import SchemaArchive.CommandLine.Run
import Std.Time

/-!
# The program

Collects what a run depends on — the environment, the time, and the files that it may look at —
lets `SchemaArchive.run` do the work, and puts the archives and the output where they belong.

A filter of the log is read as a list of levels, each for all entries or for those of one source;
the last one that applies to an entry counts.
-/

namespace SchemaArchive.Program

/-- The present time, in UTC. -/
def now : IO String := do
  let time ← Std.Time.Timestamp.now
  let utc := Std.Time.DateTime.ofTimestamp time Std.Time.TimeZone.ZoneRules.UTC
  return utc.format "uuuu-MM-dd'T'HH:mm:ss.SSSSSSSSSxxx"

/-- The variables of the environment that matter. -/
def environment : IO (String → Option String) := do
  let names := ["DDLGRAPH_DATABASE_URL", "DDLGRAPH_MAX_CONNECTIONS", "DDLGRAPH_LOG"]
  let values ← names.mapM fun name => return (name, ← IO.getEnv name)
  return fun name => (values.lookup name).join

/-- What bytes of a file hold. -/
def contentOf (bytes : ByteArray) : FileContent :=
  match (String.fromUTF8? bytes).bind Archive.ofText? with
  | some archive => .archive archive
  | none => .bytes bytes

/-- Is there a directory at this path? -/
def isDirectory (path : String) : IO Bool := do
  match ← (IO.FS.realPath path).toBaseIO with
  | .ok real => real.isDir
  | .error _ => return false

/-- What is found at a place. -/
def look (p : Path) : IO Entry := do
  if ← isDirectory p.text then return .directory
  match ← (IO.FS.readBinFile p.text).toBaseIO with
  | .ok bytes => return .file (contentOf bytes)
  | .error _ => return .nothing

/-- The part of the disk that a run may look at. -/
def workspace (places : List Path) : IO Workspace := do
  let entries ← places.eraseDups.mapM fun p => return (p, ← look p)
  let files := entries.filterMap fun
    | (p, .file content) => some (p, content)
    | _ => none
  let directories := entries.filterMap fun
    | (p, .directory) => some p
    | _ => none
  return { files, directories }

/-- Puts the files that a run has made or changed on the disk. -/
def save (before after : Workspace) : IO Unit :=
  after.files.forM fun file => do
    unless before.files.contains file do
      match file with
      | (p, .archive archive) => IO.FS.writeFile p.text archive.toText
      | (p, .bytes bytes) => IO.FS.writeBinFile p.text bytes

/-- The entries that the word for a level lets through. -/
def levelTest? (word : String) : Option (LogEntry → Bool) :=
  match word.toLower with
  | "off" | "error" => some fun _ => false
  | "warn" => some fun entry => entry.level == .warning
  | "info" | "debug" | "trace" => some fun _ => true
  | _ => none

/-- What one part of a filter says about the entries that it applies to. -/
def directive? (part : String) : Option (LogEntry → Option Bool) :=
  match part.splitOn "=" with
  | [level] => (levelTest? level).map fun test entry => some (test entry)
  | [source, level] => (levelTest? level).map fun test entry =>
      if source.isPrefixOf LogEntry.source then some (test entry) else none
  | _ => none

/-- The entries that a filter lets through. -/
def filterReader : FilterReader := fun text => do
  let directives ← (text.splitOn ",").mapM directive?
  return fun entry => (directives.filterMap (· entry)).getLast?.getD false

/-- An entry of the log as a line. -/
def logLine (time : String) (entry : LogEntry) : String :=
  line (time ++ " " ++ entry.level.text ++ " " ++ LogEntry.source ++ ": " ++ entry.text)

end SchemaArchive.Program

def main (arguments : List String) : IO UInt32 := do
  let env ← SchemaArchive.Program.environment
  let before ← SchemaArchive.Program.workspace (SchemaArchive.placesOf env arguments)
  let time ← SchemaArchive.Program.now
  let filters := SchemaArchive.Program.filterReader
  let (outcome, after) := SchemaArchive.run filters before env time arguments
  SchemaArchive.Program.save before after
  (← IO.getStdout).putStr outcome.stdout
  let log := outcome.log.map (SchemaArchive.Program.logLine time)
  (← IO.getStderr).putStr (String.join log ++ outcome.report)
  return outcome.exitCode.toUInt32
