import SchemaArchive.CommandLine.Run
import SchemaArchive.Proofs.Archive.JsonText
import SchemaArchive.Proofs.Archive.Pairing
import SchemaArchive.Proofs.Archive.Registry

/-!
# What commands print

A command that concerns an archive asks it one thing, and prints what it is answered: the number of
a version that is new, a version as JSON or as a script, one line for each version, or a report of
what went wrong.  What it writes to the log is about this question and this answer.

* `Command.asks?` — the operation that a command asks for.
* `Command.Prints` — what is printed for an answer, and with which code; `Command.prints_report`.
* `LogEntry.Tells` — what an entry of the log says of an answer; `Archive.tells_of_mem_logOf`.
-/

namespace SchemaArchive

/-! ## Operations and their answers -/

/-- Can the operation change an archive? -/
def Operation.writes : Operation → Bool
  | .importScript _ _ _ | .store _ _ _ | .delete _ => true
  | _ => false

/-- Has the archive done what it was asked?  It has stored a version, or it has found the one that
is meant. -/
def Answer.succeeds : Answer → Bool
  | .stored _ | .listed _ => true
  | .found version => version.isSome
  | .deleted there => there
  | _ => false

/-- What an operation that changes nothing leaves. -/
theorem Archive.perform_of_not_writes {operation : Operation} (h : operation.writes = false)
    (a : Archive) (time : String) : (a.perform time operation).2 = a := by
  cases operation with
  | importScript | store | delete => cases h
  | _ => rfl

theorem Command.refusal?_eq_none_iff (operation : Operation) :
    refusal? operation = none ↔ operation.writes = false := by
  cases operation with
  | importScript script name description =>
    cases h : readScript script <;> simp [refusal?, Operation.writes, h]
  | _ => simp [refusal?, Operation.writes]

namespace Command

/-- Does the command do without an archive? -/
def isParse : Command → Bool
  | parse _ _ => true
  | _ => false

/-- The operation that a command asks for, if the file that it names can be read. -/
def asks? (c : Command) (w : Workspace) : Option Operation :=
  match c with
  | parse _ _ => none
  | importFile file name description =>
    match w.readScript file with
    | .ok script => some (.importScript script name description)
    | .error _ => none
  | print (.byId id) _ => some (.get id)
  | print (.byName name) _ => some (.getByName name)
  | list => some .list
  | delete id => some (.delete id)

variable {c : Command} {w : Workspace} {operation : Operation}

theorem operation_of_asks? (h : c.asks? w = some operation) :
    c.operation w = .ok (some operation) := by
  cases c with
  | parse => cases h
  | importFile file name description =>
    cases hread : w.readScript file with
    | error e => simp [asks?, hread] at h
    | ok script => simpa [asks?, Command.operation, hread] using h
  | print choice format => cases choice <;> exact congrArg Except.ok h
  | list => exact congrArg Except.ok h
  | delete id => exact congrArg Except.ok h

theorem not_parse_of_asks? (h : c.asks? w = some operation) : c.isParse = false := by
  cases c with
  | parse => cases h
  | _ => rfl

/-- Only the file can keep a command from its operation. -/
theorem operation_of_asks?_eq_none (hc : c.isParse = false) (h : c.asks? w = none) :
    ∃ f, c.operation w = .error f := by
  cases c with
  | parse => cases hc
  | importFile file name description =>
    cases hread : w.readScript file with
    | error e => exact ⟨_, by rw [Command.operation, hread]⟩
    | ok script => simp [asks?, hread] at h
  | print choice format => cases choice <;> cases h
  | list => cases h
  | delete id => cases h

end Command

/-! ## Output -/

namespace Outcome

/-- The run succeeds, and prints this text. -/
def Gives (o : Outcome) (text : String) : Prop :=
  o.exitCode = 0 ∧ o.stdout = text ∧ o.report = ""

/-- The run fails, and reports this message, with what lies behind it. -/
def Fails (o : Outcome) (message behind : String) : Prop :=
  o.exitCode = 1 ∧ o.stdout = "" ∧ o.report = "Error: " ++ message ++ behind ++ "\n"

/-- The run succeeds, and prints the version: a JSON text that holds all of it, or the script of its
schema. -/
def Shows (o : Outcome) (v : Version) : PrintFormat → Prop
  | .json => ∃ text, o.Gives (text ++ "\n") ∧ Version.ofText? text = some v
  | .script => o.Gives (renderScript v.toTables)

theorem Shows.exitCode {o : Outcome} {v : Version} {format : PrintFormat}
    (h : o.Shows v format) : o.exitCode = 0 := by
  cases format with
  | json =>
    obtain ⟨_, hgives, _⟩ := h
    exact hgives.1
  | script => exact h.1

end Outcome

theorem outcomeOf_ok_gives (log : List LogEntry) (text : String) :
    (outcomeOf log (.ok text)).Gives text :=
  ⟨rfl, rfl, rfl⟩

theorem outcomeOf_error_fails (log : List LogEntry) (f : Failure) :
    (outcomeOf log (.error f)).Fails f.message (String.ofList (Failure.causesText f.causes)) :=
  ⟨rfl, rfl, rfl⟩

namespace Command

/-- What a run prints for the answer to a command, and the code with which it ends. -/
def Prints : Command → Answer → Outcome → Prop
  | importFile _ _ _, .stored v, o => o.Gives (toString v.id ++ "\n")
  | print _ format, .found (some v), o => o.Shows v format
  | print _ _, .found none, o => o.Fails "Schema version not found" ""
  | list, .listed versions, o =>
    o.Gives (String.join (versions.map fun v =>
      toString v.id ++ "\t" ++ v.name ++ "\t" ++ v.createdAt ++ "\t" ++ v.description.getD ""
        ++ "\n"))
  | delete _, .deleted true, o => o.Gives ""
  | delete id, .deleted false, o => o.Fails ("Schema version " ++ toString id ++ " not found") ""
  | importFile _ _ _, .failed e, o | print _ _, .failed e, o => ∃ behind, o.Fails e.message behind
  | _, _, _ => False

/-- A run ends with the code 0 if and only if the archive has done what it was asked. -/
theorem Prints.exitCode_eq_zero_iff {c : Command} {answer : Answer} {o : Outcome}
    (h : c.Prints answer o) : o.exitCode = 0 ↔ answer.succeeds = true := by
  fun_cases Prints c answer o with
  | case2 => simpa [Answer.succeeds] using Outcome.Shows.exitCode h
  | _ => simp_all [Prints, Outcome.Gives, Outcome.Fails, Answer.succeeds]

variable {c : Command} {w : Workspace} {operation : Operation}

/-- A command that prints a version prints all of it. -/
theorem prints_found (choice : VersionChoice) (format : PrintFormat) (log : List LogEntry)
    (result : Except StoreError (Option Version)) :
    (print choice format).Prints (.of .found result)
      (outcomeOf log ((print choice format).report (.of .found result))) := by
  rcases result with e | _ | v
  · exact ⟨_, outcomeOf_error_fails log _⟩
  · exact outcomeOf_error_fails log _
  · cases format with
    | json => exact ⟨_, outcomeOf_ok_gives log _, Version.ofText?_pretty v⟩
    | script => exact outcomeOf_ok_gives log _

/-- The answer to the operation that a command asks for is one that the command knows. -/
theorem prints_report (h : c.asks? w = some operation) (a : Archive) (time : String)
    (log : List LogEntry) :
    c.Prints (a.perform time operation).1
      (outcomeOf log (c.report (a.perform time operation).1)) := by
  cases c with
  | parse => cases h
  | importFile file name description =>
    cases hread : w.readScript file with
    | error e => simp [asks?, hread] at h
    | ok script =>
      obtain rfl : Operation.importScript script name description = operation := by
        simpa [asks?, hread] using h
      rw [Archive.perform]
      rcases a.importScript { name, description, createdAt := time } script with ⟨e | v, a'⟩
      · exact ⟨_, outcomeOf_error_fails log _⟩
      · exact outcomeOf_ok_gives log _
  | print choice format =>
    cases choice with
    | byId id =>
      obtain rfl := Option.some.inj h
      exact prints_found _ format log (a.get? id)
    | byName name =>
      obtain rfl := Option.some.inj h
      exact prints_found _ format log (a.getByName? name)
  | list =>
    obtain rfl := Option.some.inj h
    exact outcomeOf_ok_gives log _
  | delete id =>
    obtain rfl := Option.some.inj h
    rw [Archive.perform]
    rcases a.delete id with ⟨there, a'⟩
    cases there with
    | true => exact outcomeOf_ok_gives log _
    | false => exact outcomeOf_error_fails log _

end Command

/-! ## The log -/

/-- What an entry of the log says of an operation and the answer to it.  A version that has been
stored may still fail to be read back. -/
def LogEntry.Tells (operation : Operation) (answer : Answer) : LogEntry → Prop
  | stored name id tables =>
    ∃ description schema, operation.label? = some (name, description) ∧
      operation.declared? = some schema ∧ tables = schema.length ∧
      ∀ v, answer = .stored v → v.id = id
  | rollingBack name error =>
    ∃ description e, operation.label? = some (name, description) ∧ answer = .failed e ∧
      error = e.message
  | deleted id => operation = .delete id ∧ answer = .deleted true

namespace Archive

variable {a : Archive} {time : String} {operation : Operation}

theorem id_of_loadVersion {row : Row VersionRow} {v : Version} (h : a.loadVersion row = .ok v) :
    v.id = row.id := by
  rw [loadVersion] at h
  cases hconstraints : a.selectConstraints row.id with
  | error e =>
    rw [hconstraints] at h
    cases h
  | ok constraints =>
    rw [hconstraints] at h
    rw [← Except.ok.inj h]

/-- A version that is read back has the number by which it is asked for. -/
theorem id_of_readBack {id : Nat} {v : Version} (h : a.readBack id = .ok v) : v.id = id := by
  rw [readBack, get?] at h
  cases hfind : a.versions.rows.find? fun row => (row.id : Int) == id with
  | none =>
    rw [hfind] at h
    cases h
  | some row =>
    have hid : row.id = id := Int.ofNat_inj.1 (by simpa using List.find?_some hfind)
    rw [hfind, loadVersion?] at h
    cases hload : a.loadVersion row with
    | error e =>
      rw [hload] at h
      cases h
    | ok loaded =>
      rw [hload] at h
      rw [← hid, ← Except.ok.inj h, id_of_loadVersion hload]

/-- The entry about a schema that is stored says what is answered. -/
theorem tells_logOfStoring (value : VersionRow) (tables : List Table)
    (hlabel : operation.label? = some (value.name, value.description))
    (hdeclared : operation.declared? = some tables) :
    (a.logOfStoring value tables).Tells operation (.of .stored (a.store value tables).1) := by
  rw [logOfStoring, store]
  rcases a.begin.carryOut (Writing.schema value tables) with ⟨e | id, t⟩
  · exact ⟨_, e, hlabel, rfl, rfl⟩
  · refine ⟨_, tables, hlabel, hdeclared, rfl, fun v hv => ?_⟩
    cases hread : t.commit.readBack id with
    | error e => simp [hread, Answer.of] at hv
    | ok w =>
      obtain rfl : w = v := by simpa [hread, Answer.of] using hv
      exact id_of_readBack hread

/-- Every entry of the log about an operation says what is answered. -/
theorem tells_of_mem_logOf {entry : LogEntry} (h : entry ∈ a.logOf time operation) :
    entry.Tells operation (a.perform time operation).1 := by
  cases operation with
  | importScript text name description =>
    cases hread : readScript text with
    | error e => simp [logOf, hread] at h
    | ok tables =>
      obtain rfl : entry = a.logOfStoring { name, description, createdAt := time } tables := by
        simpa [logOf, hread] using h
      have hdeclared : (Operation.importScript text name description).declared? =
          some tables := by
        rw [Operation.declared?, hread]
        rfl
      rw [perform, importScript, hread]
      exact tells_logOfStoring _ tables rfl hdeclared
  | store tables name description =>
    obtain rfl := List.mem_singleton.1 h
    exact tells_logOfStoring { name, description, createdAt := time } tables rfl rfl
  | delete id =>
    cases hthere : (a.delete id).1 with
    | true =>
      obtain rfl : entry = .deleted id := by simpa [logOf, hthere] using h
      exact ⟨rfl, congrArg Answer.deleted hthere⟩
    | false => simp [logOf, hthere] at h
  | _ => cases h

end Archive

end SchemaArchive
