import SchemaArchive.Proofs.Archive.Transcript
import SchemaArchive.Proofs.CommandLine.Printing
import SchemaArchive.Proofs.Workspace.Kept

/-!
# Sessions on the command line

In a session the program is run again and again on one database file, and every run finds the file
as the run before has left it; other files may change between the runs.  The runs together do what
one run of an archive does: each run that gets as far as its operation performs it, on the archive
to which the operations of the earlier runs have led, and prints what it is answered.  All other
runs leave the archive as it is, whatever stops them.  How the log is filtered makes no difference.

* `Invocation.operation?` — the operation that a run of the program performs.
* `run_filters` — what the filters of the log have no influence on.
* `Session.refines` — a session is a run of the archive.
-/

namespace SchemaArchive

/-! ## A command on an archive -/

namespace Command

/-- The operation that a command performs on the archive at an address: the one that it asks for,
if the archive can be opened, and may be changed if the operation can do so. -/
def operation? (c : Command) (w : Workspace) (url : String) : Option Operation :=
  match Location.ofUrl url with
  | .error _ => none
  | .ok location =>
    if w.canOpen location then
      (c.asks? (w.openAt location).2).filter fun operation =>
        location.writable || !operation.writes
    else none

variable {c : Command} {w : Workspace} {operation : Operation}
variable {url : String} {o : OpenArchive} {w' : Workspace}

theorem operation?_of_opened (h : w.openArchive url = (.ok o, w')) :
    c.operation? w url =
      (c.asks? w').filter fun operation => o.write || !operation.writes := by
  rw [Workspace.openArchive] at h
  rw [operation?]
  cases hlocation : Location.ofUrl url with
  | error e => simp [hlocation] at h
  | ok location =>
    simp only [hlocation] at h
    rcases w.openAt_cases location with ⟨hcan, o', ho, hwrite⟩ | ⟨-, e, he⟩
    · rw [h] at ho
      obtain rfl := Except.ok.inj ho
      simp only [hcan, if_true, h, hwrite]
    · simp [h] at he

theorem operation?_of_not_opened {e : OpenError} (h : w.openArchive url = (.error e, w')) :
    c.operation? w url = none := by
  rw [Workspace.openArchive] at h
  rw [operation?]
  cases hlocation : Location.ofUrl url with
  | error e => rfl
  | ok location =>
    simp only [hlocation] at h
    rcases w.openAt_cases location with ⟨-, o, ho, -⟩ | ⟨hcannot, -⟩
    · simp [h] at ho
    · simp [hcannot]

theorem not_parse_of_operation? (h : c.operation? w url = some operation) :
    c.isParse = false := by
  rcases hopen : w.openArchive url with ⟨e | o, w'⟩
  · simp [operation?_of_not_opened hopen] at h
  · rw [operation?_of_opened hopen] at h
    exact not_parse_of_asks? (Option.filter_eq_some_iff.1 h).1

variable (time : String) {p : Path} {a : Archive}

/-- A command that stops before its operation fails, and leaves the archive as it is. -/
theorem onArchive_of_none (hc : c.isParse = false)
    (h : (c.asks? w).filter (fun operation => o.write || !operation.writes) = none) :
    ∃ f, c.onArchive w time o = (.error f, o.archive) := by
  cases hasks : c.asks? w with
  | none =>
    obtain ⟨f, hf⟩ := operation_of_asks?_eq_none hc hasks
    exact ⟨f, by rw [onArchive, hf]⟩
  | some operation =>
    obtain ⟨hwrite, hwrites⟩ : o.write = false ∧ operation.writes = true := by
      simpa [hasks, Option.filter] using h
    cases hrefusal : refusal? operation with
    | none => simp [(refusal?_eq_none_iff operation).1 hrefusal] at hwrites
    | some f => exact ⟨f, by simp [onArchive, operation_of_asks? hasks, hwrite, hrefusal]⟩

/-- A command that gets as far as its operation performs it, and logs nothing else. -/
theorem onArchive_of_some
    (h : (c.asks? w).filter (fun operation => o.write || !operation.writes) = some operation) :
    c.onArchive w time o =
        (c.report (o.archive.perform time operation).1, (o.archive.perform time operation).2) ∧
      c.logOnArchive w time o = o.archive.logOf time operation := by
  obtain ⟨hasks, hallowed⟩ := Option.filter_eq_some_iff.1 h
  have hrefusal : (if o.write then none else refusal? operation) = none := by
    cases hwrite : o.write with
    | true => rfl
    | false => exact (refusal?_eq_none_iff operation).2 (by simpa [hwrite] using hallowed)
  have hoperation : c.operation w = .ok (some operation) := operation_of_asks? hasks
  exact ⟨by simp only [onArchive, hoperation, hrefusal],
    by simp only [logOnArchive, hoperation, hrefusal]⟩

/-- Opening the archive at an address that leads to a place finds the archive there, and leaves it
there in any case. -/
theorem archive_openArchive
    (hleads : ∀ location, Location.ofUrl url = .ok location → w.leadsTo p location = true)
    (ha : (w.entry p).archive? = some a) :
    ((w.openArchive url).2.entry p).archive? = some a ∧
      ∀ o, (w.openArchive url).1 = .ok o → o.archive = a ∧ o.place = some p := by
  rw [Workspace.openArchive]
  cases hlocation : Location.ofUrl url with
  | error e => exact ⟨ha, by simp⟩
  | ok location => exact Workspace.archive_openAt (hleads location hlocation) ha

theorem perform_of_openArchive_eq_error (hc : c.isParse = false) {e : OpenError}
    (h : w.openArchive url = (.error e, w')) :
    c.perform w time url = (.error (.ofOpenError url e), w') := by
  cases c with
  | parse => cases hc
  | _ => simp only [perform, h]

theorem perform_of_openArchive_eq_ok (hc : c.isParse = false)
    (h : w.openArchive url = (.ok o, w')) :
    c.perform w time url = ((c.onArchive w' time o).1, w'.keep o (c.onArchive w' time o).2) ∧
      c.log w time url = c.logOnArchive w' time o := by
  cases c with
  | parse => cases hc
  | _ => simp only [perform, log, h, and_self]

/-- A command that stops before its operation fails, and leaves the archive in its file. -/
theorem perform_of_none (hc : c.isParse = false)
    (hleads : ∀ location, Location.ofUrl url = .ok location → w.leadsTo p location = true)
    (ha : (w.entry p).archive? = some a) (h : c.operation? w url = none) :
    ∃ f, (c.perform w time url).1 = .error f ∧
      ((c.perform w time url).2.entry p).archive? = some a := by
  obtain ⟨hleft, hfound⟩ := archive_openArchive hleads ha
  rcases hopen : w.openArchive url with ⟨e | o, w'⟩
  · rw [perform_of_openArchive_eq_error time hc hopen]
    rw [hopen] at hleft
    exact ⟨_, rfl, hleft⟩
  · rw [(perform_of_openArchive_eq_ok time hc hopen).1]
    rw [hopen] at hleft hfound
    rw [operation?_of_opened hopen] at h
    obtain ⟨rfl, hplace⟩ := hfound o rfl
    obtain ⟨f, hf⟩ := onArchive_of_none time hc h
    rw [hf]
    exact ⟨f, rfl, Workspace.archive_keep hplace hleft (.inr rfl)⟩

/-- A command that gets as far as its operation performs it on the archive in the file, prints the
answer, whatever is shown of the log, and leaves the new archive in the file. -/
theorem perform_of_some
    (hleads : ∀ location, Location.ofUrl url = .ok location → w.leadsTo p location = true)
    (ha : (w.entry p).archive? = some a) (h : c.operation? w url = some operation) :
    (∀ shown, c.Prints (a.perform time operation).1 (outcomeOf shown (c.perform w time url).1)) ∧
      (∀ entry ∈ c.log w time url, entry.Tells operation (a.perform time operation).1) ∧
      ((c.perform w time url).2.entry p).archive? = some (a.perform time operation).2 := by
  obtain ⟨hleft, hfound⟩ := archive_openArchive hleads ha
  rcases hopen : w.openArchive url with ⟨e | o, w'⟩
  · simp [operation?_of_not_opened hopen] at h
  · rw [hopen] at hleft hfound
    rw [operation?_of_opened hopen] at h
    obtain ⟨rfl, hplace⟩ := hfound o rfl
    obtain ⟨hasks, hallowed⟩ := Option.filter_eq_some_iff.1 h
    obtain ⟨hperform, hlog⟩ :=
      perform_of_openArchive_eq_ok time (not_parse_of_asks? hasks) hopen
    obtain ⟨hperformed, hlogged⟩ := onArchive_of_some time h
    rw [hperform, hlog, hperformed, hlogged]
    refine ⟨prints_report hasks o.archive time, fun entry => Archive.tells_of_mem_logOf,
      Workspace.archive_keep hplace hleft ?_⟩
    cases hwrite : o.write with
    | true => exact .inl rfl
    | false =>
      have hwrites : operation.writes = false := by simpa [hwrite] using hallowed
      exact .inr (Archive.perform_of_not_writes hwrites o.archive time)

end Command

/-! ## Runs of the program -/

@[simp] theorem log_outcomeOf (log : List LogEntry) (result : Except Failure String) :
    (outcomeOf log result).log = log := by
  cases result <;> rfl

theorem shownEntries_subset (filters : FilterReader) (filter : String)
    (entries : List LogEntry) : shownEntries filters filter entries ⊆ entries := by
  rw [shownEntries]
  split
  · exact List.filter_subset_self _
  · exact List.Subset.refl _

theorem run_of_command {filters : FilterReader} {w : Workspace} {env : String → Option String}
    {time : String} {arguments : List String} {databaseUrl : Option String} {c : Command}
    {settings : Settings} (hrequest : Request.ofArguments arguments = .ok (.command databaseUrl c))
    (hsettings : Settings.load env = .ok settings) :
    let url := databaseUrl.getD settings.databaseUrl
    run filters w env time arguments =
      (outcomeOf (shownEntries filters settings.logFilter (c.log w time url))
        (c.perform w time url).1, (c.perform w time url).2) := by
  simp only [run, hrequest, hsettings]

/-- How filters are understood matters to nothing but the log. -/
theorem run_filters (filters filters' : FilterReader) (w : Workspace)
    (env : String → Option String) (time : String) (arguments : List String) :
    let given := run filters w env time arguments
    let given' := run filters' w env time arguments
    given.2 = given'.2 ∧ { given.1 with log := [] } = { given'.1 with log := [] } := by
  cases hrequest : Request.ofArguments arguments with
  | error e => simp only [run, hrequest, and_self]
  | ok request =>
    cases request with
    | command databaseUrl c =>
      cases hsettings : Settings.load env with
      | error e => simp only [run, hrequest, hsettings, and_self]
      | ok settings =>
        rw [run_of_command hrequest hsettings, run_of_command hrequest hsettings]
        refine ⟨rfl, ?_⟩
        cases (c.perform w time (databaseUrl.getD settings.databaseUrl)).1 <;> rfl
    | _ => simp only [run, hrequest, and_self]

/-- A run of the program: how filters of the log are understood, the files that it finds, its
environment, the time, and the command line. -/
structure Invocation where
  filters : FilterReader
  workspace : Workspace
  env : String → Option String
  time : String
  arguments : List String

namespace Invocation

/-- What the run prints. -/
def outcome (i : Invocation) : Outcome :=
  (run i.filters i.workspace i.env i.time i.arguments).1

/-- The files as the run leaves them. -/
def after (i : Invocation) : Workspace :=
  (run i.filters i.workspace i.env i.time i.arguments).2

/-- The command that is carried out, and the address of the archive.  There is none if the
arguments or the settings make no sense, or if only help is wanted. -/
def command? (i : Invocation) : Option (String × Command) :=
  match Request.ofArguments i.arguments, Settings.load i.env with
  | .ok (.command databaseUrl c), .ok settings =>
    some (databaseUrl.getD settings.databaseUrl, c)
  | _, _ => none

/-- Does the command line ask for something from an archive, or make no sense?  It does not if it
asks for help, or wants a script parsed. -/
def concernsArchive (i : Invocation) : Bool :=
  match Request.ofArguments i.arguments with
  | .ok (.command _ c) => !c.isParse
  | .ok _ => false
  | .error _ => true

/-- The operation that the run performs, with its time. -/
def operation? (i : Invocation) : Option (String × Operation) :=
  i.command?.bind fun (url, c) => (c.operation? i.workspace url).map (i.time, ·)

/-- Is the archive, wherever the run uses one, in the file at this place? -/
def usesFile (i : Invocation) (p : Path) : Bool :=
  match i.command? with
  | none => true
  | some (url, c) =>
    c.isParse || (Location.ofUrl url).toOption.all (i.workspace.leadsTo p)

variable {i : Invocation} {url : String} {c : Command}

theorem run_of_command? (h : i.command? = some (url, c)) :
    (∃ shown ⊆ c.log i.workspace i.time url,
        i.outcome = outcomeOf shown (c.perform i.workspace i.time url).1) ∧
      i.after = (c.perform i.workspace i.time url).2 := by
  rw [command?] at h
  cases hrequest : Request.ofArguments i.arguments with
  | error e => simp [hrequest] at h
  | ok request =>
    cases request with
    | command databaseUrl d =>
      cases hsettings : Settings.load i.env with
      | error e => simp [hrequest, hsettings] at h
      | ok settings =>
        simp only [hrequest, hsettings, Option.some.injEq, Prod.mk.injEq] at h
        obtain ⟨rfl, rfl⟩ := h
        rw [outcome, after, run_of_command hrequest hsettings]
        exact ⟨⟨_, shownEntries_subset .., rfl⟩, rfl⟩
    | _ => simp [hrequest] at h

/-- Without a command nothing happens to the files. -/
theorem run_of_command?_eq_none (h : i.command? = none) :
    i.after = i.workspace ∧
      (i.concernsArchive = true → i.outcome.exitCode ≠ 0 ∧ i.outcome.stdout = "") := by
  rw [command?] at h
  rw [outcome, after, concernsArchive, run]
  cases hrequest : Request.ofArguments i.arguments with
  | error e => simp
  | ok request =>
    cases request with
    | command databaseUrl d =>
      cases hsettings : Settings.load i.env with
      | error e => simp [Failure.outcome]
      | ok settings => simp [hrequest, hsettings] at h
    | _ => simp

theorem concernsArchive_of_command? (h : i.command? = some (url, c)) :
    i.concernsArchive = !c.isParse := by
  rw [command?] at h
  rw [concernsArchive]
  split at h <;> simp_all

theorem leadsTo_of_usesFile {p : Path} (huses : i.usesFile p = true)
    (h : i.command? = some (url, c)) (hc : c.isParse = false) :
    ∀ location, Location.ofUrl url = .ok location → i.workspace.leadsTo p location = true := by
  intro location hlocation
  simpa [usesFile, h, hc, hlocation, Except.toOption] using huses

variable {p : Path} {a : Archive}

/-- A run that performs no operation leaves the archive in its file; if it should have performed
one, it fails. -/
theorem run_of_none (huses : i.usesFile p = true) (ha : (i.workspace.entry p).archive? = some a)
    (h : i.operation? = none) :
    (i.after.entry p).archive? = some a ∧
      (i.concernsArchive = true → i.outcome.exitCode ≠ 0 ∧ i.outcome.stdout = "") := by
  cases hcommand : i.command? with
  | none =>
    obtain ⟨hafter, hfails⟩ := run_of_command?_eq_none hcommand
    exact ⟨by rw [hafter, ha], hfails⟩
  | some addressed =>
    obtain ⟨url, c⟩ := addressed
    obtain ⟨⟨shown, -, houtcome⟩, hafter⟩ := run_of_command? hcommand
    cases hc : c.isParse with
    | true =>
      -- Parsing a script does not even open the archive.
      obtain ⟨file, pretty, rfl⟩ : ∃ file pretty, c = .parse file pretty := by
        cases c with
        | parse file pretty => exact ⟨file, pretty, rfl⟩
        | _ => cases hc
      exact ⟨by rw [hafter]; exact ha, by simp [concernsArchive_of_command? hcommand, hc]⟩
    | false =>
      have hstops : c.operation? i.workspace url = none := by
        simpa [operation?, hcommand] using h
      obtain ⟨f, hf, hleft⟩ :=
        c.perform_of_none i.time hc (leadsTo_of_usesFile huses hcommand hc) ha hstops
      rw [houtcome, hafter, hf]
      exact ⟨hleft, fun _ => ⟨Nat.one_ne_zero, rfl⟩⟩

/-- A run that performs an operation performs it on the archive in the file, prints the answer, logs
nothing that is not about this, and leaves the new archive in the file. -/
theorem run_of_some (huses : i.usesFile p = true) (ha : (i.workspace.entry p).archive? = some a)
    {operation : String × Operation} (h : i.operation? = some operation) :
    ∃ url c, i.command? = some (url, c) ∧
      c.Prints (a.perform operation.1 operation.2).1 i.outcome ∧
      (∀ entry ∈ i.outcome.log,
        entry.Tells operation.2 (a.perform operation.1 operation.2).1) ∧
      (i.after.entry p).archive? = some (a.perform operation.1 operation.2).2 := by
  obtain ⟨⟨url, c⟩, hcommand, hoperation⟩ := Option.bind_eq_some_iff.1 h
  obtain ⟨operation, hperforms, rfl⟩ := Option.map_eq_some_iff.1 hoperation
  obtain ⟨⟨shown, hshown, houtcome⟩, hafter⟩ := run_of_command? hcommand
  have hc : c.isParse = false := Command.not_parse_of_operation? hperforms
  obtain ⟨hprints, htells, hleft⟩ :=
    c.perform_of_some i.time (leadsTo_of_usesFile huses hcommand hc) ha hperforms
  rw [houtcome, hafter]
  refine ⟨url, c, hcommand, hprints shown, fun entry hentry => htells entry (hshown ?_), hleft⟩
  rwa [log_outcomeOf] at hentry

end Invocation

/-! ## Sessions -/

/-- Runs of the program one after another that use the database file at `p`.  The first one finds
the first entry there, each other one what the run before it has left, and the last one leaves the
last entry. -/
inductive Session (p : Path) : Entry → List Invocation → Entry → Prop where
  | nil (e : Entry) : Session p e [] e
  | cons {i : Invocation} {runs : List Invocation} {e e' : Entry}
      (finds : i.workspace.entry p = e) (uses : i.usesFile p = true)
      (rest : Session p (i.after.entry p) runs e') : Session p e (i :: runs) e'

/-- The runs that perform an operation print the answers, one after the other, and log nothing but
what they do; those that should have performed one and do not print nothing and fail. -/
inductive Answered : List Invocation → List Answer → Prop where
  | nil : Answered [] []
  | stopped {i : Invocation} {runs : List Invocation} {answers : List Answer}
      (stops : i.operation? = none)
      (fails : i.concernsArchive = true → i.outcome.exitCode ≠ 0 ∧ i.outcome.stdout = "")
      (rest : Answered runs answers) : Answered (i :: runs) answers
  | performed {i : Invocation} {runs : List Invocation} {answer : Answer} {answers : List Answer}
      {operation : String × Operation} {url : String} {c : Command}
      (performs : i.operation? = some operation) (command : i.command? = some (url, c))
      (prints : c.Prints answer i.outcome)
      (logs : ∀ entry ∈ i.outcome.log, entry.Tells operation.2 answer)
      (succeeds : i.outcome.exitCode = 0 ↔ answer.succeeds = true)
      (rest : Answered runs answers) : Answered (i :: runs) (answer :: answers)

/-- A session is one run of the archive with which it begins, by the operations that its runs
perform: the file ends up with the archive of this run, and what is printed is what this run
answers. -/
theorem Session.refines {p : Path} {e e' : Entry} {runs : List Invocation} {a : Archive}
    (h : Session p e runs e') (ha : e.archive? = some a) :
    let operations := runs.filterMap Invocation.operation?
    e'.archive? = some (a.run operations).2 ∧ Answered runs (a.run operations).1 := by
  intro operations
  -- The file carries the archive from one run to the next: after each run it stands for the
  -- archive to which the operations so far have led, and the induction goes on from there.
  induction h generalizing a with
  | nil e => exact ⟨ha, .nil⟩
  | @cons i runs e e' finds uses rest ih =>
    rw [← finds] at ha
    cases hoperation : i.operation? with
    | none =>
      obtain ⟨hleft, hfails⟩ := i.run_of_none uses ha hoperation
      obtain ⟨hend, hrest⟩ := ih hleft
      have hoperations : operations = runs.filterMap Invocation.operation? :=
        List.filterMap_cons_none hoperation
      rw [hoperations]
      exact ⟨hend, .stopped hoperation hfails hrest⟩
    | some operation =>
      obtain ⟨url, c, hcommand, hprints, hlogs, hleft⟩ := i.run_of_some uses ha hoperation
      obtain ⟨hend, hrest⟩ := ih hleft
      have hoperations : operations = operation :: runs.filterMap Invocation.operation? :=
        List.filterMap_cons_some hoperation
      rw [hoperations, Archive.run_cons]
      exact ⟨hend,
        .performed hoperation hcommand hprints hlogs hprints.exitCode_eq_zero_iff hrest⟩

/-- The runs for these command lines, each at its time and on what the one before it has left, and
the files in the end. -/
def Invocation.inTurn (filters : FilterReader) (env : String → Option String) :
    Workspace → List (String × List String) → List Invocation × Workspace
  | w, [] => ([], w)
  | w, (time, arguments) :: more =>
    let i : Invocation := ⟨filters, w, env, time, arguments⟩
    let (runs, w) := inTurn filters env i.after more
    (i :: runs, w)

/-- Runs in turn that all use one file are a session. -/
theorem Session.of_inTurn {p : Path} {filters : FilterReader} {env : String → Option String}
    {w : Workspace} {lines : List (String × List String)}
    (h : ∀ i ∈ (Invocation.inTurn filters env w lines).1, i.usesFile p = true) :
    Session p (w.entry p) (Invocation.inTurn filters env w lines).1
      ((Invocation.inTurn filters env w lines).2.entry p) := by
  induction lines generalizing w with
  | nil => exact .nil _
  | cons line lines ih =>
    obtain ⟨huses, hrest⟩ := List.forall_mem_cons.1 h
    exact .cons rfl huses (ih hrest)

/-- A version is imported; the second run lacks a name, and the third one takes a name that is
there.  The version is listed and printed as a script; after it has been deleted, one without tables
gets the next number, and is printed as JSON. -/
theorem Session.refines_import_again :
    let script := "CREATE TABLE a (x INT);"
    let p : Path := { inward := ["d.db"] }
    let w : Workspace := { files := [({ inward := ["a.sql"] }, .bytes script.toUTF8),
      ({ inward := ["b.sql"] }, .bytes "".toUTF8)] }
    let env (name : String) : Option String :=
      if name = "DDLGRAPH_DATABASE_URL" then some "sqlite://d.db?vfs=unix" else none
    let filters (filter : String) : Option (LogEntry → Bool) :=
      if filter = "ddlgraph=info" then some fun _ => true else none
    let inTurn := Invocation.inTurn filters env w
      [("1", ["import", "a.sql", "--name", "v"]), ("2", ["import", "a.sql"]),
        ("3", ["import", "a.sql", "--name", "v"]), ("4", ["list"]),
        ("5", ["show", "--name", "v", "--format", "ddl"]), ("6", ["delete", "1"]),
        ("7", ["import", "b.sql", "--name", "v"]), ("8", ["show", "2"])]
    let operations : List (String × Operation) :=
      [("1", .importScript script "v" none), ("3", .importScript script "v" none), ("4", .list),
        ("5", .getByName "v"), ("6", .delete 1), ("7", .importScript "" "v" none), ("8", .get 2)]
    (inTurn.2.entry p).archive? = some (Archive.empty.run operations).2 ∧
      Answered inTurn.1 (Archive.empty.run operations).1 ∧
      inTurn.1.map (fun i => (i.outcome.exitCode, i.outcome.log)) =
        [(0, [.stored "v" 1 1]), (2, []),
          (1, [.rollingBack "v" (StoreError.duplicate .version).message]), (0, []), (0, []),
          (0, [.deleted 1]), (0, [.stored "v" 2 0]), (0, [])] ∧
      (inTurn.1.take 7).map (fun i => i.outcome.stdout) =
        ["1\n", "", "", "1\tv\t1\t\n", "CREATE TABLE `A` (\n    `X` INT\n) ENGINE=InnoDB;\n", "",
          "2\n"] ∧
      (inTurn.1.drop 7).map (fun i => Version.ofText? i.outcome.stdout) =
        [some { id := 2, name := "v", description := none, createdAt := "7", tables := [] }] := by
  intro script p w env filters inTurn operations
  have hsession : Session p (w.entry p) inTurn.1 (inTurn.2.entry p) :=
    .of_inTurn (by decide +kernel)
  have hempty : (w.entry p).archive? = some Archive.empty := by decide +kernel
  have hoperations : inTurn.1.filterMap Invocation.operation? = operations := by decide +kernel
  obtain ⟨harchive, hanswered⟩ := Session.refines hsession hempty
  rw [hoperations] at harchive hanswered
  exact ⟨harchive, hanswered, by decide +kernel, by decide +kernel, by decide +kernel⟩

end SchemaArchive
