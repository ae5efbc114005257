import SchemaArchive.CommandLine.Description
import SchemaArchive.Text.Decimal

/-!
# Command lines

The command line names a command and gives it options and operands.  Options may stand anywhere
behind the command, with their value behind an equals sign or as the next argument; behind `--`
all arguments are operands.  The option `--database-url` may also stand before the command.  A
request for help counts as soon as it is read, provided that what stands before it makes sense.

* `Request.ofArguments` reads a command line.
-/

namespace SchemaArchive

/-- Which version is meant. -/
inductive VersionChoice where
  | byId (id : Int)
  | byName (name : String)
  deriving DecidableEq, Repr

/-- How a version is printed. -/
inductive PrintFormat where
  | json
  | script
  deriving DecidableEq, Repr

/-- What one can ask for. -/
inductive Command where
  /-- Print the tables of a script as JSON, without storing anything. -/
  | parse (file : String) (pretty : Bool)
  /-- Store the schema of a script as a new version. -/
  | importFile (file name : String) (description : Option String)
  /-- Print a version. -/
  | print (choice : VersionChoice) (format : PrintFormat)
  /-- List all versions. -/
  | list
  /-- Delete a version. -/
  | delete (id : Int)
  deriving DecidableEq, Repr

/-- What a command line asks for. -/
inductive Request where
  /-- Say which program this is. -/
  | programVersion
  /-- Explain the program or a command. -/
  | help (topic : HelpTopic)
  /-- Carry out a command, on the archive at `databaseUrl` if that is given. -/
  | command (databaseUrl : Option String) (command : Command)
  deriving DecidableEq, Repr

/-- Why a command line makes no sense. -/
inductive UsageError where
  | noCommand
  | unknownCommand (word : String)
  | unexpected (argument : String)
  | noValue (option : String)
  | unwantedValue (option : String)
  | repeated (option : String)
  | missing (what : String)
  | conflict (what : String)
  | invalid (what value : String)
  deriving DecidableEq, Repr

/-- What is said about a command line that makes no sense. -/
def UsageError.message : UsageError → String
  | noCommand => "a command is missing"
  | unknownCommand word => "unknown command " ++ word
  | unexpected argument => "unexpected argument " ++ argument
  | noValue option => "a value is missing for --" ++ option
  | unwantedValue option => "--" ++ option ++ " takes no value"
  | repeated option => "--" ++ option ++ " is given more than once"
  | missing what => what ++ " is missing"
  | conflict what => what ++ " cannot be used together"
  | invalid what value => "invalid " ++ what ++ " " ++ value

/-! ## Options and operands -/

/-- What an argument is by its form alone. -/
inductive ArgumentForm where
  /-- The mark behind which all arguments are operands. -/
  | separator
  /-- The name of an option, with the value behind the equals sign if there is one. -/
  | option (name : String) (value : Option String)
  /-- Options of one letter. -/
  | letters (letters : List Char)
  | operand
  deriving DecidableEq, Repr

/-- The form of an argument.  A lone `-` is an operand. -/
def ArgumentForm.of (argument : String) : ArgumentForm :=
  match argument.toList with
  | ['-', '-'] => .separator
  | '-' :: '-' :: cs =>
    let name := cs.takeWhile (· != '=')
    match cs.dropWhile (· != '=') with
    | [] => .option (String.ofList name) none
    | _ :: value => .option (String.ofList name) (some (String.ofList value))
  | '-' :: c :: cs => .letters (c :: cs)
  | _ => .operand

/-- The options and operands behind a command. -/
structure Arguments where
  values : List (String × String) := []
  flags : List String := []
  operands : List String := []
  /-- Has help been asked for?  What stands behind that has not been read. -/
  help : Bool := false
  deriving DecidableEq, Repr

/-- The first number that no version can have. -/
def versionIdBound : Nat := Nat.pow 2 63

namespace Arguments

/-- The value of an option. -/
def value? (a : Arguments) (option : String) : Option String :=
  a.values.lookup option

/-- Adds the value of an option that has none yet. -/
def addValue (a : Arguments) (option value : String) : Except UsageError Arguments :=
  if (a.value? option).isSome then .error (.repeated option)
  else .ok { a with values := (option, value) :: a.values }

/-- Adds an option without a value that has not been given yet. -/
def addFlag (a : Arguments) (option : String) : Except UsageError Arguments :=
  if a.flags.contains option then .error (.repeated option)
  else .ok { a with flags := option :: a.flags }

/-- Adds operands. -/
def addOperands (a : Arguments) (operands : List String) : Arguments :=
  { a with operands := a.operands ++ operands }

/-- Reads the arguments behind a command that knows some options, in addition to `a`.  The value of
an option that stands as an argument of its own may not look like an option. -/
def read (options : List OptionDescription) (a : Arguments) :
    List String → Except UsageError Arguments
  | [] => .ok a
  | argument :: rest =>
    match ArgumentForm.of argument with
    | .separator => .ok (a.addOperands rest)
    | .operand => read options (a.addOperands [argument]) rest
    | .letters ('h' :: _) => .ok { a with help := true }
    | .letters _ => .error (.unexpected argument)
    | .option name value? =>
      if name = "help" then
        if value?.isSome then .error (.unwantedValue name) else .ok { a with help := true }
      else
        let option? := options.find? fun o => o.name = name
        match option?.map OptionDescription.hasValue, value?, rest with
        | none, _, _ => .error (.unexpected argument)
        | some false, some _, _ => .error (.unwantedValue name)
        | some false, none, rest =>
          match a.addFlag name with
          | .error e => .error e
          | .ok a => read options a rest
        | some true, some value, rest =>
          match a.addValue name value with
          | .error e => .error e
          | .ok a => read options a rest
        | some true, none, [] => .error (.noValue name)
        | some true, none, value :: rest =>
          if ArgumentForm.of value = .operand then
            match a.addValue name value with
            | .error e => .error e
            | .ok a => read options a rest
          else .error (.noValue name)

/-- The only operand, if there is at most one. -/
def operand? (a : Arguments) : Except UsageError (Option String) :=
  match a.operands with
  | [] => .ok none
  | [operand] => .ok (some operand)
  | _ :: extra :: _ => .error (.unexpected extra)

/-- The name of a file as the only operand, if there is one.  It may not be empty. -/
def file? (a : Arguments) : Except UsageError (Option String) := do
  match ← a.operand? with
  | some file => if file.isEmpty then throw (.invalid "file" file) else return some file
  | none => return none

/-- The number of a version as the only operand, if there is one. -/
def versionId? (a : Arguments) : Except UsageError (Option Int) := do
  match ← a.operand? with
  | some text =>
    match Text.readSigned versionIdBound text.toList with
    | .ok id => return some id
    | .error _ => throw (.invalid "version" text)
  | none => return none

/-- How a version is to be printed, if that is said. -/
def format? (a : Arguments) : Except UsageError (Option PrintFormat) :=
  match a.value? "format" with
  | none => .ok none
  | some text =>
    if text = "json" then .ok (some .json)
    else if text = "ddl" then .ok (some .script)
    else .error (.invalid "format" text)

/-- There may be no operand. -/
def noOperand (a : Arguments) : Except UsageError Unit := do
  match ← a.operand? with
  | some operand => throw (.unexpected operand)
  | none => return ()

end Arguments

/-! ## Commands -/

/-- What has to be given. -/
def Arguments.required {α : Type} (what : String) : Option α → Except UsageError α
  | some a => .ok a
  | none => .error (.missing what)

/-- The version that is meant, by number or by name but not by both. -/
def VersionChoice.ofGiven : Option Int → Option String → Except UsageError VersionChoice
  | some id, none => .ok (.byId id)
  | none, some name => .ok (.byName name)
  | some _, some _ => .error (.conflict "version and --name")
  | none, none => .error (.missing "version or --name")

/-- The command with this name and these arguments. -/
def Command.ofArguments (name : CommandName) (a : Arguments) : Except UsageError Command :=
  match name with
  | .parse => do
    return parse (← Arguments.required "file" (← a.file?)) (a.flags.contains "pretty")
  | .importFile => do
    let file ← Arguments.required "file" (← a.file?)
    let name ← Arguments.required "--name" (a.value? "name")
    return importFile file name (a.value? "description")
  | .print => do
    let id? ← a.versionId?
    let format? ← a.format?
    return print (← VersionChoice.ofGiven id? (a.value? "name")) (format?.getD .json)
  | .list => do
    a.noOperand
    return list
  | .delete => do
    return delete (← Arguments.required "version" (← a.versionId?))

/-- Checks what is given to the command with this name.  What is missing does not matter. -/
def Arguments.check (a : Arguments) : CommandName → Except UsageError Unit
  | .parse | .importFile => do
    discard a.file?
  | .print => do
    discard a.versionId?
    discard a.format?
  | .list => a.noOperand
  | .delete => do
    discard a.versionId?

/-- What arguments behind the name of a command ask for. -/
def Request.ofCommand (databaseUrl : Option String) (name : CommandName) (a : Arguments) :
    Except UsageError Request := do
  if a.help then
    a.check name
    return help (.command name)
  else
    return command (a.value? databaseOption.name <|> databaseUrl) (← Command.ofArguments name a)

/-- Reads a command line, behind the value of `--database-url` if that has been read.  The value
given behind the command goes before the one given before it. -/
def Request.read (databaseUrl : Option String) : List String → Except UsageError Request
  | [] => .error .noCommand
  | argument :: rest =>
    match ArgumentForm.of argument with
    | .separator => .error .noCommand
    | .letters ('V' :: _) => .ok .programVersion
    | .letters ('h' :: _) => .ok (.help .program)
    | .letters _ => .error (.unexpected argument)
    | .option name value? =>
      if name = "version" && value?.isNone then .ok .programVersion
      else if name = "help" && value?.isNone then .ok (.help .program)
      else if name = databaseOption.name then
        if databaseUrl.isSome then .error (.repeated name)
        else
          match value?, rest with
          | some url, rest => Request.read (some url) rest
          | none, url :: rest =>
            if ArgumentForm.of url = .operand then Request.read (some url) rest
            else .error (.noValue name)
          | none, [] => .error (.noValue name)
      else .error (.unexpected argument)
    | .operand =>
      if argument = helpCommand.word then
        match HelpTopic.ofWords? rest with
        | some topic => .ok (.help topic)
        | none => .error (.unknownCommand (" ".intercalate rest))
      else
        match CommandName.ofWord? argument with
        | none => .error (.unknownCommand argument)
        | some name =>
          match Arguments.read name.description.options {} rest with
          | .error e => .error e
          | .ok a => Request.ofCommand databaseUrl name a

/-- What a command line asks for. -/
def Request.ofArguments (arguments : List String) : Except UsageError Request :=
  Request.read none arguments

end SchemaArchive
