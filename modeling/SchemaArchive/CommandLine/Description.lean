/-!
# The commands of the program

What the commands are called, what options and operands they take, and what is said about them.
Reading a command line and explaining it both go by these descriptions.

* `CommandName.description` — everything about a command.
-/

namespace SchemaArchive

/-- An option of a command. -/
structure OptionDescription where
  name : String
  /-- What stands for the option's value, if it has one. -/
  valueLabel : Option String := none
  required : Bool := false
  explanation : String := ""
  deriving DecidableEq, Repr

/-- Has the option a value? -/
def OptionDescription.hasValue (o : OptionDescription) : Bool :=
  o.valueLabel.isSome

/-- What a command takes besides options. -/
structure OperandDescription where
  label : String
  required : Bool := true
  repeated : Bool := false
  explanation : String := ""
  deriving DecidableEq, Repr

/-- A command. -/
structure CommandDescription where
  word : String
  summary : String
  operand : Option OperandDescription := none
  options : List OptionDescription := []
  deriving DecidableEq, Repr

/-- The option that says where the archive is.  Every command knows it, and it may also stand
before the command. -/
def databaseOption : OptionDescription where
  name := "database-url"
  valueLabel := some "DATABASE_URL"
  explanation := "SQLite URL of the schema store (overrides DDLGRAPH_DATABASE_URL)"

/-- The commands that do something. -/
inductive CommandName where
  | parse
  | importFile
  | print
  | list
  | delete
  deriving DecidableEq, Repr

namespace CommandName

/-- All of them. -/
def all : List CommandName :=
  [parse, importFile, print, list, delete]

/-- Everything about a command. -/
def description : CommandName → CommandDescription
  | parse =>
    { word := "parse"
      summary := "Parse a DDL file and print its tables as JSON"
      operand := some { label := "FILE" }
      options :=
        [databaseOption,
          { name := "pretty", explanation := "Pretty-print the JSON" }] }
  | importFile =>
    { word := "import"
      summary := "Parse a DDL file and store it as a new schema version"
      operand := some { label := "FILE" }
      options :=
        [databaseOption,
          { name := "name", valueLabel := some "NAME", required := true
            explanation := "Version name, unique per store" },
          { name := "description", valueLabel := some "DESCRIPTION" }] }
  | print =>
    { word := "show"
      summary := "Print a stored schema version"
      operand := some { label := "ID", required := false, explanation := "Version id" }
      options :=
        [databaseOption,
          { name := "name", valueLabel := some "NAME"
            explanation := "Look the version up by name instead of id" },
          { name := "format", valueLabel := some "FORMAT"
            explanation := "[default: json] [possible values: json, ddl]" }] }
  | list =>
    { word := "list"
      summary := "List stored schema versions, newest first"
      options := [databaseOption] }
  | delete =>
    { word := "delete"
      summary := "Delete a schema version and everything it owns"
      operand := some { label := "ID" }
      options := [databaseOption] }

/-- The word for a command. -/
def word (c : CommandName) : String :=
  c.description.word

/-- The command that a word stands for. -/
def ofWord? (word : String) : Option CommandName :=
  all.find? fun c => c.word = word

theorem ofWord?_word (c : CommandName) : ofWord? c.word = some c := by
  cases c <;> decide

end CommandName

/-- The command that explains the others.  It takes no options. -/
def helpCommand : CommandDescription where
  word := "help"
  summary := "Print this message or the help of the given subcommand(s)"
  operand := some
    { label := "COMMAND", required := false, repeated := true
      explanation := "Print help for the subcommand(s)" }

/-- What can be explained. -/
inductive HelpTopic where
  | program
  | command (name : CommandName)
  | help
  deriving DecidableEq, Repr

/-- The topic that words name.  No command has commands of its own. -/
def HelpTopic.ofWords? : List String → Option HelpTopic
  | [] => some .program
  | [word] =>
    if word = helpCommand.word then some .help else (CommandName.ofWord? word).map .command
  | _ => none

end SchemaArchive
