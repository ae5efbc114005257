import SchemaArchive.CommandLine.Description
import SchemaArchive.Text.Wrapped

/-!
# Help pages

A page says what it is about, shows how the command is written, and then lists commands, operands
and options with an explanation of each.  The explanations of one list begin in the same column
and are broken into lines so that the page is at most `pageWidth` wide.

* `HelpTopic.page` — the page on a topic.
* `HelpPage.text` — a page as it is printed.
-/

namespace SchemaArchive

/-- What stands in a list of a help page. -/
structure HelpEntry where
  term : String
  explanation : String
  deriving DecidableEq, Repr

/-- A list of a help page. -/
structure HelpSection where
  heading : String
  entries : List HelpEntry
  deriving DecidableEq, Repr

/-- A help page. -/
structure HelpPage where
  summary : String
  usage : String
  sections : List HelpSection
  deriving DecidableEq, Repr

/-! ## Layout -/

/-- The width of a help page. -/
def pageWidth : Nat := 100

/-- What stands before and behind the terms of a list. -/
def helpGap : String := "  "

/-- The lines of an entry, where the terms of its list have a width. -/
def HelpEntry.lines (termWidth : Nat) (e : HelpEntry) : List String :=
  let first := helpGap ++ Text.padTo termWidth e.term ++ helpGap
  let next := Text.padTo first.length ""
  let explanation := Text.wrap (pageWidth - first.length) (e.explanation.splitOn " ")
  (explanation.map Text.lineText).mapIdx fun i line => (if i = 0 then first else next) ++ line

namespace HelpSection

/-- The width of the widest term. -/
def termWidth (s : HelpSection) : Nat :=
  (s.entries.map fun e => e.term.length).foldl max 0

/-- The lines of a list, behind its heading. -/
def lines (s : HelpSection) : List String :=
  (s.heading ++ ":") :: s.entries.flatMap (HelpEntry.lines s.termWidth)

end HelpSection

/-- The lines of a page.  The lists that have no entries are left out. -/
def HelpPage.lines (p : HelpPage) : List String :=
  let lists := (p.sections.filter fun s => !s.entries.isEmpty).map HelpSection.lines
  [p.summary, "", "Usage: " ++ p.usage] ++ lists.flatMap ("" :: ·)

/-- A page as it is printed. -/
def HelpPage.text (p : HelpPage) : String :=
  String.join (p.lines.map (· ++ "\n"))

/-! ## Descriptions as entries -/

/-- How an option is written. -/
def OptionDescription.written (o : OptionDescription) : String :=
  match o.valueLabel with
  | some label => "--" ++ o.name ++ " <" ++ label ++ ">"
  | none => "--" ++ o.name

/-- The entry of an option, whose name stands below those that have a letter in front. -/
def OptionDescription.entry (o : OptionDescription) : HelpEntry where
  term := "    " ++ o.written
  explanation := o.explanation

/-- How an operand is written. -/
def OperandDescription.written (o : OperandDescription) : String :=
  (if o.required then "<" ++ o.label ++ ">" else "[" ++ o.label ++ "]") ++
    if o.repeated then "..." else ""

/-- The entry of an operand. -/
def OperandDescription.entry (o : OperandDescription) : HelpEntry where
  term := o.written
  explanation := o.explanation

/-- The entry of the option that asks for help. -/
def helpOptionEntry : HelpEntry where
  term := "-h, --help"
  explanation := "Print help"

/-- The entry of the option that asks for the version of the program. -/
def versionOptionEntry : HelpEntry where
  term := "-V, --version"
  explanation := "Print version"

namespace CommandDescription

/-- The entry of a command. -/
def entry (c : CommandDescription) : HelpEntry where
  term := c.word
  explanation := c.summary

/-- How a command is written.  Options that may be left out are not named. -/
def usage (c : CommandDescription) : String :=
  let optional := c.options.any fun o => !o.required
  let required := (c.options.filter fun o => o.required).map OptionDescription.written
  let parts :=
    ["ddlgraph", c.word] ++ (if optional then ["[OPTIONS]"] else []) ++ required ++
      (c.operand.map OperandDescription.written).toList
  " ".intercalate parts

/-- The page on a command.  A command that takes no options cannot be asked for help either. -/
def page (c : CommandDescription) : HelpPage where
  summary := c.summary
  usage := c.usage
  sections :=
    let options :=
      if c.options.isEmpty then [] else c.options.map OptionDescription.entry ++ [helpOptionEntry]
    [⟨"Arguments", (c.operand.map OperandDescription.entry).toList⟩, ⟨"Options", options⟩]

end CommandDescription

/-- The page on the program. -/
def programPage : HelpPage where
  summary := "Parse MySQL DDL and keep versioned schema graphs"
  usage := "ddlgraph [OPTIONS] <COMMAND>"
  sections :=
    [⟨"Commands",
        CommandName.all.map (fun c => c.description.entry) ++ [helpCommand.entry]⟩,
      ⟨"Options", [databaseOption.entry, helpOptionEntry, versionOptionEntry]⟩]

/-- The page on a topic. -/
def HelpTopic.page : HelpTopic → HelpPage
  | .program => programPage
  | .command name => name.description.page
  | .help => helpCommand.page

end SchemaArchive
