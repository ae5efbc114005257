import SchemaArchive.Schema.Table
import SchemaArchive.Text.Quoted

/-!
# Writing a schema as a script

A schema is written as one table declaration after another, a blank line between them, and then,
behind one more blank line, one statement per foreign key, so that every table is declared before
a foreign key refers to it.  Names stand in backquotes and defaults in single quotes, except for
numbers and NULL; types are written as they are.

The text is built as a list of characters; `renderScript` is the script itself.
-/

namespace SchemaArchive

namespace Render

open Text

/-- A fixed piece of text. -/
abbrev words (s : String) : List Char := s.toList

/-- A name between backquotes. -/
def name (s : String) : List Char :=
  quoted backquote s.toList

/-- A literal between single quotes. -/
def literal (s : String) : List Char :=
  quoted singleQuote s.toList

/-- Names between parentheses, with commas between them. -/
def columnList (columns : List String) : List Char :=
  words "(" ++ (words ", ").intercalate (columns.map name) ++ words ")"

/-- Does the text read as a number, ASCII digits and points with a digit in front? -/
def isNumberText : List Char → Bool
  | [] => false
  | c :: cs => c.isDigit && cs.all fun d => d.isDigit || d == '.'

/-- A default: NULL and numbers stand bare, all else is a literal. -/
def defaultText (value : String) : List Char :=
  if value = "NULL" || isNumberText value.toList then value.toList else literal value

/-- The definition of a column, on one line. -/
def column (c : Column) : List Char :=
  name c.name ++ words " " ++ c.type.toList
    ++ (if c.unsigned then words " UNSIGNED" else [])
    ++ (if c.nullable then [] else words " NOT NULL")
    ++ (match c.defaultValue with
        | some value => words " DEFAULT " ++ defaultText value
        | none => [])
    ++ (if c.autoIncrement then words " AUTO_INCREMENT" else [])

/-- An index with its name, if it has one, and its columns. -/
def index (word : String) (indexName : Option String) (columns : List String) : List Char :=
  words word ++ words " "
    ++ (match indexName with
        | some n => name n ++ words " "
        | none => [])
    ++ columnList columns

/-- The line of a constraint in the body of its table.  Foreign keys have none. -/
def constraint? : Constraint → Option (List Char)
  | .primaryKey columns => some (index "PRIMARY KEY" none columns)
  | .unique indexName columns => some (index "UNIQUE KEY" indexName columns)
  | .key indexName columns => some (index "KEY" indexName columns)
  | .foreignKey _ _ _ => none

/-- The lines between the parentheses of a table. -/
def tableLines (t : Table) : List (List Char) :=
  t.columns.map column ++ t.constraints.filterMap constraint?

/-- The body of a table: each line indented and on its own, with commas between them. -/
def tableBody : List (List Char) → List Char
  | [] => []
  | [line] => words "    " ++ line ++ words "\n"
  | line :: lines => words "    " ++ line ++ words ",\n" ++ tableBody lines

/-- The declaration of a table. -/
def table (t : Table) : List Char :=
  words "CREATE TABLE " ++ name t.name ++ words " (\n" ++ tableBody (tableLines t)
    ++ words ") ENGINE=InnoDB;\n"

/-- The statement that adds the `number`-th foreign key of a table.  A foreign key with an empty
name gets the name that is made from its number. -/
def foreignKey (tableName : String) (number : Nat) (keyName : String) (columns : List String)
    (target : Reference) : List Char :=
  words "ALTER TABLE " ++ name tableName ++ words " ADD CONSTRAINT "
    ++ name (if keyName.isEmpty then Table.generatedName tableName number else keyName)
    ++ words " FOREIGN KEY " ++ columnList columns ++ words " REFERENCES " ++ name target.table
    ++ words " " ++ columnList target.columns ++ words ";\n"

/-- The statements that add the foreign keys among `constraints`, the first of which has the
number `number`. -/
def foreignKeysFrom (tableName : String) (number : Nat) : List Constraint → List Char
  | [] => []
  | .foreignKey keyName columns target :: constraints =>
    foreignKey tableName number keyName columns target
      ++ foreignKeysFrom tableName (number + 1) constraints
  | _ :: constraints => foreignKeysFrom tableName number constraints

/-- The statements that add the foreign keys of a table. -/
def foreignKeys (t : Table) : List Char :=
  foreignKeysFrom t.name 1 t.constraints

/-- A whole schema. -/
def schema (tables : List Table) : List Char :=
  let keys := tables.flatMap foreignKeys
  (words "\n").intercalate (tables.map table) ++ (if keys.isEmpty then [] else words "\n" ++ keys)

end Render

/-- The script of a schema. -/
def renderScript (tables : List Table) : String :=
  String.ofList (Render.schema tables)

end SchemaArchive
