import SchemaArchive.Script.Scanner
import SchemaArchive.Script.TableItem

/-!
# Statements, and the schema of a script

Two statements of a script count: one declares a table, the other adds a foreign key to a table
declared before it.  All other tokens are passed over.  `schemaOf` is the schema that a list of
statements describes, and `readScript` goes all the way from the text of a script to its schema.

* `schemaOf_append` — statements take effect one after another.
* `names_attachForeignKey` — adding a foreign key leaves the tables and their order alone.
-/

namespace SchemaArchive

/-- A statement that has an effect on the schema. -/
inductive Statement where
  | createTable (table : Table)
  | addForeignKey (table : String) (foreignKey : Constraint)
  deriving DecidableEq, Repr

/-- Adds a foreign key behind the constraints of the last table of the given name.  If no table
has that name, nothing happens. -/
def attachForeignKey (table : String) (foreignKey : Constraint) : List Table → List Table
  | [] => []
  | t :: ts =>
    if t.name == table && !ts.any (·.name == table) then
      { t with constraints := t.constraints ++ [foreignKey] } :: ts
    else t :: attachForeignKey table foreignKey ts

/-- Adding a foreign key leaves the tables and their order alone. -/
theorem names_attachForeignKey (table : String) (foreignKey : Constraint) (tables : List Table) :
    (attachForeignKey table foreignKey tables).map (·.name) = tables.map (·.name) := by
  induction tables with
  | nil => rfl
  | cons t ts ih =>
    simp only [attachForeignKey]
    split <;> simp [ih]

/-- The schema after one more statement. -/
def Statement.apply (tables : List Table) : Statement → List Table
  | createTable table => tables ++ [table]
  | addForeignKey table foreignKey => attachForeignKey table foreignKey tables

/-- The schema that a list of statements describes. -/
def schemaOf (statements : List Statement) : List Table :=
  statements.foldl Statement.apply []

theorem schemaOf_append (statements more : List Statement) :
    schemaOf (statements ++ more) = more.foldl Statement.apply (schemaOf statements) :=
  List.foldl_append

/-- Drops tokens up to and including the next semicolon, or all of them. -/
def dropStatement (ts : List Token) : List Token :=
  (ts.dropWhile (·.kind != .semicolon)).tail

theorem dropStatement_suffix (ts : List Token) : dropStatement ts <:+ ts :=
  (List.tail_suffix _).trans (List.dropWhile_suffix _)

namespace Parser

/-- The declaration of a table, behind the word `CREATE`.  What follows the table body, the
storage engine for instance, is passed over. -/
def createTable : Parser Statement := do
  keyword "TABLE"
  ifTaken (Token.isKeyword "IF") (do keyword "NOT"; keyword "EXISTS") (return ())
  let name ← name .tableName
  let items ← tableBody
  passOver dropStatement
  return .createTable (Table.ofItems name items)

/-- The addition of a foreign key, behind the word `ALTER`. -/
def alterTable : Parser Statement := do
  keyword "TABLE"
  let table ← name .tableName
  keyword "ADD"
  keyword "CONSTRAINT"
  let name ← name .constraintName
  keyword "FOREIGN"
  let (columns, target) ← foreignKeyBody
  return .addForeignKey table (.foreignKey name columns target)

/-- The statement that begins with the token `t`, if one does. -/
def statement (t : Token) : Parser (Option Statement) := do
  if t.isKeyword "CREATE" then
    let s ← createTable
    return some s
  else if t.isKeyword "ALTER" then
    let s ← alterTable
    return some s
  else return none

theorem Consumes.createTable : Parser.createTable.Consumes :=
  (Consumes.keyword _).bind fun _ =>
    (LeavesSuffix.ifTaken
      ((Consumes.keyword _).leavesSuffix.bind fun _ => (Consumes.keyword _).leavesSuffix)
      (LeavesSuffix.pure _)).bind fun _ =>
        (Consumes.name _).leavesSuffix.bind fun _ => Consumes.tableBody.leavesSuffix.bind fun _ =>
          (LeavesSuffix.passOver dropStatement_suffix).bind fun _ => LeavesSuffix.pure _

theorem Consumes.alterTable : Parser.alterTable.Consumes :=
  (Consumes.keyword _).bind fun _ => (Consumes.name _).leavesSuffix.bind fun _ =>
    (Consumes.keyword _).leavesSuffix.bind fun _ =>
      (Consumes.keyword _).leavesSuffix.bind fun _ => (Consumes.name _).leavesSuffix.bind fun _ =>
        (Consumes.keyword _).leavesSuffix.bind fun _ =>
          Consumes.foreignKeyBody.leavesSuffix.bind fun _ => LeavesSuffix.pure _

theorem LeavesSuffix.statement (t : Token) : (statement t).LeavesSuffix := by
  unfold Parser.statement
  split
  · exact Consumes.createTable.leavesSuffix.bind fun _ => LeavesSuffix.pure _
  split
  · exact Consumes.alterTable.leavesSuffix.bind fun _ => LeavesSuffix.pure _
  · exact LeavesSuffix.pure _

/-- All statements of a script. -/
def statements : Parser (List Statement) := do
  let found ← manyUntil (fun _ => false) statement LeavesSuffix.statement
  return found.filterMap id

end Parser

/-- The schema of a script that is given by its tokens. -/
def readTokens (tokens : List Token) : Except ParseError (List Table) :=
  match Parser.statements tokens with
  | .error e => .error e
  | .ok (statements, _) => .ok (schemaOf statements)

/-- The schema of a script. -/
def readScript (script : String) : Except ParseError (List Table) :=
  readTokens (tokenize script)

end SchemaArchive
