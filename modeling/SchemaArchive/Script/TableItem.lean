import SchemaArchive.Script.ColumnDefinition

/-!
# The items of a table body

Between the parentheses of a table stand column definitions and constraints.  `TableItem` is what
one of them says, and `Table.ofItems` is the table that a whole body describes; it is there that
a foreign key without a name gets one, made from the table's name and the key's place among the
foreign keys.

* `Parser.tableItem` reads one item, `Parser.tableBody` all of them.
* `Table.ofItems_append` — a body is built item by item.
* `Consumes.tableItem` — an item takes at least one token.
-/

namespace SchemaArchive

/-- What one item of a table body says. -/
inductive TableItem where
  | column (definition : Column)
  /-- A constraint that is complete in itself. -/
  | constraint (constraint : Constraint)
  /-- A foreign key, whose name may be left out. -/
  | foreignKey (name : Option String) (columns : List String) (target : Reference)
  deriving DecidableEq, Repr

/-- The table with one more item.  A foreign key without a name is called after the table and
its own number among the foreign keys. -/
def Table.add (t : Table) : TableItem → Table
  | .column definition => { t with columns := t.columns ++ [definition] }
  | .constraint constraint => { t with constraints := t.constraints ++ [constraint] }
  | .foreignKey name columns target =>
    let name := name.getD (generatedName t.name (t.foreignKeys.length + 1))
    { t with constraints := t.constraints ++ [.foreignKey name columns target] }

/-- The table of a given name with these items. -/
def Table.ofItems (name : String) (items : List TableItem) : Table :=
  items.foldl Table.add { name }

theorem Table.ofItems_append (name : String) (items more : List TableItem) :
    Table.ofItems name (items ++ more) = more.foldl Table.add (Table.ofItems name items) :=
  List.foldl_append

/-! ## Referential actions -/

/-- Is the token the first word of an action of two words, `SET NULL` or `NO ACTION`? -/
def Token.beginsTwoWordAction (t : Token) : Bool :=
  t.isWord "SET" || t.isWord "NO"

/-- Drops what a foreign key says about deletes and updates: each time the word `ON`, an event,
and an action of one word or two. -/
def dropActions : List Token → List Token
  | [] => []
  | t :: ts =>
    if t.isWord "ON" then
      dropActions (ts.drop (if (ts[1]?).any Token.beginsTwoWordAction then 3 else 2))
    else t :: ts
termination_by ts => ts.length
decreasing_by
  simp only [List.length_drop, List.length_cons]
  omega

theorem dropActions_suffix (ts : List Token) : dropActions ts <:+ ts := by
  fun_induction dropActions ts with
  | case1 => exact List.suffix_rfl
  | case2 t ts _ ih => exact (ih.trans (List.drop_suffix _ _)).trans (List.suffix_cons t ts)
  | case3 => exact List.suffix_rfl

namespace Parser

/-! ## Reading -/

/-- The columns and the target of a foreign key, behind the word `FOREIGN`. -/
def foreignKeyBody : Parser (List String × Reference) := do
  keyword "KEY"
  let columns ← columnList
  keyword "REFERENCES"
  let table ← name .referencedTableName
  let targetColumns ← columnList
  passOver dropActions
  return (columns, ⟨table, targetColumns⟩)

theorem Consumes.foreignKeyBody : Parser.foreignKeyBody.Consumes :=
  (Consumes.keyword _).bind fun _ => Consumes.columnList.leavesSuffix.bind fun _ =>
    (Consumes.keyword _).leavesSuffix.bind fun _ => (Consumes.name _).leavesSuffix.bind fun _ =>
      Consumes.columnList.leavesSuffix.bind fun _ =>
        (LeavesSuffix.passOver dropActions_suffix).bind fun _ => LeavesSuffix.pure _

/-- A foreign key, behind the word `FOREIGN`. -/
def foreignKeyItem (name : Option String) : Parser TableItem := do
  let (columns, target) ← foreignKeyBody
  return .foreignKey name columns target

/-- A primary key, behind the word `PRIMARY`. -/
def primaryKeyItem : Parser TableItem := do
  keyword "KEY"
  let columns ← columnList
  return .constraint (.primaryKey columns)

/-- An index, behind the word `KEY` or `INDEX`. -/
def keyItem : Parser TableItem := do
  let name ← optionalName
  let columns ← columnList
  return .constraint (.key name columns)

/-- A unique index, behind the word `UNIQUE`.  Its own name goes before the one that its
constraint has. -/
def uniqueItem (constraintName : Option String) : Parser TableItem := do
  ifTaken (fun t => t.isKeyword "KEY" || t.isKeyword "INDEX") (return ()) (return ())
  let name ← optionalName
  let columns ← columnList
  return .constraint (.unique (name <|> constraintName) columns)

/-- A constraint, behind the word `CONSTRAINT`.  The name is of no use to a primary key. -/
def constraintItem : Parser TableItem := do
  let name ← optionalName
  ifTaken (Token.isKeyword "PRIMARY") primaryKeyItem <|
    ifTaken (Token.isKeyword "UNIQUE") (uniqueItem name) <|
      ifTaken (Token.isKeyword "FOREIGN") (foreignKeyItem name) <|
        fail .constraintKind

/-- One item of a table body.  Reserved words tell the constraints apart; anything else begins
the definition of a column. -/
def tableItem : Parser TableItem :=
  ifTaken (Token.isKeyword "PRIMARY") primaryKeyItem <|
    ifTaken (fun t => t.isKeyword "KEY" || t.isKeyword "INDEX") keyItem <|
      ifTaken (Token.isKeyword "UNIQUE") (uniqueItem none) <|
        ifTaken (Token.isKeyword "CONSTRAINT") constraintItem <|
          ifTaken (Token.isKeyword "FOREIGN") (foreignKeyItem none) <| do
            let definition ← columnDefinition
            return .column definition

theorem Consumes.foreignKeyItem (name : Option String) : (foreignKeyItem name).Consumes :=
  Consumes.foreignKeyBody.bind fun _ => LeavesSuffix.pure _

theorem Consumes.primaryKeyItem : Parser.primaryKeyItem.Consumes :=
  (Consumes.keyword _).bind fun _ => Consumes.columnList.leavesSuffix.bind fun _ =>
    LeavesSuffix.pure _

theorem Consumes.keyItem : Parser.keyItem.Consumes :=
  LeavesSuffix.optionalName.bind_consumes fun _ => Consumes.columnList.bind fun _ =>
    LeavesSuffix.pure _

theorem Consumes.uniqueItem (constraintName : Option String) :
    (uniqueItem constraintName).Consumes :=
  (LeavesSuffix.ifTaken (LeavesSuffix.pure _) (LeavesSuffix.pure _)).bind_consumes fun _ =>
    LeavesSuffix.optionalName.bind_consumes fun _ => Consumes.columnList.bind fun _ =>
      LeavesSuffix.pure _

theorem Consumes.constraintItem : Parser.constraintItem.Consumes :=
  LeavesSuffix.optionalName.bind_consumes fun _ =>
    Consumes.ifTaken Consumes.primaryKeyItem.leavesSuffix <|
      Consumes.ifTaken (Consumes.uniqueItem _).leavesSuffix <|
        Consumes.ifTaken (Consumes.foreignKeyItem _).leavesSuffix <|
          Consumes.fail _

theorem Consumes.tableItem : Parser.tableItem.Consumes :=
  Consumes.ifTaken Consumes.primaryKeyItem.leavesSuffix <|
    Consumes.ifTaken Consumes.keyItem.leavesSuffix <|
      Consumes.ifTaken (Consumes.uniqueItem _).leavesSuffix <|
        Consumes.ifTaken Consumes.constraintItem.leavesSuffix <|
          Consumes.ifTaken (Consumes.foreignKeyItem _).leavesSuffix <|
            Consumes.columnDefinition.bind fun _ => LeavesSuffix.pure _

/-- The items of a table body, between its parentheses. -/
def tableBody : Parser (List TableItem) := do
  mark .leftParen
  let items ← commaSeparated (·.kind == .rightParen) tableItem Consumes.tableItem
  mark .rightParen
  return items

theorem Consumes.tableBody : Parser.tableBody.Consumes :=
  (Consumes.mark _).bind fun _ => (LeavesSuffix.commaSeparated _).bind fun _ =>
    (Consumes.mark _).leavesSuffix.bind fun _ => LeavesSuffix.pure _

end Parser

end SchemaArchive
