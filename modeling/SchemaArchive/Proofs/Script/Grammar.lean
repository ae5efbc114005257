import SchemaArchive.Script.Statement

/-!
# The grammar of scripts

The scripts that are written as they should be, as trees over their own tokens.  A leaf is a
token together with the proof that it fits where it stands, so every tree is a well-formed script
and every well-formed script is a tree: `Script.tokens` writes a tree out again.

What a tree says is read off it directly, without a cursor and without a growing schema.
`ColumnClause.column` looks at the attributes of a column as a whole, `constraintsFrom` numbers
the foreign keys of a body, and `declared` gives a table the foreign keys that later statements
add to it, up to the next declaration of the same name.

* `Script.tokens` — the tokens of a script, `Script.schema` — the schema that it declares.
-/

namespace SchemaArchive.Grammar

/-! ## Leaves -/

/-- A token that is the reserved word `word`. -/
abbrev Reserved (word : String) := { t : Token // t.isKeyword word = true }

/-- A token that is the bare word `word`. -/
abbrev Bare (word : String) := { t : Token // t.isWord word = true }

/-- A punctuation mark. -/
abbrev Mark (kind : TokenKind) := { t : Token // t.kind = kind }

/-- A token that names something. -/
abbrev Name := { t : Token // t.isName = true }

/-- One of the two words for an index. -/
abbrev KeyWord := { t : Token // (t.isKeyword "KEY" || t.isKeyword "INDEX") = true }

/-- Is the token a parenthesis? -/
def isParen (t : Token) : Bool :=
  t.kind == .leftParen || t.kind == .rightParen

/-! ## Groups in parentheses -/

/-- Every parenthesis among the tokens has its partner there. -/
inductive Balanced : List Token → Prop
  | nil : Balanced []
  | token {t : Token} {ts : List Token} (h : isParen t = false) :
      Balanced ts → Balanced (t :: ts)
  | group {l r : Token} {inside ts : List Token} (hl : l.kind = .leftParen)
      (hr : r.kind = .rightParen) : Balanced inside → Balanced ts →
      Balanced (l :: (inside ++ r :: ts))

/-- A pair of parentheses with whatever stands between them. -/
structure Group where
  opening : Mark .leftParen
  inside : List Token
  closing : Mark .rightParen
  balanced : Balanced inside

/-- The tokens of a group. -/
def Group.tokens (g : Group) : List Token :=
  g.opening.1 :: (g.inside ++ [g.closing.1])

/-! ## Column lists -/

/-- What may stand in a column list.  Only a name counts. -/
inductive Entry where
  | name (t : Name)
  /-- A group in parentheses, for instance a prefix length. -/
  | group (g : Group)
  /-- A comma, or any other token that is no name and no parenthesis. -/
  | other (t : { t : Token // (!t.isName && !isParen t) = true })

/-- The tokens of an entry. -/
def Entry.tokens : Entry → List Token
  | name t => [t.1]
  | group g => g.tokens
  | other t => [t.1]

/-- The column that an entry names. -/
def Entry.column? : Entry → Option String
  | name t => some t.1.value
  | _ => none

/-- A column list in its parentheses. -/
structure Columns where
  opening : Mark .leftParen
  entries : List Entry
  closing : Mark .rightParen

/-- The tokens of a column list. -/
def Columns.tokens (c : Columns) : List Token :=
  c.opening.1 :: (c.entries.flatMap Entry.tokens ++ [c.closing.1])

/-- The columns of the list, in order. -/
def Columns.names (c : Columns) : List String :=
  c.entries.filterMap Entry.column?

/-! ## Constraints -/

/-- What a foreign key says about an event: `ON`, the event, and an action of one word or two. -/
inductive Action where
  | oneWord (on : Bare "ON") (event : Token)
      (action : { t : Token // t.beginsTwoWordAction = false })
  | twoWords (on : Bare "ON") (event : Token)
      (action : { t : Token // t.beginsTwoWordAction = true }) (more : Token)

/-- The tokens of an action. -/
def Action.tokens : Action → List Token
  | oneWord on event action => [on.1, event, action.1]
  | twoWords on event action more => [on.1, event, action.1, more]

/-- A foreign key, from the word `FOREIGN` on. -/
structure ForeignKeyClause where
  foreign : Reserved "FOREIGN"
  key : Reserved "KEY"
  columns : Columns
  references : Reserved "REFERENCES"
  table : Name
  targetColumns : Columns
  actions : List Action

namespace ForeignKeyClause

/-- The tokens of a foreign key behind the word `FOREIGN`. -/
def bodyTokens (f : ForeignKeyClause) : List Token :=
  f.key.1 :: (f.columns.tokens ++ f.references.1 :: f.table.1 ::
    (f.targetColumns.tokens ++ f.actions.flatMap Action.tokens))

/-- What a foreign key refers to. -/
def target (f : ForeignKeyClause) : Reference :=
  ⟨f.table.1.value, f.targetColumns.names⟩

/-- The foreign key under a given name. -/
def constraint (f : ForeignKeyClause) (name : String) : Constraint :=
  .foreignKey name f.columns.names f.target

end ForeignKeyClause

/-- A primary key, from the word `PRIMARY` on. -/
structure PrimaryClause where
  primary : Reserved "PRIMARY"
  key : Reserved "KEY"
  columns : Columns

/-- The tokens of a primary key behind the word `PRIMARY`. -/
def PrimaryClause.bodyTokens (p : PrimaryClause) : List Token :=
  p.key.1 :: p.columns.tokens

/-- The tokens of a word that may be left out. -/
def maybe {test : Token → Prop} (t : Option { t : Token // test t }) : List Token :=
  (t.map Subtype.val).toList

/-- A unique index, from the word `UNIQUE` on. -/
structure UniqueClause where
  unique : Reserved "UNIQUE"
  key : Option KeyWord
  name : Option Name
  columns : Columns

/-- The tokens of a unique index behind the word `UNIQUE`. -/
def UniqueClause.bodyTokens (u : UniqueClause) : List Token :=
  maybe u.key ++ (maybe u.name ++ u.columns.tokens)

/-- What may stand behind `CONSTRAINT` and its name. -/
inductive NamedClause where
  | primaryKey (p : PrimaryClause)
  | unique (u : UniqueClause)
  | foreignKey (f : ForeignKeyClause)

/-- The tokens of a named constraint behind its name. -/
def NamedClause.tokens : NamedClause → List Token
  | primaryKey p => p.primary.1 :: p.bodyTokens
  | unique u => u.unique.1 :: u.bodyTokens
  | foreignKey f => f.foreign.1 :: f.bodyTokens

/-! ## Columns -/

/-- An argument of a type. -/
abbrev Argument := { t : Token // t.isTypeArgument = true }

/-- Members of a list with a comma behind each. -/
def commaTokens {ι : Type} (tokens : ι → List Token) (members : List (ι × Mark .comma)) :
    List Token :=
  members.flatMap fun m => tokens m.1 ++ [m.2.1]

/-- The arguments of a type in their parentheses.  There is at least one, and no comma behind the
last. -/
structure TypeArguments where
  opening : Mark .leftParen
  leading : List (Argument × Mark .comma)
  last : Argument
  closing : Mark .rightParen

/-- The tokens of a list of arguments. -/
def TypeArguments.tokens (a : TypeArguments) : List Token :=
  a.opening.1 :: (commaTokens (fun t => [t.1]) a.leading ++ a.last.1 :: [a.closing.1])

/-- What an argument says in the text of its type.  A number and a word stand for themselves; quoted
text stands between single quotes, with a backslash before each single quote and each backslash. -/
def argumentText (t : Token) : String :=
  if t.kind = .quotedString then
    "'" ++ String.join (t.value.toList.map fun c =>
      if c = '\'' ∨ c = '\\' then "\\" ++ c.toString else c.toString) ++ "'"
  else t.value

/-- The texts of the arguments, in order. -/
def TypeArguments.texts (a : TypeArguments) : List String :=
  (a.leading.map Prod.fst ++ [a.last]).map fun t => argumentText t.1

/-- The text that a type token and its arguments stand for, without blanks. -/
def typeTextOf (type : Token) : Option TypeArguments → String
  | some a => type.value ++ "(" ++ ",".intercalate a.texts ++ ")"
  | none => type.value

/-- The reserved words that begin an attribute which counts. -/
def attributeWords : List String :=
  ["UNSIGNED", "AUTO_INCREMENT", "NOT", "NULL", "DEFAULT"]

/-- Can the token stand among the attributes of a column without saying anything?  Comments and
character sets are made of such tokens. -/
def isFiller (t : Token) : Bool :=
  t.kind != .comma && !isParen t && attributeWords.all fun word => !t.isKeyword word

/-- A piece of what stands behind the type of a column. -/
inductive Attribute where
  | unsigned (t : Reserved "UNSIGNED")
  | autoIncrement (t : Reserved "AUTO_INCREMENT")
  | notNull (notWord : Reserved "NOT") (nullWord : Reserved "NULL")
  | null (t : Reserved "NULL")
  | defaultValue (word : Reserved "DEFAULT") (value : { t : Token // t.isDefaultValue = true })
  | group (g : Group)
  | filler (t : { t : Token // isFiller t = true })

namespace Attribute

/-- The tokens of an attribute. -/
def tokens : Attribute → List Token
  | unsigned t => [t.1]
  | autoIncrement t => [t.1]
  | notNull notWord nullWord => [notWord.1, nullWord.1]
  | null t => [t.1]
  | defaultValue word value => [word.1, value.1]
  | group g => g.tokens
  | filler t => [t.1]

/-- Is it the attribute `UNSIGNED`? -/
def isUnsigned : Attribute → Bool
  | unsigned _ => true
  | _ => false

/-- Is it the attribute `AUTO_INCREMENT`? -/
def isAutoIncrement : Attribute → Bool
  | autoIncrement _ => true
  | _ => false

/-- What the attribute says about NULL: whether it is admitted. -/
def nullable? : Attribute → Option Bool
  | notNull _ _ => some false
  | null _ => some true
  | _ => none

/-- The default that the attribute gives. -/
def default? : Attribute → Option String
  | defaultValue _ value => some value.1.value
  | _ => none

/-- Is it a group in parentheses? -/
def isGroup : Attribute → Bool
  | group _ => true
  | _ => false

end Attribute

/-- The definition of a column.  A group right behind a type would be its arguments, so a type
without arguments has no group behind it. -/
structure ColumnClause where
  name : Name
  type : { t : Token // t.isTypeName = true }
  arguments : Option TypeArguments
  attributes : List Attribute
  no_group : arguments = none → attributes.head?.any Attribute.isGroup = false

namespace ColumnClause

/-- The tokens of a column definition. -/
def tokens (c : ColumnClause) : List Token :=
  c.name.1 :: c.type.1 ::
    ((c.arguments.map TypeArguments.tokens).getD [] ++ c.attributes.flatMap Attribute.tokens)

/-- The text of the type. -/
def typeText (c : ColumnClause) : String :=
  typeTextOf c.type.1 c.arguments

/-- The column that the definition gives.  A flag is set when it stands anywhere; of several
attributes on NULL, or several defaults, the last one counts. -/
def column (c : ColumnClause) : Column where
  name := c.name.1.value
  type := c.typeText
  unsigned := c.attributes.any Attribute.isUnsigned
  nullable := (c.attributes.filterMap Attribute.nullable?).getLast?.getD true
  defaultValue := (c.attributes.filterMap Attribute.default?).getLast?
  autoIncrement := c.attributes.any Attribute.isAutoIncrement

end ColumnClause

/-! ## Table bodies -/

/-- An item of a table body. -/
inductive Item where
  | primaryKey (p : PrimaryClause)
  | key (word : KeyWord) (name : Option Name) (columns : Columns)
  | unique (u : UniqueClause)
  | constraint (word : Reserved "CONSTRAINT") (name : Option Name) (clause : NamedClause)
  | foreignKey (f : ForeignKeyClause)
  | column (c : ColumnClause)

namespace Item

/-- The tokens of an item. -/
def tokens : Item → List Token
  | primaryKey p => p.primary.1 :: p.bodyTokens
  | key word name columns => word.1 :: (maybe name ++ columns.tokens)
  | unique u => u.unique.1 :: u.bodyTokens
  | constraint word name clause => word.1 :: (maybe name ++ clause.tokens)
  | foreignKey f => f.foreign.1 :: f.bodyTokens
  | column c => c.tokens

/-- The column that an item defines. -/
def column? : Item → Option Column
  | column c => some c.column
  | _ => none

/-- The foreign key that an item declares, with the name that it gives. -/
def foreignKey? : Item → Option (Option String × ForeignKeyClause)
  | constraint _ name (.foreignKey f) => some (name.map (·.1.value), f)
  | foreignKey f => some (none, f)
  | _ => none

/-- The index or primary key that an item declares.  The name of a unique index goes before that
of its constraint. -/
def index? : Item → Option Constraint
  | primaryKey p => some (.primaryKey p.columns.names)
  | key _ name columns => some (.key (name.map (·.1.value)) columns.names)
  | unique u => some (.unique (u.name.map (·.1.value)) u.columns.names)
  | constraint _ _ (.primaryKey p) => some (.primaryKey p.columns.names)
  | constraint _ name (.unique u) =>
    some (.unique ((u.name <|> name).map (·.1.value)) u.columns.names)
  | _ => none

end Item

/-- The name of the foreign key with this number in a table, if the script gives none. -/
def unnamedKey (table : String) (number : Nat) : String :=
  table ++ "_ibfk_" ++ toString number

/-- The constraints that the items of a body declare in a table of the given name, when `number`
is the number of the first foreign key among them.  A foreign key without a name is called after
the table and its number. -/
def constraintsFrom (table : String) (number : Nat) : List Item → List Constraint
  | [] => []
  | item :: items =>
    match item.foreignKey? with
    | some (name, f) =>
      f.constraint (name.getD (unnamedKey table number)) ::
        constraintsFrom table (number + 1) items
    | none => item.index?.toList ++ constraintsFrom table number items

/-! ## Statements -/

/-- The declaration of a table.  Of the items between the parentheses, those with a comma behind
them come first; there may be one more without a comma. -/
structure TableClause where
  create : Reserved "CREATE"
  table : Reserved "TABLE"
  ifNotExists : Option (Reserved "IF" × Reserved "NOT" × Reserved "EXISTS")
  name : Name
  opening : Mark .leftParen
  leading : List (Item × Mark .comma)
  last : Option Item
  closing : Mark .rightParen
  options : List { t : Token // t.kind ≠ .semicolon }

namespace TableClause

/-- The items of the body, in order. -/
def items (c : TableClause) : List Item :=
  c.leading.map Prod.fst ++ c.last.toList

/-- The tokens between the parentheses. -/
def itemTokens (c : TableClause) : List Token :=
  commaTokens Item.tokens c.leading ++ (c.last.map Item.tokens).getD []

/-- The tokens of a declaration behind the word `CREATE`. -/
def bodyTokens (c : TableClause) : List Token :=
  c.table.1 :: ((c.ifNotExists.map fun w => [w.1.1, w.2.1.1, w.2.2.1]).getD [] ++
    c.name.1 :: c.opening.1 :: (c.itemTokens ++ c.closing.1 :: c.options.map Subtype.val))

/-- The table that is declared. -/
def declaredTable (c : TableClause) : Table where
  name := c.name.1.value
  columns := c.items.filterMap Item.column?
  constraints := constraintsFrom c.name.1.value 1 c.items

end TableClause

/-- The addition of a foreign key to a table. -/
structure KeyClause where
  alter : Reserved "ALTER"
  table : Reserved "TABLE"
  tableName : Name
  add : Reserved "ADD"
  constraint : Reserved "CONSTRAINT"
  name : Name
  foreignKey : ForeignKeyClause

/-- The tokens of an addition behind the word `ALTER`. -/
def KeyClause.bodyTokens (k : KeyClause) : List Token :=
  k.table.1 :: k.tableName.1 :: k.add.1 :: k.constraint.1 :: k.name.1 :: k.foreignKey.foreign.1 ::
    k.foreignKey.bodyTokens

/-- A token that can be part of a statement which does not count. -/
abbrev Passing :=
  { t : Token // (!t.isKeyword "CREATE" && !t.isKeyword "ALTER" && t.kind != .semicolon) = true }

/-- A statement. -/
inductive Clause where
  | createTable (c : TableClause)
  | addKey (k : KeyClause)
  /-- Tokens without `CREATE` and `ALTER`, which say nothing. -/
  | other (ts : List Passing)

namespace Clause

/-- The tokens of a statement. -/
def tokens : Clause → List Token
  | createTable c => c.create.1 :: c.bodyTokens
  | addKey k => k.alter.1 :: k.bodyTokens
  | other ts => ts.map Subtype.val

/-- What a statement does to the schema. -/
def effect? : Clause → Option Statement
  | createTable c => some (.createTable c.declaredTable)
  | addKey k =>
    some (.addForeignKey k.tableName.1.value (k.foreignKey.constraint k.name.1.value))
  | other _ => none

end Clause

/-- A script: statements with a semicolon behind each, and perhaps one more without. -/
structure Script where
  closed : List (Clause × Mark .semicolon)
  last : Option Clause

namespace Script

/-- The tokens of a script. -/
def tokens (s : Script) : List Token :=
  s.closed.flatMap (fun c => c.1.tokens ++ [c.2.1]) ++ (s.last.map Clause.tokens).getD []

/-- What the statements of a script do, in order. -/
def statements (s : Script) : List Statement :=
  (s.closed.map Prod.fst ++ s.last.toList).filterMap Clause.effect?

end Script

/-! ## The schema of a script -/

/-- The foreign keys that statements add to a table of the given name which was declared before
them.  Behind another declaration of that name they go to the new table. -/
def addedTo (table : String) : List Statement → List Constraint
  | [] => []
  | .createTable t :: ss => if t.name = table then [] else addedTo table ss
  | .addForeignKey name key :: ss =>
    if name = table then key :: addedTo table ss else addedTo table ss

/-- The schema that statements declare: each table with the foreign keys that come to it later.
A foreign key for a table that has not been declared yet is lost. -/
def declared : List Statement → List Table
  | [] => []
  | .createTable t :: ss =>
    { t with constraints := t.constraints ++ addedTo t.name ss } :: declared ss
  | .addForeignKey _ _ :: ss => declared ss

/-- The schema that a script declares. -/
def Script.schema (s : Script) : List Table :=
  declared s.statements

end SchemaArchive.Grammar
