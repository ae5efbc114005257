import SchemaArchive.Schema.Table
import SchemaArchive.Script.ColumnList
import SchemaArchive.Text.Quoted

/-!
# Column definitions

A column is defined by its name, its type and its attributes.  `Parser.columnType` reads the type
into one text, arguments included; `Parser.columnDefinition` reads the whole.  Attributes that a
schema does not keep, comments or character sets for instance, are passed over token by token,
and groups in parentheses as a whole.

* `Consumes.columnDefinition` — a definition takes at least one token.
-/

namespace SchemaArchive

/-! ## Types -/

/-- A type may be a reserved word, or stand in quotes. -/
def Token.isTypeName (t : Token) : Bool :=
  t.kind == .identifier || t.kind == .keyword || t.kind == .quotedString

/-- An argument of a type is a number, a bare word or a quoted string. -/
def Token.isTypeArgument (t : Token) : Bool :=
  t.kind == .number || t.kind == .identifier || t.kind == .quotedString

/-- A quoted argument as a type keeps it.  It gets single quotes, whichever it had, so that the type
can be written out and read again. -/
def quoteTypeArgument (value : String) : String :=
  let inside := value.toList.foldl
    (fun quoted c =>
      let quoted :=
        if c == Text.singleQuote || c == Text.backslash then quoted.push Text.backslash else quoted
      quoted.push c)
    ("".push Text.singleQuote)
  inside.push Text.singleQuote

theorem toList_foldl_push_escape (cs : List Char) (start : String) :
    (cs.foldl
      (fun quoted c =>
        let quoted :=
          if c == Text.singleQuote || c == Text.backslash then quoted.push Text.backslash
          else quoted
        quoted.push c) start).toList = start.toList ++ Text.escape Text.singleQuote cs := by
  induction cs generalizing start with
  | nil => simp [Text.escape]
  | cons c cs ih =>
    rw [List.foldl_cons, ih]
    simp only [Text.escape, List.flatMap_cons, Text.escapeChar]
    split <;> simp

/-- A quoted argument is kept as it would be written as a literal. -/
theorem quoteTypeArgument_eq (value : String) :
    quoteTypeArgument value = String.ofList (Text.quoted Text.singleQuote value.toList) := by
  apply String.toList_injective
  simp only [quoteTypeArgument, String.toList_push, toList_foldl_push_escape, Text.quoted,
    String.toList_ofList]
  simp

/-- The text that an argument contributes to its type. -/
def Token.typeArgumentText (t : Token) : String :=
  if t.kind == .quotedString then quoteTypeArgument t.value else t.value

/-- The text of a type that has arguments. -/
def typeText (name : String) (arguments : List String) : String :=
  name ++ "(" ++ ",".intercalate arguments ++ ")"

/-! ## Attributes -/

/-- What an attribute says about its column. -/
inductive ColumnAttribute where
  | unsigned
  | autoIncrement
  | notNull
  | null
  | defaultValue (value : String)
  /-- Anything that a schema does not keep. -/
  | ignored
  deriving DecidableEq, Repr

/-- The column with one more attribute; of two that disagree the later counts. -/
def ColumnAttribute.apply (column : Column) : ColumnAttribute → Column
  | unsigned => { column with unsigned := true }
  | autoIncrement => { column with autoIncrement := true }
  | notNull => { column with nullable := false }
  | null => { column with nullable := true }
  | defaultValue value => { column with defaultValue := some value }
  | ignored => column

/-- A default is a quoted string, a number, a bare word or NULL. -/
def Token.isDefaultValue (t : Token) : Bool :=
  t.kind == .quotedString || t.kind == .number || t.kind == .identifier || t.isKeyword "NULL"

/-- Attributes end before a comma or a closing parenthesis. -/
def Token.endsAttributes (t : Token) : Bool :=
  t.kind == .comma || t.kind == .rightParen

namespace Parser

/-! ## Reading -/

/-- An argument of a type. -/
def typeArgument : Parser String := do
  let t ← accept .typeArgument Token.isTypeArgument
  return t.typeArgumentText

theorem Consumes.typeArgument : Parser.typeArgument.Consumes :=
  (Consumes.accept _ _).bind fun _ => LeavesSuffix.pure _

/-- A type, with its arguments if a parenthesis follows its name. -/
def columnType : Parser String := do
  let t ← accept .columnType Token.isTypeName
  ifTaken (·.kind == .leftParen)
    (do
      let arguments ← commaSeparated (fun _ => false) typeArgument Consumes.typeArgument
      mark .rightParen
      return typeText t.value arguments)
    (return t.value)

theorem Consumes.columnType : Parser.columnType.Consumes :=
  (Consumes.accept _ _).bind fun _ => LeavesSuffix.ifTaken
    ((LeavesSuffix.commaSeparated _).bind fun _ =>
      (Consumes.mark _).leavesSuffix.bind fun _ => LeavesSuffix.pure _)
    (LeavesSuffix.pure _)

/-- The attribute that begins with the token `t`. -/
def columnAttribute (t : Token) : Parser ColumnAttribute := do
  if t.kind == .leftParen then
    passOver (dropGroup 1)
    return .ignored
  else if t.isKeyword "UNSIGNED" then return .unsigned
  else if t.isKeyword "AUTO_INCREMENT" then return .autoIncrement
  else if t.isKeyword "NOT" then
    keyword "NULL"
    return .notNull
  else if t.isKeyword "NULL" then return .null
  else if t.isKeyword "DEFAULT" then
    let value ← accept .defaultValue Token.isDefaultValue
    return .defaultValue value.value
  else return .ignored

theorem LeavesSuffix.columnAttribute (t : Token) : (columnAttribute t).LeavesSuffix := by
  unfold Parser.columnAttribute
  split
  · exact (LeavesSuffix.passOver (dropGroup_suffix 1)).bind fun _ => LeavesSuffix.pure _
  split
  · exact LeavesSuffix.pure _
  split
  · exact LeavesSuffix.pure _
  split
  · exact (Consumes.keyword _).leavesSuffix.bind fun _ => LeavesSuffix.pure _
  split
  · exact LeavesSuffix.pure _
  split
  · exact (Consumes.accept _ _).leavesSuffix.bind fun _ => LeavesSuffix.pure _
  · exact LeavesSuffix.pure _

/-- The definition of a column. -/
def columnDefinition : Parser Column := do
  let name ← name .columnName
  let type ← columnType
  let attributes ← manyUntil Token.endsAttributes columnAttribute LeavesSuffix.columnAttribute
  return attributes.foldl ColumnAttribute.apply { name, type }

theorem Consumes.columnDefinition : Parser.columnDefinition.Consumes :=
  (Consumes.name _).bind fun _ => Consumes.columnType.leavesSuffix.bind fun _ =>
    (LeavesSuffix.manyUntil _).bind fun _ => LeavesSuffix.pure _

end Parser

end SchemaArchive
