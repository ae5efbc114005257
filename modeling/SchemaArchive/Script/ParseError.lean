import SchemaArchive.Script.Token

/-!
# Why a script cannot be read

Reading stops at the first token that cannot go on from what was read before it, or at the end of
the script if something is still missing there.
-/

namespace SchemaArchive

/-- What reading waits for at some point. -/
inductive Expectation where
  | mark (kind : TokenKind)
  | keyword (word : String)
  | tableName
  | columnName
  | columnType
  | typeArgument
  | defaultValue
  | referencedTableName
  | constraintName
  | constraintKind
  deriving DecidableEq, Repr

/-- The words for what is waited for. -/
def Expectation.text : Expectation → String
  | mark kind => kind.text
  | keyword word => "keyword " ++ word
  | tableName => "table name"
  | columnName => "column name"
  | columnType => "column type"
  | typeArgument => "type size"
  | defaultValue => "default value"
  | referencedTableName => "referenced table name"
  | constraintName => "constraint name"
  | constraintKind => "PRIMARY KEY, UNIQUE or FOREIGN KEY"

/-- Why a script cannot be read. -/
inductive ParseError where
  /-- A token stands where something else is needed. -/
  | expected (what : Expectation) (found : Token)
  /-- The script ends where something is needed. -/
  | unexpectedEnd (what : Expectation)
  deriving DecidableEq, Repr

/-- What is said about a script that cannot be read. -/
def ParseError.message : ParseError → String
  | expected what found => "Expected " ++ what.text ++ ", found " ++ found.display
  | unexpectedEnd what => "Unexpected end of input, expected " ++ what.text

end SchemaArchive
