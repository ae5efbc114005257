import SchemaArchive.Text.Visible

/-!
# Tokens of a script

A script is read as a list of tokens.  A token has a kind, the text it stands for, and the place
where it begins, counted in bytes of the script's UTF-8 form.
-/

namespace SchemaArchive

/-- The kinds of tokens. -/
inductive TokenKind where
  /-- A word that the language reserves. -/
  | keyword
  /-- Any other word. -/
  | identifier
  /-- Text between quotes of any of the three sorts. -/
  | quotedString
  /-- ASCII digits and points. -/
  | number
  | leftParen
  | rightParen
  | comma
  | semicolon
  | equals
  deriving DecidableEq, Repr

/-- The words for a kind. -/
def TokenKind.text : TokenKind → String
  | keyword => "keyword"
  | identifier => "identifier"
  | quotedString => "quoted string"
  | number => "number"
  | leftParen => "'('"
  | rightParen => "')'"
  | comma => "','"
  | semicolon => "';'"
  | equals => "'='"

/-- The kind with these words. -/
def TokenKind.ofText? (s : String) : Option TokenKind :=
  [keyword, identifier, quotedString, number, leftParen, rightParen, comma, semicolon,
    equals].find? (·.text == s)

/-- Can a token of this kind name a table, a column or a constraint? -/
def TokenKind.isName : TokenKind → Bool
  | identifier | quotedString => true
  | _ => false

/-- The reserved words. -/
def keywords : List String :=
  ["CREATE", "TABLE", "ALTER", "ADD", "CONSTRAINT", "FOREIGN", "KEY", "REFERENCES", "PRIMARY",
    "IF", "NOT", "EXISTS", "NULL", "DEFAULT", "AUTO_INCREMENT", "UNSIGNED", "ENGINE", "UNIQUE",
    "INDEX"]

/-- A token: its kind, the text it stands for, and the byte offset of its first character.  A
word stands for its upper case, a quoted string for what is between its quotes. -/
structure Token where
  kind : TokenKind
  value : String
  position : Nat
  deriving DecidableEq, Repr

namespace Token

/-- Is the token the reserved word `word`? -/
def isKeyword (word : String) (t : Token) : Bool :=
  t.kind == .keyword && t.value == word

/-- Is the token the bare, unreserved word `word`? -/
def isWord (word : String) (t : Token) : Bool :=
  t.kind == .identifier && t.value == word

/-- Can the token name something? -/
def isName (t : Token) : Bool :=
  t.kind.isName

/-- How messages name a token: by kind, by value where the kind leaves it open, and by place. -/
def display (t : Token) : String :=
  let shown :=
    match t.kind with
    | .keyword | .identifier | .number => t.kind.text ++ " " ++ t.value
    | .quotedString => t.kind.text ++ " " ++ Text.visible t.value
    | _ => t.kind.text
  shown ++ " at offset " ++ toString t.position

end Token

end SchemaArchive
