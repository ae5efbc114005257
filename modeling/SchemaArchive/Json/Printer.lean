import SchemaArchive.Json.Value
import SchemaArchive.Text.Quoted

/-!
# Writing JSON

Two layouts of one text: `Json.compact` without any blank, and `Json.pretty` with every item and
member on a line of its own, indented by two spaces per level.  In strings only the double quote,
the backslash and the control characters below U+0020 are escaped.
-/

namespace SchemaArchive.Json

open Text

/-- The four hexadecimal digits of a small number. -/
def hexDigits (n : Nat) : List Char :=
  let digits := Nat.toDigits 16 n
  List.replicate (4 - digits.length) '0' ++ digits

/-- One character inside a string. -/
def stringChar (c : Char) : List Char :=
  if c == doubleQuote || c == backslash then [backslash, c]
  else if c == '\x08' then [backslash, 'b']
  else if c == '\t' then [backslash, 't']
  else if c == '\n' then [backslash, 'n']
  else if c == '\x0c' then [backslash, 'f']
  else if c == '\r' then [backslash, 'r']
  else if c.toNat < 0x20 then backslash :: 'u' :: hexDigits c.toNat
  else [c]

/-- A string between its quotes. -/
def stringText (s : String) : List Char :=
  doubleQuote :: (s.toList.flatMap stringChar ++ [doubleQuote])

/-- The opening brace of an object. -/
abbrev leftBrace : Char := '\x7b'

/-- The closing brace of an object. -/
abbrev rightBrace : Char := '\x7d'

mutual

/-- The text of a value without blanks. -/
def compact : Json → List Char
  | null => "null".toList
  | bool b => (if b then "true" else "false").toList
  | number n => (toString n).toList
  | string s => stringText s
  | array items => '[' :: (compactItems items ++ [']'])
  | object members => leftBrace :: (compactMembers members ++ [rightBrace])

/-- The items of a list with commas between them. -/
def compactItems : List Json → List Char
  | [] => []
  | [item] => compact item
  | item :: items => compact item ++ ',' :: compactItems items

/-- The members of an object with commas between them. -/
def compactMembers : List (String × Json) → List Char
  | [] => []
  | [(key, value)] => stringText key ++ ':' :: compact value
  | (key, value) :: members =>
    stringText key ++ ':' :: (compact value ++ ',' :: compactMembers members)

end

/-- A new line at the given level. -/
def newLine (level : Nat) : List Char :=
  '\n' :: List.replicate (2 * level) ' '

mutual

/-- The text of a value over several lines, for a value that begins at the given level.  A list
or an object without content stays on its line. -/
def prettyAt (level : Nat) : Json → List Char
  | null => "null".toList
  | bool b => (if b then "true" else "false").toList
  | number n => (toString n).toList
  | string s => stringText s
  | array [] => "[]".toList
  | array (item :: items) =>
    '[' :: (prettyItems (level + 1) (item :: items) ++ newLine level ++ [']'])
  | object [] => [leftBrace, rightBrace]
  | object (member :: members) =>
    leftBrace :: (prettyMembers (level + 1) (member :: members) ++ newLine level ++ [rightBrace])

/-- The items of a list, each on a line of its own. -/
def prettyItems (level : Nat) : List Json → List Char
  | [] => []
  | [item] => newLine level ++ prettyAt level item
  | item :: items => newLine level ++ prettyAt level item ++ ',' :: prettyItems level items

/-- The members of an object, each on a line of its own. -/
def prettyMembers (level : Nat) : List (String × Json) → List Char
  | [] => []
  | [(key, value)] => newLine level ++ stringText key ++ ": ".toList ++ prettyAt level value
  | (key, value) :: members =>
    newLine level ++ stringText key ++ ": ".toList ++ prettyAt level value
      ++ ',' :: prettyMembers level members

end

/-- The text of a value over several lines. -/
def pretty (v : Json) : List Char :=
  prettyAt 0 v

end SchemaArchive.Json
