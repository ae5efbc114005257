import SchemaArchive.Text.Combining
import SchemaArchive.Text.Printable
import SchemaArchive.Text.Quoted

/-!
# Text made visible

How messages show a text that a user wrote: between double quotes, with everything that a reader
could not see or could misread spelled out.
-/

namespace SchemaArchive.Text

/-- One character as messages show it.  The double quote and the backslash get a backslash; NUL,
tab, line feed and carriage return have short spellings; characters that combine or do not print
are written as their code point in hexadecimal; all others stand for themselves. -/
def visibleChar (c : Char) : List Char :=
  if c == doubleQuote || c == backslash then [backslash, c]
  else if c == '\x00' then [backslash, '0']
  else if c == '\t' then [backslash, 't']
  else if c == '\n' then [backslash, 'n']
  else if c == '\r' then [backslash, 'r']
  else if isCombining c || !isPrintable c then
    backslash :: 'u' :: '\x7b' :: (Nat.toDigits 16 c.toNat ++ ['\x7d'])
  else [c]

/-- A text as messages show it, between double quotes. -/
def visible (s : String) : String :=
  String.ofList (doubleQuote :: (s.toList.flatMap visibleChar ++ [doubleQuote]))

end SchemaArchive.Text
