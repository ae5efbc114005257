import SchemaArchive.Text.Hexadecimal
import SchemaArchive.Text.Utf8

/-!
# Percent signs and what they spell

In addresses a percent sign with two hexadecimal digits behind it spells a byte; all else stands
for its own bytes.  A percent sign without two digits is an ordinary character.  Parameters
spell a space as a plus sign as well.

* `percentBytes` — the bytes that a text spells.
* `percentText?` — the text that these bytes are; `formText` — the text of a parameter, in which
  faults are marked and never refused.
-/

namespace SchemaArchive.Text

/-- The bytes that a text spells. -/
def percentBytes : List Char → List UInt8
  | [] => []
  | '%' :: h :: l :: cs =>
    match hexValue? h, hexValue? l with
    | some high, some low => UInt8.ofNat (high * 16 + low) :: percentBytes cs
    | _, _ => String.utf8EncodeChar '%' ++ percentBytes (h :: l :: cs)
  | c :: cs => String.utf8EncodeChar c ++ percentBytes cs

/-- The text that a text spells, if the bytes are one. -/
def percentText? (cs : List Char) : Except Utf8.Fault (List Char) :=
  Utf8.decode? (percentBytes cs)

/-- The text that a name or a value among parameters spells. -/
def formText (cs : List Char) : List Char :=
  Utf8.decodeLossy (percentBytes (cs.map fun c => if c == '+' then ' ' else c))

end SchemaArchive.Text
