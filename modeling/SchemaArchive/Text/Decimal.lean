/-!
# Decimal numbers within bounds

Numbers written with the ten ASCII digits and an optional sign, read from the left.  The first
problem met is the one reported: a number that has grown too large is refused at the digit where
that happens, whatever comes after it.

* `digitsBelow` — the digits of a number below a bound.
* `readUnsigned`, `readSigned` — a whole text as a number, with an optional sign.
-/

namespace SchemaArchive.Text

/-- Why a text is not a number within its bounds. -/
inductive NumberError where
  /-- There is nothing to read. -/
  | empty
  /-- A character stands where a digit should be, or a sign stands alone. -/
  | invalidDigit
  /-- The number has reached its bound. -/
  | tooLarge
  deriving DecidableEq, Repr

/-- What messages say about each problem. -/
def NumberError.message : NumberError → String
  | .empty => "cannot parse integer from empty string"
  | .invalidDigit => "invalid digit found in string"
  | .tooLarge => "number too large to fit in target type"

/-- The value of an ASCII digit. -/
def digitValue (c : Char) : Nat :=
  c.toNat - 48

/-- Appends the digits `cs` to the number `value`, as long as it stays below `bound`. -/
def digitsBelow (bound value : Nat) : List Char → Except NumberError Nat
  | [] => .ok value
  | c :: cs =>
    if c.isDigit then
      if 10 * value + digitValue c < bound then digitsBelow bound (10 * value + digitValue c) cs
      else .error .tooLarge
    else .error .invalidDigit

/-- The digits of a number below `bound`, of which there is at least one after a sign. -/
def signedDigits (bound : Nat) (cs : List Char) : Except NumberError Nat :=
  if cs.isEmpty then .error .invalidDigit else digitsBelow bound 0 cs

/-- A number below `bound` that may have a plus sign. -/
def readUnsigned (bound : Nat) : List Char → Except NumberError Nat
  | [] => .error .empty
  | '+' :: cs => signedDigits bound cs
  | cs => digitsBelow bound 0 cs

/-- A number from `-bound` up to, but not including, `bound`, that may have either sign. -/
def readSigned (bound : Nat) : List Char → Except NumberError Int
  | [] => .error .empty
  | '+' :: cs => (signedDigits bound cs).map Int.ofNat
  | '-' :: cs => (signedDigits (bound + 1) cs).map fun n => -Int.ofNat n
  | cs => (digitsBelow bound 0 cs).map Int.ofNat

end SchemaArchive.Text
