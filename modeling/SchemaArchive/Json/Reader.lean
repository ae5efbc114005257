import SchemaArchive.Json.Printer
import SchemaArchive.Text.Hexadecimal

/-!
# Reading JSON

A text is cut into lexemes, and the lexemes are put together by a machine that keeps the lists
and objects it is in the middle of on a stack.  Each lexeme is one step, so reading ends with the
text; there is no limit on how deep values lie in one another.

* `Json.lexemes` cuts a text, `Json.ofLexemes` puts lexemes together, `Json.ofChars?` does both.
-/

namespace SchemaArchive.Json

open Text

/-! ## Lexemes -/

/-- The lexemes of JSON. -/
inductive Lexeme where
  | leftBracket
  | rightBracket
  | leftBrace
  | rightBrace
  | comma
  | colon
  | null
  | bool (value : Bool)
  | number (value : Int)
  | string (value : String)
  deriving DecidableEq, Repr

/-- The number that four hexadecimal digits write. -/
def hexNumber? (a b c d : Char) : Option Nat := do
  return ((← hexValue? a) * 16 + (← hexValue? b)) * 256 + (← hexValue? c) * 16 + (← hexValue? d)

/-- The character that a letter behind a backslash stands for. -/
def escapedChar? (c : Char) : Option Char :=
  if c == doubleQuote || c == backslash || c == '/' then some c
  else if c == 'b' then some '\x08'
  else if c == 't' then some '\t'
  else if c == 'n' then some '\n'
  else if c == 'f' then some '\x0c'
  else if c == 'r' then some '\r'
  else none

/-- Is the number the first half of a character beyond U+FFFF? -/
def isHighSurrogate (n : Nat) : Bool :=
  0xD800 ≤ n && n < 0xDC00

/-- Is the number the second half of a character beyond U+FFFF? -/
def isLowSurrogate (n : Nat) : Bool :=
  0xDC00 ≤ n && n < 0xE000

/-- The numbers that a string holds, read up to its closing quote, behind which nothing may
follow: code points, and halves of characters beyond U+FFFF where those are spelled out. -/
def stringUnits? : List Char → Option (List Nat)
  | [] => none
  | '\x22' :: cs => if cs.isEmpty then some [] else none
  | '\x5c' :: 'u' :: a :: b :: c :: d :: cs => do
    let n ← hexNumber? a b c d
    let rest ← stringUnits? cs
    return n :: rest
  | '\x5c' :: c :: cs => do
    let c ← escapedChar? c
    let rest ← stringUnits? cs
    return c.toNat :: rest
  | c :: cs => if c.toNat < 0x20 then none else (stringUnits? cs).map (c.toNat :: ·)

/-- The characters of which these are the numbers.  `high` is a first half that waits for its
second; a half without the other is refused. -/
def charsOfUnits? : (high : Option Nat) → List Nat → Option (List Char)
  | none, [] => some []
  | some _, [] => none
  | none, n :: units =>
    if isHighSurrogate n then charsOfUnits? (some n) units
    else if isLowSurrogate n then none
    else (charsOfUnits? none units).map (Char.ofNat n :: ·)
  | some high, n :: units =>
    if isLowSurrogate n then
      (charsOfUnits? none units).map
        (Char.ofNat (0x10000 + (high - 0xD800) * 0x400 + (n - 0xDC00)) :: ·)
    else none

/-- The text of a string, from behind its opening quote. -/
def stringContent? (cs : List Char) : Option (List Char) := do
  charsOfUnits? none (← stringUnits? cs)

/-- The number that ASCII digits write, without a zero in front of other digits. -/
def digitsNumber? : List Char → Option Nat
  | [] => none
  | ['0'] => some 0
  | '0' :: _ => none
  | cs => some (cs.foldl (fun n c => 10 * n + (c.toNat - '0'.toNat)) 0)

/-- The lexeme that a word is. -/
def wordLexeme? (word : List Char) : Option Lexeme :=
  if word = "null".toList then some .null
  else if word = "true".toList then some (.bool true)
  else if word = "false".toList then some (.bool false)
  else none

/-- The lexeme that a punctuation mark is. -/
def markLexeme? (c : Char) : Option Lexeme :=
  if c == '[' then some .leftBracket
  else if c == ']' then some .rightBracket
  else if c == Json.leftBrace then some .leftBrace
  else if c == Json.rightBrace then some .rightBrace
  else if c == ',' then some .comma
  else if c == ':' then some .colon
  else none

/-- Does the character only separate lexemes? -/
def isSpace (c : Char) : Bool :=
  c == ' ' || c == '\t' || c == '\n' || c == '\r'

/-- The lexemes of a text. -/
def lexemes (text : List Char) : Option (List Lexeme) :=
  match text with
  | [] => some []
  | c :: cs =>
    if isSpace c then lexemes cs
    else if c == doubleQuote then do
      let s ← stringContent? (splitQuoted doubleQuote false cs).1
      let rest ← lexemes (splitQuoted doubleQuote false cs).2
      return .string (String.ofList s) :: rest
    else if c == '-' then do
      let n ← digitsNumber? (cs.takeWhile Char.isDigit)
      let rest ← lexemes (cs.dropWhile Char.isDigit)
      return .number (-n) :: rest
    else if c.isDigit then do
      let n ← digitsNumber? (c :: cs.takeWhile Char.isDigit)
      let rest ← lexemes (cs.dropWhile Char.isDigit)
      return .number n :: rest
    else if c.isLower then do
      let w ← wordLexeme? (c :: cs.takeWhile Char.isLower)
      let rest ← lexemes (cs.dropWhile Char.isLower)
      return w :: rest
    else do
      let m ← markLexeme? c
      let rest ← lexemes cs
      return m :: rest
termination_by text.length
decreasing_by
  · simp
  · have h := congrArg List.length (splitQuoted_append doubleQuote false cs)
    simp only [List.length_append] at h
    simp only [List.length_cons]
    omega
  · exact Nat.lt_succ_of_le (List.dropWhile_suffix _).length_le
  · exact Nat.lt_succ_of_le (List.dropWhile_suffix _).length_le
  · exact Nat.lt_succ_of_le (List.dropWhile_suffix _).length_le
  · simp

/-! ## Putting lexemes together -/

/-- A list or an object in the middle of which reading stands, with what has been read of it, the
latest first. -/
inductive Frame where
  | array (done : List Json)
  | object (done : List (String × Json)) (key : String)

/-- Where reading stands. -/
inductive State where
  /-- A value has to come. -/
  | value (stack : List Frame)
  /-- Behind an opening bracket: a value or the closing bracket. -/
  | arrayStart (stack : List Frame)
  /-- Behind an opening brace: a key or the closing brace. -/
  | objectStart (stack : List Frame)
  /-- Behind a comma in an object: a key has to come. -/
  | key (done : List (String × Json)) (stack : List Frame)
  /-- Behind a key: the colon has to come. -/
  | colon (done : List (String × Json)) (key : String) (stack : List Frame)
  /-- Behind a whole value. -/
  | behind (v : Json) (stack : List Frame)

/-- The state after the first lexeme of a value. -/
def valueStep (stack : List Frame) : Lexeme → Option State
  | .null => some (.behind .null stack)
  | .bool b => some (.behind (.bool b) stack)
  | .number n => some (.behind (.number n) stack)
  | .string s => some (.behind (.string s) stack)
  | .leftBracket => some (.arrayStart stack)
  | .leftBrace => some (.objectStart stack)
  | _ => none

/-- The state after one more lexeme. -/
def State.step : State → Lexeme → Option State
  | .value stack, l => valueStep stack l
  | .arrayStart stack, l =>
    if l = .rightBracket then some (.behind (.array []) stack)
    else valueStep (.array [] :: stack) l
  | .objectStart stack, l =>
    match l with
    | .rightBrace => some (.behind (.object []) stack)
    | .string k => some (.colon [] k stack)
    | _ => none
  | .key done stack, l =>
    match l with
    | .string k => some (.colon done k stack)
    | _ => none
  | .colon done k stack, l =>
    if l = .colon then some (.value (.object done k :: stack)) else none
  | .behind v (.array done :: stack), l =>
    match l with
    | .comma => some (.value (.array (v :: done) :: stack))
    | .rightBracket => some (.behind (.array (v :: done).reverse) stack)
    | _ => none
  | .behind v (.object done k :: stack), l =>
    match l with
    | .comma => some (.key ((k, v) :: done) stack)
    | .rightBrace => some (.behind (.object ((k, v) :: done).reverse) stack)
    | _ => none
  | .behind _ [], _ => none

/-- The state after several lexemes. -/
def State.steps (s : State) (ls : List Lexeme) : Option State :=
  ls.foldlM State.step s

/-- The value that lexemes make up. -/
def ofLexemes (ls : List Lexeme) : Option Json :=
  match (State.value []).steps ls with
  | some (.behind v []) => some v
  | _ => none

/-- The value that a text writes. -/
def ofChars? (text : List Char) : Option Json := do
  ofLexemes (← lexemes text)

end SchemaArchive.Json
