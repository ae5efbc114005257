import SchemaArchive.Script.Token
import SchemaArchive.Text.Blank
import SchemaArchive.Text.Letter
import SchemaArchive.Text.Numeral
import SchemaArchive.Text.UpperCase

/-!
# From text to tokens

A script is cut into lexemes and the gaps between them.  A gap is made of white space and of
characters that open no lexeme; a lexeme is a punctuation mark, quoted text, a word or a number,
and reaches as far as it can.  Scanning never fails.

* `Scanner.next` gives the next token, if there is one, and the scanner that is left;
  `Scanner.pull` asks for several of them, `Scanner.tokens` for all that are left, and `tokenize`
  for those of a whole script.
* `Opening.split_append` — a lexeme and the text behind it make up the text again.
* `Scanner.next_length_lt` — every token takes at least one character.
-/

namespace SchemaArchive

open Text

/-- The length of a text in UTF-8. -/
def byteLength (cs : List Char) : Nat :=
  cs.foldr (fun c length => c.utf8Size + length) 0

@[simp] theorem byteLength_nil : byteLength [] = 0 := rfl

@[simp] theorem byteLength_cons (c : Char) (cs : List Char) :
    byteLength (c :: cs) = c.utf8Size + byteLength cs := rfl

@[simp] theorem byteLength_append (cs ds : List Char) :
    byteLength (cs ++ ds) = byteLength cs + byteLength ds := by
  induction cs with
  | nil => simp
  | cons c cs ih => rw [List.cons_append, byteLength_cons, byteLength_cons, ih, Nat.add_assoc]

/-! ## Lexemes -/

/-- The kind of token that a punctuation mark makes by itself. -/
def punctuation? (c : Char) : Option TokenKind :=
  if c == '(' then some .leftParen
  else if c == ')' then some .rightParen
  else if c == ',' then some .comma
  else if c == ';' then some .semicolon
  else if c == '=' then some .equals
  else none

/-- Can `c` begin a word? -/
def startsWord (c : Char) : Bool :=
  isLetter c || c == '_'

/-- Can `c` continue a word? -/
def continuesWord (c : Char) : Bool :=
  isLetter c || isNumeral c || c == '_'

/-- Can `c` continue a number? -/
def continuesNumber (c : Char) : Bool :=
  c.isDigit || c == '.'

/-- The sorts of lexemes, told apart by their first character. -/
inductive Opening where
  /-- A punctuation mark, which is a lexeme by itself. -/
  | mark (kind : TokenKind)
  | quote
  | word
  | number
  deriving DecidableEq, Repr

/-- The sort of lexeme that `c` opens.  White space opens none, nor does a character that has no
part in the language. -/
def opening? (c : Char) : Option Opening :=
  if isBlank c then none
  else
    match punctuation? c with
    | some kind => some (.mark kind)
    | none =>
      if isQuote c then some .quote
      else if startsWord c then some .word
      else if c.isDigit then some .number
      else none

namespace Opening

/-- Splits the text behind the opening character `c` into the rest of the lexeme and what comes
after it.  Quoted text ends at its quote; words and numbers go on as long as they can. -/
def split (c : Char) (cs : List Char) : Opening → List Char × List Char
  | mark _ => ([], cs)
  | quote => splitQuoted c false cs
  | word => (cs.takeWhile continuesWord, cs.dropWhile continuesWord)
  | number => (cs.takeWhile continuesNumber, cs.dropWhile continuesNumber)

/-- Splitting loses nothing. -/
theorem split_append (c : Char) (cs : List Char) (o : Opening) :
    (o.split c cs).1 ++ (o.split c cs).2 = cs := by
  cases o <;> simp [split, splitQuoted_append, List.takeWhile_append_dropWhile]

/-- What comes after a lexeme is no longer than what comes after its first character. -/
theorem split_length_le (c : Char) (cs : List Char) (o : Opening) :
    (o.split c cs).2.length ≤ cs.length := by
  have h := congrArg List.length (split_append c cs o)
  simp only [List.length_append] at h
  omega

/-- A word in upper case is a keyword if it is reserved, and an identifier otherwise. -/
def wordKind (word : String) : TokenKind :=
  if keywords.contains word then .keyword else .identifier

/-- The token that the lexeme `c :: cs` stands for when it begins at `position`. -/
def token (position : Nat) (c : Char) (cs : List Char) : Opening → Token
  | mark kind => ⟨kind, String.ofList [c], position⟩
  | quote => ⟨.quotedString, String.ofList (unescape c false cs), position⟩
  | word =>
    let upper := String.ofList (upperCase (c :: cs))
    ⟨wordKind upper, upper, position⟩
  | number => ⟨.number, String.ofList (c :: cs), position⟩

end Opening

/-! ## Scanning -/

/-- Where scanning stands: the bytes already passed and the text still to come. -/
structure Scanner where
  offset : Nat
  rest : List Char

namespace Scanner

/-- A scanner at the beginning of a script. -/
def ofText (text : List Char) : Scanner :=
  ⟨0, text⟩

/-- The next token, if there is one, and the scanner that is left.  Gaps are passed over; when
nothing but a gap is left there is no token, and the scanner that is left stands at the end. -/
def nextFrom (offset : Nat) : List Char → Option Token × Scanner
  | [] => (none, ⟨offset, []⟩)
  | c :: cs =>
    match opening? c with
    | none => nextFrom (offset + c.utf8Size) cs
    | some o =>
      let (more, rest) := o.split c cs
      (some (o.token offset c more), ⟨offset + byteLength (c :: more), rest⟩)

@[inherit_doc nextFrom]
def next (s : Scanner) : Option Token × Scanner :=
  nextFrom s.offset s.rest

theorem nextFrom_length_lt {offset : Nat} {cs : List Char} {t : Token} {s : Scanner}
    (h : nextFrom offset cs = (some t, s)) : s.rest.length < cs.length := by
  fun_induction nextFrom offset cs with
  | case1 => simp at h
  | case2 offset c cs hc ih =>
    have := ih h
    simp only [List.length_cons]
    omega
  | case3 offset c cs o hc more rest hsplit =>
    obtain ⟨-, rfl⟩ := Prod.mk.inj h
    have := Opening.split_length_le c cs o
    simp only [hsplit] at this
    simp only [List.length_cons]
    omega

/-- Every token takes at least one character. -/
theorem next_length_lt {s : Scanner} {t : Token} {s' : Scanner} (h : s.next = (some t, s')) :
    s'.rest.length < s.rest.length :=
  nextFrom_length_lt h

/-- All tokens that are left. -/
def tokens (s : Scanner) : List Token :=
  match _h : s.next with
  | (none, _) => []
  | (some t, s') => t :: tokens s'
termination_by s.rest.length
decreasing_by exact next_length_lt _h

/-- Asks `n` times for the next token, and gives the answers with the scanner that is left.  Each
question is put to the scanner that the one before it left, also when that had no token. -/
def pull : Nat → Scanner → List (Option Token) × Scanner
  | 0, s => ([], s)
  | n + 1, s =>
    let (answer, s') := s.next
    let (answers, s'') := pull n s'
    (answer :: answers, s'')

end Scanner

/-- The tokens of a text. -/
def tokensOf (text : List Char) : List Token :=
  (Scanner.ofText text).tokens

/-- The tokens of a script. -/
def tokenize (script : String) : List Token :=
  tokensOf script.toList

end SchemaArchive
