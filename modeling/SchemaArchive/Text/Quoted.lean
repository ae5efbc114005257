/-!
# Quoted text

Text between two equal quote characters.  A backslash passes the character after it through
unchanged, so a quote and a backslash can stand inside quoted text when a backslash comes before
them.  Text whose closing quote is missing runs to the end.

* `escape`, `quoted` write a text between quotes, `splitQuoted` finds where quoted text ends,
  and `unescape` reads back what stands between the quotes.
* `splitQuoted_append` — splitting loses nothing.
* `splitQuoted_escape`, `unescape_escape` — what `quoted` writes ends at its own closing quote and
  reads back as it was, whatever follows.
-/

namespace SchemaArchive.Text

/-- The backslash, which passes the character after it through. -/
abbrev backslash : Char := '\x5c'

/-- The double quote. -/
abbrev doubleQuote : Char := '\x22'

/-- The single quote, between which literals are written. -/
abbrev singleQuote : Char := '\x27'

/-- The backquote, between which names are written. -/
abbrev backquote : Char := '\x60'

/-- Is `c` one of the three quote characters? -/
def isQuote (c : Char) : Bool :=
  c == doubleQuote || c == singleQuote || c == backquote

/-- One character inside quotes: a backslash goes before the quote and before a backslash. -/
def escapeChar (quote c : Char) : List Char :=
  if c == quote || c == backslash then [backslash, c] else [c]

/-- A text as it stands inside quotes. -/
def escape (quote : Char) (cs : List Char) : List Char :=
  cs.flatMap (escapeChar quote)

/-- A text between quotes. -/
def quoted (quote : Char) (cs : List Char) : List Char :=
  quote :: (escape quote cs ++ [quote])

/-- Splits what follows an opening quote after the closing one.  `escaped` says that a backslash
has just been read, so that the next character cannot close; without a closing quote everything
belongs to the quoted text. -/
def splitQuoted (quote : Char) : (escaped : Bool) → List Char → List Char × List Char
  | _, [] => ([], [])
  | true, c :: cs => let (inside, rest) := splitQuoted quote false cs; (c :: inside, rest)
  | false, c :: cs =>
    if c == quote then ([c], cs)
    else let (inside, rest) := splitQuoted quote (c == backslash) cs; (c :: inside, rest)

/-- The text that stands between the quotes, read up to the closing quote or to the end; a
backslash with nothing after it stands for nothing. -/
def unescape (quote : Char) : (escaped : Bool) → List Char → List Char
  | _, [] => []
  | true, c :: cs => c :: unescape quote false cs
  | false, c :: cs =>
    if c == quote then []
    else if c == backslash then unescape quote true cs
    else c :: unescape quote false cs

@[simp] theorem escape_nil (quote : Char) : escape quote [] = [] := rfl

@[simp] theorem escape_cons (quote c : Char) (cs : List Char) :
    escape quote (c :: cs) = escapeChar quote c ++ escape quote cs := rfl

/-- Splitting loses nothing. -/
theorem splitQuoted_append (quote : Char) (escaped : Bool) (cs : List Char) :
    (splitQuoted quote escaped cs).1 ++ (splitQuoted quote escaped cs).2 = cs := by
  fun_induction splitQuoted quote escaped cs <;> simp_all

/-- What escaping writes ends at the closing quote put after it. -/
theorem splitQuoted_escape {quote : Char} (h : quote ≠ backslash) (cs rest : List Char) :
    splitQuoted quote false (escape quote cs ++ quote :: rest) =
      (escape quote cs ++ [quote], rest) := by
  induction cs with
  | nil => simp [splitQuoted]
  | cons c cs ih =>
    by_cases hq : c = quote
    · subst hq
      simp [escapeChar, splitQuoted, ih, Ne.symm h]
    · by_cases hb : c = backslash
      · subst hb
        simp [escapeChar, splitQuoted, ih, Ne.symm h]
      · have hb' : (c == backslash) = false := by simpa using hb
        simp [escapeChar, splitQuoted, ih, hq, hb']

/-- What escaping writes reads back as it was. -/
theorem unescape_escape {quote : Char} (h : quote ≠ backslash) (cs rest : List Char) :
    unescape quote false (escape quote cs ++ quote :: rest) = cs := by
  induction cs with
  | nil => simp [unescape]
  | cons c cs ih =>
    by_cases hq : c = quote
    · subst hq
      simp [escapeChar, unescape, ih, Ne.symm h]
    · by_cases hb : c = backslash
      · subst hb
        simp [escapeChar, unescape, ih, Ne.symm h]
      · simp [escapeChar, unescape, ih, hq, hb]

end SchemaArchive.Text
