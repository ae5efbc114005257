import SchemaArchive.Proofs.Script.Lexemes

/-!
# Texts as gaps and lexemes

A text is a gap, a lexeme, a gap, a lexeme and so on.  What a lexeme looks like, how far it
reaches, which token it stands for and where this token stands is said here without a scanner:
`Decomposition` cuts a text into such pieces, and `Decomposition.tokens` reads the tokens off
them.  Only one list of tokens can be read off a text, and it is the one that scanning gives.

* `exists_lexeme` — at a character that opens a lexeme, scanning takes a whole lexeme.
* `Lexeme.tokens_append` — a lexeme is scanned as its own token, wherever it stands.
* `tokenize_decomposition` — every text can be cut, and its tokens are those of any cut.
-/

namespace SchemaArchive

open Text

/-! ## Lexemes -/

/-- The punctuation marks, with the kinds of their tokens. -/
inductive IsMark : Char → TokenKind → Prop
  | leftParen : IsMark '(' .leftParen
  | rightParen : IsMark ')' .rightParen
  | comma : IsMark ',' .comma
  | semicolon : IsMark ';' .semicolon
  | equals : IsMark '=' .equals

/-- A letter or numeral of any script, or an underscore. -/
def IsWordChar (c : Char) : Prop :=
  isLetter c = true ∨ isNumeral c = true ∨ c = '_'

/-- An ASCII digit or a point. -/
def IsNumberChar (c : Char) : Prop :=
  c.isDigit = true ∨ c = '.'

/-- What is said of the characters of a text is decided by them, and not by all characters. -/
instance decidableForallChars {p : Char → Prop} [DecidablePred p] (cs : List Char) :
    Decidable (∀ c ∈ cs, p c) :=
  List.decidableBAll p cs

instance decidableForallChar? {p : Char → Prop} [DecidablePred p] (c? : Option Char) :
    Decidable (∀ c ∈ c?, p c) :=
  Option.decidableForallMem c?

instance (c : Char) : Decidable (IsWordChar c) :=
  inferInstanceAs (Decidable (_ ∨ _ ∨ _))

instance (c : Char) : Decidable (IsNumberChar c) :=
  inferInstanceAs (Decidable (_ ∨ _))

/-- One character of a quoted text, which stands for itself or behind a backslash. -/
inductive QuotedUnit (quote : Char) where
  | plain (c : Char) (h : c ≠ quote ∧ c ≠ backslash)
  | escaped (c : Char)

namespace QuotedUnit

variable {quote : Char}

/-- How the character is written. -/
def text : QuotedUnit quote → List Char
  | plain c _ => [c]
  | escaped c => [backslash, c]

/-- The character that is meant. -/
def char : QuotedUnit quote → Char
  | plain c _ => c
  | escaped c => c

end QuotedUnit

/-- How a quoted text ends: with its quote, or without one, and then perhaps with a backslash
that has nothing behind it. -/
inductive QuoteEnd where
  | closed
  | unclosed
  | loneBackslash
  deriving DecidableEq

/-- The characters that end a quoted text. -/
def QuoteEnd.text (quote : Char) : QuoteEnd → List Char
  | closed => [quote]
  | unclosed => []
  | loneBackslash => [backslash]

/-- A lexeme. -/
inductive Lexeme where
  | mark (c : Char) (kind : TokenKind) (h : IsMark c kind)
  | word (c : Char) (more : List Char) (hc : isLetter c = true ∨ c = '_')
    (hmore : ∀ d ∈ more, IsWordChar d)
  | number (c : Char) (more : List Char) (hc : c.isDigit = true)
    (hmore : ∀ d ∈ more, IsNumberChar d)
  | quoted (quote : Char) (units : List (QuotedUnit quote)) (ending : QuoteEnd)
    (h : isQuote quote = true)

namespace Lexeme

/-- The characters of a lexeme. -/
def text : Lexeme → List Char
  | mark c _ _ => [c]
  | word c more _ _ => c :: more
  | number c more _ _ => c :: more
  | quoted quote units ending _ => quote :: (units.flatMap QuotedUnit.text ++ ending.text quote)

/-- What a lexeme stands for: a word for its upper case, quoted text for the characters that are
meant, and any other lexeme for itself. -/
def value : Lexeme → List Char
  | mark c _ _ => [c]
  | word c more _ _ => upperCase (c :: more)
  | number c more _ _ => c :: more
  | quoted _ units _ _ => units.map QuotedUnit.char

/-- The kind of a lexeme's token. -/
def kind : Lexeme → TokenKind
  | mark _ kind _ => kind
  | word c more _ _ =>
    if String.ofList (upperCase (c :: more)) ∈ keywords then .keyword else .identifier
  | number _ _ _ _ => .number
  | quoted _ _ _ _ => .quotedString

/-- The lexeme may end in front of the text `after`.  Words and numbers reach as far as they can,
and quoted text that is not closed reaches to the end. -/
def EndsBefore (after : List Char) : Lexeme → Prop
  | mark _ _ _ => True
  | word _ _ _ _ => ∀ d ∈ after.head?, ¬ IsWordChar d
  | number _ _ _ _ => ∀ d ∈ after.head?, ¬ IsNumberChar d
  | quoted _ _ ending _ => ending = .closed ∨ after = []

instance (after : List Char) : (x : Lexeme) → Decidable (x.EndsBefore after)
  | mark _ _ _ => inferInstanceAs (Decidable True)
  | word _ _ _ _ => inferInstanceAs (Decidable (∀ d ∈ after.head?, ¬ IsWordChar d))
  | number _ _ _ _ => inferInstanceAs (Decidable (∀ d ∈ after.head?, ¬ IsNumberChar d))
  | quoted _ _ ending _ => inferInstanceAs (Decidable (ending = .closed ∨ after = []))

/-- The token of the lexeme behind the text `before`. -/
def token (before : List Char) (x : Lexeme) : Token where
  kind := x.kind
  value := String.ofList x.value
  position := (String.ofList before).utf8ByteSize

end Lexeme

/-! ## Decompositions -/

/-- White space, or a character with which no lexeme can begin. -/
def IsGapChar (c : Char) : Prop :=
  isBlank c = true ∨
    c ∉ ['(', ')', ',', ';', '='] ∧ isQuote c = false ∧ isLetter c = false ∧ c ≠ '_' ∧
      c.isDigit = false

instance (c : Char) : Decidable (IsGapChar c) :=
  inferInstanceAs (Decidable (_ ∨ _))

/-- A lexeme with the gap behind it. -/
structure Piece where
  lexeme : Lexeme
  gap : List Char

/-- The characters of a piece. -/
def Piece.text (p : Piece) : List Char :=
  p.lexeme.text ++ p.gap

/-- Behind each other, the pieces are lexemes and gaps: no lexeme begins with white space, each
reaches as far as it has to, and no lexeme begins within a gap. -/
def WellCut : List Piece → Prop
  | [] => True
  | p :: ps =>
    (∀ c ∈ p.lexeme.text.head?, isBlank c = false) ∧
      p.lexeme.EndsBefore (p.gap ++ ps.flatMap Piece.text) ∧
      (∀ c ∈ p.gap, IsGapChar c) ∧ WellCut ps

instance : (ps : List Piece) → Decidable (WellCut ps)
  | [] => inferInstanceAs (Decidable True)
  | p :: ps =>
    have : Decidable (WellCut ps) := instDecidableWellCut ps
    inferInstanceAs (Decidable ((∀ c ∈ p.lexeme.text.head?, isBlank c = false) ∧
      p.lexeme.EndsBefore (p.gap ++ ps.flatMap Piece.text) ∧
      (∀ c ∈ p.gap, IsGapChar c) ∧ WellCut ps))

/-- A text, cut into a gap in front and pieces behind it. -/
structure Decomposition (text : List Char) where
  leading : List Char
  pieces : List Piece
  text_eq : text = leading ++ pieces.flatMap Piece.text
  leading_gap : ∀ c ∈ leading, IsGapChar c
  wellCut : WellCut pieces

/-- The tokens of pieces behind the text `before`, one for each lexeme. -/
def tokensBehind (before : List Char) : List Piece → List Token
  | [] => []
  | p :: ps => p.lexeme.token before :: tokensBehind (before ++ p.text) ps

/-- The tokens of a text that has been cut. -/
def Decomposition.tokens {text : List Char} (d : Decomposition text) : List Token :=
  tokensBehind d.leading d.pieces

/-! ## Characters -/

theorem byteLength_eq_utf8ByteSize (cs : List Char) :
    byteLength cs = (String.ofList cs).utf8ByteSize := by
  induction cs with
  | nil => rfl
  | cons c cs ih =>
    rw [byteLength_cons, ih]
    simp [String.ofList_cons]

theorem continuesWord_iff {c : Char} : continuesWord c = true ↔ IsWordChar c := by
  simp [continuesWord, IsWordChar, or_assoc]

theorem continuesNumber_iff {c : Char} : continuesNumber c = true ↔ IsNumberChar c := by
  simp [continuesNumber, IsNumberChar]

theorem punctuation?_eq_some_iff {c : Char} {kind : TokenKind} :
    punctuation? c = some kind ↔ IsMark c kind := by
  unfold punctuation?
  grind [IsMark]

theorem punctuation?_eq_none_iff {c : Char} :
    punctuation? c = none ↔ c ∉ ['(', ')', ',', ';', '='] := by
  unfold punctuation?
  grind

/-- Scanning passes over the characters of gaps, and over no others. -/
theorem opening?_eq_none_iff {c : Char} : opening? c = none ↔ IsGapChar c := by
  unfold opening? IsGapChar
  rw [← punctuation?_eq_none_iff]
  by_cases hblank : isBlank c = true
  · simp [hblank]
  · cases hmark : punctuation? c with
    | some kind => simp [hblank]
    | none =>
      simp only [hblank, startsWord]
      grind

/-- What scanning knows of a character with which it begins a lexeme. -/
theorem of_opening?_eq_some {c : Char} {o : Opening} (h : opening? c = some o) :
    isBlank c = false ∧
      match o with
      | .mark kind => IsMark c kind
      | .quote => isQuote c = true
      | .word => isLetter c = true ∨ c = '_'
      | .number => c.isDigit = true := by
  unfold opening? at h
  split at h
  · cases h
  · next hblank =>
    refine ⟨by simpa using hblank, ?_⟩
    split at h
    · next kind hmark =>
      cases h
      exact punctuation?_eq_some_iff.1 hmark
    · simp only [startsWord] at h
      grind

theorem opening?_of_isMark {c : Char} {kind : TokenKind} (h : IsMark c kind) :
    opening? c = some (.mark kind) := by
  cases h <;> decide

theorem eq_of_isQuote {c : Char} (h : isQuote c = true) :
    c = doubleQuote ∨ c = singleQuote ∨ c = backquote := by
  simpa [isQuote, or_assoc] using h

theorem opening?_of_isQuote {c : Char} (h : isQuote c = true) : opening? c = some .quote := by
  rcases eq_of_isQuote h with rfl | rfl | rfl <;> decide

theorem ne_backslash_of_isQuote {c : Char} (h : isQuote c = true) : c ≠ backslash := by
  rcases eq_of_isQuote h with rfl | rfl | rfl <;> decide

theorem opening?_of_word {c : Char} (hblank : isBlank c = false)
    (h : isLetter c = true ∨ c = '_') : opening? c = some .word := by
  have hmark : punctuation? c = none := by
    rw [punctuation?_eq_none_iff]
    intro hmem
    simp only [List.mem_cons, List.not_mem_nil, or_false] at hmem
    rcases hmem with rfl | rfl | rfl | rfl | rfl <;> revert h <;> decide
  have hquote : isQuote c = false := by
    rw [Bool.eq_false_iff]
    intro hquote
    rcases eq_of_isQuote hquote with rfl | rfl | rfl <;> revert h <;> decide
  have hstart : startsWord c = true := by simpa [startsWord] using h
  simp [opening?, hblank, hmark, hquote, hstart]

/-! ## Quoted text -/

theorem splitQuoted_units {quote : Char} (hquote : quote ≠ backslash)
    (units : List (QuotedUnit quote)) (rest : List Char) :
    splitQuoted quote false (units.flatMap QuotedUnit.text ++ rest) =
      (units.flatMap QuotedUnit.text ++ (splitQuoted quote false rest).1,
        (splitQuoted quote false rest).2) := by
  induction units with
  | nil => rfl
  | cons u units ih =>
    cases u with
    | plain c h =>
      have hback : (c == backslash) = false := by simpa using h.2
      simp [QuotedUnit.text, splitQuoted, h.1, hback, ih]
    | escaped c => simp [QuotedUnit.text, splitQuoted, Ne.symm hquote, ih]

theorem unescape_units {quote : Char} (hquote : quote ≠ backslash)
    (units : List (QuotedUnit quote)) (rest : List Char) :
    unescape quote false (units.flatMap QuotedUnit.text ++ rest) =
      units.map QuotedUnit.char ++ unescape quote false rest := by
  induction units with
  | nil => rfl
  | cons u units ih =>
    cases u with
    | plain c h => simp [QuotedUnit.text, QuotedUnit.char, unescape, h.1, h.2, ih]
    | escaped c => simp [QuotedUnit.text, QuotedUnit.char, unescape, Ne.symm hquote, ih]

/-- Where quoted text is split, characters and escaped characters have been passed, and then the
closing quote or the end of the text.  A backslash that has been read already counts. -/
theorem exists_units (quote : Char) (escaped : Bool) (cs : List Char) :
    ∃ (units : List (QuotedUnit quote)) (ending : QuoteEnd),
      (if escaped then [backslash] else []) ++ (splitQuoted quote escaped cs).1 =
        units.flatMap QuotedUnit.text ++ ending.text quote ∧
      (ending = .closed ∨ (splitQuoted quote escaped cs).2 = []) := by
  induction cs generalizing escaped with
  | nil =>
    cases escaped with
    | false => exact ⟨[], .unclosed, rfl, .inr rfl⟩
    | true => exact ⟨[], .loneBackslash, rfl, .inr rfl⟩
  | cons c cs ih =>
    cases escaped with
    | true =>
      obtain ⟨units, ending, htext, hend⟩ := ih false
      refine ⟨.escaped c :: units, ending, ?_, hend⟩
      simpa [splitQuoted, QuotedUnit.text] using htext
    | false =>
      by_cases hc : c = quote
      · refine ⟨[], .closed, ?_, .inl rfl⟩
        simp [splitQuoted, hc, QuoteEnd.text]
      · by_cases hback : c = backslash
        · -- The backslash belongs to what comes behind it.
          subst hback
          obtain ⟨units, ending, htext, hend⟩ := ih true
          refine ⟨units, ending, ?_, ?_⟩
          · simpa [splitQuoted, hc] using htext
          · simpa [splitQuoted, hc] using hend
        · obtain ⟨units, ending, htext, hend⟩ := ih false
          have hplain : (c == backslash) = false := by simpa using hback
          refine ⟨.plain c ⟨hc, hback⟩ :: units, ending, ?_, ?_⟩
          · simpa [splitQuoted, hc, hplain, QuotedUnit.text] using htext
          · simpa [splitQuoted, hc, hplain] using hend

/-! ## Scanning a lexeme -/

theorem mem_takeWhile_imp {p : Char → Bool} {cs : List Char} {P : Char → Prop}
    (h : ∀ {c}, p c = true → P c) : ∀ c ∈ cs.takeWhile p, P c :=
  fun c hc => h (List.all_eq_true.1 List.all_takeWhile c hc)

theorem head?_dropWhile_not {p : Char → Bool} {cs : List Char} {P : Char → Prop}
    (h : ∀ {c}, P c → p c = true) : ∀ c ∈ (cs.dropWhile p).head?, ¬ P c := by
  intro c hc hP
  have hstop := List.head?_dropWhile_not p cs
  rw [Option.mem_def.1 hc] at hstop
  simp [h hP] at hstop

/-- At a character that opens a lexeme, scanning takes a whole lexeme. -/
theorem exists_lexeme {c : Char} {o : Opening} (h : opening? c = some o) (cs : List Char) :
    ∃ x : Lexeme, x.text = c :: (o.split c cs).1 ∧ x.EndsBefore (o.split c cs).2 := by
  obtain ⟨-, hc⟩ := of_opening?_eq_some h
  cases o with
  | mark kind => exact ⟨.mark c kind hc, rfl, trivial⟩
  | word =>
    exact ⟨.word c (cs.takeWhile continuesWord) hc (mem_takeWhile_imp continuesWord_iff.1), rfl,
      head?_dropWhile_not continuesWord_iff.2⟩
  | number =>
    exact ⟨.number c (cs.takeWhile continuesNumber) hc (mem_takeWhile_imp continuesNumber_iff.1),
      rfl, head?_dropWhile_not continuesNumber_iff.2⟩
  | quote =>
    obtain ⟨units, ending, htext, hend⟩ := exists_units c false cs
    exact ⟨.quoted c units ending hc, congrArg (c :: ·) htext.symm, hend⟩

/-- A run of characters is taken as a whole in front of a text that does not go on with it. -/
theorem split_run {p : Char → Bool} {P : Char → Prop} (hp : ∀ {c}, p c = true ↔ P c)
    {more after : List Char} (hmore : ∀ d ∈ more, P d) (hafter : ∀ d ∈ after.head?, ¬ P d) :
    ((more ++ after).takeWhile p, (more ++ after).dropWhile p) = (more, after) := by
  have hall : more.all p = true := List.all_eq_true.2 fun d hd => hp.2 (hmore d hd)
  have hstop : after.head?.any p = false := by
    cases after with
    | nil => rfl
    | cons d after =>
      have hd : ¬ P d := hafter d rfl
      rw [← hp] at hd
      simpa using hd
  obtain ⟨htake, hdrop⟩ := takeWhile_append_of_all hall hstop
  rw [htake, hdrop]

/-- A quoted text is split off behind its end, and the characters that are meant are read. -/
theorem split_quoted {quote : Char} (hquote : quote ≠ backslash)
    (units : List (QuotedUnit quote)) {ending : QuoteEnd} {after : List Char}
    (hend : ending = .closed ∨ after = []) :
    splitQuoted quote false (units.flatMap QuotedUnit.text ++ ending.text quote ++ after) =
        (units.flatMap QuotedUnit.text ++ ending.text quote, after) ∧
      unescape quote false (units.flatMap QuotedUnit.text ++ ending.text quote) =
        units.map QuotedUnit.char := by
  rw [List.append_assoc, splitQuoted_units hquote, unescape_units hquote]
  rcases hend with rfl | rfl
  · simp [QuoteEnd.text, splitQuoted, unescape]
  · cases ending with
    | closed => simp [QuoteEnd.text, splitQuoted, unescape]
    | unclosed => simp [QuoteEnd.text, splitQuoted, unescape]
    | loneBackslash => simp [QuoteEnd.text, splitQuoted, unescape, Ne.symm hquote]

/-- A lexeme is scanned as its own token, in front of any text that it may end before. -/
theorem Lexeme.tokens_append (x : Lexeme) {after : List Char}
    (hstart : ∀ c ∈ x.text.head?, isBlank c = false) (hend : x.EndsBefore after)
    (before : List Char) :
    (Scanner.mk (byteLength before) (x.text ++ after)).tokens =
      x.token before :: (Scanner.mk (byteLength (before ++ x.text)) after).tokens := by
  rw [byteLength_append]
  cases x with
  | mark c kind h =>
    rw [Lexeme.token, ← byteLength_eq_utf8ByteSize]
    exact Scanner.tokens_lexeme (opening?_of_isMark h) rfl _
  | word c more hc hmore =>
    have hopen := opening?_of_word (hstart c rfl) hc
    have hsplit : Opening.word.split c (more ++ after) = (more, after) :=
      split_run continuesWord_iff hmore hend
    rw [Lexeme.token, ← byteLength_eq_utf8ByteSize]
    refine (Scanner.tokens_lexeme hopen hsplit _).trans ?_
    simp [Opening.token, Opening.wordKind, Lexeme.kind, Lexeme.value, Lexeme.text]
  | number c more hc hmore =>
    have hsplit : Opening.number.split c (more ++ after) = (more, after) :=
      split_run continuesNumber_iff hmore hend
    rw [Lexeme.token, ← byteLength_eq_utf8ByteSize]
    exact Scanner.tokens_lexeme (opening?_of_isDigit hc) hsplit _
  | quoted quote units ending h =>
    obtain ⟨hsplit, hvalue⟩ := split_quoted (ne_backslash_of_isQuote h) units hend
    rw [Lexeme.token, ← byteLength_eq_utf8ByteSize]
    refine (Scanner.tokens_lexeme (o := .quote) (opening?_of_isQuote h) hsplit _).trans ?_
    rw [Opening.token, hvalue]
    rfl

/-- A gap is passed over. -/
theorem tokens_append_gap {gap : List Char} (hgap : ∀ c ∈ gap, IsGapChar c)
    (before rest : List Char) :
    (Scanner.mk (byteLength before) (gap ++ rest)).tokens =
      (Scanner.mk (byteLength (before ++ gap)) rest).tokens := by
  induction gap generalizing before with
  | nil => simp
  | cons c gap ih =>
    rw [List.forall_mem_cons] at hgap
    have hbefore : byteLength before + c.utf8Size = byteLength (before ++ [c]) := by simp
    rw [List.cons_append, Scanner.tokens_gap (opening?_eq_none_iff.2 hgap.1), hbefore, ih hgap.2,
      List.append_assoc]
    rfl

/-! ## Scanning a text that has been cut -/

theorem tokens_pieces {ps : List Piece} (h : WellCut ps) (before : List Char) :
    (Scanner.mk (byteLength before) (ps.flatMap Piece.text)).tokens = tokensBehind before ps := by
  induction ps generalizing before with
  | nil => exact Scanner.tokens_nil _
  | cons p ps ih =>
    obtain ⟨hstart, hend, hgap, hmore⟩ := h
    rw [List.flatMap_cons, Piece.text, List.append_assoc, p.lexeme.tokens_append hstart hend,
      tokens_append_gap hgap, ih hmore, tokensBehind, Piece.text, List.append_assoc]

/-- The tokens of a text are those of any of its cuts. -/
theorem Decomposition.tokens_eq {text : List Char} (d : Decomposition text) :
    d.tokens = tokensOf text := by
  have hleading := tokens_append_gap d.leading_gap [] (d.pieces.flatMap Piece.text)
  rw [List.nil_append, tokens_pieces d.wellCut, ← d.text_eq] at hleading
  exact hleading.symm

/-- Every text can be cut. -/
theorem exists_decomposition (text : List Char) : Nonempty (Decomposition text) := by
  -- Behind a gap character or a lexeme, the text that is left is shorter.
  induction hn : text.length using Nat.strongRecOn generalizing text with
  | ind n ih =>
    cases text with
    | nil => exact ⟨⟨[], [], rfl, nofun, trivial⟩⟩
    | cons c cs =>
      rw [List.length_cons] at hn
      cases ho : opening? c with
      | none =>
        obtain ⟨d⟩ := ih cs.length (by omega) cs rfl
        have hgap : ∀ e ∈ c :: d.leading, IsGapChar e :=
          List.forall_mem_cons.2 ⟨opening?_eq_none_iff.1 ho, d.leading_gap⟩
        exact ⟨⟨c :: d.leading, d.pieces, congrArg (c :: ·) d.text_eq, hgap, d.wellCut⟩⟩
      | some o =>
        have hlen := o.split_length_le c cs
        obtain ⟨x, htext, hend⟩ := exists_lexeme ho cs
        obtain ⟨d⟩ := ih (o.split c cs).2.length (by omega) (o.split c cs).2 rfl
        have hsplit : c :: cs = x.text ++ (o.split c cs).2 := by
          rw [htext, List.cons_append, o.split_append]
        have hstart : ∀ e ∈ x.text.head?, isBlank e = false := by
          intro e he
          rw [htext] at he
          obtain rfl := Option.some.inj he
          exact (of_opening?_eq_some ho).1
        refine ⟨⟨[], ⟨x, d.leading⟩ :: d.pieces, ?_, nofun, hstart, ?_, d.leading_gap, d.wellCut⟩⟩
        · rw [hsplit, List.nil_append, List.flatMap_cons, Piece.text, List.append_assoc]
          exact congrArg (x.text ++ ·) d.text_eq
        · exact d.text_eq ▸ hend

/-- Every script can be cut into gaps and lexemes, and however it is cut, its tokens are those of
the lexemes, one for each, in order. -/
theorem tokenize_decomposition (script : String) :
    (∃ d : Decomposition script.toList, tokenize script = d.tokens) ∧
      ∀ d : Decomposition script.toList, tokenize script = d.tokens := by
  obtain ⟨d⟩ := exists_decomposition script.toList
  have hall : ∀ d : Decomposition script.toList, tokenize script = d.tokens :=
    fun d => d.tokens_eq.symm
  exact ⟨⟨d, hall d⟩, hall⟩

end SchemaArchive
