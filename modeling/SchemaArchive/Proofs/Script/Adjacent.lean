import SchemaArchive.Proofs.Script.Decomposition
import SchemaArchive.Script.ColumnDefinition
import SchemaArchive.Script.Render

/-!
# Texts next to each other

Scanning has no memory but for the lexeme that it is in.  Where a lexeme has ended, the text
behind it is scanned as if it stood alone, except that its tokens stand further on.

* `Scanner.tokens_shift` — where scanning begins makes no difference but to the places of tokens.
* `standsFor_quoted` — a text between quotes is one token and stands for itself, whatever it holds
  and whatever comes behind it, so nothing can break out of its quotes.
* `tokens_append_pieces` — a text that has been cut, in front of any text that its last lexeme may
  end before.
* `tokenize_append_blank` — a blank splits a text in two, unless a quote is open in front of it.
-/

namespace SchemaArchive

open Text

/-! ## Places -/

/-- The token, `n` bytes further on. -/
def Token.shift (n : Nat) (t : Token) : Token :=
  { t with position := t.position + n }

theorem Opening.token_add (offset n : Nat) (c : Char) (cs : List Char) (o : Opening) :
    o.token (offset + n) c cs = (o.token offset c cs).shift n := by
  cases o <;> rfl

/-- A scanner that begins `n` bytes further on gives the same tokens, `n` bytes further on. -/
theorem Scanner.tokens_shift (offset n : Nat) (cs : List Char) :
    (Scanner.mk (offset + n) cs).tokens = (Scanner.mk offset cs).tokens.map (Token.shift n) := by
  -- Behind a gap character or a lexeme, the text that is left is shorter.
  induction hn : cs.length using Nat.strongRecOn generalizing offset cs with
  | ind m ih =>
    cases cs with
    | nil => simp [tokens_nil]
    | cons c cs =>
      rw [List.length_cons] at hn
      cases ho : opening? c with
      | none =>
        rw [tokens_gap ho, tokens_gap ho, Nat.add_right_comm]
        exact ih cs.length (by omega) _ cs rfl
      | some o =>
        have hlen := o.split_length_le c cs
        rw [tokens_lexeme ho rfl, tokens_lexeme ho rfl, List.map_cons, Opening.token_add,
          Nat.add_right_comm]
        apply congrArg
        exact ih (o.split c cs).2.length (by omega) _ _ rfl

/-- Behind `n` bytes, a text has the tokens that it has by itself, `n` bytes further on. -/
theorem Scanner.tokens_eq_shift (n : Nat) (cs : List Char) :
    (Scanner.mk n cs).tokens = (tokensOf cs).map (Token.shift n) := by
  have h := tokens_shift 0 n cs
  rwa [Nat.zero_add] at h

/-! ## Quoted text -/

/-- The text `part` is scanned as one quoted string that stands for `value`, whatever comes behind
it, and what comes behind it is scanned as if it stood alone. -/
def StandsFor (part value : String) : Prop :=
  ∀ rest, tokenize (part ++ rest) =
    ⟨.quotedString, value, 0⟩ :: (tokenize rest).map (Token.shift part.utf8ByteSize)

theorem tokensOf_quoted {quote : Char} (h : isQuote quote = true) (cs rest : List Char) :
    tokensOf (quoted quote cs ++ rest) =
      ⟨.quotedString, String.ofList cs, 0⟩ ::
        (tokensOf rest).map (Token.shift (byteLength (quoted quote cs))) := by
  unfold tokensOf Scanner.ofText
  rw [Scanner.tokens_quoted (opening?_of_isQuote h) (ne_backslash_of_isQuote h), Nat.zero_add,
    Scanner.tokens_eq_shift]
  rfl

theorem standsFor_ofList_quoted {quote : Char} (h : isQuote quote = true) (value : String) :
    StandsFor (String.ofList (quoted quote value.toList)) value := by
  intro rest
  unfold tokenize
  rw [String.toList_append, String.toList_ofList, tokensOf_quoted h, String.ofList_toList,
    byteLength_eq_utf8ByteSize]

/-- Whatever a text holds, between quotes it stands for itself.  Names and literals in rendered
scripts are such texts, and the quoted argument of a type is written as a literal is. -/
theorem standsFor_quoted {quote : Char} (h : isQuote quote = true) (value : String) :
    StandsFor (String.ofList (quoted quote value.toList)) value ∧
      StandsFor (String.ofList (Render.name value)) value ∧
      StandsFor (String.ofList (Render.literal value)) value ∧
      ∀ position, Token.typeArgumentText ⟨.quotedString, value, position⟩ =
        String.ofList (Render.literal value) := by
  refine ⟨standsFor_ofList_quoted h value, ?_, ?_, fun position => quoteTypeArgument_eq value⟩
  · exact standsFor_ofList_quoted (show isQuote backquote = true from rfl) value
  · exact standsFor_ofList_quoted (show isQuote singleQuote = true from rfl) value

/-- A quote and a semicolon do not get out of their quotes. -/
theorem standsFor_quoted_semicolon :
    isQuote singleQuote = true ∧ StandsFor "'\\'; DROP'" "'; DROP" := by
  have hquote : isQuote singleQuote = true := rfl
  have htext : String.ofList (quoted singleQuote "'; DROP".toList) = "'\\'; DROP'" := by decide
  refine ⟨hquote, ?_⟩
  rw [← htext]
  exact (standsFor_quoted hquote "'; DROP").1

/-! ## Where a text may be split -/

/-- Quoted text whose closing quote is missing. -/
def Lexeme.IsUnclosed : Lexeme → Prop
  | quoted _ _ ending _ => ending ≠ .closed
  | _ => False

/-- No quote is open at the end of the text. -/
def Decomposition.EndsClosed {text : List Char} (d : Decomposition text) : Prop :=
  ∀ p ∈ d.pieces.getLast?, ¬ p.lexeme.IsUnclosed

/-- What a lexeme may end before is told by the first character behind it. -/
theorem Lexeme.EndsBefore.append {x : Lexeme} {after : List Char} (h : x.EndsBefore after)
    (hne : after ≠ []) (more : List Char) : x.EndsBefore (after ++ more) := by
  cases after with
  | nil => exact absurd rfl hne
  | cons c after =>
    cases x with
    | mark c kind hmark => trivial
    | word c cs hc hcs => exact h
    | number c cs hc hcs => exact h
    | quoted quote units ending hquote =>
      rcases h with hclosed | hnil
      · exact .inl hclosed
      · cases hnil

/-- The last of the pieces may end before the text `after`. -/
def MeetsEnd (ps : List Piece) (after : List Char) : Prop :=
  ∀ p ∈ ps.getLast?, p.lexeme.EndsBefore (p.gap ++ after)

theorem Lexeme.text_ne_nil (x : Lexeme) : x.text ≠ [] := by
  cases x <;> simp [text]

/-- Pieces are scanned as their own tokens in front of any text that the last of them may end
before, and scanning goes on with that text. -/
theorem tokens_append_pieces {ps : List Piece} (h : WellCut ps) {after : List Char}
    (hend : MeetsEnd ps after) (before : List Char) :
    (Scanner.mk (byteLength before) (ps.flatMap Piece.text ++ after)).tokens =
      tokensBehind before ps ++
        (Scanner.mk (byteLength (before ++ ps.flatMap Piece.text)) after).tokens := by
  induction ps generalizing before with
  | nil => simp [tokensBehind]
  | cons p ps ih =>
    obtain ⟨hstart, hlexeme, hgap, hmore⟩ := h
    have hends : p.lexeme.EndsBefore (p.gap ++ (ps.flatMap Piece.text ++ after)) := by
      cases ps with
      | nil => exact hend p rfl
      | cons q ps =>
        rw [← List.append_assoc]
        apply hlexeme.append
        simp [Piece.text, q.lexeme.text_ne_nil]
    have hrest : MeetsEnd ps after := by
      intro q hq
      apply hend q
      cases ps with
      | nil => cases hq
      | cons r ps => exact hq
    rw [List.flatMap_cons, Piece.text, List.append_assoc, List.append_assoc,
      p.lexeme.tokens_append hstart hends, tokens_append_gap hgap, ih hmore hrest, tokensBehind,
      Piece.text, List.cons_append]
    simp only [List.append_assoc]

/-- A text that has been cut is scanned by itself in front of any text that its last lexeme may
end before. -/
theorem Decomposition.tokensOf_append {text : List Char} (d : Decomposition text)
    {after : List Char} (hend : MeetsEnd d.pieces after) :
    tokensOf (text ++ after) =
      tokensOf text ++ (tokensOf after).map (Token.shift (byteLength text)) := by
  have hgap := tokens_append_gap d.leading_gap [] (d.pieces.flatMap Piece.text ++ after)
  rw [List.nil_append, tokens_append_pieces d.wellCut hend, ← List.append_assoc, ← d.text_eq,
    Scanner.tokens_eq_shift (byteLength text)] at hgap
  rw [← d.tokens_eq]
  exact hgap

/-- No word and no number goes on with a blank. -/
theorem meetsEnd_of_blank {ps : List Piece} (h : WellCut ps)
    (hclosed : ∀ p ∈ ps.getLast?, ¬ p.lexeme.IsUnclosed) {c : Char} (hc : c = ' ' ∨ c = '\n')
    (rest : List Char) : MeetsEnd ps (c :: rest) := by
  have hword : ¬ IsWordChar c := by
    rw [← continuesWord_iff]
    rcases hc with rfl | rfl <;> decide
  have hnumber : ¬ IsNumberChar c := by
    rw [← continuesNumber_iff]
    rcases hc with rfl | rfl <;> decide
  -- Only the last piece meets the blank.
  induction ps with
  | nil => nofun
  | cons p ps ih =>
    obtain ⟨-, hlexeme, -, hmore⟩ := h
    cases ps with
    | cons q ps => exact ih hmore hclosed
    | nil =>
      intro p' hp'
      obtain rfl : p = p' := Option.some.inj hp'
      have hopen := hclosed p rfl
      rw [List.flatMap_nil, List.append_nil] at hlexeme
      by_cases hgap : p.gap = []
      · rw [hgap, List.nil_append]
        cases hx : p.lexeme with
        | mark d kind hmark => trivial
        | word d more hd hmore => simpa [Lexeme.EndsBefore] using hword
        | number d more hd hmore => simpa [Lexeme.EndsBefore] using hnumber
        | quoted quote units ending hquote =>
          rw [hx] at hopen
          exact .inl (Decidable.not_not.1 hopen)
      · exact hlexeme.append hgap _

/-- A space or a line feed splits a text: what stands in front of it and what stands behind it
have the tokens that they have by themselves, unless quoted text is still open in front of it. -/
theorem tokenize_append_blank (before after : String) (d : Decomposition before.toList)
    (hclosed : d.EndsClosed) {c : Char} (hc : c = ' ' ∨ c = '\n') :
    tokenize (before ++ String.singleton c ++ after) =
      tokenize before ++ (tokenize after).map (Token.shift (before.utf8ByteSize + 1)) := by
  have hsplit := d.tokensOf_append (meetsEnd_of_blank d.wellCut hclosed hc after.toList)
  have hgap : opening? c = none := by rcases hc with rfl | rfl <;> decide
  have hone : c.utf8Size = 1 := by rcases hc with rfl | rfl <;> rfl
  have hblank : tokensOf (c :: after.toList) = (tokensOf after.toList).map (Token.shift 1) := by
    have hnext := Scanner.tokens_gap hgap 0 after.toList
    rw [Nat.zero_add, hone, Scanner.tokens_eq_shift 1] at hnext
    exact hnext
  unfold tokenize
  rw [String.toList_append, String.toList_append, String.toList_singleton, List.append_assoc,
    List.singleton_append, hsplit, hblank, List.map_map, byteLength_eq_utf8ByteSize,
    String.ofList_toList]
  apply congrArg
  apply List.map_congr_left
  intro t _
  simp [Token.shift]
  omega

/-- Quoted text that holds its own quote. -/
def itsInQuotes : Decomposition "'it\\'s'".toList where
  leading := []
  pieces :=
    [⟨.quoted singleQuote [.plain 'i' (by decide), .plain 't' (by decide), .escaped singleQuote,
        .plain 's' (by decide)] .closed rfl, []⟩]
  text_eq := by decide
  leading_gap := nofun
  wellCut := by
    refine ⟨?_, .inl rfl, nofun, trivial⟩
    rintro c ⟨⟩
    decide

/-- The quote behind a backslash opens nothing, so the text splits behind the last quote. -/
theorem tokenize_append_blank_itsInQuotes :
    itsInQuotes.EndsClosed ∧
      tokenize ("'it\\'s'" ++ String.singleton ' ' ++ "KEY") =
        tokenize "'it\\'s'" ++ (tokenize "KEY").map (Token.shift 8) := by
  have hclosed : itsInQuotes.EndsClosed := by
    intro p hp
    obtain rfl := Option.some.inj hp
    exact fun h => h rfl
  exact ⟨hclosed, tokenize_append_blank _ "KEY" itsInQuotes hclosed (.inl rfl)⟩

end SchemaArchive
