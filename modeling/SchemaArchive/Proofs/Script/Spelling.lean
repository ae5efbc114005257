import SchemaArchive.Script.Render
import SchemaArchive.Proofs.Script.Grammar
import SchemaArchive.Proofs.Script.Lexemes

/-!
# Pieces of rendered text

`Spells text rest tokens meaning` says what scanning makes of a piece of text: in front of
`rest`, the piece is cut into the tokens of some tree of the grammar that means what it should,
and scanning goes on with `rest`.  Words, numbers and all that may end with one need a `rest`
that does not go on with them (`breaks`).

* `spells_reserved`, `spells_name`, `spells_mark` — single tokens.
* `spells_columnList` — a column list.
-/

namespace SchemaArchive

open Grammar Text

/-- Does the text begin with a character that goes on neither with a word nor with a number? -/
def breaks (rest : List Char) : Bool :=
  !rest.head?.any continuesWord && !rest.head?.any continuesNumber

/-- In front of `rest` the text is cut into the tokens of a tree with the given meaning. -/
def Spells {τ : Type} (text rest : List Char) (tokens : τ → List Token) (meaning : τ → Prop) :
    Prop :=
  ∀ offset, ∃ tree offset', (Scanner.mk offset (text ++ rest)).tokens =
    tokens tree ++ (Scanner.mk offset' rest).tokens ∧ meaning tree

namespace Spells

variable {τ υ : Type} {text more rest : List Char} {tokens : τ → List Token}
  {meaning : τ → Prop} {tokens' : υ → List Token} {meaning' : υ → Prop}

/-- The same tokens, taken as another tree. -/
theorem imp (h : Spells text rest tokens meaning)
    (hmap : ∀ x, meaning x → ∃ y, tokens' y = tokens x ∧ meaning' y) :
    Spells text rest tokens' meaning' := by
  intro offset
  obtain ⟨x, o, hx, hm⟩ := h offset
  obtain ⟨y, hy, hm'⟩ := hmap x hm
  exact ⟨y, o, by rw [hx, hy], hm'⟩

/-- One piece behind another. -/
theorem append (h : Spells text (more ++ rest) tokens meaning)
    (h' : Spells more rest tokens' meaning') :
    Spells (text ++ more) rest (fun p : τ × υ => tokens p.1 ++ tokens' p.2)
      fun p => meaning p.1 ∧ meaning' p.2 := by
  intro offset
  obtain ⟨x, o, hx, hm⟩ := h offset
  obtain ⟨y, o', hy, hm'⟩ := h' o
  refine ⟨(x, y), o', ?_, hm, hm'⟩
  rw [List.append_assoc, hx, hy, List.append_assoc]

/-- A gap in front of a piece. -/
theorem gap {c : Char} (hc : opening? c = none) (h : Spells text rest tokens meaning) :
    Spells (c :: text) rest tokens meaning := by
  intro offset
  rw [List.cons_append, Scanner.tokens_gap hc]
  exact h _

/-- A blank in front of a piece. -/
theorem blank (h : Spells text rest tokens meaning) : Spells (' ' :: text) rest tokens meaning :=
  h.gap (by decide)

/-- A gap behind a piece. -/
theorem gap_end {c : Char} (hc : opening? c = none) (h : Spells text (c :: rest) tokens meaning) :
    Spells (text ++ [c]) rest tokens meaning := by
  intro offset
  obtain ⟨x, o, hx, hm⟩ := h offset
  rw [Scanner.tokens_gap hc] at hx
  rw [List.append_assoc]
  exact ⟨x, _, hx, hm⟩

end Spells

/-! ## Single tokens -/

theorem spells_mark {c : Char} {kind : TokenKind} (h : opening? c = some (.mark kind))
    (rest : List Char) :
    Spells [c] rest (fun t : Mark kind => [t.1]) fun _ => True := by
  intro offset
  obtain ⟨t, o, ht, hkind⟩ := Scanner.lex_mark h offset rest
  exact ⟨⟨t, hkind⟩, o, ht, trivial⟩

theorem spells_reserved (word : String) (hword : isPlainWord word.toList = true)
    (hkey : keywords.contains word = true) {rest : List Char} (hrest : breaks rest = true) :
    Spells word.toList rest (fun t : Reserved word => [t.1]) fun _ => True := by
  intro offset
  simp only [breaks, Bool.and_eq_true, Bool.not_eq_true'] at hrest
  obtain ⟨t, o, ht, hkind, hvalue⟩ := Scanner.lex_plainWord hword hrest.1 offset
  rw [String.ofList_toList] at hkind hvalue
  rw [Opening.wordKind, if_pos hkey] at hkind
  exact ⟨⟨t, by simp [Token.isKeyword, hkind, hvalue]⟩, o, ht, trivial⟩

/-- A reserved word and a blank in front of a piece. -/
theorem Spells.word {τ : Type} {text rest : List Char} {tokens : τ → List Token}
    {meaning : τ → Prop} (word : String) (hword : isPlainWord word.toList = true)
    (hkey : keywords.contains word = true) (h : Spells text rest tokens meaning) :
    Spells (word.toList ++ ' ' :: text) rest
      (fun p : Reserved word × τ => p.1.1 :: tokens p.2) fun p => meaning p.2 := by
  refine ((spells_reserved word hword hkey rfl).append h.blank).imp ?_
  rintro p ⟨-, hp⟩
  exact ⟨p, rfl, hp⟩

theorem opening?_comma : opening? ',' = some (.mark .comma) := by decide

theorem opening?_leftParen : opening? '(' = some (.mark .leftParen) := by decide

theorem opening?_rightParen : opening? ')' = some (.mark .rightParen) := by decide

theorem opening?_semicolon : opening? ';' = some (.mark .semicolon) := by decide

theorem spells_name (s : String) (rest : List Char) :
    Spells (Render.name s) rest (fun t : Name => [t.1]) fun t => t.1.value = s := by
  intro offset
  have hquote : opening? backquote = some .quote := by decide
  obtain ⟨t, o, ht, hkind, hvalue⟩ :=
    Scanner.lex_quoted hquote (by decide) s.toList offset rest
  rw [String.ofList_toList] at hvalue
  exact ⟨⟨t, by rw [Token.isName, hkind]; rfl⟩, o, ht, hvalue⟩

/-! ## Column lists -/

/-- Names with a comma and a blank between them are entries of a column list. -/
theorem spells_names (names : List String) (rest : List Char) :
    Spells ((Render.words ", ").intercalate (names.map Render.name)) rest
      (fun es : List Entry => es.flatMap Entry.tokens)
      fun es => es.filterMap Entry.column? = names := by
  induction names with
  | nil => exact fun offset => ⟨[], offset, rfl, rfl⟩
  | cons s names ih =>
    cases names with
    | nil =>
      rw [List.map_singleton, List.intercalate_singleton]
      refine (spells_name s rest).imp ?_
      intro t ht
      refine ⟨[.name t], rfl, ?_⟩
      simpa [Entry.column?] using ht
    | cons s' names =>
      have hcomma := spells_mark opening?_comma
        (' ' :: ((Render.words ", ").intercalate ((s' :: names).map Render.name) ++ rest))
      have htext : (Render.words ", ").intercalate ((s :: s' :: names).map Render.name) =
          Render.name s ++ ([','] ++
            ' ' :: (Render.words ", ").intercalate ((s' :: names).map Render.name)) := by
        simp [Render.words, List.intercalate_cons_cons]
      rw [htext]
      refine ((spells_name s _).append (hcomma.append ih.blank)).imp ?_
      rintro ⟨t, comma, es⟩ ⟨ht, -, hes⟩
      have hother : (!comma.1.isName && !isParen comma.1) = true := by
        simp [Token.isName, TokenKind.isName, isParen, comma.2]
      refine ⟨.name t :: .other ⟨comma.1, hother⟩ :: es, by simp [Entry.tokens], ?_⟩
      simpa [Entry.column?] using ⟨ht, hes⟩

theorem spells_columnList (columns : List String) (rest : List Char) :
    Spells (Render.columnList columns) rest Columns.tokens fun c => c.names = columns := by
  have hopening := spells_mark opening?_leftParen
  have hclosing := spells_mark opening?_rightParen rest
  have htext : Render.columnList columns =
      ['('] ++ ((Render.words ", ").intercalate (columns.map Render.name) ++ [')']) :=
    List.append_assoc _ _ _
  rw [htext]
  refine ((hopening _).append ((spells_names columns _).append hclosing)).imp ?_
  rintro ⟨opening, es, closing⟩ ⟨-, hes, -⟩
  exact ⟨⟨opening, es, closing⟩, rfl, hes⟩

/-! ## Types -/

/-- The argument of a type, as a schema may hold it: a number, a plain word that is not reserved,
or a literal in single quotes. -/
inductive IsTypeArgument : List Char → Prop
  | number {cs : List Char} (h : Render.isNumberText cs = true) : IsTypeArgument cs
  | word {cs : List Char} (h : isPlainWord cs = true)
      (hkey : keywords.contains (String.ofList cs) = false) : IsTypeArgument cs
  | literal (cs : List Char) : IsTypeArgument (quoted singleQuote cs)

/-- A type, as a schema may hold it: a plain word, with or without arguments. -/
inductive IsTypeText : List Char → Prop
  | word {w : List Char} (h : isPlainWord w = true) : IsTypeText w
  | arguments {w : List Char} {args : List (List Char)} (h : isPlainWord w = true)
      (hne : args ≠ []) (hargs : ∀ a ∈ args, IsTypeArgument a) :
      IsTypeText (w ++ '(' :: ([','].intercalate args ++ [')']))

/-! A schema that comes from a script may hold words of any letters.  Those that upper case leaves
alone are read as they are. -/

/-- Is the text a word, as scanning takes it? -/
def isWord : List Char → Bool
  | [] => false
  | c :: cs => opening? c == some .word && cs.all continuesWord

/-- Is the text a word that stands for itself? -/
def isSettledWord (cs : List Char) : Bool :=
  isWord cs && upperCase cs == cs

/-- The argument of a type that is read as it is written. -/
inductive IsSettledArgument : List Char → Prop
  | number {cs : List Char} (h : Render.isNumberText cs = true) : IsSettledArgument cs
  | word {cs : List Char} (h : isSettledWord cs = true)
      (hkey : keywords.contains (String.ofList cs) = false) : IsSettledArgument cs
  | literal (cs : List Char) : IsSettledArgument (quoted singleQuote cs)

/-- A type that is read as it is written: a word of any letters, with or without arguments. -/
inductive IsSettledType : List Char → Prop
  | word {w : List Char} (h : isSettledWord w = true) : IsSettledType w
  | arguments {w : List Char} {args : List (List Char)} (h : isSettledWord w = true)
      (hne : args ≠ []) (hargs : ∀ a ∈ args, IsSettledArgument a) :
      IsSettledType (w ++ '(' :: ([','].intercalate args ++ [')']))

theorem isSettledWord_of_isPlainWord {cs : List Char} (h : isPlainWord cs = true) :
    isSettledWord cs = true := by
  cases cs with
  | nil => cases h
  | cons c cs =>
    simp only [isPlainWord, Bool.and_eq_true, Bool.not_eq_true'] at h
    obtain ⟨⟨hc, hd⟩, hcs⟩ := h
    have hcontinues : cs.all continuesWord = true :=
      List.all_eq_true.2 fun d hd => continuesWord_of_isPlain (List.all_eq_true.1 hcs d hd)
    have hupper : upperCase (c :: cs) = c :: cs := upperCase_of_isPlain (by simp [hc, hcs])
    simp only [isSettledWord, isWord, opening?_of_isPlain hc hd, hcontinues, hupper,
      beq_self_eq_true, Bool.and_self]

theorem IsTypeArgument.settled {a : List Char} (h : IsTypeArgument a) : IsSettledArgument a := by
  cases h with
  | number h => exact .number h
  | word h hkey => exact .word (isSettledWord_of_isPlainWord h) hkey
  | literal cs => exact .literal cs

/-- Types that a schema may hold anyhow are read as they are written. -/
theorem IsTypeText.settled {type : List Char} (h : IsTypeText type) : IsSettledType type := by
  cases h with
  | word h => exact .word (isSettledWord_of_isPlainWord h)
  | arguments h hne hargs =>
    exact .arguments (isSettledWord_of_isPlainWord h) hne fun a ha => (hargs a ha).settled

theorem spells_number {cs : List Char} (h : Render.isNumberText cs = true) {rest : List Char}
    (hrest : breaks rest = true) :
    Spells cs rest (fun t : Token => [t])
      fun t => t.kind = .number ∧ t.value = String.ofList cs := by
  intro offset
  simp only [breaks, Bool.and_eq_true, Bool.not_eq_true'] at hrest
  cases cs with
  | nil => cases h
  | cons c cs =>
    simp only [Render.isNumberText, Bool.and_eq_true] at h
    obtain ⟨t, o, ht, hmeaning⟩ := Scanner.lex_number h.1 h.2 hrest.2 offset
    exact ⟨t, o, ht, hmeaning⟩

theorem spells_word {cs : List Char} (h : isSettledWord cs = true) {rest : List Char}
    (hrest : breaks rest = true) :
    Spells cs rest (fun t : Token => [t])
      fun t => t.kind = Opening.wordKind (String.ofList cs) ∧ t.value = String.ofList cs := by
  intro offset
  simp only [breaks, Bool.and_eq_true, Bool.not_eq_true'] at hrest
  cases cs with
  | nil => cases h
  | cons c cs =>
    simp only [isSettledWord, isWord, Bool.and_eq_true, beq_iff_eq] at h
    obtain ⟨⟨hopening, hcontinues⟩, hupper⟩ := h
    have hlex := Scanner.lex_word hopening hcontinues hrest.1 offset
    rwa [hupper] at hlex

theorem spells_literal (cs rest : List Char) :
    Spells (quoted singleQuote cs) rest (fun t : Token => [t])
      fun t => t.kind = .quotedString ∧ t.value = String.ofList cs :=
  fun offset => Scanner.lex_quoted (by decide) (by decide) cs offset rest

theorem spells_argument {a : List Char} (h : IsSettledArgument a) {rest : List Char}
    (hrest : breaks rest = true) :
    Spells a rest (fun t : Argument => [t.1])
      fun t => t.1.typeArgumentText = String.ofList a := by
  cases h with
  | number h =>
    refine (spells_number h hrest).imp ?_
    rintro t ⟨hkind, hvalue⟩
    exact ⟨⟨t, by simp [Token.isTypeArgument, hkind]⟩, rfl,
      by simp [Token.typeArgumentText, hkind, hvalue]⟩
  | word h hkey =>
    refine (spells_word h hrest).imp ?_
    rintro t ⟨hkind, hvalue⟩
    rw [Opening.wordKind, if_neg (by rw [hkey]; decide)] at hkind
    exact ⟨⟨t, by simp [Token.isTypeArgument, hkind]⟩, rfl,
      by simp [Token.typeArgumentText, hkind, hvalue]⟩
  | literal cs =>
    refine (spells_literal cs rest).imp ?_
    rintro t ⟨hkind, hvalue⟩
    exact ⟨⟨t, by simp [Token.isTypeArgument, hkind]⟩, rfl,
      by simp [Token.typeArgumentText, quoteTypeArgument_eq, hkind, hvalue]⟩

/-- Arguments with commas between them, up to the closing parenthesis. -/
theorem spells_arguments {args : List (List Char)} (hne : args ≠ [])
    (hargs : ∀ a ∈ args, IsSettledArgument a) (rest : List Char) :
    Spells ([','].intercalate args) (')' :: rest)
      (fun p : List (Argument × Mark .comma) × Argument =>
        commaTokens (fun t => [t.1]) p.1 ++ [p.2.1])
      fun p => (p.1.map Prod.fst ++ [p.2]).map (fun t => t.1.typeArgumentText) =
        args.map String.ofList := by
  induction args with
  | nil => exact absurd rfl hne
  | cons a args ih =>
    cases args with
    | nil =>
      have hrest : breaks (')' :: rest) = true := rfl
      rw [List.intercalate_singleton]
      refine (spells_argument (hargs a (by simp)) hrest).imp ?_
      intro t ht
      refine ⟨([], t), rfl, ?_⟩
      simpa using ht
    | cons a' args =>
      have hmore := ih (by simp) fun b hb => hargs b (List.mem_cons_of_mem a hb)
      have hcomma := spells_mark opening?_comma
        ([','].intercalate (a' :: args) ++ ')' :: rest)
      have htext : [','].intercalate (a :: a' :: args) =
          a ++ ([','] ++ [','].intercalate (a' :: args)) := by
        simp [List.intercalate_cons_cons]
      rw [htext]
      refine ((spells_argument (hargs a (by simp)) (by rfl)).append (hcomma.append hmore)).imp ?_
      rintro ⟨t, comma, leading, last⟩ ⟨ht, -, hlast⟩
      refine ⟨((t, comma) :: leading, last), by simp [commaTokens], ?_⟩
      simpa [ht] using hlast

end SchemaArchive
