import SchemaArchive.Proofs.Script.Places
import SchemaArchive.Proofs.Script.ReadAgain

/-!
# The text of a type as tokens again

The type of a column is kept as one text, made from the tokens of a word and of arguments: numbers
and words as they are, quoted text between single quotes whichever quotes it had.  Scanning this
text by itself gives the tokens back that it was made from, wherever they stood.  Words have to be
written in ASCII, as the upper case of other words need not be a word.

* `Lexeme.AsciiWord` — a word that is written in ASCII, or no word at all.
* `Repeats` — a text whose tokens are given ones but for their places; `repeats_argument`,
  `repeats_arguments` and `repeats_type` say it of what is kept for a type.
* `tokenize_columnType` — the type of a column is read, and its text repeats its tokens.
-/

namespace SchemaArchive

open Grammar Text

/-! ## Words in ASCII -/

/-- A word is written in ASCII. -/
def Lexeme.AsciiWord : Lexeme → Prop
  | word c more _ _ => (c :: more).all isAscii = true
  | _ => True

theorem upperCase_of_isAscii {cs : List Char} (h : cs.all isAscii = true) :
    upperCase cs = cs.map Char.toUpper := by
  induction cs with
  | nil => rfl
  | cons c cs ih =>
    rw [List.all_cons, Bool.and_eq_true] at h
    rw [upperCase_cons, upperChar_of_isAscii h.1, ih h.2, List.map_cons]
    rfl

theorem opening?_toUpper {c : Char} (hascii : isAscii c = true) (h : startsWord c = true) :
    opening? c.toUpper = some .word :=
  forall_isAscii (P := fun c => startsWord c = true → opening? c.toUpper = some .word)
    (by decide) hascii h

theorem continuesWord_toUpper {c : Char} (hascii : isAscii c = true) (h : continuesWord c = true) :
    continuesWord c.toUpper = true :=
  forall_isAscii (P := fun c => continuesWord c = true → continuesWord c.toUpper = true)
    (by decide) hascii h

/-- The upper case of a word in ASCII is a word. -/
theorem Lexeme.isWord_token {x : Lexeme} (h : x.AsciiWord) {front : List Char}
    (hkind : (x.token front).kind = .identifier ∨ (x.token front).kind = .keyword) :
    isWord (x.token front).value.toList = true := by
  cases x with
  | mark c kind hmark => cases hmark <;> simp [token, kind] at hkind
  | number c more hc hmore => simp [token, kind] at hkind
  | quoted quote units ending hquote => simp [token, kind] at hkind
  | word c more hc hmore =>
    have hvalue : (token front (.word c more hc hmore)).value.toList =
        c.toUpper :: more.map Char.toUpper := by
      have hupper : (token front (.word c more hc hmore)).value.toList = upperCase (c :: more) :=
        String.toList_ofList
      rw [hupper, upperCase_of_isAscii h, List.map_cons]
    obtain ⟨hascii, hasciis⟩ := List.forall_mem_cons.1 (List.all_eq_true.1 h)
    have hopening : opening? c.toUpper = some .word :=
      opening?_toUpper hascii (by simpa [startsWord] using hc)
    have hcontinues : ∀ d ∈ more, continuesWord d.toUpper = true :=
      fun d hd => continuesWord_toUpper (hasciis d hd) (continuesWord_iff.2 (hmore d hd))
    rw [hvalue, isWord, hopening, List.all_map]
    simpa using hcontinues

/-- The value of a punctuation mark is the mark. -/
theorem Lexeme.value_of_isMark {x : Lexeme} {c : Char} {kind : TokenKind} (h : IsMark c kind)
    {front : List Char} (hkind : (x.token front).kind = kind) :
    (x.token front).value = String.ofList [c] := by
  cases x with
  | mark c' kind' h' =>
    obtain rfl : kind' = kind := hkind
    cases h <;> cases h' <;> rfl
  | number c more hc hmore => cases h <;> cases hkind
  | quoted quote units ending hquote => cases h <;> cases hkind
  | word c' more hc hmore =>
    have hword : (token front (.word c' more hc hmore)).kind = .keyword ∨
        (token front (.word c' more hc hmore)).kind = .identifier := by
      simp only [token, Lexeme.kind]
      split
      · exact .inl rfl
      · exact .inr rfl
    rw [hkind] at hword
    cases h <;> simp at hword

/-- The token stands for a lexeme, which is written in ASCII if it is a word. -/
def Token.Lexical (t : Token) : Prop :=
  ∃ (x : Lexeme) (front : List Char), t = x.token front ∧ x.AsciiWord

namespace Token.Lexical

variable {t : Token} (h : t.Lexical)
include h

theorem hasValue : t.HasValue := by
  obtain ⟨x, front, rfl, -⟩ := h
  exact x.hasValue_token front

theorem isWord (hkind : t.kind = .identifier ∨ t.kind = .keyword) :
    SchemaArchive.isWord t.value.toList = true := by
  obtain ⟨x, front, rfl, hascii⟩ := h
  exact Lexeme.isWord_token hascii hkind

theorem value_of_isMark {c : Char} (hmark : IsMark c t.kind) : t.value = String.ofList [c] := by
  obtain ⟨x, front, rfl, -⟩ := h
  exact Lexeme.value_of_isMark hmark rfl

end Token.Lexical

/-! ## Texts that repeat tokens -/

/-- In front of `rest`, the text is cut into tokens of the kinds and values of `ts`. -/
def Repeats (text rest : List Char) (ts : List Token) : Prop :=
  Spells text rest id fun us => List.Forall₂ Token.SameText us ts

theorem Repeats.append {text more rest : List Char} {ts us : List Token}
    (h : Repeats text (more ++ rest) ts) (h' : Repeats more rest us) :
    Repeats (text ++ more) rest (ts ++ us) := by
  refine (Spells.append h h').imp ?_
  rintro ⟨ts', us'⟩ ⟨hts, hus⟩
  exact ⟨ts' ++ us', rfl, List.rel_append hts hus⟩

/-- A text that is cut into one token repeats each token of the same kind and value. -/
theorem Spells.repeats {text rest : List Char} {kind : TokenKind} {value : String} {t : Token}
    (h : Spells text rest (fun u : Token => [u]) fun u => u.kind = kind ∧ u.value = value)
    (hkind : t.kind = kind) (hvalue : t.value = value) : Repeats text rest [t] := by
  refine h.imp ?_
  rintro u ⟨hu, huvalue⟩
  exact ⟨[u], rfl, .cons ⟨hu.trans hkind.symm, huvalue.trans hvalue.symm⟩ .nil⟩

section Tokens

variable {t : Token} (h : t.Lexical) {rest : List Char}

include h

theorem repeats_mark {c : Char} (hmark : IsMark c t.kind) (rest : List Char) :
    Repeats [c] rest [t] := by
  refine Spells.repeats (fun offset => ?_) rfl (h.value_of_isMark hmark)
  exact ⟨_, _, Scanner.tokens_lexeme (opening?_of_isMark hmark) rfl offset, rfl, rfl⟩

theorem repeats_word (hrest : breaks rest = true)
    (hkind : t.kind = .identifier ∨ t.kind = .keyword) : Repeats t.value.toList rest [t] := by
  have hsettled : isSettledWord t.value.toList = true := by
    rcases hkind with hidentifier | hkeyword
    · exact isSettledWord_of_identifier h.hasValue hidentifier (h.isWord (.inl hidentifier))
    · exact isSettledWord_of_mem_keywords _ (h.hasValue.keyword hkeyword)
  refine (spells_word hsettled hrest).repeats ?_ String.ofList_toList.symm
  rw [String.ofList_toList, Opening.wordKind]
  rcases hkind with hidentifier | hkeyword
  · rw [(h.hasValue.identifier hidentifier).2]
    exact hidentifier
  · rw [if_pos (by simpa using h.hasValue.keyword hkeyword)]
    exact hkeyword

theorem repeats_argument (hrest : breaks rest = true) (ht : t.isTypeArgument = true) :
    Repeats t.typeArgumentText.toList rest [t] := by
  simp only [Token.isTypeArgument, Bool.or_eq_true, beq_iff_eq] at ht
  rcases ht with (hkind | hkind) | hkind
  · have htext : t.typeArgumentText = t.value := by simp [Token.typeArgumentText, hkind]
    rw [htext]
    exact (spells_number (h.hasValue.number hkind) hrest).repeats hkind String.ofList_toList.symm
  · have htext : t.typeArgumentText = t.value := by simp [Token.typeArgumentText, hkind]
    rw [htext]
    exact repeats_word h hrest (.inl hkind)
  · have htext : t.typeArgumentText.toList = Text.quoted singleQuote t.value.toList := by
      simp [Token.typeArgumentText, quoteTypeArgument_eq, hkind]
    rw [htext]
    exact (spells_literal _ rest).repeats hkind String.ofList_toList.symm

end Tokens

/-! ## Types -/

/-- The arguments of a type, with commas between them. -/
theorem repeats_arguments {leading : List (Argument × Mark .comma)} {last : Argument}
    (h : ∀ t ∈ commaTokens (fun t : Argument => [t.1]) leading ++ [last.1], t.Lexical)
    {rest : List Char} (hrest : breaks rest = true) :
    Repeats ([','].intercalate
        ((leading.map Prod.fst ++ [last]).map fun t => t.1.typeArgumentText.toList)) rest
      (commaTokens (fun t : Argument => [t.1]) leading ++ [last.1]) := by
  induction leading with
  | nil =>
    rw [List.map_nil, List.nil_append, List.map_singleton, List.intercalate_singleton]
    exact repeats_argument (h last.1 List.mem_cons_self) hrest last.2
  | cons m leading ih =>
    obtain ⟨t, comma⟩ := m
    have htokens : commaTokens (fun t : Argument => [t.1]) ((t, comma) :: leading) ++ [last.1] =
        [t.1] ++ ([comma.1] ++ (commaTokens (fun t : Argument => [t.1]) leading ++ [last.1])) :=
      rfl
    rw [htokens] at h ⊢
    rw [List.forall_mem_append, List.forall_mem_append, List.forall_mem_singleton,
      List.forall_mem_singleton] at h
    obtain ⟨ht, hcomma, hmore⟩ := h
    have hmark : IsMark ',' comma.1.kind := by
      rw [comma.2]
      exact .comma
    rw [List.map_cons, List.cons_append, List.map_cons,
      List.intercalate_cons_of_ne_nil (by simp), List.append_assoc]
    exact (repeats_argument ht rfl t.2).append ((repeats_mark hcomma hmark _).append (ih hmore))

/-- The text of a type repeats its tokens. -/
theorem repeats_type {type : { t : Token // t.isTypeName = true } × Option TypeArguments}
    (hname : type.1.1.kind ≠ .quotedString) (h : ∀ t ∈ typeTokens type, t.Lexical)
    {rest : List Char} (hrest : breaks rest = true) :
    Repeats (typeTextOf type.1.1 type.2).toList rest (typeTokens type) := by
  obtain ⟨⟨t, ht⟩, arguments⟩ := type
  have hkind : t.kind = .identifier ∨ t.kind = .keyword := by
    simp only [Token.isTypeName, Bool.or_eq_true, beq_iff_eq] at ht
    exact ht.resolve_right hname
  cases arguments with
  | none => exact repeats_word (h t List.mem_cons_self) hrest hkind
  | some a =>
    have htokens : typeTokens (⟨t, ht⟩, some a) =
        [t] ++ ([a.opening.1] ++ ((commaTokens (fun t : Argument => [t.1]) a.leading ++
          [a.last.1]) ++ [a.closing.1])) := by
      simp [typeTokens, TypeArguments.tokens]
    rw [htokens] at h ⊢
    rw [List.forall_mem_append, List.forall_mem_append, List.forall_mem_append,
      List.forall_mem_singleton, List.forall_mem_singleton, List.forall_mem_singleton] at h
    obtain ⟨hword, hopening, harguments, hclosing⟩ := h
    have hleft : IsMark '(' a.opening.1.kind := by
      rw [a.opening.2]
      exact .leftParen
    have hright : IsMark ')' a.closing.1.kind := by
      rw [a.closing.2]
      exact .rightParen
    rw [toList_typeTextOf]
    exact (repeats_word hword rfl hkind).append ((repeats_mark hopening hleft _).append
      ((repeats_arguments harguments rfl).append (repeats_mark hclosing hright rest)))

theorem tokenize_of_repeats {text : String} {ts : List Token} (h : Repeats text.toList [] ts) :
    List.Forall₂ Token.SameText (tokenize text) ts := by
  obtain ⟨us, offset, hus, hsame⟩ := h 0
  rw [List.append_nil, Scanner.tokens_nil, List.append_nil] at hus
  rwa [tokenize, tokensOf, Scanner.ofText, hus]

/-- The type of a column is read if it is a word in ASCII, with or without arguments that are
numbers, such words or quoted text.  What is kept of it is a text that is cut into the very tokens
of the type. -/
theorem tokenize_columnType {name : Name}
    {type : { t : Token // t.isTypeName = true } × Option TypeArguments} {more : List Token}
    (hname : type.1.1.kind ≠ .quotedString) (h : ∀ t ∈ typeTokens type, t.Lexical)
    (hmore : type.2 = none → more.head?.any (·.kind == .leftParen) = false) :
    Parser.columnType (typeTokens type ++ more) = .ok (typeTextOf type.1.1 type.2, more) ∧
      ∀ c rest, Parser.columnDefinition (name.1 :: (typeTokens type ++ more)) = .ok (c, rest) →
        List.Forall₂ Token.SameText (tokenize c.type) (typeTokens type) := by
  have htype : Parser.columnType (typeTokens type ++ more) =
      .ok (typeTextOf type.1.1 type.2, more) := by
    have hclause := Parser.columnType_tokens ⟨name, type.1, type.2, [], fun _ => rfl⟩ more hmore
    obtain ⟨t, arguments⟩ := type
    cases arguments <;> exact hclause
  refine ⟨htype, fun c rest hc => ?_⟩
  rw [Parser.columnDefinition, Parser.run_bind (Parser.run_name name _),
    Parser.run_bind htype] at hc
  obtain ⟨attributes, mid, -, hpure⟩ := Parser.bind_eq_ok_iff.1 hc
  obtain ⟨rfl, rfl⟩ := Prod.mk.inj (Except.ok.inj hpure)
  rw [(Parser.foldl_apply_name_type _ _).2]
  exact tokenize_of_repeats (repeats_type hname h rfl)

/-- The type has a number, a word and quoted text among its arguments, with an apostrophe, an
escaped quote and a comma between double quotes. -/
theorem tokenize_columnType_quoted :
    let script := "a s(7, b, \"'\\\",\") DEFAULT 1"
    let text := "S(7,B,'\\'\",')"
    let written : List Token := [⟨.identifier, "S", 2⟩, ⟨.leftParen, "(", 3⟩, ⟨.number, "7", 4⟩,
      ⟨.comma, ",", 5⟩, ⟨.identifier, "B", 7⟩, ⟨.comma, ",", 8⟩, ⟨.quotedString, "'\",", 10⟩,
      ⟨.rightParen, ")", 16⟩]
    Parser.columnDefinition (tokenize script) =
        .ok ({ name := "A", type := text, defaultValue := some "1" }, []) ∧
      List.Forall₂ Token.SameText (tokenize text) written := by
  intro script text written
  let name : Name := ⟨⟨.identifier, "A", 0⟩, rfl⟩
  let type : { t : Token // t.isTypeName = true } × Option TypeArguments :=
    (⟨⟨.identifier, "S", 2⟩, rfl⟩, some
      { opening := ⟨⟨.leftParen, "(", 3⟩, rfl⟩
        leading := [(⟨⟨.number, "7", 4⟩, rfl⟩, ⟨⟨.comma, ",", 5⟩, rfl⟩),
          (⟨⟨.identifier, "B", 7⟩, rfl⟩, ⟨⟨.comma, ",", 8⟩, rfl⟩)]
        last := ⟨⟨.quotedString, "'\",", 10⟩, rfl⟩
        closing := ⟨⟨.rightParen, ")", 16⟩, rfl⟩ })
  -- What stands before each token matters for its place alone, so blanks will do.
  let units : List (QuotedUnit doubleQuote) :=
    [.plain singleQuote (by decide), .escaped doubleQuote, .plain ',' (by decide)]
  let lexemes : List (Lexeme × Nat) :=
    [(.word 's' [] (by decide) (List.forall_mem_nil _), 2), (.mark '(' .leftParen .leftParen, 3),
      (.number '7' [] (by decide) (List.forall_mem_nil _), 4), (.mark ',' .comma .comma, 5),
      (.word 'b' [] (by decide) (List.forall_mem_nil _), 7), (.mark ',' .comma .comma, 8),
      (.quoted doubleQuote units .closed (by decide), 10), (.mark ')' .rightParen .rightParen, 16)]
  have hlexemes : typeTokens type =
      lexemes.map fun x => x.1.token (List.replicate x.2 ' ') := by decide
  have hlexical : ∀ t ∈ typeTokens type, t.Lexical := by
    rw [hlexemes, List.forall_mem_map]
    intro x hx
    refine ⟨x.1, _, rfl, ?_⟩
    simp only [lexemes, List.mem_cons, List.not_mem_nil, or_false] at hx
    rcases hx with rfl | rfl | rfl | rfl | rfl | rfl | rfl | rfl <;> trivial
  have hdefinition : Parser.columnDefinition (tokenize script) =
      .ok ({ name := "A", type := text, defaultValue := some "1" }, []) :=
    eq_ok_of_toOption (by decide +kernel)
  have hwritten : tokenize script = name.1 :: (typeTokens type ++
      [⟨.keyword, "DEFAULT", 18⟩, ⟨.number, "1", 26⟩]) := by decide +kernel
  refine ⟨hdefinition, ?_⟩
  rw [hwritten] at hdefinition
  have harguments : type.2 ≠ none := Option.some_ne_none _
  exact (tokenize_columnType (by decide) hlexical (absurd · harguments)).2 _ _ hdefinition

end SchemaArchive
