import SchemaArchive.Proofs.Script.Decomposition
import SchemaArchive.Proofs.Script.KeysLast
import SchemaArchive.Proofs.Script.Taken
import SchemaArchive.Proofs.Text.UpperCase

/-!
# Scripts that are read, written and read again

A schema that was read from a script is written as a script and read again.  What comes out is
the schema with the foreign keys of each table last, if all of its types are read as they are
written.  That depends on how the first script wrote them, as a type stands bare in the second one
whatever it looks like: where the first script has a word, the upper case of this word has to be a
word again, and where it has quoted text, this has to be a word in upper case already.

* `lexeme_of_mem_tokenize` — every token of a script stands for a lexeme.
* `WritesWords` — all types of a script are written as words.
* `readScript_again` — what is read again, `readScript_again_cut` — types that are not.
-/

namespace SchemaArchive

open Grammar Text

/-! ## What the tokens of a script stand for -/

theorem lexeme_of_mem_tokensBehind {before : List Char} {ps : List Piece} {t : Token}
    (h : t ∈ tokensBehind before ps) : ∃ (x : Lexeme) (front : List Char), t = x.token front := by
  induction ps generalizing before with
  | nil => cases h
  | cons p ps ih =>
    rcases List.mem_cons.1 h with rfl | h
    · exact ⟨p.lexeme, before, rfl⟩
    · exact ih h

/-- Every token of a script stands for a lexeme. -/
theorem lexeme_of_mem_tokenize {script : String} {t : Token} (h : t ∈ tokenize script) :
    ∃ (x : Lexeme) (front : List Char), t = x.token front := by
  obtain ⟨⟨d, hd⟩, -⟩ := tokenize_decomposition script
  rw [hd] at h
  exact lexeme_of_mem_tokensBehind h

/-- What the kind of a token says of its value. -/
structure Token.HasValue (t : Token) : Prop where
  number : t.kind = .number → Render.isNumberText t.value.toList = true
  /-- A bare word is in upper case. -/
  identifier : t.kind = .identifier →
    upperCase t.value.toList = t.value.toList ∧ keywords.contains t.value = false
  keyword : t.kind = .keyword → t.value ∈ keywords

theorem Lexeme.hasValue_token (x : Lexeme) (front : List Char) : (x.token front).HasValue := by
  cases x with
  | mark c kind h => cases h <;> exact ⟨nofun, nofun, nofun⟩
  | quoted quote units ending h => exact ⟨nofun, nofun, nofun⟩
  | number c more hc hmore =>
    refine ⟨fun _ => ?_, nofun, nofun⟩
    have hvalue : (token front (.number c more hc hmore)).value.toList = c :: more :=
      String.toList_ofList
    rw [hvalue, Render.isNumberText, hc, Bool.true_and, List.all_eq_true]
    exact fun d hd => continuesNumber_iff.2 (hmore d hd)
  | word c more hc hmore =>
    have hvalue : (token front (.word c more hc hmore)).value =
        String.ofList (upperCase (c :: more)) := rfl
    have hkind : (token front (.word c more hc hmore)).kind =
        if String.ofList (upperCase (c :: more)) ∈ keywords then .keyword else .identifier := rfl
    by_cases hreserved : String.ofList (upperCase (c :: more)) ∈ keywords
    · rw [if_pos hreserved] at hkind
      exact ⟨by simp [hkind], by simp [hkind], fun _ => hreserved⟩
    · rw [if_neg hreserved] at hkind
      refine ⟨by simp [hkind], fun _ => ?_, by simp [hkind]⟩
      rw [hvalue, String.toList_ofList, upperCase_upperCase]
      exact ⟨rfl, by simpa using hreserved⟩

theorem hasValue_of_mem_tokenize {script : String} {t : Token} (h : t ∈ tokenize script) :
    t.HasValue := by
  obtain ⟨x, front, rfl⟩ := lexeme_of_mem_tokenize h
  exact x.hasValue_token front

theorem isSettledWord_of_mem_keywords : ∀ word ∈ keywords, isSettledWord word.toList = true := by
  decide

/-! ## Types that are written as words -/

/-- Each token with the two behind it. -/
def windows (ts : List Token) : List (Token × Token × Token) :=
  ts.zip (ts.tail.zip ts.tail.tail)

theorem mem_windows (before : List Token) (t u v : Token) (after : List Token) :
    (t, u, v) ∈ windows (before ++ t :: u :: v :: after) := by
  induction before with
  | nil => exact List.mem_cons_self
  | cons w before ih =>
    cases before with
    | nil => exact List.mem_cons_of_mem _ List.mem_cons_self
    | cons w' before =>
      cases before <;> exact List.mem_cons_of_mem _ ih

/-- The script writes all types as words. -/
structure WritesWords (ts : List Token) : Prop where
  /-- The upper case of every bare word is a word. -/
  bare : ∀ t ∈ ts, t.kind = .identifier → isWord t.value.toList = true
  /-- Quoted text that stands where the type of a column may stand is a word in upper case. -/
  quoted : ∀ w ∈ windows ts, (w.1.kind = .leftParen ∨ w.1.kind = .comma) → w.2.1.isName = true →
    w.2.2.kind = .quotedString → isSettledWord w.2.2.value.toList = true

theorem isSettledWord_of_identifier {t : Token} (hvalue : t.HasValue) (hkind : t.kind = .identifier)
    (hword : isWord t.value.toList = true) : isSettledWord t.value.toList = true := by
  obtain ⟨hupper, -⟩ := hvalue.identifier hkind
  simp only [isSettledWord, hword, hupper, beq_self_eq_true, Bool.and_true]

theorem isSettledArgument_of_isTypeArgument {t : Token} (ht : t.isTypeArgument = true)
    (hvalue : t.HasValue) (hword : t.kind = .identifier → isWord t.value.toList = true) :
    IsSettledArgument t.typeArgumentText.toList := by
  simp only [Token.isTypeArgument, Bool.or_eq_true, beq_iff_eq] at ht
  rcases ht with (hkind | hkind) | hkind
  · have htext : t.typeArgumentText = t.value := by simp [Token.typeArgumentText, hkind]
    rw [htext]
    exact .number (hvalue.number hkind)
  · have htext : t.typeArgumentText = t.value := by simp [Token.typeArgumentText, hkind]
    rw [htext]
    refine .word (isSettledWord_of_identifier hvalue hkind (hword hkind)) ?_
    rw [String.ofList_toList]
    exact (hvalue.identifier hkind).2
  · have htext : t.typeArgumentText =
        String.ofList (Text.quoted singleQuote t.value.toList) := by
      simp [Token.typeArgumentText, quoteTypeArgument_eq, hkind]
    rw [htext, String.toList_ofList]
    exact .literal _

theorem Grammar.TypeArguments.mem_tokens {a : TypeArguments} {t : Argument}
    (ht : t ∈ a.leading.map Prod.fst ++ [a.last]) : t.1 ∈ a.tokens := by
  rw [List.mem_append, List.mem_map, List.mem_singleton] at ht
  simp only [tokens, commaTokens, List.mem_cons, List.mem_append, List.mem_flatMap]
  rcases ht with ⟨m, hm, rfl⟩ | rfl
  · exact .inr (.inl ⟨m, hm, .inl (.inl rfl)⟩)
  · exact .inr (.inr (.inl rfl))

/-- The text of a type with arguments, character by character. -/
theorem toList_typeTextOf (t : Token) (a : TypeArguments) :
    (typeTextOf t (some a)).toList = t.value.toList ++ '(' :: ([','].intercalate
      ((a.leading.map Prod.fst ++ [a.last]).map fun u => u.1.typeArgumentText.toList) ++
        [')']) := by
  have htext : typeTextOf t (some a) =
      String.ofList (t.value.toList ++ '(' :: ([','].intercalate
        ((a.leading.map Prod.fst ++ [a.last]).map fun u => u.1.typeArgumentText.toList) ++
          [')'])) := by
    rw [← typeText_ofList, String.ofList_toList, List.map_map, typeTextOf_some,
      TypeArguments.texts_eq]
    simp [Function.comp_def]
  rw [htext, String.toList_ofList]

/-- A word with or without arguments is read as it is written, if all its words are. -/
theorem settled_of_tokens {type : { t : Token // t.isTypeName = true } × Option TypeArguments}
    (hword : isSettledWord type.1.1.value.toList = true)
    (hvalues : ∀ t ∈ typeTokens type, t.HasValue)
    (hbare : ∀ t ∈ typeTokens type, t.kind = .identifier → isWord t.value.toList = true) :
    IsSettledType (typeTextOf type.1.1 type.2).toList := by
  obtain ⟨⟨t, ht⟩, arguments⟩ := type
  cases arguments with
  | none => exact .word hword
  | some a =>
    rw [toList_typeTextOf]
    refine .arguments hword (by simp) ?_
    rw [List.forall_mem_map]
    intro u hu
    have hmem : u.1 ∈ typeTokens (⟨t, ht⟩, some a) :=
      List.mem_cons_of_mem t (TypeArguments.mem_tokens hu)
    exact isSettledArgument_of_isTypeArgument u.2 (hvalues u.1 hmem) (hbare u.1 hmem)

/-! ## Reading again -/

/-- The types of a schema are read as they are written, if its script writes them as words. -/
theorem settled_of_writesWords {script : String} {tables : List Table}
    (h : readScript script = .ok tables) (hwords : WritesWords (tokenize script)) {t : Table}
    (ht : t ∈ tables) {c : Column} (hc : c ∈ t.columns) : IsSettledType c.type.toList := by
  obtain ⟨before, opener, written, after, htokens, hopener, name, type, more, rfl, -, htype⟩ :=
    standsIn_of_readTokens h ht hc
  have hplace : tokenize script =
      before ++ opener :: name.1 :: (typeTokens type ++ (more ++ after)) := by
    simpa using htokens
  have hmem : ∀ u ∈ typeTokens type, u ∈ tokenize script := by
    intro u hu
    rw [hplace]
    simp [hu]
  have hvalues : ∀ u ∈ typeTokens type, u.HasValue :=
    fun u hu => hasValue_of_mem_tokenize (hmem u hu)
  have hbare : ∀ u ∈ typeTokens type, u.kind = .identifier → isWord u.value.toList = true :=
    fun u hu => hwords.bare u (hmem u hu)
  have hfirst : type.1.1 ∈ typeTokens type := List.mem_cons_self
  have hword : isSettledWord type.1.1.value.toList = true := by
    have hname := type.1.2
    simp only [Token.isTypeName, Bool.or_eq_true, beq_iff_eq] at hname
    rcases hname with (hkind | hkind) | hkind
    · exact isSettledWord_of_identifier (hvalues _ hfirst) hkind (hbare _ hfirst hkind)
    · exact isSettledWord_of_mem_keywords _ ((hvalues _ hfirst).keyword hkind)
    · refine hwords.quoted (opener, name.1, type.1.1) ?_ hopener name.2 hkind
      rw [hplace]
      exact mem_windows before opener name.1 type.1.1 _
  rw [htype]
  exact settled_of_tokens hword hvalues hbare

/-- A schema with different table names that was read from a script is written and read again:
this gives the schema with the foreign keys of each table last, if the script writes all types as
words, or if the types are read as they are written for other reasons. -/
theorem readScript_again {script : String} {tables : List Table}
    (h : readScript script = .ok tables) (hnames : (tables.map (·.name)).Nodup)
    (htypes : WritesWords (tokenize script) ∨
      ∀ t ∈ tables, ∀ c ∈ t.columns, IsSettledType c.type.toList) :
    readScript (renderScript tables) = .ok (tables.map Table.keysLast) := by
  refine readScript_of_settled hnames fun t ht c hc => ?_
  rcases htypes with hwords | hsettled
  · exact settled_of_writesWords h hwords ht hc
  · exact hsettled t ht c hc

/-- A word whose upper case is longer, with arguments, and a type in quotes.  The foreign key has
no name, and stands before an index. -/
theorem readScript_again_words :
    let script := "create table t (a Straße(10, b), `b` 'DATE' not null default 'x y',
      foreign key (a) references t (a), key (a))"
    let columns : List Column := [{ name := "A", type := "STRASSE(10,B)" },
      { name := "b", type := "DATE", nullable := false, defaultValue := some "x y" }]
    let key : Constraint := .foreignKey "T_ibfk_1" ["A"] ⟨"T", ["A"]⟩
    readScript script = .ok [⟨"T", columns, [key, .key none ["A"]]⟩] ∧
      readScript (renderScript [⟨"T", columns, [key, .key none ["A"]]⟩]) =
        .ok [⟨"T", columns, [.key none ["A"], key]⟩] := by
  intro script columns key
  have hread : readScript script = .ok [⟨"T", columns, [key, .key none ["A"]]⟩] :=
    eq_ok_of_toOption (by decide +kernel)
  have hwords : WritesWords (tokenize script) := ⟨by decide +kernel, by decide +kernel⟩
  exact ⟨hread, readScript_again hread (by decide) (.inl hwords)⟩

/-- A type in quotes that is no word, and a word whose upper case is none, do not come back. -/
theorem readScript_again_cut :
    let quotedType : List Table := [⟨"T", [{ name := "A", type := "my type" }], []⟩]
    let accented : List Table := [⟨"T", [{ name := "A", type := "J\u030c" }], []⟩]
    readScript "CREATE TABLE t (a 'my type');" = .ok quotedType ∧
      readScript (renderScript quotedType) = .ok [⟨"T", [{ name := "A", type := "MY" }], []⟩] ∧
      readScript "CREATE TABLE t (a ǰ);" = .ok accented ∧
      readScript (renderScript accented) = .ok [⟨"T", [{ name := "A", type := "J" }], []⟩] := by
  intro quotedType accented
  exact ⟨eq_ok_of_toOption (by decide +kernel), eq_ok_of_toOption (by decide +kernel),
    eq_ok_of_toOption (by decide +kernel), eq_ok_of_toOption (by decide +kernel)⟩

end SchemaArchive
