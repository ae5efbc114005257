import SchemaArchive.Proofs.Script.Steps

/-!
# Reading well-formed tables

Every tree of the grammar, up to a whole table body, is read back from its own tokens: reading
takes exactly the tokens of the tree, whatever comes behind them, and gives what the tree says.
Where a tree has no end of its own, something is asked of the next token: behind the attributes
of a column stands a comma or a closing parenthesis, behind the actions of a foreign key no `ON`.

* `Parser.columnList_tokens`, `Parser.foreignKeyBody_tokens`, `Parser.columnDefinition_tokens` —
  the parts of an item, `Parser.tableItem_tokens` — an item, `Parser.tableBody_tokens` — a body.
* `Grammar.column_eq_foldl` — the attributes, one after another, make the column that the tree
  gives.
-/

namespace SchemaArchive

open Grammar

/-! ## Tokens that are told apart -/

namespace Token

theorem isKeyword_eq_false {t : Token} {word other : String} (h : t.isKeyword word = true)
    (hne : word ≠ other) : t.isKeyword other = false := by
  simp only [isKeyword, Bool.and_eq_true, beq_iff_eq] at h
  simp [isKeyword, h.1, h.2, hne]

theorem kind_of_isKeyword {t : Token} {word : String} (h : t.isKeyword word = true) :
    t.kind = .keyword := by
  simp only [isKeyword, Bool.and_eq_true, beq_iff_eq] at h
  exact h.1

theorem isKeyword_of_kind {t : Token} (h : t.kind ≠ .keyword) (word : String) :
    t.isKeyword word = false := by
  simp [isKeyword, h]

theorem isName_of_kind {t : Token} {kind : TokenKind} (h : t.kind = kind)
    (hk : kind.isName = false) : t.isName = false := by
  rw [isName, h, hk]

theorem kind_ne_of_isName {t : Token} {kind : TokenKind} (h : t.isName = true)
    (hk : kind.isName = false) : t.kind ≠ kind := by
  rintro rfl
  rw [isName, hk] at h
  cases h

end Token

/-! ## Passing over -/

theorem dropGroup_balanced {inside : List Token} (h : Balanced inside) (depth : Nat)
    (ts : List Token) : dropGroup (depth + 1) (inside ++ ts) = dropGroup (depth + 1) ts := by
  induction h generalizing depth ts with
  | nil => rfl
  | @token t rest ht _ ih =>
    simp only [isParen, Bool.or_eq_false_iff, beq_eq_false_iff_ne] at ht
    rw [List.cons_append, dropGroup]
    split
    · next h => exact absurd h ht.1
    · next h => exact absurd h ht.2
    · exact ih depth ts
  | @group l r inner rest hl hr _ _ ihInner ih =>
    rw [List.cons_append, List.append_assoc, dropGroup, hl]
    show dropGroup (depth + 1 + 1) (inner ++ (r :: rest ++ ts)) = _
    rw [ihInner (depth + 1), List.cons_append, dropGroup, hr]
    exact ih depth ts

/-- Behind an opening parenthesis, passing over ends right behind its partner. -/
theorem dropGroup_group (g : Group) (ts : List Token) :
    dropGroup 1 (g.inside ++ g.closing.1 :: ts) = ts := by
  rw [dropGroup_balanced g.balanced 0, dropGroup, g.closing.2]
  rw [dropGroup]

theorem dropActions_of_head {ts : List Token}
    (h : ts.head?.any (Token.isWord "ON") = false) : dropActions ts = ts := by
  cases ts with
  | nil => rw [dropActions]
  | cons t ts => rw [dropActions, if_neg (by simpa using h)]

/-- Passing over actions ends behind the last one, if no further one begins there. -/
theorem dropActions_actions (actions : List Action) {ts : List Token}
    (h : ts.head?.any (Token.isWord "ON") = false) :
    dropActions (actions.flatMap Action.tokens ++ ts) = ts := by
  induction actions with
  | nil => exact dropActions_of_head h
  | cons action actions ih =>
    cases action with
    | oneWord on event action =>
      rw [List.flatMap_cons, Action.tokens, List.append_assoc]
      show dropActions (on.1 :: event :: action.1 :: _) = _
      rw [dropActions, if_pos on.2]
      simpa [action.2] using ih
    | twoWords on event action more =>
      rw [List.flatMap_cons, Action.tokens, List.append_assoc]
      show dropActions (on.1 :: event :: action.1 :: more :: _) = _
      rw [dropActions, if_pos on.2]
      simpa [action.2] using ih

namespace Parser

/-! ## Column lists -/

theorem columnListEntry_tokens (e : Entry) :
    ∃ t more, e.tokens = t :: more ∧ (t.kind == TokenKind.rightParen) = false ∧
      ∀ rest, columnListEntry t (more ++ rest) = .ok (e.column?, rest) := by
  cases e with
  | name t =>
    refine ⟨t.1, [], rfl, by simpa using Token.kind_ne_of_isName t.2 rfl, fun rest => ?_⟩
    rw [columnListEntry, if_neg (by simpa using Token.kind_ne_of_isName t.2 rfl), if_pos t.2]
    rfl
  | group g =>
    refine ⟨g.opening.1, g.inside ++ [g.closing.1], rfl, by simp [g.opening.2], fun rest => ?_⟩
    rw [columnListEntry, if_pos (by simp [g.opening.2]), run_bind (run_passOver _ _),
      List.append_assoc, List.singleton_append, dropGroup_group]
    rfl
  | other t =>
    have ht := t.2
    simp only [isParen, Bool.and_eq_true, Bool.not_eq_true', Bool.or_eq_false_iff] at ht
    refine ⟨t.1, [], rfl, ht.2.2, fun rest => ?_⟩
    rw [columnListEntry, if_neg (by simp [ht.2.1]), if_neg (by simp [ht.1])]
    rfl

/-- A column list is read up to its own closing parenthesis, and gives its names. -/
theorem columnList_tokens (c : Columns) (rest : List Token) :
    columnList (c.tokens ++ rest) = .ok (c.names, rest) := by
  have hentries := run_manyUntil (h := LeavesSuffix.columnListEntry) Entry.tokens Entry.column?
    columnListEntry_tokens c.entries (c.closing.1 :: rest) (by simp [c.closing.2])
  rw [columnList, Columns.tokens, List.cons_append, List.append_assoc, run_bind (run_mark _ _),
    List.singleton_append, run_bind hentries, run_bind (run_mark _ _)]
  show Except.ok ((c.entries.map Entry.column?).filterMap id, rest) = _
  rw [List.filterMap_map]
  rfl

/-! ## Constraints -/

theorem foreignKeyBody_tokens (f : ForeignKeyClause) {rest : List Token}
    (h : rest.head?.any (Token.isWord "ON") = false) :
    foreignKeyBody (f.bodyTokens ++ rest) = .ok ((f.columns.names, f.target), rest) := by
  simp only [ForeignKeyClause.bodyTokens, List.cons_append, List.append_assoc]
  rw [foreignKeyBody, run_bind (run_keyword _ _), run_bind (columnList_tokens _ _),
    run_bind (run_keyword _ _), run_bind (run_name _ _), run_bind (columnList_tokens _ _),
    run_bind (run_passOver _ _), dropActions_actions f.actions h]
  rfl

theorem foreignKeyItem_tokens (name : Option String) (f : ForeignKeyClause) {rest : List Token}
    (h : rest.head?.any (Token.isWord "ON") = false) :
    foreignKeyItem name (f.bodyTokens ++ rest) =
      .ok (.foreignKey name f.columns.names f.target, rest) := by
  rw [foreignKeyItem, run_bind (foreignKeyBody_tokens f h)]
  rfl

theorem primaryKeyItem_tokens (p : PrimaryClause) (rest : List Token) :
    primaryKeyItem (p.bodyTokens ++ rest) =
      .ok (.constraint (.primaryKey p.columns.names), rest) := by
  rw [primaryKeyItem, PrimaryClause.bodyTokens, List.cons_append, run_bind (run_keyword _ _),
    run_bind (columnList_tokens _ _)]
  rfl

/-- A name that may be left out stands before a column list. -/
theorem optionalName_columns (name : Option Name) (c : Columns) (rest : List Token) :
    optionalName (maybe name ++ (c.tokens ++ rest)) =
      .ok (name.map (·.1.value), c.tokens ++ rest) :=
  run_optionalName name (Token.isName_of_kind c.opening.2 rfl) _

theorem keyItem_tokens (name : Option Name) (c : Columns) (rest : List Token) :
    keyItem (maybe name ++ (c.tokens ++ rest)) =
      .ok (.constraint (.key (name.map (·.1.value)) c.names), rest) := by
  rw [keyItem, run_bind (optionalName_columns _ _ _), run_bind (columnList_tokens _ _)]
  rfl

/-- The word `KEY` or `INDEX` may be left out of a unique index. -/
theorem ifTaken_keyWord (u : UniqueClause) (rest : List Token) :
    ifTaken (fun t => t.isKeyword "KEY" || t.isKeyword "INDEX") (return ()) (return ())
        (u.bodyTokens ++ rest) =
      .ok ((), maybe u.name ++ (u.columns.tokens ++ rest)) := by
  obtain ⟨_, key, name, columns⟩ := u
  simp only [UniqueClause.bodyTokens, List.append_assoc]
  cases key with
  | some key => exact run_ifTaken_pos key.2 _
  | none =>
    cases name with
    | some name =>
      refine run_ifTaken_neg ?_ _
      have hk : name.1.kind ≠ .keyword := Token.kind_ne_of_isName name.2 rfl
      simp [Token.isKeyword_of_kind hk]
    | none =>
      refine run_ifTaken_neg ?_ _
      have hk : columns.opening.1.kind ≠ .keyword := by simp [columns.opening.2]
      simp [Token.isKeyword_of_kind hk]

theorem uniqueItem_tokens (constraintName : Option String) (u : UniqueClause)
    (rest : List Token) :
    uniqueItem constraintName (u.bodyTokens ++ rest) =
      .ok (.constraint (.unique (u.name.map (·.1.value) <|> constraintName) u.columns.names),
        rest) := by
  rw [uniqueItem, run_bind (ifTaken_keyWord u rest), run_bind (optionalName_columns _ _ _),
    run_bind (columnList_tokens _ _)]
  rfl

end Parser

/-- What a named constraint is read as. -/
def Grammar.NamedClause.item (name : Option String) : NamedClause → TableItem
  | primaryKey p => .constraint (.primaryKey p.columns.names)
  | unique u => .constraint (.unique (u.name.map (·.1.value) <|> name) u.columns.names)
  | foreignKey f => .foreignKey name f.columns.names f.target

namespace Parser

theorem constraintItem_tokens (name : Option Name) (clause : NamedClause) {rest : List Token}
    (h : rest.head?.any (Token.isWord "ON") = false) :
    constraintItem (maybe name ++ (clause.tokens ++ rest)) =
      .ok (clause.item (name.map (·.1.value)), rest) := by
  cases clause with
  | primaryKey p =>
    have hn := Token.isName_of_kind (Token.kind_of_isKeyword p.primary.2) rfl
    rw [constraintItem, NamedClause.tokens, List.cons_append,
      run_bind (run_optionalName name hn _), run_ifTaken_pos p.primary.2]
    exact primaryKeyItem_tokens p rest
  | unique u =>
    have hn := Token.isName_of_kind (Token.kind_of_isKeyword u.unique.2) rfl
    rw [constraintItem, NamedClause.tokens, List.cons_append,
      run_bind (run_optionalName name hn _),
      run_ifTaken_neg (Token.isKeyword_eq_false u.unique.2 (by decide)),
      run_ifTaken_pos u.unique.2]
    exact uniqueItem_tokens _ u rest
  | foreignKey f =>
    have hn := Token.isName_of_kind (Token.kind_of_isKeyword f.foreign.2) rfl
    rw [constraintItem, NamedClause.tokens, List.cons_append,
      run_bind (run_optionalName name hn _),
      run_ifTaken_neg (Token.isKeyword_eq_false f.foreign.2 (by decide)),
      run_ifTaken_neg (Token.isKeyword_eq_false f.foreign.2 (by decide)),
      run_ifTaken_pos f.foreign.2]
    exact foreignKeyItem_tokens _ f h

end Parser

/-! ## Columns -/

/-- What the reader keeps of an argument is what the argument says. -/
theorem typeArgumentText_eq (t : Token) : t.typeArgumentText = argumentText t := by
  by_cases hkind : t.kind = .quotedString
  · have hescape : Text.escape Text.singleQuote t.value.toList =
        (String.join (t.value.toList.map fun c =>
          if c = '\'' ∨ c = '\\' then "\\" ++ c.toString else c.toString)).toList := by
      simp only [Text.escape, String.toList_join, List.map_map, List.flatMap]
      congr 2
      funext c
      by_cases hc : c = '\'' ∨ c = '\\'
      · simp [Text.escapeChar, hc]
      · simp [Text.escapeChar, hc]
    apply String.toList_injective
    simp only [Token.typeArgumentText, argumentText, hkind, beq_self_eq_true, if_true,
      quoteTypeArgument_eq, String.toList_ofList, String.toList_append, ← hescape]
    rfl
  · simp [Token.typeArgumentText, argumentText, hkind]

theorem Grammar.TypeArguments.texts_eq (a : TypeArguments) :
    a.texts = (a.leading.map Prod.fst ++ [a.last]).map fun t => t.1.typeArgumentText := by
  simp only [TypeArguments.texts, typeArgumentText_eq]

/-- The reader puts a type together as the grammar does. -/
theorem typeTextOf_some (type : Token) (a : TypeArguments) :
    typeTextOf type (some a) = typeText type.value a.texts :=
  rfl

namespace Parser

theorem typeArgument_tokens (t : Argument) (rest : List Token) :
    typeArgument (t.1 :: rest) = .ok (t.1.typeArgumentText, rest) := by
  rw [typeArgument, run_bind (run_accept t.2 rest)]
  rfl

theorem arguments_tokens (a : TypeArguments) (rest : List Token) :
    commaSeparated (fun _ => false) typeArgument Consumes.typeArgument
        (commaTokens (fun t => [t.1]) a.leading ++ a.last.1 :: a.closing.1 :: rest) =
      .ok (a.texts, a.closing.1 :: rest) := by
  rw [TypeArguments.texts_eq]
  refine run_commaSeparated (fun t : Argument => [t.1]) (fun t => t.1.typeArgumentText)
    (fun _ => True) (fun _ _ => trivial) ?_ a.leading (some a.last) rest trivial
    (by simp [a.closing.2]) nofun
  exact fun t u ts _ => ⟨rfl, typeArgument_tokens t (u :: ts)⟩

theorem columnType_tokens (c : ColumnClause) (rest : List Token)
    (h : c.arguments = none → rest.head?.any (·.kind == .leftParen) = false) :
    columnType (c.type.1 :: ((c.arguments.map TypeArguments.tokens).getD [] ++ rest)) =
      .ok (c.typeText, rest) := by
  rw [columnType, run_bind (run_accept c.type.2 _), ColumnClause.typeText]
  cases hc : c.arguments with
  | none =>
    have hrest := h hc
    cases rest with
    | nil => rfl
    | cons t rest => exact run_ifTaken_neg (by simpa using hrest) rest
  | some a =>
    show ifTaken _ _ _ (a.opening.1 :: _ ++ rest) = _
    rw [List.cons_append, run_ifTaken_pos (by simp [a.opening.2])]
    simp only [List.append_assoc, List.cons_append, List.nil_append]
    rw [run_bind (arguments_tokens a rest), run_bind (run_mark _ _)]
    rfl

end Parser

/-- What an attribute is read as. -/
def Grammar.Attribute.effect : Attribute → ColumnAttribute
  | unsigned _ => .unsigned
  | autoIncrement _ => .autoIncrement
  | notNull _ _ => .notNull
  | null _ => .null
  | defaultValue _ value => .defaultValue value.1.value
  | group _ => .ignored
  | filler _ => .ignored

namespace Parser

theorem isFiller_iff {t : Token} : isFiller t = true ↔
    t.kind ≠ .comma ∧ isParen t = false ∧ ∀ word ∈ attributeWords, t.isKeyword word = false := by
  simp [isFiller, and_assoc]

theorem columnAttribute_tokens (a : Attribute) :
    ∃ t more, a.tokens = t :: more ∧ t.endsAttributes = false ∧
      ∀ rest, columnAttribute t (more ++ rest) = .ok (a.effect, rest) := by
  -- A reserved word is no punctuation mark, so it neither ends the attributes nor opens a group.
  have hword : ∀ {t : Token} {word : String}, t.isKeyword word = true →
      t.endsAttributes = false ∧ (t.kind == TokenKind.leftParen) = false := fun h => by
    simp [Token.endsAttributes, Token.kind_of_isKeyword h]
  have hother : ∀ {t : Token} {word other : String}, t.isKeyword word = true → word ≠ other →
      ¬ t.isKeyword other = true := fun h hne => by
    simp [Token.isKeyword_eq_false h hne]
  cases a with
  | unsigned t =>
    refine ⟨t.1, [], rfl, (hword t.2).1, fun rest => ?_⟩
    rw [columnAttribute, if_neg (by simp [(hword t.2).2]), if_pos t.2]
    rfl
  | autoIncrement t =>
    refine ⟨t.1, [], rfl, (hword t.2).1, fun rest => ?_⟩
    rw [columnAttribute, if_neg (by simp [(hword t.2).2]), if_neg (hother t.2 (by decide)),
      if_pos t.2]
    rfl
  | notNull no null =>
    refine ⟨no.1, [null.1], rfl, (hword no.2).1, fun rest => ?_⟩
    rw [columnAttribute, if_neg (by simp [(hword no.2).2]), if_neg (hother no.2 (by decide)),
      if_neg (hother no.2 (by decide)), if_pos no.2, List.singleton_append,
      run_bind (run_keyword null rest)]
    rfl
  | null t =>
    refine ⟨t.1, [], rfl, (hword t.2).1, fun rest => ?_⟩
    rw [columnAttribute, if_neg (by simp [(hword t.2).2]), if_neg (hother t.2 (by decide)),
      if_neg (hother t.2 (by decide)), if_neg (hother t.2 (by decide)), if_pos t.2]
    rfl
  | defaultValue word value =>
    refine ⟨word.1, [value.1], rfl, (hword word.2).1, fun rest => ?_⟩
    rw [columnAttribute, if_neg (by simp [(hword word.2).2]), if_neg (hother word.2 (by decide)),
      if_neg (hother word.2 (by decide)), if_neg (hother word.2 (by decide)),
      if_neg (hother word.2 (by decide)), if_pos word.2, List.singleton_append,
      run_bind (run_accept value.2 rest)]
    rfl
  | group g =>
    refine ⟨g.opening.1, g.inside ++ [g.closing.1], rfl, by
      simp [Token.endsAttributes, g.opening.2], fun rest => ?_⟩
    rw [columnAttribute, if_pos (by simp [g.opening.2]), run_bind (run_passOver _ _),
      List.append_assoc, List.singleton_append, dropGroup_group]
    rfl
  | filler t =>
    obtain ⟨hcomma, hparen, hwords⟩ := isFiller_iff.1 t.2
    simp only [isParen, Bool.or_eq_false_iff] at hparen
    simp only [attributeWords, List.mem_cons, List.not_mem_nil, or_false, forall_eq_or_imp,
      forall_eq] at hwords
    obtain ⟨hunsigned, hauto, hnot, hnull, hdefault⟩ := hwords
    refine ⟨t.1, [], rfl, by simp [Token.endsAttributes, hcomma, hparen.2], fun rest => ?_⟩
    rw [columnAttribute, if_neg (by simp [hparen.1]), if_neg (by simp [hunsigned]),
      if_neg (by simp [hauto]), if_neg (by simp [hnot]), if_neg (by simp [hnull]),
      if_neg (by simp [hdefault])]
    rfl

end Parser

namespace Grammar

/-- Attributes applied one after another leave what they say as a whole. -/
theorem foldl_effect (attributes : List Attribute) (base : Column) :
    (attributes.map Attribute.effect).foldl ColumnAttribute.apply base =
      { base with
        unsigned := base.unsigned || attributes.any Attribute.isUnsigned
        nullable := (attributes.filterMap Attribute.nullable?).getLast?.getD base.nullable
        defaultValue := (attributes.filterMap Attribute.default?).getLast? <|> base.defaultValue
        autoIncrement := base.autoIncrement || attributes.any Attribute.isAutoIncrement } := by
  induction attributes generalizing base with
  | nil => simp
  | cons a attributes ih =>
    rw [List.map_cons, List.foldl_cons, ih]
    cases a <;>
      simp [Attribute.effect, ColumnAttribute.apply, Attribute.isUnsigned,
        Attribute.isAutoIncrement, Attribute.nullable?, Attribute.default?, List.getLast?_cons]

theorem column_eq_foldl (c : ColumnClause) :
    c.column = (c.attributes.map Attribute.effect).foldl ColumnAttribute.apply
      { name := c.name.1.value, type := c.typeText } := by
  rw [foldl_effect]
  simp [ColumnClause.column]

/-- Right behind a type without arguments no parenthesis is opened. -/
theorem head_attributes (c : ColumnClause) (h : c.arguments = none) {t : Token}
    (ht : t.endsAttributes = true) (rest : List Token) :
    (c.attributes.flatMap Attribute.tokens ++ t :: rest).head?.any
      (·.kind == .leftParen) = false := by
  have hgroup := c.no_group h
  cases hc : c.attributes with
  | nil =>
    simp only [Token.endsAttributes, Bool.or_eq_true, beq_iff_eq] at ht
    rcases ht with ht | ht <;> simp [ht]
  | cons a attributes =>
    rw [hc] at hgroup
    cases a with
    | unsigned t => simp [Attribute.tokens, Token.kind_of_isKeyword t.2]
    | autoIncrement t => simp [Attribute.tokens, Token.kind_of_isKeyword t.2]
    | notNull no _ => simp [Attribute.tokens, Token.kind_of_isKeyword no.2]
    | null t => simp [Attribute.tokens, Token.kind_of_isKeyword t.2]
    | defaultValue word _ => simp [Attribute.tokens, Token.kind_of_isKeyword word.2]
    | group g => simp [Attribute.isGroup] at hgroup
    | filler t =>
      have hparen := (Parser.isFiller_iff.1 t.2).2.1
      simp only [isParen, Bool.or_eq_false_iff] at hparen
      simp [Attribute.tokens, hparen.1]

end Grammar

namespace Parser

theorem columnDefinition_tokens (c : ColumnClause) {t : Token} (ht : t.endsAttributes = true)
    (rest : List Token) :
    columnDefinition (c.tokens ++ t :: rest) = .ok (c.column, t :: rest) := by
  have htype := columnType_tokens c (c.attributes.flatMap Attribute.tokens ++ t :: rest)
    fun h => head_attributes c h ht rest
  have hattributes := run_manyUntil (h := LeavesSuffix.columnAttribute) Attribute.tokens
    Attribute.effect columnAttribute_tokens c.attributes (t :: rest) (by simpa using ht)
  rw [columnDefinition, ColumnClause.tokens, List.cons_append, List.cons_append,
    List.append_assoc, run_bind (run_name _ _), run_bind htype, run_bind hattributes,
    column_eq_foldl]
  rfl

end Parser

/-! ## Items and bodies -/

/-- What an item is read as. -/
def Grammar.Item.tableItem : Item → TableItem
  | primaryKey p => .constraint (.primaryKey p.columns.names)
  | key _ name columns => .constraint (.key (name.map (·.1.value)) columns.names)
  | unique u => .constraint (.unique (u.name.map (·.1.value)) u.columns.names)
  | constraint _ name clause => clause.item (name.map (·.1.value))
  | foreignKey f => .foreignKey none f.columns.names f.target
  | column c => .column c.column

namespace Parser

/-- An item is read up to the comma or the parenthesis behind it. -/
theorem tableItem_tokens (i : Item) {t : Token} (ht : t.endsAttributes = true)
    (rest : List Token) : tableItem (i.tokens ++ t :: rest) = .ok (i.tableItem, t :: rest) := by
  have hon : (t :: rest).head?.any (Token.isWord "ON") = false := by
    simp only [Token.endsAttributes, Bool.or_eq_true, beq_iff_eq] at ht
    rcases ht with ht | ht <;> simp [Token.isWord, ht]
  have hother : ∀ {u : Token} {word : String}, u.isKeyword word = true → word ≠ "KEY" →
      word ≠ "INDEX" → (u.isKeyword "KEY" || u.isKeyword "INDEX") = false := fun h hk hi => by
    simp [Token.isKeyword_eq_false h hk, Token.isKeyword_eq_false h hi]
  cases i with
  | primaryKey p =>
    rw [tableItem, Item.tokens, List.cons_append, run_ifTaken_pos p.primary.2]
    exact primaryKeyItem_tokens p _
  | key word name columns =>
    have hword : ∀ other : String, other ≠ "KEY" → other ≠ "INDEX" →
        word.1.isKeyword other = false := fun other hk hi => by
      rcases Bool.or_eq_true_iff.1 word.2 with h | h
      · exact Token.isKeyword_eq_false h hk.symm
      · exact Token.isKeyword_eq_false h hi.symm
    rw [tableItem, Item.tokens, List.cons_append, List.append_assoc,
      run_ifTaken_neg (hword _ (by decide) (by decide)), run_ifTaken_pos word.2]
    exact keyItem_tokens name columns _
  | unique u =>
    rw [tableItem, Item.tokens, List.cons_append,
      run_ifTaken_neg (Token.isKeyword_eq_false u.unique.2 (by decide)),
      run_ifTaken_neg (hother u.unique.2 (by decide) (by decide)), run_ifTaken_pos u.unique.2,
      uniqueItem_tokens]
    simp [Item.tableItem]
  | constraint word name clause =>
    rw [tableItem, Item.tokens, List.cons_append, List.append_assoc,
      run_ifTaken_neg (Token.isKeyword_eq_false word.2 (by decide)),
      run_ifTaken_neg (hother word.2 (by decide) (by decide)),
      run_ifTaken_neg (Token.isKeyword_eq_false word.2 (by decide)), run_ifTaken_pos word.2]
    exact constraintItem_tokens name clause hon
  | foreignKey f =>
    rw [tableItem, Item.tokens, List.cons_append,
      run_ifTaken_neg (Token.isKeyword_eq_false f.foreign.2 (by decide)),
      run_ifTaken_neg (hother f.foreign.2 (by decide) (by decide)),
      run_ifTaken_neg (Token.isKeyword_eq_false f.foreign.2 (by decide)),
      run_ifTaken_neg (Token.isKeyword_eq_false f.foreign.2 (by decide)),
      run_ifTaken_pos f.foreign.2]
    exact foreignKeyItem_tokens none f hon
  | column c =>
    have hk : c.name.1.kind ≠ .keyword := Token.kind_ne_of_isName c.name.2 rfl
    have hname : ∀ word : String, c.name.1.isKeyword word = false := Token.isKeyword_of_kind hk
    have hcons : c.tokens ++ t :: rest = c.name.1 :: (c.tokens.tail ++ t :: rest) := rfl
    rw [tableItem, Item.tokens, hcons, run_ifTaken_neg (hname _),
      run_ifTaken_neg (by simp [hname]), run_ifTaken_neg (hname _), run_ifTaken_neg (hname _),
      run_ifTaken_neg (hname _), ← hcons, run_bind (columnDefinition_tokens c ht rest)]
    rfl

/-- No item begins with a closing parenthesis. -/
theorem head_item (i : Item) (ts : List Token) :
    (i.tokens ++ ts).head?.any (·.kind == .rightParen) = false := by
  cases i with
  | primaryKey p => simp [Item.tokens, Token.kind_of_isKeyword p.primary.2]
  | key word _ _ =>
    rcases Bool.or_eq_true_iff.1 word.2 with h | h <;>
      simp [Item.tokens, Token.kind_of_isKeyword h]
  | unique u => simp [Item.tokens, Token.kind_of_isKeyword u.unique.2]
  | constraint word _ _ => simp [Item.tokens, Token.kind_of_isKeyword word.2]
  | foreignKey f => simp [Item.tokens, Token.kind_of_isKeyword f.foreign.2]
  | column c =>
    have hkind : c.name.1.kind ≠ .rightParen := Token.kind_ne_of_isName c.name.2 rfl
    simpa [Item.tokens, ColumnClause.tokens] using hkind

theorem tableBody_tokens (c : TableClause) (rest : List Token) :
    tableBody (c.opening.1 :: (c.itemTokens ++ c.closing.1 :: rest)) =
      .ok (c.items.map Item.tableItem, rest) := by
  have hitems := @run_commaSeparated _ _ (·.kind == .rightParen) _ Consumes.tableItem
    Item.tokens Item.tableItem (fun t => t.endsAttributes = true)
    (fun t ht => by simp [Token.endsAttributes, ht])
    (fun i t ts ht => ⟨head_item i _, tableItem_tokens i ht ts⟩)
    c.leading c.last (t := c.closing.1) rest (by simp [Token.endsAttributes, c.closing.2])
    (by simp [c.closing.2]) (fun _ => by simp [c.closing.2])
  rw [tableBody, run_bind (run_mark _ _), TableClause.itemTokens, List.append_assoc,
    run_bind hitems, run_bind (run_mark _ _)]
  rfl

end Parser

end SchemaArchive
