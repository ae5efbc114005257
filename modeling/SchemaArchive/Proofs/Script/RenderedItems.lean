import SchemaArchive.Proofs.Script.Reading
import SchemaArchive.Proofs.Script.Spelling

/-!
# Rendered columns and indexes

What is written for a column or an index is cut into the tokens of an item of the grammar, and
the item is read as the column or the index again.  The text of a type is written as it is, so it
has to be one that reads as a type.

* `spells_type` — types.
* `spells_column`, `spells_constraint` — the lines of a table body.
-/

namespace SchemaArchive

open Grammar Text

/-! ## Types -/

/-- The tokens of a type and its arguments. -/
def Grammar.typeTokens (p : { t : Token // t.isTypeName = true } × Option TypeArguments) :
    List Token :=
  p.1.1 :: (p.2.map TypeArguments.tokens).getD []

theorem isTypeName_of_wordKind {t : Token} {word : String} (h : t.kind = Opening.wordKind word) :
    t.isTypeName = true := by
  rw [Opening.wordKind] at h
  split at h <;> simp [Token.isTypeName, h]

theorem typeText_ofList (w : List Char) (args : List (List Char)) :
    typeText (String.ofList w) (args.map String.ofList) =
      String.ofList (w ++ '(' :: ([','].intercalate args ++ [')'])) := by
  apply String.toList_injective
  simp [typeText, String.toList_intercalate, Function.comp_def]

theorem spells_type {type : List Char} (h : IsSettledType type) {rest : List Char}
    (hrest : breaks rest = true) :
    Spells type rest typeTokens fun p => typeTextOf p.1.1 p.2 = String.ofList type := by
  cases h with
  | word hword =>
    refine (spells_word hword hrest).imp ?_
    rintro t ⟨hkind, hvalue⟩
    exact ⟨(⟨t, isTypeName_of_wordKind hkind⟩, none), rfl, hvalue⟩
  | @arguments w args hword hne hargs =>
    have hopening := spells_mark opening?_leftParen ([','].intercalate args ++ ([')'] ++ rest))
    have hclosing := spells_mark opening?_rightParen rest
    have htext : w ++ '(' :: ([','].intercalate args ++ [')']) =
        w ++ (['('] ++ ([','].intercalate args ++ [')'])) := rfl
    rw [htext]
    have hboth := (spells_arguments hne hargs rest).append hclosing
    have hgroup := Spells.append (by rwa [List.append_assoc]) hboth
    refine ((spells_word hword (by rfl)).append hgroup).imp ?_
    rintro ⟨t, opening, ⟨leading, last⟩, closing⟩ ⟨⟨hkind, hvalue⟩, -, htexts, -⟩
    refine ⟨(⟨t, isTypeName_of_wordKind hkind⟩, some ⟨opening, leading, last, closing⟩), ?_, ?_⟩
    · simp [typeTokens, TypeArguments.tokens]
    · show typeTextOf t _ = _
      rw [typeTextOf_some, hvalue, TypeArguments.texts_eq, htexts, typeText_ofList]
      rfl

/-! ## Columns -/

theorem breaks_append (text : List Char) {rest : List Char} (h : breaks text = true)
    (hrest : breaks rest = true) : breaks (text ++ rest) = true := by
  cases text with
  | nil => exact hrest
  | cons c text => exact h

/-- What is written behind the type of a column, as reading takes it. -/
def Column.attributes (c : Column) : List ColumnAttribute :=
  (if c.unsigned then [.unsigned] else []) ++ (if c.nullable then [] else [.notNull]) ++
    (c.defaultValue.map .defaultValue).toList ++
    (if c.autoIncrement then [.autoIncrement] else [])

theorem foldl_attributes (c : Column) :
    c.attributes.foldl ColumnAttribute.apply { name := c.name, type := c.type } = c := by
  obtain ⟨name, type, unsigned, nullable, defaultValue, autoIncrement⟩ := c
  cases unsigned <;> cases nullable <;> cases defaultValue <;> cases autoIncrement <;> rfl

/-- The text is cut into attributes with these effects. -/
def SpellsAttributes (text rest : List Char) (effects : List ColumnAttribute) : Prop :=
  Spells text rest (fun as : List Attribute => as.flatMap Attribute.tokens)
    fun as => as.map Attribute.effect = effects

theorem spellsAttributes_nil (rest : List Char) : SpellsAttributes [] rest [] :=
  fun offset => ⟨[], offset, rfl, rfl⟩

theorem SpellsAttributes.append {text more rest : List Char} {es es' : List ColumnAttribute}
    (h : SpellsAttributes text (more ++ rest) es) (h' : SpellsAttributes more rest es') :
    SpellsAttributes (text ++ more) rest (es ++ es') := by
  refine (Spells.append h h').imp ?_
  rintro ⟨as, as'⟩ ⟨has, has'⟩
  exact ⟨as ++ as', by simp, by simp [has, has']⟩

theorem spells_defaultText (value : String) {rest : List Char} (hrest : breaks rest = true) :
    Spells (Render.defaultText value) rest
      (fun t : { t : Token // t.isDefaultValue = true } => [t.1]) fun t => t.1.value = value := by
  rw [Render.defaultText]
  by_cases hnull : value = "NULL"
  · subst hnull
    refine (spells_reserved "NULL" (by decide) (by decide) hrest).imp ?_
    rintro ⟨t, ht⟩ -
    refine ⟨⟨t, by simp [Token.isDefaultValue, ht]⟩, rfl, ?_⟩
    simp only [Token.isKeyword, Bool.and_eq_true, beq_iff_eq] at ht
    exact ht.2
  · by_cases hnumber : Render.isNumberText value.toList = true
    · rw [if_pos (by simp [hnumber])]
      refine (spells_number hnumber hrest).imp ?_
      rintro t ⟨hkind, hvalue⟩
      exact ⟨⟨t, by simp [Token.isDefaultValue, hkind]⟩, rfl, by simpa using hvalue⟩
    · rw [if_neg (by simp [hnull, hnumber])]
      refine (spells_literal value.toList rest).imp ?_
      rintro t ⟨hkind, hvalue⟩
      exact ⟨⟨t, by simp [Token.isDefaultValue, hkind]⟩, rfl, by simpa using hvalue⟩

theorem spells_unsigned (unsigned : Bool) {rest : List Char} (hrest : breaks rest = true) :
    SpellsAttributes (if unsigned then Render.words " UNSIGNED" else []) rest
      (if unsigned then [.unsigned] else []) := by
  cases unsigned with
  | false => exact spellsAttributes_nil rest
  | true =>
    refine ((spells_reserved "UNSIGNED" (by decide) (by decide) hrest).blank).imp ?_
    exact fun t _ => ⟨[.unsigned t], rfl, rfl⟩

theorem spells_autoIncrement (autoIncrement : Bool) {rest : List Char}
    (hrest : breaks rest = true) :
    SpellsAttributes (if autoIncrement then Render.words " AUTO_INCREMENT" else []) rest
      (if autoIncrement then [.autoIncrement] else []) := by
  cases autoIncrement with
  | false => exact spellsAttributes_nil rest
  | true =>
    refine ((spells_reserved "AUTO_INCREMENT" (by decide) (by decide) hrest).blank).imp ?_
    exact fun t _ => ⟨[.autoIncrement t], rfl, rfl⟩

theorem spells_notNull (nullable : Bool) {rest : List Char} (hrest : breaks rest = true) :
    SpellsAttributes (if nullable then [] else Render.words " NOT NULL") rest
      (if nullable then [] else [.notNull]) := by
  cases nullable with
  | true => exact spellsAttributes_nil rest
  | false =>
    refine ((spells_reserved "NULL" (by decide) (by decide) hrest).word "NOT" (by decide)
      (by decide)).blank.imp ?_
    exact fun t _ => ⟨[.notNull t.1 t.2], rfl, rfl⟩

theorem spells_default (defaultValue : Option String) {rest : List Char}
    (hrest : breaks rest = true) :
    SpellsAttributes
      (match defaultValue with
        | some value => Render.words " DEFAULT " ++ Render.defaultText value
        | none => []) rest
      (defaultValue.map .defaultValue).toList := by
  cases defaultValue with
  | none => exact spellsAttributes_nil rest
  | some value =>
    refine ((spells_defaultText value hrest).word "DEFAULT" (by decide) (by decide)).blank.imp ?_
    rintro ⟨word, t⟩ ht
    exact ⟨[.defaultValue word t], rfl, by simpa [Attribute.effect] using ht⟩

/-- The text behind the type of a column. -/
def Render.attributes (c : Column) : List Char :=
  (if c.unsigned then words " UNSIGNED" else [])
    ++ (if c.nullable then [] else words " NOT NULL")
    ++ (match c.defaultValue with
        | some value => words " DEFAULT " ++ defaultText value
        | none => [])
    ++ (if c.autoIncrement then words " AUTO_INCREMENT" else [])

theorem spells_attributes (c : Column) {rest : List Char} (hrest : breaks rest = true) :
    SpellsAttributes (Render.attributes c) rest c.attributes := by
  have hauto := spells_autoIncrement c.autoIncrement hrest
  have hbreaks : breaks ((if c.autoIncrement then Render.words " AUTO_INCREMENT" else []) ++ rest)
      = true := by
    refine breaks_append _ ?_ hrest
    cases c.autoIncrement <;> rfl
  have hdefault := spells_default c.defaultValue hbreaks
  have hbreaks' := breaks_append (match c.defaultValue with
    | some value => Render.words " DEFAULT " ++ Render.defaultText value
    | none => []) (by cases c.defaultValue <;> rfl) hbreaks
  have hnull := spells_notNull c.nullable hbreaks'
  have hbreaks'' := breaks_append (if c.nullable then [] else Render.words " NOT NULL")
    (by cases c.nullable <;> rfl) hbreaks'
  have hunsigned := spells_unsigned c.unsigned hbreaks''
  exact ((hunsigned.append hnull).append hdefault).append hauto

theorem breaks_attributes (c : Column) {rest : List Char} (hrest : breaks rest = true) :
    breaks (Render.attributes c ++ rest) = true := by
  refine breaks_append _ ?_ hrest
  obtain ⟨name, type, unsigned, nullable, defaultValue, autoIncrement⟩ := c
  cases unsigned <;> cases nullable <;> cases defaultValue <;> cases autoIncrement <;> rfl

/-- No group in parentheses is written behind a type. -/
theorem no_group_of_effect {as : List Attribute} {c : Column}
    (h : as.map Attribute.effect = c.attributes) : as.head?.any Attribute.isGroup = false := by
  have hignored : .ignored ∉ c.attributes := by
    obtain ⟨name, type, unsigned, nullable, defaultValue, autoIncrement⟩ := c
    cases unsigned <;> cases nullable <;> cases defaultValue <;> cases autoIncrement <;>
      simp [Column.attributes]
  cases as with
  | nil => rfl
  | cons a as =>
    cases a with
    | group g =>
      rw [← h] at hignored
      simp [Attribute.effect] at hignored
    | _ => rfl

theorem spells_column {c : Column} (h : IsSettledType c.type.toList) {rest : List Char}
    (hrest : breaks rest = true) :
    Spells (Render.column c) rest Item.tokens fun i => i.tableItem = .column c := by
  have htext : Render.column c =
      Render.name c.name ++ (' ' :: (c.type.toList ++ Render.attributes c)) := by
    simp only [Render.column, Render.attributes, List.append_assoc]
    rfl
  have htype := (spells_type h (breaks_attributes c hrest)).append (spells_attributes c hrest)
  rw [htext]
  refine ((spells_name c.name _).append htype.blank).imp ?_
  rintro ⟨name, ⟨type, arguments⟩, as⟩ ⟨hname, htype, has⟩
  let clause : ColumnClause := ⟨name, type, arguments, as, fun _ => no_group_of_effect has⟩
  have htypeText : clause.typeText = c.type := by
    rw [String.ofList_toList] at htype
    exact htype
  refine ⟨.column clause, by simp [clause, Item.tokens, ColumnClause.tokens, typeTokens], ?_⟩
  rw [Item.tableItem, column_eq_foldl, htypeText]
  show TableItem.column ((as.map Attribute.effect).foldl _ ⟨name.1.value, _, _, _, _, _⟩) = _
  rw [has, hname, foldl_attributes]

/-! ## Indexes -/

/-- A name with a blank behind it, if there is one. -/
theorem spells_optionalName (indexName : Option String) (rest : List Char) :
    Spells
      (match indexName with
        | some n => Render.name n ++ Render.words " "
        | none => []) rest
      (fun n : Option Name => maybe n) fun n => n.map (·.1.value) = indexName := by
  cases indexName with
  | none => exact fun offset => ⟨none, offset, rfl, rfl⟩
  | some s =>
    refine ((spells_name s (' ' :: rest)).gap_end (by decide)).imp ?_
    exact fun n hn => ⟨some n, rfl, by simp [hn]⟩

/-- The line of an index or a primary key. -/
theorem spells_constraint {k : Constraint} {line : List Char}
    (h : Render.constraint? k = some line) (rest : List Char) :
    Spells line rest Item.tokens fun i => i.tableItem = .constraint k := by
  cases k with
  | primaryKey columns =>
    obtain rfl := Option.some.inj h
    have hkey := (spells_columnList columns rest).word "KEY" (by decide) (by decide)
    refine (hkey.word "PRIMARY" (by decide) (by decide)).imp ?_
    rintro ⟨primary, key, list⟩ hlist
    exact ⟨.primaryKey ⟨primary, key, list⟩, rfl, by rw [← hlist]; rfl⟩
  | unique name columns =>
    obtain rfl := Option.some.inj h
    have hname := (spells_optionalName name _).append (spells_columnList columns rest)
    have hkey := hname.word "KEY" (by decide) (by decide)
    have htext : Render.index "UNIQUE KEY" name columns = _ := List.append_assoc _ _ _
    rw [htext]
    refine (hkey.word "UNIQUE" (by decide) (by decide)).imp ?_
    rintro ⟨unique, key, n, list⟩ ⟨hn, hlist⟩
    refine ⟨.unique ⟨unique, some ⟨key.1, by simp [key.2]⟩, n, list⟩, rfl, ?_⟩
    rw [← hn, ← hlist]
    rfl
  | key name columns =>
    obtain rfl := Option.some.inj h
    have hname := (spells_optionalName name _).append (spells_columnList columns rest)
    have htext : Render.index "KEY" name columns = _ := List.append_assoc _ _ _
    rw [htext]
    refine (hname.word "KEY" (by decide) (by decide)).imp ?_
    rintro ⟨key, n, list⟩ ⟨hn, hlist⟩
    refine ⟨.key ⟨key.1, by simp [key.2]⟩ n list, rfl, ?_⟩
    rw [← hn, ← hlist]
    rfl
  | foreignKey name columns target => cases h

end SchemaArchive
