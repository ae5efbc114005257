import SchemaArchive.Proofs.Script.Taken

/-!
# Where the names of a schema come from

A script need not be well formed to be read: commas may be missing, and whatever is not understood
is passed over.  But nothing is made up, and nothing changes places.  The names of tables, of their
columns and of what constraints refer to stand in the script in the order in which they stand in
the schema, and defaults and names of constraints stand there as well, except for the names that
foreign keys get for want of one.

* `writtenNames` — the names in a script; `Constraint.mentioned` — those in a constraint.
* `TableItem.TakenFrom`, `Table.TakenFrom`, `Statement.TakenFrom` — an item, a table and a
  statement with nothing made up.
* `Parser.Takes.tableItem_takenFrom`, `ReadTable.takenFrom`, `Parser.exists_pieces` — what is
  read is of this sort, step by step.
* `readTokens_takenFrom` — the same for schemas.
-/

namespace SchemaArchive

open Grammar List

/-! ## Names in order -/

/-- The values of all tokens that can name something, in order. -/
def writtenNames (ts : List Token) : List String :=
  (ts.filter Token.isName).map (·.value)

theorem writtenNames_append (ts us : List Token) :
    writtenNames (ts ++ us) = writtenNames ts ++ writtenNames us := by
  simp [writtenNames]

theorem writtenNames_mono {us ts : List Token} (h : us <+ ts) :
    writtenNames us <+ writtenNames ts :=
  (h.filter _).map _

/-- A name stands in its own token. -/
theorem name_sublist (t : Name) : [t.1.value] <+ writtenNames [t.1] := by
  simp [writtenNames, t.2]

/-- Names that stand in two pieces stand in the pieces together. -/
theorem sublist_writtenNames_append {names more : List String} {ts us : List Token}
    (h : names <+ writtenNames ts) (hmore : more <+ writtenNames us) :
    names ++ more <+ writtenNames (ts ++ us) := by
  rw [writtenNames_append]
  exact h.append hmore

/-- Tokens in front and behind take no names away. -/
theorem sublist_writtenNames_mono {names : List String} {us ts : List Token}
    (h : names <+ writtenNames us) (hts : us <:+: ts) : names <+ writtenNames ts :=
  h.trans (writtenNames_mono hts.sublist)

/-- The names that stand in the pieces of a list stand in the whole of it. -/
theorem flatMap_sublist_writtenNames {ι : Type} {names : ι → List String} {tokens : ι → List Token}
    {pieces : List ι} (h : ∀ i ∈ pieces, names i <+ writtenNames (tokens i)) :
    pieces.flatMap names <+ writtenNames (pieces.flatMap tokens) := by
  induction pieces with
  | nil => exact Sublist.slnil
  | cons i pieces ih =>
    rw [List.forall_mem_cons] at h
    rw [List.flatMap_cons, List.flatMap_cons]
    exact sublist_writtenNames_append h.1 (ih h.2)

/-! ## Nothing made up -/

/-- The names in a constraint: its columns, and for a foreign key what it refers to. -/
def Constraint.mentioned : Constraint → List String
  | primaryKey columns | unique _ columns | key _ columns => columns
  | foreignKey _ columns target => columns ++ target.table :: target.columns

/-- The text stands in the tokens as a default, right behind the word `DEFAULT`. -/
def DefaultIn (ts : List Token) (text : String) : Prop :=
  ∃ word value : Token, [word, value] <:+: ts ∧ word.isKeyword "DEFAULT" = true ∧
    (value.kind = .quotedString ∨ value.kind = .number ∨ value.kind = .identifier ∨
      value.isKeyword "NULL" = true) ∧ value.value = text

/-- The names in a constraint stand in the tokens in order, and its own name stands there too. -/
def Constraint.TakenFrom (ts : List Token) (k : Constraint) : Prop :=
  k.mentioned <+ writtenNames ts ∧ ∀ name, k.name? = some name → name ∈ writtenNames ts

/-- The name and the default of a column stand in the tokens. -/
def Column.TakenFrom (ts : List Token) (c : Column) : Prop :=
  [c.name] <+ writtenNames ts ∧ ∀ text, c.defaultValue = some text → DefaultIn ts text

/-- What an item says stands in the tokens.  The name of a foreign key may be left out. -/
def TableItem.TakenFrom (ts : List Token) : TableItem → Prop
  | column c => c.TakenFrom ts
  | constraint k => k.TakenFrom ts
  | foreignKey name columns target =>
    columns ++ target.table :: target.columns <+ writtenNames ts ∧
      ∀ n, name = some n → n ∈ writtenNames ts

section Mono

variable {us ts : List Token} (h : us <:+: ts)
include h

theorem DefaultIn.mono {text : String} (hin : DefaultIn us text) : DefaultIn ts text := by
  obtain ⟨word, value, hpart, hvalue⟩ := hin
  exact ⟨word, value, hpart.trans h, hvalue⟩

theorem mem_writtenNames_mono {name : String} (hname : name ∈ writtenNames us) :
    name ∈ writtenNames ts :=
  (writtenNames_mono h.sublist).mem hname

theorem Constraint.TakenFrom.mono {k : Constraint} (hk : k.TakenFrom us) : k.TakenFrom ts :=
  ⟨sublist_writtenNames_mono hk.1 h, fun n hn => mem_writtenNames_mono h (hk.2 n hn)⟩

theorem TableItem.TakenFrom.mono {item : TableItem} (hitem : item.TakenFrom us) :
    item.TakenFrom ts := by
  cases item with
  | column c =>
    exact ⟨sublist_writtenNames_mono hitem.1 h, fun text htext => (hitem.2 text htext).mono h⟩
  | constraint k => exact Constraint.TakenFrom.mono h hitem
  | foreignKey name columns target =>
    exact ⟨sublist_writtenNames_mono hitem.1 h, fun n hn => mem_writtenNames_mono h (hitem.2 n hn)⟩

end Mono

namespace Parser

/-! ## Column lists -/

theorem Takes.columnListEntry (t : Token) : (columnListEntry t).Takes fun more entry =>
    entry.toList <+ writtenNames (t :: more) := by
  unfold Parser.columnListEntry
  split
  · refine ((Takes.of_leavesSuffix (LeavesSuffix.passOver (dropGroup_suffix 1))).bind fun _ =>
      Takes.pure (none : Option String)).imp ?_
    rintro _ entry ⟨_, _, _, rfl, -, rfl, rfl⟩
    exact List.nil_sublist _
  · refine (Takes.pure _).imp ?_
    rintro _ entry ⟨rfl, rfl⟩
    split
    · next hname => exact name_sublist ⟨t, hname⟩
    · exact List.nil_sublist _

/-- The columns of a list stand in its tokens. -/
theorem Takes.columnList : columnList.Takes fun taken columns =>
    columns <+ writtenNames taken := by
  refine ((Takes.mark _).bind fun _ => (Takes.manyUntil Takes.columnListEntry).bind fun entries =>
    (Takes.mark _).bind fun _ => Takes.pure (entries.filterMap id)).imp ?_
  rintro _ columns ⟨opening, _, _, rfl, -, inside, _, _, rfl, ⟨pieces, rfl, rfl, hpieces⟩,
    closing, _, _, rfl, -, rfl, rfl⟩
  have hentries : pieces.flatMap (·.2.toList) <+ writtenNames (pieces.flatMap Prod.fst) := by
    refine flatMap_sublist_writtenNames fun i hi => ?_
    obtain ⟨t, more, htokens, hentry⟩ := hpieces i hi
    rwa [htokens]
  have hcolumns : (pieces.map Prod.snd).filterMap id = pieces.flatMap (·.2.toList) := by
    rw [List.filterMap_map, List.filterMap_eq_flatMap_toList]
    rfl
  rw [hcolumns]
  exact sublist_writtenNames_mono hentries ⟨opening, closing, by simp⟩

/-! ## Constraints -/

theorem Takes.foreignKeyBody : foreignKeyBody.Takes fun taken key =>
    key.1 ++ key.2.table :: key.2.columns <+ writtenNames taken := by
  refine ((Takes.keyword _).bind fun _ => Takes.columnList.bind fun columns =>
    (Takes.keyword _).bind fun _ => (Takes.name _).bind fun table =>
    Takes.columnList.bind fun targetColumns =>
    (Takes.of_leavesSuffix (LeavesSuffix.passOver dropActions_suffix)).bind fun _ =>
      Takes.pure (columns, (⟨table, targetColumns⟩ : Reference))).imp ?_
  rintro _ key ⟨key, _, _, rfl, -, own, columns, _, rfl, hcolumns, references, _, _, rfl, -,
    _, _, _, rfl, ⟨name, rfl, rfl⟩, target, targetColumns, _, rfl, htarget, actions, _, _, rfl, -,
    rfl, rfl⟩
  have hnames : columns ++ ([name.1.value] ++ targetColumns) <+
      writtenNames ((own ++ references) ++ ([name.1] ++ target)) :=
    sublist_writtenNames_append (sublist_writtenNames_mono hcolumns ⟨[], references, by simp⟩)
      (sublist_writtenNames_append (name_sublist name) htarget)
  exact sublist_writtenNames_mono hnames ⟨key, actions, by simp⟩

/-- The tokens hold the name of a constraint, if it has one. -/
theorem Takes.optionalName_mem : Parser.optionalName.Takes fun taken name =>
    ∀ n, name = some n → n ∈ writtenNames taken := by
  refine Takes.optionalName.imp ?_
  rintro _ _ ⟨name, rfl, rfl⟩ n hn
  obtain ⟨t, rfl, rfl⟩ := Option.map_eq_some_iff.1 hn
  exact List.singleton_sublist.1 (name_sublist t)

theorem Takes.primaryKeyItem_takenFrom :
    primaryKeyItem.Takes fun taken item => item.TakenFrom taken := by
  refine ((Takes.keyword _).bind fun _ => Takes.columnList.bind fun columns =>
    Takes.pure (TableItem.constraint (.primaryKey columns))).imp ?_
  rintro _ item ⟨key, _, _, rfl, -, list, columns, _, rfl, hcolumns, rfl, rfl⟩
  exact ⟨sublist_writtenNames_mono hcolumns ⟨key, [], by simp⟩, nofun⟩

theorem Takes.keyItem_takenFrom : keyItem.Takes fun taken item => item.TakenFrom taken := by
  refine (Takes.optionalName_mem.bind fun name => Takes.columnList.bind fun columns =>
    Takes.pure (TableItem.constraint (.key name columns))).imp ?_
  rintro _ item ⟨named, name, _, rfl, hname, list, columns, _, rfl, hcolumns, rfl, rfl⟩
  exact ⟨sublist_writtenNames_mono hcolumns ⟨named, [], by simp⟩,
    fun n hn => mem_writtenNames_mono ⟨[], list ++ [], by simp⟩ (hname n hn)⟩

section Named

variable (name : Option String)

/-- The name of a unique index stands in its own tokens or in those before it. -/
theorem Takes.uniqueItem_takenFrom : (uniqueItem name).Takes fun taken item =>
    ∀ before, (∀ n, name = some n → n ∈ writtenNames before) →
      item.TakenFrom (before ++ taken) := by
  refine ((Takes.of_leavesSuffix (LeavesSuffix.ifTaken (LeavesSuffix.pure _)
    (LeavesSuffix.pure _))).bind fun _ => Takes.optionalName_mem.bind fun own =>
    Takes.columnList.bind fun columns =>
      Takes.pure (TableItem.constraint (.unique (own <|> name) columns))).imp ?_
  rintro _ item ⟨word, _, _, rfl, -, named, own, _, rfl, hown, list, columns, _, rfl, hcolumns,
    rfl, rfl⟩ before hname
  refine ⟨sublist_writtenNames_mono hcolumns ⟨before ++ (word ++ named), [], by simp⟩,
    fun n hn => ?_⟩
  cases own with
  | some m => exact mem_writtenNames_mono ⟨before ++ word, list, by simp⟩ (hown n hn)
  | none => exact mem_writtenNames_mono ⟨[], word ++ (named ++ list), by simp⟩ (hname n hn)

theorem Takes.foreignKeyItem_takenFrom : (foreignKeyItem name).Takes fun taken item =>
    ∀ before, (∀ n, name = some n → n ∈ writtenNames before) →
      item.TakenFrom (before ++ taken) := by
  refine (Takes.foreignKeyBody.bind fun key =>
    Takes.pure (TableItem.foreignKey name key.1 key.2)).imp ?_
  rintro _ item ⟨body, key, _, rfl, hkey, rfl, rfl⟩ before hname
  exact ⟨sublist_writtenNames_mono hkey ⟨before, [], by simp⟩,
    fun n hn => mem_writtenNames_mono ⟨[], body, by simp⟩ (hname n hn)⟩

end Named

theorem Takes.constraintItem_takenFrom :
    constraintItem.Takes fun taken item => item.TakenFrom taken := by
  refine (Takes.optionalName_mem.bind fun name => Takes.primaryKeyItem_takenFrom.ifTaken <|
    (Takes.uniqueItem_takenFrom name).ifTaken <| (Takes.foreignKeyItem_takenFrom name).ifTaken <|
      Takes.fail _).imp ?_
  rintro _ item ⟨named, name, _, rfl, hname, hclause⟩
  have hbehind : ∀ n t, name = some n → n ∈ writtenNames (named ++ [t]) :=
    fun n t hn => mem_writtenNames_mono ⟨[], [t], by simp⟩ (hname n hn)
  rcases hclause with ⟨t, more, rfl, -, hitem⟩ | ⟨t, more, rfl, -, hitem⟩ |
    ⟨t, more, rfl, -, hitem⟩ | hnone
  · exact hitem.mono ⟨named ++ [t], [], by simp⟩
  · simpa using hitem (named ++ [t]) fun n => hbehind n t
  · simpa using hitem (named ++ [t]) fun n => hbehind n t
  · exact hnone.elim

/-! ## Columns -/

/-- A default stands in the tokens of its attribute. -/
theorem Takes.columnAttribute (t : Token) : (columnAttribute t).Takes fun more a =>
    ∀ text, a = .defaultValue text → DefaultIn (t :: more) text := by
  have hother : ∀ {p : Parser ColumnAttribute}, p.LeavesSuffix →
      Yields (fun a => ∀ text, a ≠ .defaultValue text) p →
        p.Takes fun more a => ∀ text, a = .defaultValue text → DefaultIn (t :: more) text :=
    fun hp ha => (Takes.of_yields hp ha).imp fun _ a hne text heq => absurd heq (hne text)
  unfold Parser.columnAttribute
  split
  · exact hother ((LeavesSuffix.passOver (dropGroup_suffix 1)).bind fun _ => LeavesSuffix.pure _)
      (.bind fun _ => .pure nofun)
  split
  · exact hother (LeavesSuffix.pure _) (.pure nofun)
  split
  · exact hother (LeavesSuffix.pure _) (.pure nofun)
  split
  · exact hother ((Consumes.keyword _).leavesSuffix.bind fun _ => LeavesSuffix.pure _)
      (.bind fun _ => .pure nofun)
  split
  · exact hother (LeavesSuffix.pure _) (.pure nofun)
  split
  · next hword =>
    refine ((Takes.accept _ _).bind fun value =>
      Takes.pure (ColumnAttribute.defaultValue value.value)).imp ?_
    rintro _ a ⟨_, value, _, rfl, ⟨rfl, hvalue⟩, rfl, rfl⟩ text htext
    have hkind : value.kind = .quotedString ∨ value.kind = .number ∨ value.kind = .identifier ∨
        value.isKeyword "NULL" = true := by
      simpa [Token.isDefaultValue, or_assoc] using hvalue
    exact ⟨t, value, ⟨[], [], rfl⟩, hword, hkind, ColumnAttribute.defaultValue.inj htext⟩
  · exact hother (LeavesSuffix.pure _) (.pure nofun)

/-- A column whose attributes say nothing about a default keeps the one that it has. -/
theorem defaultValue_foldl_apply {attributes : List ColumnAttribute} {c : Column} {text : String}
    (h : (attributes.foldl ColumnAttribute.apply c).defaultValue = some text) :
    c.defaultValue = some text ∨ .defaultValue text ∈ attributes := by
  induction attributes generalizing c with
  | nil => exact .inl h
  | cons a attributes ih =>
    rcases ih h with happly | hmem
    · cases a with
      | defaultValue value =>
        obtain rfl : value = text := Option.some.inj happly
        exact .inr List.mem_cons_self
      | _ => exact .inl happly
    · exact .inr (List.mem_cons_of_mem a hmem)

theorem Takes.columnDefinition_takenFrom :
    Parser.columnDefinition.Takes fun taken c => c.TakenFrom taken := by
  refine ((Takes.name _).bind fun name =>
    (Takes.of_leavesSuffix Consumes.columnType.leavesSuffix).bind fun type =>
    (Takes.manyUntil Takes.columnAttribute).bind fun attributes =>
      Takes.pure (attributes.foldl ColumnAttribute.apply { name, type })).imp ?_
  rintro _ c ⟨_, _, _, rfl, ⟨name, rfl, rfl⟩, written, type, _, rfl, -, _, _, _, rfl,
    ⟨pieces, rfl, rfl, hpieces⟩, rfl, rfl⟩
  constructor
  · rw [(foldl_apply_name_type _ _).1]
    exact sublist_writtenNames_mono (name_sublist name) ⟨[], _, rfl⟩
  · intro text htext
    have hmem : .defaultValue text ∈ pieces.map Prod.snd :=
      (defaultValue_foldl_apply htext).resolve_left nofun
    obtain ⟨i, hi, hvalue⟩ := List.mem_map.1 hmem
    obtain ⟨t, more, htokens, hdefault⟩ := hpieces i hi
    have hin : DefaultIn i.1 text := htokens ▸ hdefault text hvalue
    have hpart : i.1 <:+: pieces.flatMap Prod.fst :=
      List.infix_of_mem_flatten (List.mem_map_of_mem hi)
    exact hin.mono (hpart.trans ⟨name.1 :: written, [], by simp⟩)

/-! ## Items -/

theorem Takes.tableItem_takenFrom :
    Parser.tableItem.Takes fun taken item => item.TakenFrom taken := by
  refine (Takes.primaryKeyItem_takenFrom.ifTaken <| Takes.keyItem_takenFrom.ifTaken <|
    (Takes.uniqueItem_takenFrom none).ifTaken <| Takes.constraintItem_takenFrom.ifTaken <|
    (Takes.foreignKeyItem_takenFrom none).ifTaken <|
    Takes.columnDefinition_takenFrom.bind fun c => Takes.pure (TableItem.column c)).imp ?_
  rintro taken item (⟨t, more, rfl, -, hitem⟩ | ⟨t, more, rfl, -, hitem⟩ |
    ⟨t, more, rfl, -, hitem⟩ | ⟨t, more, rfl, -, hitem⟩ | ⟨t, more, rfl, -, hitem⟩ |
    ⟨_, c, _, rfl, hc, rfl, rfl⟩)
  · exact hitem.mono ⟨[t], [], by simp⟩
  · exact hitem.mono ⟨[t], [], by simp⟩
  · exact hitem [t] nofun
  · exact hitem.mono ⟨[t], [], by simp⟩
  · exact hitem [t] nofun
  · rwa [List.append_nil]

end Parser

/-! ## Tables -/

theorem ReadItem.takenFrom (i : ReadItem) : i.item.TakenFrom i.tokens := by
  obtain ⟨rest, hread⟩ := i.read
  exact Parser.Takes.tableItem_takenFrom.of_append hread

/-- The name that an item gives to a column, if it is one. -/
def TableItem.columnName? : TableItem → Option String
  | column c => some c.name
  | _ => none

theorem columnNames_foldl_add (items : List TableItem) (t : Table) :
    (items.foldl Table.add t).columns.map (·.name) =
      t.columns.map (·.name) ++ items.filterMap TableItem.columnName? := by
  induction items generalizing t with
  | nil => simp
  | cons item items ih =>
    rw [List.foldl_cons, ih]
    cases item with
    | column c => simp [Table.add, TableItem.columnName?]
    | _ => rfl

/-- A constraint of a table that is built from items is one of them, or a foreign key among them
that has got a name if it had none. -/
theorem mem_constraints_foldl_add {items : List TableItem} {t : Table} {k : Constraint}
    (hk : k ∈ (items.foldl Table.add t).constraints) :
    k ∈ t.constraints ∨ .constraint k ∈ items ∨
      ∃ name columns target, .foreignKey name columns target ∈ items ∧ ∃ number, 1 ≤ number ∧
        k = .foreignKey (name.getD (Table.generatedName t.name number)) columns target := by
  induction items generalizing t with
  | nil => exact .inl hk
  | cons item items ih =>
    have hname : (t.add item).name = t.name := by cases item <;> rfl
    rcases ih hk with hk | hk | ⟨name, columns, target, hmem, number, hnumber, rfl⟩
    · cases item with
      | column c => exact .inl hk
      | constraint k' =>
        rcases List.mem_append.1 hk with hk | hk
        · exact .inl hk
        · exact .inr (.inl (List.mem_singleton.1 hk ▸ List.mem_cons_self))
      | foreignKey name columns target =>
        rcases List.mem_append.1 hk with hk | hk
        · exact .inl hk
        · exact .inr (.inr ⟨name, columns, target, List.mem_cons_self, t.foreignKeys.length + 1,
            Nat.le_add_left 1 _, List.mem_singleton.1 hk⟩)
    · exact .inr (.inl (List.mem_cons_of_mem item hk))
    · rw [hname]
      exact .inr (.inr ⟨name, columns, target, List.mem_cons_of_mem item hmem, number, hnumber,
        rfl⟩)

/-- The constraint has its names from the tokens, except that the name of a foreign key may be
made from the table's. -/
def Constraint.OfTable (table : String) (ts : List Token) (k : Constraint) : Prop :=
  k.mentioned <+ writtenNames ts ∧ ∀ name, k.name? = some name →
    name ∈ writtenNames ts ∨ ∃ number, 1 ≤ number ∧ name = Table.generatedName table number

theorem Constraint.OfTable.mono {us ts : List Token} (h : us <:+: ts) {table : String}
    {k : Constraint} (hk : k.OfTable table us) : k.OfTable table ts :=
  ⟨sublist_writtenNames_mono hk.1 h, fun n hn => (hk.2 n hn).imp (mem_writtenNames_mono h) id⟩

/-- What a table says stands in the tokens, its name and those of its columns in order. -/
structure Table.TakenFrom (ts : List Token) (t : Table) : Prop where
  names : t.name :: t.columns.map (·.name) <+ writtenNames ts
  defaults : ∀ c ∈ t.columns, ∀ text, c.defaultValue = some text → DefaultIn ts text
  constraints : ∀ k ∈ t.constraints, k.OfTable t.name ts

theorem Table.TakenFrom.mono {us ts : List Token} (h : us <:+: ts) {t : Table}
    (ht : t.TakenFrom us) : t.TakenFrom ts where
  names := sublist_writtenNames_mono ht.names h
  defaults c hc text htext := (ht.defaults c hc text htext).mono h
  constraints k hk := (ht.constraints k hk).mono h

theorem TableItem.TakenFrom.columnName?_sublist {ts : List Token} {item : TableItem}
    (h : item.TakenFrom ts) : item.columnName?.toList <+ writtenNames ts := by
  cases item with
  | column c => exact h.1
  | _ => exact List.nil_sublist _

/-- Without the commas, the members of a list stand in it one after another. -/
theorem flatMap_sublist_commaTokens {ι : Type} (tokens : ι → List Token)
    (leading : List (ι × Mark .comma)) :
    (leading.map Prod.fst).flatMap tokens <+ commaTokens tokens leading := by
  induction leading with
  | nil => exact Sublist.slnil
  | cons m leading ih =>
    rw [commaTokens, List.map_cons, List.flatMap_cons, List.flatMap_cons, List.append_assoc]
    exact (Sublist.refl _).append (ih.cons _)

namespace ReadBody

theorem flatMap_tokens_sublist (b : ReadBody) :
    b.items.flatMap ReadItem.tokens <+ b.tokens := by
  have hlast : b.last.toList.flatMap ReadItem.tokens =
      (b.last.map ReadItem.tokens).getD [] := by
    cases b.last <;> simp
  rw [items, List.flatMap_append, hlast, tokens, ← List.append_assoc]
  exact (((flatMap_sublist_commaTokens _ _).append (Sublist.refl _)).trans
    (List.sublist_append_left _ _)).cons _

theorem tokens_isInfix {b : ReadBody} {i : ReadItem} (hi : i ∈ b.items) :
    i.tokens <:+: b.tokens := by
  obtain ⟨before, u, after, -, heq⟩ := exists_opener ReadItem.tokens hi (.inl b.opening.2)
  refine ⟨before ++ [u], after ++ [b.closing.1], ?_⟩
  have happend := congrArg (· ++ [b.closing.1]) heq
  simpa [tokens] using happend.symm

theorem takenFrom {b : ReadBody} {item : TableItem} (h : item ∈ b.items.map ReadItem.item) :
    item.TakenFrom b.tokens := by
  obtain ⟨i, hi, rfl⟩ := List.mem_map.1 h
  exact i.takenFrom.mono (tokens_isInfix hi)

/-- The columns of a body are named in it, in order. -/
theorem columnNames_sublist (b : ReadBody) :
    (b.items.map ReadItem.item).filterMap TableItem.columnName? <+ writtenNames b.tokens := by
  rw [List.filterMap_map, List.filterMap_eq_flatMap_toList]
  exact (flatMap_sublist_writtenNames fun i _ => i.takenFrom.columnName?_sublist).trans
    (writtenNames_mono b.flatMap_tokens_sublist)

end ReadBody

theorem ReadTable.takenFrom (w : ReadTable) : w.table.TakenFrom w.tokens := by
  have hbody : w.body.tokens <:+: w.tokens :=
    ⟨w.front ++ [w.name.1], w.back, by simp [ReadTable.tokens]⟩
  have hname : w.table.name = w.name.1.value := name_foldl_add _ _
  refine ⟨?_, fun c hc text htext => ?_, fun k hk => ?_⟩
  · have hnames : [w.name.1.value] ++ (w.body.items.map ReadItem.item).filterMap
        TableItem.columnName? <+ writtenNames ([w.name.1] ++ w.body.tokens) :=
      sublist_writtenNames_append (name_sublist w.name)
        w.body.columnNames_sublist
    rw [hname, ReadTable.table, Table.ofItems, columnNames_foldl_add]
    exact sublist_writtenNames_mono hnames ⟨w.front, w.back, by simp [ReadTable.tokens]⟩
  · have hitem := ReadBody.takenFrom (mem_columns_ofItems hc)
    exact (hitem.2 text htext).mono hbody
  · rcases mem_constraints_foldl_add hk with hk | hk |
      ⟨name, columns, target, hmem, number, hnumber, rfl⟩
    · cases hk
    · have hitem := (ReadBody.takenFrom hk).mono hbody
      exact ⟨hitem.1, fun n hn => .inl (hitem.2 n hn)⟩
    · have hitem := (ReadBody.takenFrom hmem).mono hbody
      refine ⟨hitem.1, fun n hn => ?_⟩
      obtain rfl := Option.some.inj hn
      cases name with
      | some own => exact .inl (hitem.2 own rfl)
      | none => exact .inr ⟨number, hnumber, hname ▸ rfl⟩

/-! ## Statements -/

/-- What a statement says stands in the tokens, and for a table the word `CREATE`. -/
def Statement.TakenFrom (ts : List Token) : Statement → Prop
  | createTable t => t.TakenFrom ts ∧ ∃ word ∈ ts, word.isKeyword "CREATE" = true
  | addForeignKey _ k => k.TakenFrom ts

namespace Parser

theorem Takes.alterTable : Parser.alterTable.Takes fun taken s =>
    ∃ table k, s = .addForeignKey table k ∧ k.TakenFrom taken := by
  refine ((Takes.keyword _).bind fun _ => (Takes.name _).bind fun table =>
    (Takes.keyword _).bind fun _ => (Takes.keyword _).bind fun _ => (Takes.name _).bind fun name =>
    (Takes.keyword _).bind fun _ => Takes.foreignKeyBody.bind fun key =>
      Takes.pure (Statement.addForeignKey table (.foreignKey name key.1 key.2))).imp ?_
  rintro _ s ⟨front, _, _, rfl, -, named, _, _, rfl, -, add, _, _, rfl, -, constraint, _, _, rfl, -,
    _, _, _, rfl, ⟨name, rfl, rfl⟩, foreign, _, _, rfl, -, body, key, _, rfl, hkey, rfl, rfl⟩
  let before := front ++ (named ++ (add ++ constraint))
  refine ⟨_, _, rfl, sublist_writtenNames_mono hkey
    ⟨before ++ ([name.1] ++ foreign), [], by simp [before]⟩, fun n hn => ?_⟩
  obtain rfl := Option.some.inj hn
  have hmem := List.singleton_sublist.1 (name_sublist name)
  exact mem_writtenNames_mono ⟨before, foreign ++ body, by simp [before]⟩ hmem

theorem Takes.statement_takenFrom (t : Token) : (Parser.statement t).Takes fun more s? =>
    ∀ s, s? = some s → s.TakenFrom (t :: more) := by
  unfold Parser.statement
  split
  · next hcreate =>
    refine (Takes.createTable.bind fun s => Takes.pure (some s)).imp ?_
    rintro _ _ ⟨_, _, _, rfl, ⟨w, rfl, rfl⟩, rfl, rfl⟩ s hs
    obtain rfl := Option.some.inj hs
    exact ⟨w.takenFrom.mono ⟨[t], [], by simp⟩, t, List.mem_cons_self, hcreate⟩
  split
  · refine (Takes.alterTable.bind fun s => Takes.pure (some s)).imp ?_
    rintro _ _ ⟨_, _, _, rfl, ⟨table, k, rfl, hk⟩, rfl, rfl⟩ s hs
    obtain rfl := Option.some.inj hs
    exact hk.mono ⟨[t], [], by simp⟩
  · refine (Takes.pure none).imp ?_
    rintro _ _ ⟨rfl, rfl⟩
    exact nofun

/-- The tokens of a script fall into pieces of which each gives a statement, or none. -/
theorem exists_pieces {ts : List Token} {ss : List Statement}
    (h : Parser.statements ts = .ok (ss, [])) :
    ∃ pieces : List (List Token × Option Statement), ts = pieces.flatMap Prod.fst ∧
      ss = pieces.filterMap Prod.snd ∧ ∀ i ∈ pieces, ∀ s, i.2 = some s → s.TakenFrom i.1 := by
  obtain ⟨found, mid, hfound, hpure⟩ := bind_eq_ok_iff.1 h
  obtain ⟨rfl, rfl⟩ := Prod.mk.inj (Except.ok.inj hpure)
  obtain ⟨_, rfl, pieces, rfl, rfl, hpieces⟩ := Takes.manyUntil Takes.statement_takenFrom hfound
  refine ⟨pieces, List.append_nil _, List.filterMap_map, fun i hi => ?_⟩
  obtain ⟨t, more, htokens, htaken⟩ := hpieces i hi
  rwa [htokens]

end Parser

/-! ## Schemas -/

section Pieces

variable {pieces : List (List Token × Option Statement)}
  (h : ∀ i ∈ pieces, ∀ s, i.2 = some s → s.TakenFrom i.1)

include h

theorem length_declared_le : (declared (pieces.filterMap Prod.snd)).length ≤
    (pieces.flatMap Prod.fst).countP (Token.isKeyword "CREATE") := by
  induction pieces with
  | nil => exact Nat.zero_le _
  | cons i pieces ih =>
    rw [List.forall_mem_cons] at h
    have hmore := ih h.2
    rw [List.flatMap_cons, List.countP_append]
    cases hs : i.2 with
    | none =>
      rw [List.filterMap_cons_none hs]
      omega
    | some s =>
      rw [List.filterMap_cons_some hs]
      cases s with
      | createTable t =>
        have hpos : 0 < i.1.countP (Token.isKeyword "CREATE") :=
          List.countP_pos_iff.2 (h.1 _ hs).2
        rw [declared, List.length_cons]
        omega
      | addForeignKey name k =>
        rw [declared]
        omega

theorem names_declared_sublist :
    ((declared (pieces.filterMap Prod.snd)).flatMap fun t => t.name :: t.columns.map (·.name)) <+
      writtenNames (pieces.flatMap Prod.fst) := by
  induction pieces with
  | nil => exact Sublist.slnil
  | cons i pieces ih =>
    rw [List.forall_mem_cons] at h
    have hmore := ih h.2
    have hskip := sublist_writtenNames_append (List.nil_sublist (writtenNames i.1)) hmore
    rw [List.flatMap_cons]
    cases hs : i.2 with
    | none =>
      rw [List.filterMap_cons_none hs]
      exact hskip
    | some s =>
      rw [List.filterMap_cons_some hs]
      cases s with
      | createTable t =>
        rw [declared, List.flatMap_cons]
        exact sublist_writtenNames_append (h.1 _ hs).1.names hmore
      | addForeignKey name k =>
        rw [declared]
        exact hskip

end Pieces

/-- What statements say of a table stands in the tokens if what each of them says does. -/
theorem takenFrom_of_declared {ts : List Token} {ss : List Statement}
    (h : ∀ s ∈ ss, ∃ us, us <:+: ts ∧ s.TakenFrom us) {t : Table} (ht : t ∈ declared ss) :
    t.TakenFrom ts := by
  induction ss with
  | nil => cases ht
  | cons s ss ih =>
    rw [List.forall_mem_cons] at h
    cases s with
    | createTable table =>
      rcases List.mem_cons.1 ht with rfl | ht
      · obtain ⟨us, hus, htable, -⟩ := h.1
        have htaken : table.TakenFrom ts := htable.mono hus
        refine ⟨htaken.names, htaken.defaults, fun k hk => ?_⟩
        rcases List.mem_append.1 hk with hk | hk
        · exact htaken.constraints k hk
        · obtain ⟨us, hus, hadded⟩ := h.2 _ (mem_addedTo hk)
          have hadded' : k.TakenFrom ts := Constraint.TakenFrom.mono hus hadded
          exact ⟨hadded'.1, fun n hn => .inl (hadded'.2 n hn)⟩
      · exact ih h.2 ht
    | addForeignKey name k => exact ih h.2 ht

/-- Nothing in a schema is made up, and nothing in it has changed places. -/
theorem readTokens_takenFrom {ts : List Token} {tables : List Table}
    (h : readTokens ts = .ok tables) :
    tables.length ≤ ts.countP (Token.isKeyword "CREATE") ∧
      (tables.flatMap fun t => t.name :: t.columns.map (·.name)) <+ writtenNames ts ∧
      ∀ t ∈ tables,
        (∀ c ∈ t.columns, ∀ text, c.defaultValue = some text → DefaultIn ts text) ∧
        ∀ k ∈ t.constraints, k.mentioned <+ writtenNames ts ∧ ∀ name, k.name? = some name →
          name ∈ writtenNames ts ∨
            ∃ number, 1 ≤ number ∧ name = Table.generatedName t.name number := by
  obtain ⟨ss, hss, rfl⟩ := readTokens_eq_ok_iff.1 h
  obtain ⟨pieces, rfl, rfl, hpieces⟩ := Parser.exists_pieces hss
  rw [schemaOf_eq_declared]
  refine ⟨length_declared_le hpieces, names_declared_sublist hpieces, fun t ht => ?_⟩
  have hstatements : ∀ s ∈ pieces.filterMap Prod.snd,
      ∃ us, us <:+: pieces.flatMap Prod.fst ∧ s.TakenFrom us := by
    intro s hs
    obtain ⟨i, hi, hstatement⟩ := List.mem_filterMap.1 hs
    exact ⟨i.1, List.infix_of_mem_flatten (List.mem_map_of_mem hi), hpieces i hi s hstatement⟩
  have htaken := takenFrom_of_declared hstatements ht
  exact ⟨htaken.defaults, htaken.constraints⟩

/-- A column with a comment but no comma behind it, a prefix length that holds a name, and a second
table that is lost because the first one goes on up to the semicolon. -/
theorem readTokens_takenFrom_sloppy :
    let ts := tokenize
      "CREATE TABLE T (A INT DEFAULT 'A B' COMMENT B UNIQUE, FOREIGN KEY (A (B) 7) REFERENCES U (C)
      ON DELETE CASCADE) CREATE TABLE V (B INT);
      ALTER TABLE T ADD CONSTRAINT F FOREIGN KEY () REFERENCES T (D)"
    let t : Table := ⟨"T", [{ name := "A", type := "INT", defaultValue := some "A B" }],
      [.foreignKey "T_ibfk_1" ["A"] ⟨"U", ["C"]⟩, .foreignKey "F" [] ⟨"T", ["D"]⟩]⟩
    readTokens ts = .ok [t] ∧ ["T", "A"] <+ writtenNames ts ∧ DefaultIn ts "A B" := by
  intro ts t
  have h : readTokens ts = .ok [t] := eq_ok_of_toOption (by decide +kernel)
  obtain ⟨-, hnames, hall⟩ := readTokens_takenFrom h
  exact ⟨h, hnames, (hall t List.mem_cons_self).1 _ List.mem_cons_self _ rfl⟩

end SchemaArchive
