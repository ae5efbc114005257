import Mathlib.Data.List.Forall2
import SchemaArchive.Proofs.Script.RenderedItems
import SchemaArchive.Proofs.Script.WellFormedScript

/-!
# Rendered scripts

The script of a schema is cut into the tokens of a script of the grammar: one statement for each
table, which declares it without its foreign keys, and behind them one for each foreign key.

* `spells_tableBody`, `spells_table`, `spells_foreignKey` — the statements.
-/

namespace SchemaArchive

open Grammar Text

/-! ## Table bodies -/

/-- The items of a body: those with a comma behind them, and the last one. -/
abbrev Grammar.Body := List (Item × Mark .comma) × Option Item

/-- The tokens of a body. -/
def Grammar.bodyTokens (b : Body) : List Token :=
  commaTokens Item.tokens b.1 ++ (b.2.map Item.tokens).getD []

/-- What the items of a body are read as. -/
def Grammar.bodyItems (b : Body) : List TableItem :=
  (b.1.map Prod.fst ++ b.2.toList).map Item.tableItem

/-- Lines that each spell an item make up a body that spells all of them. -/
theorem spells_tableBody {lines : List (List Char)} {items : List TableItem}
    (h : List.Forall₂ (fun line item => ∀ rest, breaks rest = true →
      Spells line rest Item.tokens fun i => i.tableItem = item) lines items) (rest : List Char) :
    Spells (Render.tableBody lines) rest bodyTokens fun b => bodyItems b = items := by
  induction h with
  | nil => exact fun offset => ⟨([], none), offset, rfl, rfl⟩
  | @cons line item lines items hline hlines ih =>
    cases lines with
    | nil =>
      cases hlines
      have hitem := (hline ('\n' :: rest) rfl).gap_end (by decide)
      refine (hitem.blank.blank.blank.blank).imp ?_
      exact fun i hi => ⟨([], some i), rfl, by simp [bodyItems, hi]⟩
    | cons line' lines =>
      have hcomma := spells_mark opening?_comma
        ('\n' :: (Render.tableBody (line' :: lines) ++ rest))
      have hmore := hcomma.append (ih.gap (by decide))
      have htext : Render.tableBody (line :: line' :: lines) = _ := List.append_assoc _ _ _
      rw [htext]
      refine ((hline _ (by rfl)).append hmore).blank.blank.blank.blank.imp ?_
      rintro ⟨i, comma, leading, last⟩ ⟨hi, -, hmore⟩
      refine ⟨((i, comma) :: leading, last), by simp [bodyTokens, commaTokens], ?_⟩
      rw [← hi, ← hmore]
      rfl

/-- The lines of a table are its columns and then its indexes. -/
theorem forall₂_tableLines {t : Table} (h : ∀ c ∈ t.columns, IsSettledType c.type.toList) :
    List.Forall₂ (fun line item => ∀ rest, breaks rest = true →
        Spells line rest Item.tokens fun i => i.tableItem = item)
      (Render.tableLines t)
      (t.columns.map TableItem.column ++ t.indexes.map TableItem.constraint) := by
  refine List.rel_append ?_ ?_
  · rw [List.forall₂_map_left_iff, List.forall₂_map_right_iff, List.forall₂_same]
    exact fun c hc rest hrest => spells_column (h c hc) hrest
  · rw [Table.indexes]
    induction t.constraints with
    | nil => exact .nil
    | cons k constraints ih =>
      cases hk : Render.constraint? k with
      | none =>
        have hforeign : k.isForeignKey = true := by
          cases k with
          | foreignKey => rfl
          | _ => cases hk
        simpa [hk, hforeign] using ih
      | some line =>
        have hindex : k.isForeignKey = false := by
          cases k with
          | foreignKey => cases hk
          | _ => rfl
        rw [List.filterMap_cons_some hk, List.filter_cons_of_pos (by simp [hindex])]
        exact .cons (fun rest _ => spells_constraint hk rest) ih

/-! ## Statements -/

/-- A statement with its semicolon. -/
abbrev Grammar.Closed := Clause × Mark .semicolon

/-- The tokens of a statement and its semicolon. -/
def Grammar.closedTokens (c : Closed) : List Token :=
  c.1.tokens ++ [c.2.1]

theorem kind_of_wordKind {t : Token} {word : String} (h : t.kind = Opening.wordKind word) :
    t.kind ≠ .semicolon := by
  rw [Opening.wordKind] at h
  split at h <;> simp [h]

/-- The engine that is written behind a table body is an option without a semicolon. -/
theorem spells_engine {rest : List Char} (hrest : breaks rest = true) :
    Spells "ENGINE=InnoDB".toList rest
      (fun options : List { t : Token // t.kind ≠ .semicolon } => options.map Subtype.val)
      fun _ => True := by
  intro offset
  have hbreaks : rest.head?.any continuesWord = false := by
    simp only [breaks, Bool.and_eq_true, Bool.not_eq_true'] at hrest
    exact hrest.1
  have hequals : opening? '=' = some (.mark .equals) := by decide
  have hword : opening? 'I' = some .word := by decide
  obtain ⟨engine, o, hengine, hkind, -⟩ := Scanner.lex_plainWord
    (show isPlainWord "ENGINE".toList = true by decide)
    (show ('=' :: ("InnoDB".toList ++ rest)).head?.any continuesWord = false by rfl) offset
  obtain ⟨equals, o', hsign, hkind'⟩ := Scanner.lex_mark hequals o ("InnoDB".toList ++ rest)
  obtain ⟨name, o'', hname, hkind'', -⟩ := Scanner.lex_word hword
    (show "nnoDB".toList.all continuesWord = true by decide) hbreaks o'
  refine ⟨[⟨engine, kind_of_wordKind hkind⟩, ⟨equals, by simp [hkind']⟩,
    ⟨name, kind_of_wordKind hkind''⟩], o'', ?_, trivial⟩
  show (Scanner.mk offset ("ENGINE".toList ++ '=' :: ("InnoDB".toList ++ rest))).tokens = _
  rw [hengine, hsign]
  show engine :: equals :: (Scanner.mk o' ('I' :: "nnoDB".toList ++ rest)).tokens = _
  rw [hname]
  rfl

/-- A semicolon and the end of its line. -/
theorem spells_end (rest : List Char) :
    Spells (Render.words ";\n") rest (fun t : Mark .semicolon => [t.1]) fun _ => True :=
  (spells_mark opening?_semicolon ('\n' :: rest)).gap_end (by decide)

/-- Columns and indexes, read one after another, make a table without foreign keys. -/
theorem ofItems_columns (name : String) (columns : List Column) (indexes : List Constraint) :
    Table.ofItems name (columns.map TableItem.column ++ indexes.map TableItem.constraint) =
      { name, columns, constraints := indexes } := by
  have hcolumns : ∀ t : Table, (columns.map TableItem.column).foldl Table.add t =
      { t with columns := t.columns ++ columns } := by
    induction columns with
    | nil => simp
    | cons c columns ih => simp [Table.add, ih]
  have hindexes : ∀ t : Table, (indexes.map TableItem.constraint).foldl Table.add t =
      { t with constraints := t.constraints ++ indexes } := by
    induction indexes with
    | nil => simp
    | cons k indexes ih => simp [Table.add, ih]
  rw [Table.ofItems, List.foldl_append, hcolumns, hindexes]
  rfl

/-! Fixed pieces of text, cut where their words end. -/

theorem words_createTable : Render.words "CREATE TABLE " =
    "CREATE".toList ++ ' ' :: ("TABLE".toList ++ [' ']) := by decide

theorem words_open : Render.words " (\n" = [' ', '(', '\n'] := by decide

theorem words_engine : Render.words ") ENGINE=InnoDB;\n" =
    ')' :: ' ' :: ("ENGINE=InnoDB".toList ++ Render.words ";\n") := by decide

theorem words_alterTable : Render.words "ALTER TABLE " =
    "ALTER".toList ++ ' ' :: ("TABLE".toList ++ [' ']) := by decide

theorem words_addConstraint : Render.words " ADD CONSTRAINT " =
    ' ' :: ("ADD".toList ++ ' ' :: ("CONSTRAINT".toList ++ [' '])) := by decide

theorem words_foreignKey : Render.words " FOREIGN KEY " =
    ' ' :: ("FOREIGN".toList ++ ' ' :: ("KEY".toList ++ [' '])) := by decide

theorem words_references : Render.words " REFERENCES " =
    ' ' :: ("REFERENCES".toList ++ [' ']) := by decide

/-- The declaration of a table gives the table without its foreign keys. -/
theorem spells_table {t : Table} (h : ∀ c ∈ t.columns, IsSettledType c.type.toList)
    (rest : List Char) :
    Spells (Render.table t) rest closedTokens
      fun c => c.1.effect? = some (.createTable { t with constraints := t.indexes }) := by
  have hengine := (spells_engine (by rfl)).append (spells_end rest)
  have hclosing := (spells_mark opening?_rightParen _).append hengine.blank
  have hbody := (spells_tableBody (forall₂_tableLines h) _).append hclosing
  have hopening := (spells_mark opening?_leftParen _).append (hbody.gap (c := '\n') (by decide))
  have hname := (spells_name t.name _).append hopening.blank
  have htable := hname.word "TABLE" (by decide) (by decide)
  unfold Render.table
  simp only [words_createTable, words_open, words_engine, List.append_assoc, List.cons_append,
    List.nil_append]
  refine (htable.word "CREATE" (by decide) (by decide)).imp ?_
  rintro ⟨create, table, name, opening, ⟨leading, last⟩, closing, options, semicolon⟩
    ⟨hname, -, hbody, -⟩
  let clause : TableClause :=
    { create, table, ifNotExists := none, name, opening, leading, last, closing, options }
  have hitems : clause.items.map Item.tableItem = _ := hbody
  refine ⟨(.createTable clause, semicolon), ?_, ?_⟩
  · simp [closedTokens, Clause.tokens, TableClause.bodyTokens, TableClause.itemTokens, clause,
      bodyTokens]
  · show some (Statement.createTable clause.declaredTable) = _
    rw [← ofItems_eq, hitems, hname, ofItems_columns]

/-- The addition of a foreign key gives the foreign key. -/
theorem spells_foreignKey (table : String) (number : Nat) (keyName : String)
    (columns : List String) (target : Reference) (rest : List Char) :
    Spells (Render.foreignKey table number keyName columns target) rest closedTokens
      fun c => c.1.effect? = some (.addForeignKey table (.foreignKey
        (if keyName.isEmpty then Table.generatedName table number else keyName) columns target))
      := by
  have hend := (spells_columnList target.columns _).append (spells_end rest)
  have htarget := (spells_name target.table _).append hend.blank
  have hreferences := htarget.word "REFERENCES" (by decide) (by decide)
  have hcolumns := (spells_columnList columns _).append hreferences.blank
  have hforeign := (hcolumns.word "KEY" (by decide) (by decide)).word "FOREIGN" (by decide)
    (by decide)
  unfold Render.foreignKey
  generalize (if keyName.isEmpty then Table.generatedName table number else keyName) = key
  have hname := (spells_name key _).append hforeign.blank
  have hadd := (hname.word "CONSTRAINT" (by decide) (by decide)).word "ADD" (by decide)
    (by decide)
  have htable := ((spells_name table _).append hadd.blank).word "TABLE" (by decide) (by decide)
  simp only [words_alterTable, words_addConstraint, words_foreignKey, words_references,
    List.append_assoc, List.cons_append, List.nil_append]
  refine (htable.word "ALTER" (by decide) (by decide)).imp ?_
  rintro ⟨alter, tableWord, tableName, add, constraint, name, foreign, keyWord, list,
      references, targetName, targetList, semicolon⟩
    ⟨htable, hname, hlist, htarget, htargetList, -⟩
  let clause : KeyClause :=
    { alter, table := tableWord, tableName, add, constraint, name,
      foreignKey := ⟨foreign, keyWord, list, references, targetName, targetList, []⟩ }
  refine ⟨(.addKey clause, semicolon), ?_, ?_⟩
  · simp [closedTokens, Clause.tokens, KeyClause.bodyTokens, ForeignKeyClause.bodyTokens, clause]
  · show some (Statement.addForeignKey tableName.1.value (.foreignKey name.1.value list.names
      ⟨targetName.1.value, targetList.names⟩)) = _
    rw [htable, hname, hlist, htarget, htargetList]

/-! ## Schemas -/

/-- A foreign key, called by the given name if its own is empty. -/
def Constraint.named (generated : String) : Constraint → Constraint
  | foreignKey name columns target =>
    foreignKey (if name.isEmpty then generated else name) columns target
  | c => c

/-- The foreign keys among `constraints`, the first of which has the number `number`.  Those with
an empty name are called after the table and their number. -/
def namedForeignKeys (table : String) (number : Nat) (constraints : List Constraint) :
    List Constraint :=
  ((constraints.filter Constraint.isForeignKey).zipIdx number).map fun k =>
    k.1.named (Table.generatedName table k.2)

/-- The text is cut into statements with these effects. -/
def SpellsStatements (text rest : List Char) (statements : List Statement) : Prop :=
  Spells text rest (fun cs : List Closed => cs.flatMap closedTokens)
    fun cs => cs.map (·.1.effect?) = statements.map some

theorem spellsStatements_nil (rest : List Char) : SpellsStatements [] rest [] :=
  fun offset => ⟨[], offset, rfl, rfl⟩

theorem SpellsStatements.append {text more rest : List Char} {ss ss' : List Statement}
    (h : SpellsStatements text (more ++ rest) ss) (h' : SpellsStatements more rest ss') :
    SpellsStatements (text ++ more) rest (ss ++ ss') := by
  refine (Spells.append h h').imp ?_
  rintro ⟨cs, cs'⟩ ⟨hcs, hcs'⟩
  exact ⟨cs ++ cs', by simp, by simp [hcs, hcs']⟩

/-- A single statement. -/
theorem spellsStatements_singleton {text rest : List Char} {s : Statement}
    (h : Spells text rest closedTokens fun c => c.1.effect? = some s) :
    SpellsStatements text rest [s] :=
  h.imp fun c hc => ⟨[c], by simp, by simp [hc]⟩

theorem spells_foreignKeysFrom (table : String) (number : Nat) (constraints : List Constraint)
    (rest : List Char) :
    SpellsStatements (Render.foreignKeysFrom table number constraints) rest
      ((namedForeignKeys table number constraints).map (.addForeignKey table)) := by
  induction constraints generalizing number with
  | nil => exact spellsStatements_nil rest
  | cons k constraints ih =>
    cases k with
    | foreignKey name columns target =>
      have hkey := fun rest => spellsStatements_singleton
        (spells_foreignKey table number name columns target rest)
      exact (hkey _).append (ih (number + 1))
    | _ => exact ih number

theorem spells_foreignKeys (tables : List Table) (rest : List Char) :
    SpellsStatements (tables.flatMap Render.foreignKeys) rest
      (tables.flatMap fun t =>
        (namedForeignKeys t.name 1 t.constraints).map (.addForeignKey t.name)) := by
  induction tables with
  | nil => exact spellsStatements_nil rest
  | cons t tables ih => exact (spells_foreignKeysFrom t.name 1 t.constraints _).append ih

/-- The declarations of tables, with a line break between them. -/
theorem spells_tables {tables : List Table}
    (h : ∀ t ∈ tables, ∀ c ∈ t.columns, IsSettledType c.type.toList) (rest : List Char) :
    SpellsStatements ((Render.words "\n").intercalate (tables.map Render.table)) rest
      (tables.map fun t => .createTable { t with constraints := t.indexes }) := by
  induction tables with
  | nil => exact spellsStatements_nil rest
  | cons t tables ih =>
    have htable := fun rest => spellsStatements_singleton
      (spells_table (h t (List.mem_cons_self ..)) rest)
    have hmore := ih fun t' ht' => h t' (List.mem_cons_of_mem t ht')
    cases tables with
    | nil =>
      rw [List.map_singleton, List.intercalate_singleton]
      exact htable rest
    | cons t' tables =>
      have htext : (Render.words "\n").intercalate ((t :: t' :: tables).map Render.table) =
          Render.table t ++
            '\n' :: (Render.words "\n").intercalate ((t' :: tables).map Render.table) := by
        simp [Render.words, List.intercalate_cons_cons]
      rw [htext]
      exact (htable _).append (hmore.gap (by decide))

/-- The statements of a rendered schema: first the tables, then the foreign keys. -/
def Render.statements (tables : List Table) : List Statement :=
  (tables.map fun t => .createTable { t with constraints := t.indexes }) ++
    tables.flatMap fun t => (namedForeignKeys t.name 1 t.constraints).map (.addForeignKey t.name)

theorem spells_schema {tables : List Table}
    (h : ∀ t ∈ tables, ∀ c ∈ t.columns, IsSettledType c.type.toList) :
    SpellsStatements (Render.schema tables) [] (Render.statements tables) := by
  have hkeys := spells_foreignKeys tables []
  refine (spells_tables h _).append ?_
  by_cases hempty : (tables.flatMap Render.foreignKeys).isEmpty = true
  · rw [if_pos hempty]
    rwa [List.isEmpty_iff.1 hempty] at hkeys
  · rw [if_neg hempty]
    exact hkeys.gap (by decide)

/-- The tokens of a rendered schema are those of a script of the grammar, if its types are read as
they are written. -/
theorem tokenize_rendered {tables : List Table}
    (h : ∀ t ∈ tables, ∀ c ∈ t.columns, IsSettledType c.type.toList) :
    ∃ s : Script, tokenize (renderScript tables) = s.tokens ∧
      s.statements = Render.statements tables := by
  obtain ⟨closed, o, htokens, heffects⟩ := spells_schema h 0
  refine ⟨⟨closed, none⟩, ?_, ?_⟩
  · rw [List.append_nil, Scanner.tokens_nil] at htokens
    rw [tokenize, renderScript, String.toList_ofList]
    exact htokens
  · have hmap := congrArg (List.filterMap id) heffects
    simpa [Script.statements, List.filterMap_map, Function.comp_def] using hmap

theorem tokenize_renderScript {tables : List Table}
    (h : ∀ t ∈ tables, ∀ c ∈ t.columns, IsTypeText c.type.toList) :
    ∃ s : Script, tokenize (renderScript tables) = s.tokens ∧
      s.statements = Render.statements tables :=
  tokenize_rendered fun t ht c hc => (h t ht c hc).settled

end SchemaArchive
