import SchemaArchive.Proofs.Script.Declared

/-!
# Reading well-formed scripts

A script of the grammar is accepted, and its schema is the one that it declares: no statement, no
item and no column is shifted, lost or invented, however long the clauses are that reading passes
over.

* `Grammar.statements_tokens` — the statements of a script are read as they stand.
* `Grammar.readTokens_script` — so the schema of a script is the one that it declares.
* `Grammar.enumScript` — a script with most things that a script may have.
-/

namespace SchemaArchive

open Grammar

theorem dropStatement_options (options : List { t : Token // t.kind ≠ .semicolon })
    (ts : List Token) : dropStatement (options.map Subtype.val ++ ts) = dropStatement ts := by
  induction options with
  | nil => rfl
  | cons t options ih =>
    rw [List.map_cons, List.cons_append, dropStatement,
      List.dropWhile_cons_of_pos (by simp [t.2])]
    exact ih

theorem dropStatement_semicolon (t : Mark .semicolon) (ts : List Token) :
    dropStatement (t.1 :: ts) = ts := by
  rw [dropStatement, List.dropWhile_cons_of_neg (by simp [t.2])]
  rfl

namespace Parser

/-! ## Statements that count -/

/-- The declaration of a table is read with all options behind its body, and with the semicolon
if there is one. -/
theorem createTable_tokens (c : TableClause) (ts : List Token) :
    createTable (c.bodyTokens ++ ts) = .ok (.createTable c.declaredTable, dropStatement ts) := by
  have hbody : ∀ rest, (name .tableName >>= fun tableName => do
      let items ← tableBody
      passOver dropStatement
      return Statement.createTable (Table.ofItems tableName items) : Parser Statement)
        (c.name.1 :: c.opening.1 ::
          (c.itemTokens ++ c.closing.1 :: (c.options.map Subtype.val ++ rest))) =
        .ok (.createTable c.declaredTable, dropStatement rest) := fun rest => by
    rw [run_bind (run_name _ _), run_bind (tableBody_tokens c _), run_bind (run_passOver _ _),
      dropStatement_options, ofItems_eq]
    rfl
  rw [createTable, TableClause.bodyTokens, List.cons_append, run_bind (run_keyword _ _)]
  simp only [List.append_assoc, List.cons_append]
  cases hw : c.ifNotExists with
  | none =>
    have hname : c.name.1.isKeyword "IF" = false :=
      Token.isKeyword_of_kind (Token.kind_ne_of_isName c.name.2 rfl) _
    exact (run_bind (run_ifTaken_neg hname _)).trans (hbody ts)
  | some w =>
    have htaken : ifTaken (Token.isKeyword "IF") (do keyword "NOT"; keyword "EXISTS") (return ())
        (w.1.1 :: w.2.1.1 :: w.2.2.1 :: c.name.1 :: c.opening.1 ::
          (c.itemTokens ++ c.closing.1 :: (c.options.map Subtype.val ++ ts))) =
        .ok ((), c.name.1 :: c.opening.1 ::
          (c.itemTokens ++ c.closing.1 :: (c.options.map Subtype.val ++ ts))) := by
      rw [run_ifTaken_pos w.1.2, run_bind (run_keyword _ _), run_keyword]
    exact (run_bind htaken).trans (hbody ts)

theorem alterTable_tokens (k : KeyClause) {rest : List Token}
    (h : rest.head?.any (Token.isWord "ON") = false) :
    alterTable (k.bodyTokens ++ rest) =
      .ok (.addForeignKey k.tableName.1.value (k.foreignKey.constraint k.name.1.value),
        rest) := by
  simp only [KeyClause.bodyTokens, List.cons_append]
  rw [alterTable, run_bind (run_keyword _ _), run_bind (run_name _ _),
    run_bind (run_keyword _ _), run_bind (run_keyword _ _), run_bind (run_name _ _),
    run_bind (run_keyword _ _), run_bind (foreignKeyBody_tokens _ h)]
  rfl

/-! ## Scripts -/

theorem statements_nil : statements [] = .ok ([], []) := by
  rw [statements, run_bind (run_manyUntil_stop rfl)]
  rfl

/-- A token, what is read behind it, and the statements after that. -/
theorem statements_cons {t : Token} {ts mid : List Token} {found : Option Statement}
    {ss : List Statement} (ht : statement t ts = .ok (found, mid))
    (h : statements mid = .ok (ss, [])) :
    statements (t :: ts) = .ok (found.toList ++ ss, []) := by
  obtain ⟨as, rest, hm, hp⟩ := bind_eq_ok_iff.1 h
  obtain ⟨rfl, rfl⟩ := Prod.mk.inj (Except.ok.inj hp)
  rw [statements, run_bind (run_manyUntil_cons rfl ht hm), run_pure]
  cases found <;> rfl

theorem statement_create (t : Reserved "CREATE") (c : TableClause) (ts : List Token) :
    statement t.1 (c.bodyTokens ++ ts) =
      .ok (some (.createTable c.declaredTable), dropStatement ts) := by
  rw [statement, if_pos t.2, run_bind (createTable_tokens c ts)]
  rfl

theorem statement_alter (t : Reserved "ALTER") (k : KeyClause) (rest : List Token)
    (h : rest.head?.any (Token.isWord "ON") = false) :
    statement t.1 (k.bodyTokens ++ rest) =
      .ok (some (.addForeignKey k.tableName.1.value (k.foreignKey.constraint k.name.1.value)),
        rest) := by
  have hcreate : ¬ t.1.isKeyword "CREATE" = true := by
    simp [Token.isKeyword_eq_false t.2 (by decide : "ALTER" ≠ "CREATE")]
  rw [statement, if_neg hcreate, if_pos t.2, run_bind (alterTable_tokens k h)]
  rfl

theorem statement_other {t : Token} (hc : t.isKeyword "CREATE" = false)
    (ha : t.isKeyword "ALTER" = false) (ts : List Token) : statement t ts = .ok (none, ts) := by
  rw [statement, if_neg (by simp [hc]), if_neg (by simp [ha])]
  rfl

theorem statements_semicolon (t : Mark .semicolon) {ts : List Token} {ss : List Statement}
    (h : statements ts = .ok (ss, [])) : statements (t.1 :: ts) = .ok (ss, []) := by
  have hk : t.1.kind ≠ .keyword := by simp [t.2]
  exact statements_cons (statement_other (Token.isKeyword_of_kind hk _)
    (Token.isKeyword_of_kind hk _) ts) h

theorem statements_passing (passing : List Passing) {ts : List Token} {ss : List Statement}
    (h : statements ts = .ok (ss, [])) :
    statements (passing.map Subtype.val ++ ts) = .ok (ss, []) := by
  induction passing with
  | nil => exact h
  | cons t passing ih =>
    have ht := t.2
    simp only [Bool.and_eq_true, Bool.not_eq_true'] at ht
    exact statements_cons (statement_other ht.1.1 ht.1.2 _) ih

/-- A statement with its semicolon, and the statements behind. -/
theorem statements_closed (c : Clause) (semicolon : Mark .semicolon) {ts : List Token}
    {ss : List Statement} (h : statements ts = .ok (ss, [])) :
    statements (c.tokens ++ semicolon.1 :: ts) = .ok (c.effect?.toList ++ ss, []) := by
  cases c with
  | createTable c =>
    refine statements_cons (statement_create c.create c _) ?_
    rw [dropStatement_semicolon]
    exact h
  | addKey k =>
    have hon : (semicolon.1 :: ts).head?.any (Token.isWord "ON") = false := by
      simp [Token.isWord, semicolon.2]
    exact statements_cons (statement_alter k.alter k _ hon) (statements_semicolon semicolon h)
  | other passing => exact statements_passing passing (statements_semicolon semicolon h)

/-- A statement without a semicolon, at the end of a script. -/
theorem statements_last (c : Clause) : statements c.tokens = .ok (c.effect?.toList, []) := by
  cases c with
  | createTable c =>
    have hread := statements_cons (statement_create c.create c []) statements_nil
    rwa [List.append_nil] at hread
  | addKey k =>
    have hread := statements_cons (statement_alter k.alter k [] rfl) statements_nil
    rwa [List.append_nil] at hread
  | other passing =>
    have hread := statements_passing passing statements_nil
    rwa [List.append_nil] at hread

end Parser

namespace Grammar

theorem statements_cons (c : Clause × Mark .semicolon) (closed : List (Clause × Mark .semicolon))
    (last : Option Clause) :
    Script.statements ⟨c :: closed, last⟩ =
      c.1.effect?.toList ++ Script.statements ⟨closed, last⟩ := by
  simp only [Script.statements, List.map_cons, List.cons_append, List.filterMap_cons]
  cases c.1.effect? <;> rfl

/-- The statements of a script are read as they stand. -/
theorem statements_tokens (s : Script) :
    Parser.statements s.tokens = .ok (s.statements, []) := by
  obtain ⟨closed, last⟩ := s
  induction closed with
  | nil =>
    cases last with
    | none => exact Parser.statements_nil
    | some c =>
      have hread := Parser.statements_last c
      cases hc : c.effect? <;> simpa [Script.tokens, Script.statements, hc] using hread
  | cons c closed ih =>
    have htokens : Script.tokens ⟨c :: closed, last⟩ =
        c.1.tokens ++ c.2.1 :: Script.tokens ⟨closed, last⟩ := by
      simp [Script.tokens]
    rw [htokens, statements_cons]
    exact Parser.statements_closed c.1 c.2 ih

/-- A script of the grammar is accepted, and its schema is the one that it declares. -/
theorem readTokens_script (s : Script) : readTokens s.tokens = .ok s.schema := by
  rw [readTokens, statements_tokens]
  exact congrArg Except.ok (schemaOf_eq_declared s.statements)

/-! ## A script as a tree -/

/-- A reserved word in its place. -/
def reserved (word : String) (position : Nat) : Reserved word :=
  ⟨⟨.keyword, word, position⟩, by simp [Token.isKeyword]⟩

/-- A bare name in its place. -/
def bareName (value : String) (position : Nat) : Name :=
  ⟨⟨.identifier, value, position⟩, rfl⟩

/-- A punctuation mark in its place. -/
def markAt (kind : TokenKind) (text : String) (position : Nat) : Mark kind :=
  ⟨⟨kind, text, position⟩, rfl⟩

/-- The list of one column, which begins at a place. -/
def oneColumn (value : String) (position : Nat) (more : List Entry) (length : Nat) : Columns where
  opening := markAt .leftParen "(" position
  entries := .name (bareName value (position + 1)) :: more
  closing := markAt .rightParen ")" (position + length)

/-- A foreign key from a column to a table of one-letter name, which begins at a place. -/
def shortKey (column table target : String) (position : Nat) (actions : List Action) :
    ForeignKeyClause where
  foreign := reserved "FOREIGN" position
  key := reserved "KEY" (position + 8)
  columns := oneColumn column (position + 12) [] 2
  references := reserved "REFERENCES" (position + 16)
  table := bareName table (position + 27)
  targetColumns := oneColumn target (position + 29) [] 2
  actions

/-- A column with quoted text in its type and a group among its attributes. -/
def enumColumn : ColumnClause where
  name := bareName "A" 16
  type := ⟨⟨.identifier, "ENUM", 18⟩, rfl⟩
  arguments := some {
    opening := markAt .leftParen "(" 22
    leading := [(⟨⟨.quotedString, "x'y", 23⟩, rfl⟩, markAt .comma "," 28)]
    last := ⟨⟨.number, "2", 30⟩, rfl⟩
    closing := markAt .rightParen ")" 31 }
  attributes := [
    .filler ⟨⟨.identifier, "CHECK", 33⟩, by decide⟩,
    .group {
      opening := markAt .leftParen "(" 39
      inside := [⟨.identifier, "B", 40⟩]
      closing := markAt .rightParen ")" 41
      balanced := .token rfl .nil },
    .notNull (reserved "NOT" 43) (reserved "NULL" 47)]
  no_group := by simp

/-- A unique index over the beginning of a column. -/
def prefixIndex : UniqueClause where
  unique := reserved "UNIQUE" 68
  key := some ⟨⟨.keyword, "KEY", 75⟩, by decide⟩
  name := none
  columns := oneColumn "A" 79 [.group {
    opening := markAt .leftParen "(" 81
    inside := [⟨.number, "3", 82⟩]
    closing := markAt .rightParen ")" 83
    balanced := .token rfl .nil }] 5

/-- A declaration with a comma behind its last item and with an option. -/
def enumTable : TableClause where
  create := reserved "CREATE" 0
  table := reserved "TABLE" 7
  ifNotExists := none
  name := bareName "T" 13
  opening := markAt .leftParen "(" 15
  leading := [
    (.column enumColumn, markAt .comma "," 51),
    (.constraint (reserved "CONSTRAINT" 55) (some (bareName "K" 66)) (.unique prefixIndex),
      markAt .comma "," 85),
    (.foreignKey (shortKey "A" "T" "A" 87
      [.twoWords ⟨⟨.identifier, "ON", 120⟩, by decide⟩ ⟨.identifier, "DELETE", 123⟩
        ⟨⟨.identifier, "SET", 130⟩, by decide⟩ ⟨.keyword, "NULL", 134⟩]),
      markAt .comma "," 138)]
  last := none
  closing := markAt .rightParen ")" 139
  options := [
    ⟨⟨.keyword, "ENGINE", 141⟩, by decide⟩,
    ⟨⟨.equals, "=", 147⟩, by decide⟩,
    ⟨⟨.identifier, "INNODB", 148⟩, by decide⟩]

/-- A table, a statement that says nothing, and a foreign key for the table. -/
def enumScript : Script where
  closed := [
    (.createTable enumTable, markAt .semicolon ";" 154),
    (.other [⟨⟨.identifier, "DROP", 156⟩, by decide⟩, ⟨⟨.identifier, "X", 161⟩, by decide⟩],
      markAt .semicolon ";" 162)]
  last := some (.addKey {
    alter := reserved "ALTER" 164
    table := reserved "TABLE" 170
    tableName := bareName "T" 176
    add := reserved "ADD" 178
    constraint := reserved "CONSTRAINT" 182
    name := bareName "F" 193
    foreignKey := shortKey "A" "T" "A" 195 [] })

/-- The tree of a script as it is written, and the schema that is read from it. -/
theorem readTokens_enumScript :
    tokenize "create table t (a enum(\"x'y\", 2) check (b) not null,
  constraint k unique key (a(3)), foreign key (a) references t (a) on delete set null,)
engine=InnoDB;
drop x; alter table t add constraint f foreign key (a) references t (a)" = enumScript.tokens ∧
    readTokens enumScript.tokens = .ok [{
      name := "T"
      columns := [{ name := "A", type := "ENUM('x\\'y',2)", nullable := false }]
      constraints := [.unique (some "K") ["A"], .foreignKey "T_ibfk_1" ["A"] ⟨"T", ["A"]⟩,
        .foreignKey "F" ["A"] ⟨"T", ["A"]⟩] }] := by
  refine ⟨by decide +kernel, ?_⟩
  rw [readTokens_script]
  exact congrArg Except.ok (by decide +kernel)

end Grammar

end SchemaArchive
