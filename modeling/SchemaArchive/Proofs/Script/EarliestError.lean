import SchemaArchive.Proofs.Script.PassingOver
import SchemaArchive.Proofs.Script.Promptness

/-!
# Errors are found at the earliest token

Reading a script stops with an error at a token exactly if no continuation of the script could
have saved it, and it does so at the first token from which on nothing could.  It complains about
the end of the script only where some continuation would have been accepted.

* `Parser.Prompt.columnList`, `Parser.Prompt.tableItem`, `Parser.Prompt.statement` and the others
  — every reader is prompt.
* `Parser.Open.accepted` — a script that is open can be completed.
* `readTokens_earliest` — an error at a token means that no continuation is accepted, and no
  shorter piece of the script has that error already.
-/

namespace SchemaArchive

namespace Parser

variable {α β : Type} {F : Token → Prop}

/-! ## Single tokens -/

theorem Prompt.keyword (word : String) : Prompt anyToken (keyword word) :=
  (Prompt.accept ⟨⟨.keyword, word, 0⟩, by simp [Token.isKeyword]⟩).map fun _ => ⟨(), rfl⟩

theorem Prompt.mark (kind : TokenKind) : Prompt anyToken (mark kind) :=
  (Prompt.accept ⟨⟨kind, "", 0⟩, by simp⟩).map fun _ => ⟨(), rfl⟩

theorem Prompt.name (what : Expectation) : Prompt anyToken (name what) :=
  (Prompt.accept ⟨⟨.identifier, "", 0⟩, rfl⟩).map fun t => ⟨t.value, rfl⟩

/-- A list that the mark `kind` ends, and the mark. -/
theorem Prompt.closed {kind : TokenKind} {p : Parser α} {f : α → Parser β}
    (hp : Prompt (fun t => (t.kind == kind) = true) p) (hf : ∀ a, ∃ b, f a = Pure.pure b) :
    Prompt anyToken (p >>= fun a => Parser.mark kind >>= fun _ => f a) := by
  have hmark : ∀ a, Prompt anyToken (Parser.mark kind >>= fun _ => f a) :=
    fun a => (Prompt.mark kind).map fun _ => hf a
  intro ts
  refine (hp ts).bind (fun a mid _ => hmark a mid) (fun a => (hmark a []).open_nil) fun a => ?_
  obtain ⟨b, hb⟩ := hf a
  let closing : Grammar.Mark kind := ⟨⟨kind, "", 0⟩, rfl⟩
  refine ⟨[closing.1], b, fun t rest _ => ⟨fun u hu => ?_, ?_⟩⟩
  · obtain rfl := Option.some.inj hu
    simp [closing]
  · rw [List.singleton_append, run_bind (run_mark closing _), hb]
    rfl

/-! ## Column lists and constraints -/

theorem Prompt.dropGroup : Prompt anyToken (Parser.passOver (SchemaArchive.dropGroup 1)) :=
  Prompt.passOver (fun _ _ _ => dropGroup_split) fun _ h => by
    obtain ⟨more, hmore⟩ := dropGroup_complete h
    exact ⟨more, fun t rest _ => hmore (t :: rest)⟩

theorem Prompt.columnListEntry (t : Token) : Prompt anyToken (columnListEntry t) := by
  unfold Parser.columnListEntry
  split
  · exact Prompt.dropGroup.map fun _ => ⟨none, rfl⟩
  · exact Prompt.pure _

theorem Prompt.columnList : Prompt anyToken columnList :=
  (Prompt.mark .leftParen).bind fun _ =>
    (Prompt.manyUntil (fun t _ => Prompt.columnListEntry t) fun _ _ => trivial).closed
      fun entries => ⟨entries.filterMap id, rfl⟩

/-- Actions end before any token but the word `ON`. -/
abbrev notOn : Token → Prop := fun t => t.isWord "ON" = false

theorem Prompt.foreignKeyBody : Prompt notOn foreignKeyBody := by
  have hactions : Prompt notOn (Parser.passOver dropActions) :=
    Prompt.passOver (fun _ _ _ => dropActions_split) fun _ h => dropActions_complete h
  exact (Prompt.keyword _).bind fun _ => Prompt.columnList.bind fun columns =>
    (Prompt.keyword _).bind fun _ => (Prompt.name _).bind fun table =>
      Prompt.columnList.bind fun targetColumns =>
        hactions.map fun _ => ⟨(columns, ⟨table, targetColumns⟩), rfl⟩

theorem Prompt.foreignKeyItem (name : Option String) : Prompt notOn (foreignKeyItem name) :=
  Prompt.foreignKeyBody.map fun r => ⟨.foreignKey name r.1 r.2, rfl⟩

theorem Prompt.primaryKeyItem : Prompt anyToken primaryKeyItem :=
  (Prompt.keyword _).bind fun _ => Prompt.columnList.map fun _ => ⟨_, rfl⟩

theorem Prompt.keyItem : Prompt anyToken keyItem :=
  Prompt.optionalName.bind fun _ => Prompt.columnList.map fun _ => ⟨_, rfl⟩

theorem Prompt.uniqueItem (constraintName : Option String) :
    Prompt anyToken (uniqueItem constraintName) :=
  (Prompt.ifTaken (Prompt.pure ()) (Prompt.pure ()) ⟨⟨.keyword, "KEY", 0⟩, rfl⟩).bind fun _ =>
    Prompt.optionalName.bind fun _ => Prompt.columnList.map fun _ => ⟨_, rfl⟩

theorem exists_isKeyword (word : String) : ∃ t : Token, t.isKeyword word = true :=
  ⟨⟨.keyword, word, 0⟩, by simp [Token.isKeyword]⟩

theorem Prompt.constraintItem : Prompt notOn constraintItem := by
  refine Prompt.optionalName.bind fun name => ?_
  rw [ifTaken_fail]
  refine Prompt.ifTaken (Prompt.primaryKeyItem.mono fun _ _ => trivial) ?_ (exists_isKeyword _)
  refine Prompt.ifTaken ((Prompt.uniqueItem name).mono fun _ _ => trivial) ?_ (exists_isKeyword _)
  exact (Prompt.accept (exists_isKeyword _)).bind fun _ => Prompt.foreignKeyItem name

/-! ## Columns and items -/

theorem Prompt.typeArgument : Prompt anyToken typeArgument :=
  (Prompt.accept ⟨⟨.number, "", 0⟩, rfl⟩).map fun t => ⟨t.typeArgumentText, rfl⟩

theorem Prompt.arguments : Prompt (fun t => (t.kind == TokenKind.rightParen) = true)
    (Parser.commaSeparated (fun _ => false) Parser.typeArgument Consumes.typeArgument :
      Parser (List String)) := by
  refine Prompt.commaSeparated Prompt.typeArgument (fun _ _ => trivial) (fun t ht => ?_) ?_
  · have hkind : t.kind = .rightParen := by simpa using ht
    simp [hkind]
  · -- There is no empty list of arguments, so one argument is still to come.
    let argument : Grammar.Argument := ⟨⟨.number, "", 0⟩, rfl⟩
    refine ⟨[argument.1], [argument.1.typeArgumentText], fun t rest ht => ?_⟩
    have hkind : t.kind = .rightParen := by simpa using ht
    exact run_commaSeparated_last rfl (typeArgument_tokens argument _) (by simp [hkind])

theorem Prompt.columnType : Prompt anyToken columnType := by
  refine (Prompt.accept ⟨⟨.identifier, "", 0⟩, rfl⟩).bind fun t => ?_
  refine Prompt.ifTaken ?_ (Prompt.pure _) ⟨⟨.leftParen, "(", 0⟩, rfl⟩
  exact Prompt.arguments.closed fun arguments => ⟨typeText t.value arguments, rfl⟩

theorem Prompt.columnAttribute (t : Token) : Prompt anyToken (columnAttribute t) := by
  unfold Parser.columnAttribute
  split
  · exact Prompt.dropGroup.map fun _ => ⟨.ignored, rfl⟩
  split
  · exact Prompt.pure _
  split
  · exact Prompt.pure _
  split
  · exact (Prompt.keyword _).map fun _ => ⟨.notNull, rfl⟩
  split
  · exact Prompt.pure _
  split
  · exact (Prompt.accept ⟨⟨.number, "", 0⟩, rfl⟩).map fun value => ⟨.defaultValue value.value, rfl⟩
  · exact Prompt.pure _

/-- Only a comma or a closing parenthesis ends the attributes of a column. -/
theorem Prompt.columnDefinition :
    Prompt (fun t => t.endsAttributes = true) columnDefinition :=
  (Prompt.name _).bind fun name => Prompt.columnType.bind fun type =>
    (Prompt.manyUntil (fun t _ => Prompt.columnAttribute t) fun _ _ => trivial).map
      fun attributes => ⟨attributes.foldl ColumnAttribute.apply { name, type }, rfl⟩

theorem Prompt.tableItem : Prompt (fun t => t.endsAttributes = true) tableItem := by
  have hany : ∀ {p : Parser TableItem}, Prompt anyToken p →
      Prompt (fun t => t.endsAttributes = true) p := fun h => h.mono fun _ _ => trivial
  have hon : ∀ {p : Parser TableItem}, Prompt notOn p →
      Prompt (fun t => t.endsAttributes = true) p := fun h => h.mono fun t ht => by
    show t.isWord "ON" = false
    simp only [Token.endsAttributes, Bool.or_eq_true, beq_iff_eq] at ht
    rcases ht with ht | ht <;> simp [Token.isWord, ht]
  refine Prompt.ifTaken (hany Prompt.primaryKeyItem) ?_ (exists_isKeyword _)
  refine Prompt.ifTaken (hany Prompt.keyItem) ?_ ⟨⟨.keyword, "KEY", 0⟩, rfl⟩
  refine Prompt.ifTaken (hany (Prompt.uniqueItem none)) ?_ (exists_isKeyword _)
  refine Prompt.ifTaken (hon Prompt.constraintItem) ?_ (exists_isKeyword _)
  refine Prompt.ifTaken (hon (Prompt.foreignKeyItem none)) ?_ (exists_isKeyword _)
  exact Prompt.columnDefinition.map fun c => ⟨.column c, rfl⟩

/-! ## Statements -/

theorem Prompt.tableBody : Prompt anyToken tableBody := by
  have hitems : Prompt (fun t => (t.kind == TokenKind.rightParen) = true)
      (Parser.commaSeparated (·.kind == .rightParen) Parser.tableItem Consumes.tableItem :
        Parser (List TableItem)) := by
    refine Prompt.commaSeparated Prompt.tableItem (fun t ht => ?_) (fun t ht => ?_) ?_
    · simp [Token.endsAttributes, ht]
    · have hkind : t.kind = .rightParen := by simpa using ht
      simp [hkind]
    · exact ⟨[], [], fun t rest ht => run_commaSeparated_stop (by simpa using ht)⟩
  exact (Prompt.mark _).bind fun _ => hitems.closed fun items => ⟨items, rfl⟩

theorem Prompt.createTable : Prompt anyToken createTable := by
  have hexists : Prompt anyToken (Parser.ifTaken (Token.isKeyword "IF")
      (do Parser.keyword "NOT"; Parser.keyword "EXISTS") (return ())) :=
    Prompt.ifTaken ((Prompt.keyword _).bind fun _ => Prompt.keyword _) (Prompt.pure ())
      (exists_isKeyword _)
  have hdrop : Prompt anyToken (Parser.passOver dropStatement) :=
    Prompt.passOver (fun _ _ _ => dropStatement_split) fun _ h => by
      obtain ⟨more, hmore⟩ := dropStatement_complete h
      exact ⟨more, fun t rest _ => hmore (t :: rest)⟩
  exact (Prompt.keyword _).bind fun _ => hexists.bind fun _ => (Prompt.name _).bind fun name =>
    Prompt.tableBody.bind fun items => hdrop.map fun _ =>
      ⟨.createTable (Table.ofItems name items), rfl⟩

theorem Prompt.alterTable : Prompt notOn alterTable :=
  (Prompt.keyword _).bind fun _ => (Prompt.name _).bind fun table => (Prompt.keyword _).bind
    fun _ => (Prompt.keyword _).bind fun _ => (Prompt.name _).bind fun name =>
      (Prompt.keyword _).bind fun _ => Prompt.foreignKeyBody.map fun r =>
        ⟨.addForeignKey table (.foreignKey name r.1 r.2), rfl⟩

theorem Prompt.statement (t : Token) : Prompt notOn (statement t) := by
  unfold Parser.statement
  split
  · exact (Prompt.createTable.mono fun _ _ => trivial).map fun s => ⟨some s, rfl⟩
  split
  · exact Prompt.alterTable.map fun s => ⟨some s, rfl⟩
  · exact Prompt.pure _

/-- The statements of a script, as they are read one after another. -/
abbrev rounds : Parser (List (Option Statement)) :=
  manyUntil (fun _ => false) statement LeavesSuffix.statement

theorem Prompt.rounds : Prompt (fun t => (fun _ : Token => false) t = true) rounds :=
  Prompt.manyUntil (fun t _ => Prompt.statement t) nofun

theorem rounds_cons (t : Token) (ts : List Token) :
    rounds (t :: ts) = (statement t >>= fun s => rounds >>= fun found => pure (s :: found)) ts :=
  manyUntil_cons rfl ts

/-- Statements that are open can be completed. -/
theorem rounds_complete {ts : List Token} (h : Open rounds ts) :
    ∃ more found, rounds (ts ++ more) = .ok (found, []) := by
  -- Every statement takes a token, so the tokens behind it are fewer.
  induction hn : ts.length using Nat.strongRecOn generalizing ts with
  | ind n ih =>
    cases ts with
    | nil => exact ⟨[], [], run_manyUntil_stop rfl⟩
    | cons t ts =>
      rw [Open, rounds_cons] at h
      rcases Open.of_bind h with ho | ⟨s, u, mid, hs, h⟩
      · -- A statement that is open is completed in front of a semicolon.
        let semicolon : Grammar.Mark .semicolon := ⟨⟨.semicolon, ";", 0⟩, rfl⟩
        obtain ⟨more, s, hs⟩ := (Prompt.statement t ts).complete ho
        have hend : rounds [semicolon.1] = .ok ([none], []) :=
          run_manyUntil_cons rfl rfl (run_manyUntil_stop rfl)
        exact ⟨more ++ [semicolon.1], _,
          run_manyUntil_cons rfl (hs semicolon.1 [] rfl) hend⟩
      · have ho : Open rounds (u :: mid) := Open.of_map h fun found => ⟨s :: found, rfl⟩
        obtain ⟨pre, hts, -, hall⟩ := (Prompt.statement t ts).ok_split hs
        have hlen := congrArg List.length hts
        simp only [List.length_append, List.length_cons] at hlen hn
        obtain ⟨more, found, hmore⟩ := ih (mid.length + 1) (by omega) ho rfl
        refine ⟨more, s :: found, ?_⟩
        rw [hts, List.cons_append, List.append_assoc]
        exact run_manyUntil_cons rfl (hall (mid ++ more)) hmore

theorem Prompt.statements : Prompt (fun _ => False) statements :=
  (Prompt.rounds.map fun found => ⟨found.filterMap id, rfl⟩).mono fun _ h => h.elim

/-- A script that is open can be completed. -/
theorem Open.accepted {ts : List Token} (h : Open Parser.statements ts) :
    ∃ more ss, Parser.statements (ts ++ more) = .ok (ss, []) := by
  obtain ⟨more, found, hmore⟩ := rounds_complete (Open.of_map h fun found => ⟨_, rfl⟩)
  exact ⟨more, _, run_bind hmore⟩

end Parser

/-! ## Scripts -/

/-- Some continuation of the tokens is a script. -/
def HasContinuation (ts : List Token) : Prop :=
  ∃ more tables, readTokens (ts ++ more) = .ok tables

theorem readTokens_eq_error_iff {ts : List Token} {e : ParseError} :
    readTokens ts = .error e ↔ Parser.statements ts = .error e := by
  rw [readTokens]
  cases Parser.statements ts <;> simp

theorem hasContinuation_of_open {ts : List Token} (h : Parser.Open Parser.statements ts) :
    HasContinuation ts := by
  obtain ⟨more, ss, hmore⟩ := h.accepted
  exact ⟨more, schemaOf ss, by rw [readTokens, hmore]⟩

/-- An error at a token is settled there: before it, everything could still turn out well, and
from it on nothing can. -/
theorem exists_split_of_expected {ts : List Token} {what : Expectation} {found : Token}
    (h : readTokens ts = .error (.expected what found)) :
    ∃ pre rest, ts = pre ++ [found] ++ rest ∧ HasContinuation pre ∧
      ∀ rest', readTokens (pre ++ [found] ++ rest') = .error (.expected what found) := by
  obtain ⟨pre, rest, hts, ho, hall⟩ :=
    (Parser.Prompt.statements ts).error_split (readTokens_eq_error_iff.1 h)
  refine ⟨pre, rest, by simpa using hts, hasContinuation_of_open ho, fun rest' => ?_⟩
  rw [List.append_assoc]
  exact readTokens_eq_error_iff.2 (hall rest')

theorem not_hasContinuation {ts : List Token} {e : ParseError}
    (h : ∀ rest, readTokens (ts ++ rest) = .error e) : ¬ HasContinuation ts := by
  rintro ⟨more, tables, hmore⟩
  rw [h] at hmore
  cases hmore

/-- Reading stops with an error at a token exactly if the script cannot be saved, and so with an
error at its end only if it can.  The token is the first one from which on it cannot, and the
error is the same whatever comes behind it. -/
theorem readTokens_earliest (ts : List Token) :
    ((∃ what found, readTokens ts = .error (.expected what found)) ↔ ¬ HasContinuation ts) ∧
    (∀ what, readTokens ts = .error (.unexpectedEnd what) → HasContinuation ts) ∧
    ∀ what found, readTokens ts = .error (.expected what found) →
      ∃ pre rest, ts = pre ++ [found] ++ rest ∧ HasContinuation pre ∧
        ¬ HasContinuation (pre ++ [found]) ∧
        ∀ rest', readTokens (pre ++ [found] ++ rest') = .error (.expected what found) := by
  have hend : ∀ what, readTokens ts = .error (.unexpectedEnd what) → HasContinuation ts :=
    fun what h => hasContinuation_of_open (.inr ⟨what, readTokens_eq_error_iff.1 h⟩)
  refine ⟨⟨?_, ?_⟩, hend, ?_⟩
  · rintro ⟨what, found, h⟩
    obtain ⟨pre, rest, rfl, -, hall⟩ := exists_split_of_expected h
    refine not_hasContinuation (e := .expected what found) fun more => ?_
    rw [List.append_assoc]
    exact hall (rest ++ more)
  · intro h
    cases hread : readTokens ts with
    | ok tables => exact absurd ⟨[], tables, by rwa [List.append_nil]⟩ h
    | error e =>
      cases e with
      | unexpectedEnd what => exact absurd (hend what hread) h
      | expected what found => exact ⟨what, found, rfl⟩
  · intro what found h
    obtain ⟨pre, rest, hts, hpre, hall⟩ := exists_split_of_expected h
    exact ⟨pre, rest, hts, hpre, not_hasContinuation hall, hall⟩

/-- `ALTER TABLE T DROP` stops at `DROP`, which could have been `ADD`. -/
theorem readTokens_earliest_drop :
    let start : List Token :=
      [⟨.keyword, "ALTER", 0⟩, ⟨.keyword, "TABLE", 6⟩, ⟨.identifier, "T", 12⟩]
    let drop : Token := ⟨.identifier, "DROP", 14⟩
    readTokens (start ++ [drop]) = .error (.expected (.keyword "ADD") drop) ∧
      ∃ pre rest, start ++ [drop] = pre ++ [drop] ++ rest ∧ HasContinuation pre ∧
        ¬ HasContinuation (pre ++ [drop]) ∧
        ∀ rest',
          readTokens (pre ++ [drop] ++ rest') = .error (.expected (.keyword "ADD") drop) := by
  intro start drop
  have hread : readTokens (start ++ [drop]) = .error (.expected (.keyword "ADD") drop) := by
    refine readTokens_eq_error_iff.2 (Parser.run_bind_error ?_)
    exact (Parser.rounds_cons _ _).trans (Parser.run_bind_error rfl)
  exact ⟨hread, (readTokens_earliest (start ++ [drop])).2.2 _ _ hread⟩

end SchemaArchive
