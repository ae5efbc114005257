import Mathlib.Data.List.Infix
import SchemaArchive.Proofs.Script.Declared
import SchemaArchive.Proofs.Script.EarliestError

/-!
# Scripts behind each other

A script that ends in a semicolon is read on its own, whatever script comes behind it.  No part
of a statement that is read as a whole takes the semicolon: a table body and a column list end
with a parenthesis, and what follows a table body ends with the semicolon itself.  Only the
actions of a foreign key are taken by number, so they have to be there.

* `Parser.LeavesSemicolon` — what does not take the last semicolon.
* `Parser.Unaffected` — what reads the same when more tokens come behind the semicolon.
* `readTokens_append` — two scripts in one: the errors are those of the second, and so are its
  tables, while the tables of the first may get more foreign keys.
-/

namespace SchemaArchive

/-- Behind every word `ON` its action is there, and no token of it is a semicolon. -/
def ActionsComplete (ts : List Token) : Prop :=
  ∀ on after, on :: after <:+ ts → on.isWord "ON" = true →
    actionLength after ≤ after.length ∧
      ∀ t ∈ after.take (actionLength after), t.kind ≠ .semicolon

theorem actionsComplete_iff {ts : List Token} :
    ActionsComplete ts ↔ ∀ tail ∈ ts.tails, tail.head?.any (Token.isWord "ON") = true →
      actionLength tail.tail ≤ tail.tail.length ∧
        ∀ t ∈ tail.tail.take (actionLength tail.tail), t.kind ≠ .semicolon := by
  simp only [List.mem_tails]
  constructor
  · intro h tail htail hon
    cases tail with
    | nil => cases hon
    | cons on after => exact h on after htail hon
  · intro h on after htail hon
    exact h (on :: after) htail hon

instance (ts : List Token) : Decidable (ActionsComplete ts) :=
  decidable_of_iff _ actionsComplete_iff.symm

/-- The tokens end in a semicolon, if there are any, and all actions among them are complete. -/
structure Bounded (ts : List Token) : Prop where
  last : ∀ t ∈ ts.getLast?, t.kind = .semicolon
  actions : ActionsComplete ts

theorem Bounded.suffix {ts mid : List Token} (h : Bounded ts) (hmid : mid <:+ ts) :
    Bounded mid where
  last t ht := by
    obtain ⟨pre, rfl⟩ := hmid
    refine h.last t ?_
    rw [Option.mem_def] at ht ⊢
    rw [List.getLast?_append, ht]
    rfl
  actions on after htail := h.actions on after (htail.trans hmid)

/-! ## What is passed over -/

/-- Complete actions end before the semicolon. -/
theorem dropActions_ne_nil {ts : List Token} (h : Bounded ts) (hne : ts ≠ []) :
    dropActions ts ≠ [] := by
  fun_induction dropActions ts with
  | case1 => exact absurd rfl hne
  | case2 on ts hon ih =>
    obtain ⟨hlen, hnone⟩ := h.actions on ts List.suffix_rfl hon
    have htwo := two_le_actionLength ts
    have hrest : ts.drop (actionLength ts) ≠ [] := by
      -- Otherwise the semicolon at the end would belong to the action.
      intro hnil
      have htake : ts.take (actionLength ts) = ts := by
        rw [List.take_eq_self_iff]
        exact List.drop_eq_nil_iff.1 hnil
      have htsne : ts ≠ [] := by
        rintro rfl
        simp at hlen
        omega
      refine hnone (ts.getLast htsne) (htake.symm ▸ List.getLast_mem htsne) (h.last _ ?_)
      rw [List.getLast?_cons, Option.mem_def, List.getLast?_eq_some_getLast htsne]
      rfl
    exact ih (h.suffix ((List.drop_suffix _ _).trans (List.suffix_cons on ts))) hrest
  | case3 t ts hon => exact hne

/-- Where a semicolon is to come, the rest of a statement ends with it. -/
theorem dropStatement_append {ts : List Token} (h : ∃ t ∈ ts, t.kind = .semicolon)
    (more : List Token) : dropStatement (ts ++ more) = dropStatement ts ++ more := by
  induction ts with
  | nil => simp at h
  | cons t ts ih =>
    by_cases ht : t.kind = .semicolon
    · have hdrop := dropStatement_semicolon ⟨t, ht⟩
      rw [List.cons_append, hdrop, hdrop]
    · have hlater : ∃ t ∈ ts, t.kind = .semicolon := by simpa [ht] using h
      rw [List.cons_append, dropStatement_of_ne ht, dropStatement_of_ne ht, ih hlater]

theorem Bounded.exists_semicolon {ts : List Token} (h : Bounded ts) (hne : ts ≠ []) :
    ∃ t ∈ ts, t.kind = .semicolon :=
  ⟨ts.getLast hne, List.getLast_mem hne, h.last _ (List.getLast?_eq_some_getLast hne)⟩

namespace Parser

variable {α β : Type} {F : Token → Prop} {p : Parser α} {f : α → Parser β}

/-! ## The semicolon at the end -/

/-- The parser does not take all tokens when a semicolon stands at their end. -/
def LeavesSemicolon (p : Parser α) : Prop :=
  ∀ ⦃ts : List Token⦄ ⦃a : α⦄, Bounded ts → p ts ≠ .ok (a, [])

theorem LeavesSemicolon.bind (hp : p.LeavesSuffix) (hf : ∀ a, (f a).LeavesSemicolon) :
    (p >>= f).LeavesSemicolon := by
  intro ts b h hok
  obtain ⟨a, mid, ha, hb⟩ := bind_eq_ok_iff.1 hok
  exact hf a (h.suffix (hp ha)) hb

theorem LeavesSemicolon.map (hp : p.LeavesSemicolon) (g : α → β) :
    (p >>= fun a => pure (g a)).LeavesSemicolon := by
  intro ts b h hok
  obtain ⟨a, mid, ha, hb⟩ := bind_eq_ok_iff.1 hok
  obtain ⟨-, rfl⟩ := Prod.mk.inj (Except.ok.inj hb)
  exact hp h ha

theorem LeavesSemicolon.mark {kind : TokenKind} (hkind : kind ≠ .semicolon) :
    (mark kind).LeavesSemicolon := by
  intro ts a h hok
  obtain ⟨t, mid, ht, hpure⟩ := bind_eq_ok_iff.1 hok
  obtain ⟨-, rfl⟩ := Prod.mk.inj (Except.ok.inj hpure)
  cases ts with
  | nil => cases ht
  | cons u us =>
    rw [accept] at ht
    split at ht
    · next hu =>
      obtain ⟨rfl, rfl⟩ := Prod.mk.inj (Except.ok.inj ht)
      exact hkind ((beq_iff_eq.1 hu).symm.trans (h.last u rfl))
    · cases ht

theorem LeavesSemicolon.columnList : columnList.LeavesSemicolon :=
  .bind (Consumes.mark _).leavesSuffix fun _ => .bind (LeavesSuffix.manyUntil _) fun entries =>
    (LeavesSemicolon.mark (by decide : TokenKind.rightParen ≠ .semicolon)).map
      fun _ => entries.filterMap id

theorem LeavesSemicolon.tableBody : tableBody.LeavesSemicolon :=
  .bind (Consumes.mark _).leavesSuffix fun _ => .bind (LeavesSuffix.commaSeparated _) fun items =>
    (LeavesSemicolon.mark (by decide : TokenKind.rightParen ≠ .semicolon)).map fun _ => items

theorem LeavesSemicolon.foreignKeyBody : foreignKeyBody.LeavesSemicolon := by
  refine .bind (Consumes.keyword _).leavesSuffix fun _ => ?_
  refine .bind Consumes.columnList.leavesSuffix fun columns => ?_
  refine .bind (Consumes.keyword _).leavesSuffix fun _ => ?_
  refine .bind (Consumes.name _).leavesSuffix fun table => ?_
  intro ts r h hok
  obtain ⟨targetColumns, mid, hcolumns, hdrop⟩ := bind_eq_ok_iff.1 hok
  have hmid : mid ≠ [] := by
    rintro rfl
    exact LeavesSemicolon.columnList h hcolumns
  have hbounded := h.suffix (Consumes.columnList.leavesSuffix hcolumns)
  exact dropActions_ne_nil hbounded hmid (Prod.mk.inj (Except.ok.inj hdrop)).2

theorem LeavesSemicolon.alterTable : alterTable.LeavesSemicolon := by
  refine .bind (Consumes.keyword _).leavesSuffix fun _ => ?_
  refine .bind (Consumes.name _).leavesSuffix fun table => ?_
  refine .bind (Consumes.keyword _).leavesSuffix fun _ => ?_
  refine .bind (Consumes.keyword _).leavesSuffix fun _ => ?_
  refine .bind (Consumes.name _).leavesSuffix fun name => ?_
  refine .bind (Consumes.keyword _).leavesSuffix fun _ => ?_
  exact LeavesSemicolon.foreignKeyBody.map fun r =>
    Statement.addForeignKey table (.foreignKey name r.1 r.2)

/-! ## More tokens behind the semicolon -/

/-- What the parser reads before a semicolon at the end of the tokens, or up to it, does not
change when more tokens come behind. -/
def Unaffected (p : Parser α) : Prop :=
  ∀ ⦃ts : List Token⦄ ⦃a : α⦄ ⦃mid : List Token⦄, Bounded ts → ts ≠ [] → p ts = .ok (a, mid) →
    ∀ more, p (ts ++ more) = .ok (a, mid ++ more)

/-- A token that is left shows that the parser was done before it. -/
theorem Prompt.run_append (hp : Prompt F p) {ts mid : List Token} {a : α} (hmid : mid ≠ [])
    (h : p ts = .ok (a, mid)) (more : List Token) : p (ts ++ more) = .ok (a, mid ++ more) := by
  cases mid with
  | nil => exact absurd rfl hmid
  | cons t mid =>
    obtain ⟨pre, rfl, -, hall⟩ := (hp ts).ok_split h
    rw [List.append_assoc, List.cons_append, hall]

theorem LeavesSemicolon.unaffected (hp : Prompt F p) (h : p.LeavesSemicolon) : Unaffected p := by
  intro ts a mid hbounded _ hok
  refine hp.run_append ?_ hok
  rintro rfl
  exact h hbounded hok

/-- Reading in sequence, if something is left for the second parser. -/
theorem Unaffected.bind (hp : Prompt F p) (hsuffix : p.LeavesSuffix) (hf : ∀ a, Unaffected (f a))
    (hmid : ∀ {ts a r}, Bounded ts → p ts = .ok (a, []) → f a [] ≠ .ok r) :
    Unaffected (p >>= f) := by
  intro ts b rest h _ hok more
  obtain ⟨a, mid, ha, hb⟩ := bind_eq_ok_iff.1 hok
  have hne : mid ≠ [] := by
    rintro rfl
    exact hmid h ha hb
  rw [run_bind (hp.run_append hne ha more)]
  exact hf a (h.suffix (hsuffix ha)) hne hb more

/-- Reading in sequence, if the second parser takes a token. -/
theorem Unaffected.bind_consumes (hp : Prompt F p) (hsuffix : p.LeavesSuffix)
    (hf : ∀ a, Unaffected (f a) ∧ (f a).Consumes) :
    Unaffected (p >>= f) ∧ (p >>= f).Consumes := by
  refine ⟨.bind hp hsuffix (fun a => (hf a).1) fun {_ a r} _ _ hok => ?_,
    hsuffix.bind_consumes fun a => (hf a).2⟩
  have hlen := ((hf a).2 hok).2
  simp at hlen

theorem Unaffected.map (hp : Unaffected p) (g : α → β) :
    Unaffected (p >>= fun a => pure (g a)) := by
  intro ts b rest h hne hok more
  obtain ⟨a, mid, ha, hb⟩ := bind_eq_ok_iff.1 hok
  obtain ⟨rfl, rfl⟩ := Prod.mk.inj (Except.ok.inj hb)
  rw [run_bind (hp h hne ha more)]
  rfl

theorem Unaffected.dropStatement : Unaffected (passOver dropStatement) := by
  intro ts a mid h hne hok more
  obtain ⟨-, rfl⟩ := Prod.mk.inj (Except.ok.inj hok)
  rw [run_passOver, dropStatement_append (h.exists_semicolon hne)]

theorem Unaffected.pure (a : α) : Unaffected (Pure.pure a : Parser α) := by
  intro ts b mid _ _ hok more
  obtain ⟨rfl, rfl⟩ := Prod.mk.inj (Except.ok.inj hok)
  rfl

theorem Unaffected.createTable : Unaffected createTable := by
  have hexists : Prompt anyToken (Parser.ifTaken (Token.isKeyword "IF")
      (do Parser.keyword "NOT"; Parser.keyword "EXISTS") (return ())) :=
    Prompt.ifTaken ((Prompt.keyword _).bind fun _ => Prompt.keyword _) (Prompt.pure ())
      (exists_isKeyword _)
  have hsuffix : LeavesSuffix (Parser.ifTaken (Token.isKeyword "IF")
      (do Parser.keyword "NOT"; Parser.keyword "EXISTS") (return ())) :=
    .ifTaken ((Consumes.keyword _).leavesSuffix.bind fun _ => (Consumes.keyword _).leavesSuffix)
      (.pure _)
  -- A table body ends with a parenthesis, so the semicolon is left for the rest of the statement.
  have hbody : ∀ name, Unaffected (do
      let items ← Parser.tableBody
      Parser.passOver SchemaArchive.dropStatement
      return Statement.createTable (Table.ofItems name items)) := by
    intro name
    refine .bind Prompt.tableBody Consumes.tableBody.leavesSuffix (fun items => ?_) ?_
    · exact Unaffected.dropStatement.map fun _ => Statement.createTable (Table.ofItems name items)
    · exact fun h hok => absurd hok (LeavesSemicolon.tableBody h)
  have hconsumes : ∀ name, Consumes (do
      let items ← Parser.tableBody
      Parser.passOver SchemaArchive.dropStatement
      return Statement.createTable (Table.ofItems name items)) := fun name =>
    Consumes.tableBody.bind fun _ => (LeavesSuffix.passOver dropStatement_suffix).bind fun _ =>
      .pure _
  refine (bind_consumes (Prompt.keyword _) (Consumes.keyword _).leavesSuffix fun _ => ?_).1
  refine bind_consumes hexists hsuffix fun _ => ?_
  refine bind_consumes (Prompt.name _) (Consumes.name _).leavesSuffix fun name => ?_
  exact ⟨hbody name, hconsumes name⟩

theorem Unaffected.statement (t : Token) : Unaffected (statement t) := by
  unfold Parser.statement
  split
  · exact Unaffected.createTable.map some
  split
  · exact (LeavesSemicolon.alterTable.unaffected Prompt.alterTable).map some
  · exact Unaffected.pure none

/-- The semicolon at the end begins no statement, and all other statements stop with it or
before it. -/
theorem statement_append {t : Token} {ts mid : List Token} {s : Option Statement}
    (h : Bounded (t :: ts)) (hok : statement t ts = .ok (s, mid)) (more : List Token) :
    statement t (ts ++ more) = .ok (s, mid ++ more) := by
  cases ts with
  | nil =>
    have hkind : t.kind = .semicolon := h.last t rfl
    have hnone : statement t = pure none := by
      unfold Parser.statement
      simp [Token.isKeyword, hkind]
    rw [hnone] at hok ⊢
    obtain ⟨rfl, rfl⟩ := Prod.mk.inj (Except.ok.inj hok)
    rfl
  | cons u us =>
    exact Unaffected.statement t (h.suffix (List.suffix_cons t _)) (List.cons_ne_nil u us) hok more

/-! ## One statement after another -/

/-- What holds of no statements, and of one statement more when it holds of those behind it,
holds of all statements that are read. -/
theorem rounds_induction {P : List Token → List (Option Statement) → Prop} (nil : P [] [])
    (cons : ∀ t ts s mid found, statement t ts = .ok (s, mid) → rounds mid = .ok (found, []) →
      P mid found → P (t :: ts) (s :: found))
    {ts rest : List Token} {found : List (Option Statement)} (h : rounds ts = .ok (found, rest)) :
    rest = [] ∧ P ts found := by
  -- Every statement takes a token, so the tokens behind it are fewer.
  induction hn : ts.length using Nat.strongRecOn generalizing ts found with
  | ind n ih =>
    cases ts with
    | nil =>
      have hnil : rounds [] = .ok ([], []) := run_manyUntil_stop rfl
      rw [hnil] at h
      obtain ⟨rfl, rfl⟩ := Prod.mk.inj (Except.ok.inj h)
      exact ⟨rfl, nil⟩
    | cons t ts =>
      rw [rounds_cons] at h
      obtain ⟨s, mid, hs, hmid⟩ := bind_eq_ok_iff.1 h
      obtain ⟨later, rest', hlater, hpure⟩ := bind_eq_ok_iff.1 hmid
      obtain ⟨rfl, rfl⟩ := Prod.mk.inj (Except.ok.inj hpure)
      have hlen := (LeavesSuffix.statement t hs).length_le
      simp only [List.length_cons] at hn
      obtain ⟨rfl, hP⟩ := ih mid.length (by omega) hlater rfl
      exact ⟨rfl, cons t ts s mid later hs hlater hP⟩

/-- What is read in sequence depends on the tokens only through what the first parser makes of
them. -/
theorem run_bind_congr {q : Parser α} {ts us : List Token} (h : p ts = q us) :
    (p >>= f) ts = (q >>= f) us := by
  show (p ts >>= fun r => f r.1 r.2) = (q us >>= fun r => f r.1 r.2)
  rw [h]

/-- Statements behind a semicolon are read as if they stood alone. -/
theorem rounds_append {ts : List Token} {found : List (Option Statement)} (h : Bounded ts)
    (hok : rounds ts = .ok (found, [])) (more : List Token) :
    rounds (ts ++ more) = (rounds >>= fun later => pure (found ++ later)) more := by
  revert h
  refine (rounds_induction (P := fun ts found => Bounded ts →
    rounds (ts ++ more) = (rounds >>= fun later => pure (found ++ later)) more) ?_ ?_ hok).2
  · intro _
    simp
  · intro t ts s mid found hs _ ih h
    have hmid := ih (h.suffix ((LeavesSuffix.statement t hs).trans (List.suffix_cons t ts)))
    rw [List.cons_append, rounds_cons, run_bind (statement_append h hs more),
      run_bind_congr hmid, bind_assoc]
    simp only [pure_bind, List.cons_append]

theorem statements_append {ts : List Token} {ss : List Statement} (h : Bounded ts)
    (hok : Parser.statements ts = .ok (ss, [])) (more : List Token) :
    Parser.statements (ts ++ more) =
      (Parser.statements >>= fun later => pure (ss ++ later)) more := by
  obtain ⟨found, rest, hfound, hpure⟩ := bind_eq_ok_iff.1 hok
  obtain ⟨rfl, rfl⟩ := Prod.mk.inj (Except.ok.inj hpure)
  rw [Parser.statements, run_bind_congr (rounds_append h hfound more), bind_assoc, bind_assoc]
  simp only [pure_bind, List.filterMap_append]

/-- All tokens of a script are read. -/
theorem statements_rest {ts rest : List Token} {ss : List Statement}
    (h : Parser.statements ts = .ok (ss, rest)) : rest = [] := by
  obtain ⟨found, mid, hfound, hpure⟩ := bind_eq_ok_iff.1 h
  obtain ⟨-, rfl⟩ := Prod.mk.inj (Except.ok.inj hpure)
  exact (rounds_induction (P := fun _ _ => True) trivial (fun _ _ _ _ _ _ _ _ => trivial)
    hfound).1

/-! ## Where foreign keys come from -/

/-- Whatever the parser gives has the property. -/
def Yields (P : α → Prop) (p : Parser α) : Prop :=
  ∀ ⦃ts : List Token⦄ ⦃a : α⦄ ⦃rest : List Token⦄, p ts = .ok (a, rest) → P a

theorem Yields.bind {P : β → Prop} (hf : ∀ a, Yields P (f a)) : Yields P (p >>= f) := by
  intro ts b rest h
  obtain ⟨a, mid, -, hb⟩ := bind_eq_ok_iff.1 h
  exact hf a hb

theorem Yields.pure {P : α → Prop} {a : α} (ha : P a) : Yields P (Pure.pure a) := by
  intro ts b rest h
  obtain ⟨rfl, -⟩ := Prod.mk.inj (Except.ok.inj h)
  exact ha

theorem Yields.createTable : Yields (∃ table, · = Statement.createTable table) createTable :=
  .bind fun _ => .bind fun _ => .bind fun _ => .bind fun _ => .bind fun _ => .pure ⟨_, rfl⟩

theorem Yields.alterTable :
    Yields (∃ table name columns target,
      · = Statement.addForeignKey table (.foreignKey name columns target)) alterTable :=
  .bind fun _ => .bind fun _ => .bind fun _ => .bind fun _ => .bind fun _ => .bind fun _ =>
    .bind fun _ => .pure ⟨_, _, _, _, rfl⟩

/-- Only the word `ALTER` adds something to a table, and what it adds is a foreign key. -/
theorem statement_addForeignKey {t : Token} {ts rest : List Token} {table : String}
    {key : Constraint} (h : statement t ts = .ok (some (.addForeignKey table key), rest)) :
    t.isKeyword "ALTER" = true ∧ key.isForeignKey = true := by
  unfold Parser.statement at h
  split at h
  · obtain ⟨s, mid, hs, hpure⟩ := bind_eq_ok_iff.1 h
    obtain ⟨created, rfl⟩ := Yields.createTable hs
    cases hpure
  split at h
  · next halter =>
    obtain ⟨s, mid, hs, hpure⟩ := bind_eq_ok_iff.1 h
    obtain ⟨name, keyName, columns, target, rfl⟩ := Yields.alterTable hs
    cases hpure
    exact ⟨halter, rfl⟩
  · cases h

theorem statements_addForeignKey {ts rest : List Token} {ss : List Statement}
    (h : Parser.statements ts = .ok (ss, rest)) {table : String} {key : Constraint}
    (hmem : .addForeignKey table key ∈ ss) :
    (∃ t ∈ ts, t.isKeyword "ALTER" = true) ∧ key.isForeignKey = true := by
  obtain ⟨found, mid, hfound, hpure⟩ := bind_eq_ok_iff.1 h
  obtain ⟨rfl, rfl⟩ := Prod.mk.inj (Except.ok.inj hpure)
  rw [List.mem_filterMap] at hmem
  obtain ⟨s, hs, rfl⟩ := hmem
  refine (rounds_induction (P := fun ts found => some (.addForeignKey table key) ∈ found →
    (∃ t ∈ ts, t.isKeyword "ALTER" = true) ∧ key.isForeignKey = true) nofun ?_ hfound).2 hs
  intro t ts s mid found hs _ ih hmem
  rcases List.mem_cons.1 hmem with rfl | hmem
  · obtain ⟨halter, hkey⟩ := statement_addForeignKey hs
    exact ⟨⟨t, List.mem_cons_self, halter⟩, hkey⟩
  · obtain ⟨⟨u, hu, halter⟩, hkey⟩ := ih hmem
    have hmid := (LeavesSuffix.statement t hs).trans (List.suffix_cons t ts)
    exact ⟨⟨u, hmid.mem hu, halter⟩, hkey⟩

end Parser

namespace Grammar

theorem mem_addedTo {table : String} {key : Constraint} {ss : List Statement}
    (h : key ∈ addedTo table ss) : .addForeignKey table key ∈ ss := by
  induction ss with
  | nil => cases h
  | cons s ss ih =>
    cases s with
    | createTable t =>
      rw [addedTo] at h
      split at h
      · cases h
      · exact List.mem_cons_of_mem _ (ih h)
    | addForeignKey name later =>
      rw [addedTo] at h
      split at h
      · next hname =>
        subst hname
        rcases List.mem_cons.1 h with rfl | h
        · exact List.mem_cons_self
        · exact List.mem_cons_of_mem _ (ih h)
      · exact List.mem_cons_of_mem _ (ih h)

/-- Statements that add no foreign keys leave the tables before them alone. -/
theorem extended_of_addedTo {ss : List Statement} (h : ∀ table, addedTo table ss = [])
    (tables : List Table) : extended ss tables = tables := by
  induction tables with
  | nil => rfl
  | cons t ts ih => simp [extended, h, ih]

end Grammar

/-! ## Two scripts in one -/

open Grammar (addedTo declared extended)

theorem readTokens_eq_ok_iff {ts : List Token} {tables : List Table} :
    readTokens ts = .ok tables ↔
      ∃ ss, Parser.statements ts = .ok (ss, []) ∧ schemaOf ss = tables := by
  rw [readTokens]
  constructor
  · intro h
    cases hts : Parser.statements ts with
    | error e => rw [hts] at h; cases h
    | ok r =>
      obtain ⟨ss, rest⟩ := r
      obtain rfl := Parser.statements_rest hts
      rw [hts] at h
      exact ⟨ss, rfl, Except.ok.inj h⟩
  · rintro ⟨ss, hss, rfl⟩
    rw [hss]

/-- A script behind another one, whose last token is a semicolon and whose actions are complete,
is read as if it stood alone: with the same errors, and the same tables.  The tables of the first
script stay where they are.  They keep their columns and their constraints, and behind these the
last table of each name gets the foreign keys that the second script adds to this name before it
declares the name itself. -/
theorem readTokens_append {left right : List Token} {tables : List Table}
    (hlast : left.getLast?.map (·.kind) = some .semicolon) (hactions : ActionsComplete left)
    (hleft : readTokens left = .ok tables) :
    (∀ e, readTokens right = .error e → readTokens (left ++ right) = .error e) ∧
    ∀ more, readTokens right = .ok more → ∃ ss, Parser.statements right = .ok (ss, []) ∧
      readTokens (left ++ right) = .ok (extended ss tables ++ more) ∧
      (∀ table, ∀ key ∈ addedTo table ss, key.isForeignKey = true) ∧
      ((∀ t ∈ right, t.isKeyword "ALTER" = false) → extended ss tables = tables) := by
  have hbounded : Bounded left := by
    refine ⟨fun t ht => ?_, hactions⟩
    rw [Option.mem_def.1 ht] at hlast
    exact Option.some.inj hlast
  obtain ⟨before, hbefore, rfl⟩ := readTokens_eq_ok_iff.1 hleft
  have happend := Parser.statements_append hbounded hbefore right
  refine ⟨fun e hright => ?_, fun more hright => ?_⟩
  · rw [readTokens_eq_error_iff, happend]
    exact Parser.run_bind_error (readTokens_eq_error_iff.1 hright)
  · obtain ⟨ss, hss, rfl⟩ := readTokens_eq_ok_iff.1 hright
    refine ⟨ss, hss, readTokens_eq_ok_iff.2 ⟨before ++ ss, ?_, ?_⟩, fun table key hkey => ?_,
      fun hnone => Grammar.extended_of_addedTo (fun table => ?_) _⟩
    · rw [happend, Parser.run_bind hss]
      rfl
    · rw [schemaOf_append, Grammar.foldl_apply, Grammar.schemaOf_eq_declared ss]
    · exact (Parser.statements_addForeignKey hss (Grammar.mem_addedTo hkey)).2
    · rw [List.eq_nil_iff_forall_not_mem]
      intro key hkey
      obtain ⟨⟨t, ht, halter⟩, -⟩ :=
        Parser.statements_addForeignKey hss (Grammar.mem_addedTo hkey)
      rw [hnone t ht] at halter
      cases halter

theorem eq_ok_of_toOption {ε α : Type} {x : Except ε α} {a : α} (h : x.toOption = some a) :
    x = .ok a := by
  cases x with
  | error e => cases h
  | ok b => rw [Option.some.inj h]

/-- The second script adds a foreign key to the table of the first one and then declares another
table of the same name, to which its next foreign key goes. -/
theorem readTokens_append_namesake :
    let left := tokenize
      "CREATE TABLE T (A INT, FOREIGN KEY (A) REFERENCES T (A) ON DELETE SET NULL);"
    let right := tokenize
      "ALTER TABLE T ADD CONSTRAINT F FOREIGN KEY (A) REFERENCES T (A); CREATE TABLE T (B INT);
      ALTER TABLE T ADD CONSTRAINT G FOREIGN KEY (B) REFERENCES T (B);"
    readTokens (left ++ right) = .ok
      [⟨"T", [{ name := "A", type := "INT" }], [.foreignKey "T_ibfk_1" ["A"] ⟨"T", ["A"]⟩,
          .foreignKey "F" ["A"] ⟨"T", ["A"]⟩]⟩,
        ⟨"T", [{ name := "B", type := "INT" }], [.foreignKey "G" ["B"] ⟨"T", ["B"]⟩]⟩] := by
  intro left right
  have hleft : readTokens left = .ok [⟨"T", [{ name := "A", type := "INT" }],
      [.foreignKey "T_ibfk_1" ["A"] ⟨"T", ["A"]⟩]⟩] := eq_ok_of_toOption (by decide +kernel)
  have hright : Parser.statements right = .ok ([.addForeignKey "T" (.foreignKey "F" ["A"]
      ⟨"T", ["A"]⟩), .createTable ⟨"T", [{ name := "B", type := "INT" }], []⟩,
      .addForeignKey "T" (.foreignKey "G" ["B"] ⟨"T", ["B"]⟩)], []) :=
    eq_ok_of_toOption (by decide +kernel)
  obtain ⟨ss, hss, happend, -⟩ := (readTokens_append (by decide +kernel) (by decide +kernel)
    hleft).2 _ (readTokens_eq_ok_iff.2 ⟨_, hright, rfl⟩)
  rw [hright] at hss
  obtain ⟨rfl, -⟩ := Prod.mk.inj (Except.ok.inj hss)
  exact happend

end SchemaArchive
