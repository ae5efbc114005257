import SchemaArchive.Proofs.Script.Concatenation
import SchemaArchive.Proofs.Script.RenderedItems

/-!
# What reading takes

Scripts are read whether or not they are well formed, so a schema that comes out need not be that
of a script of the grammar.  But every column in it was written down: `Parser.Takes` says of a
parser what the tokens that it took have to do with what it gives, with one rule for each way in
which parsers are put together.

* `Parser.Takes` and its rules — `Takes.bind`, `Takes.ifTaken`, `Takes.manyUntil`,
  `Takes.commaSeparated`.
* `Parser.Takes.columnType`, `Parser.Takes.columnDefinition` — a column, and how its type is
  written.
* `ReadBody`, `ReadTable` — a table body, and the declaration of a table, as they are read.
* `standsIn_of_readTokens` — every column of a schema stands in the tokens of the script, behind a
  parenthesis or a comma.
-/

namespace SchemaArchive

open Grammar

namespace Parser

variable {α β ι : Type}

/-- What `p` gives has to do, in the way of `R`, with the tokens that it took. -/
def Takes (p : Parser α) (R : List Token → α → Prop) : Prop :=
  ∀ ⦃ts : List Token⦄ ⦃a : α⦄ ⦃rest : List Token⦄, p ts = .ok (a, rest) →
    ∃ taken, ts = taken ++ rest ∧ R taken a

variable {p yes no member : Parser α} {f : α → Parser β} {R R' : List Token → α → Prop}
  {stop : Token → Bool}

namespace Takes

/-! ## Single steps -/

theorem imp (h : p.Takes R) (hR : ∀ taken a, R taken a → R' taken a) : p.Takes R' := by
  intro ts a rest hp
  obtain ⟨taken, hts, hr⟩ := h hp
  exact ⟨taken, hts, hR taken a hr⟩

/-- What the parser takes is what it does not leave. -/
theorem of_append (h : p.Takes R) {taken rest : List Token} {a : α}
    (hp : p (taken ++ rest) = .ok (a, rest)) : R taken a := by
  obtain ⟨taken', hts, hr⟩ := h hp
  rwa [List.append_cancel_right hts]

theorem bind {S : α → List Token → β → Prop} (hp : p.Takes R) (hf : ∀ a, (f a).Takes (S a)) :
    (p >>= f).Takes fun taken b =>
      ∃ first a second, taken = first ++ second ∧ R first a ∧ S a second b := by
  intro ts b rest h
  obtain ⟨a, mid, h₁, h₂⟩ := bind_eq_ok_iff.1 h
  obtain ⟨first, rfl, hr⟩ := hp h₁
  obtain ⟨second, rfl, hs⟩ := hf a h₂
  exact ⟨first ++ second, by rw [List.append_assoc], first, a, second, rfl, hr, hs⟩

theorem pure (a : α) : (Pure.pure a : Parser α).Takes fun taken b => taken = [] ∧ b = a := by
  intro ts b rest h
  obtain ⟨rfl, rfl⟩ := Prod.mk.inj (Except.ok.inj h)
  exact ⟨[], rfl, rfl, rfl⟩

/-- A parser that never goes back takes tokens of some sort. -/
theorem of_leavesSuffix (h : p.LeavesSuffix) : p.Takes fun _ _ => True := by
  intro ts a rest hp
  obtain ⟨taken, rfl⟩ := h hp
  exact ⟨taken, rfl, trivial⟩

/-- What holds of all that a parser gives does not depend on the tokens. -/
theorem of_yields {P : α → Prop} (h : p.LeavesSuffix) (hP : Yields P p) :
    p.Takes fun _ a => P a := by
  intro ts a rest hp
  obtain ⟨taken, rfl⟩ := h hp
  exact ⟨taken, rfl, hP hp⟩

theorem accept (what : Expectation) (test : Token → Bool) :
    (accept what test).Takes fun taken t => taken = [t] ∧ test t = true := by
  intro ts t rest h
  cases ts with
  | nil => cases h
  | cons u us =>
    rw [Parser.accept] at h
    split at h
    · next hu =>
      obtain ⟨rfl, rfl⟩ := Prod.mk.inj (Except.ok.inj h)
      exact ⟨[u], rfl, rfl, hu⟩
    · cases h

theorem mark (kind : TokenKind) :
    (mark kind).Takes fun taken _ => ∃ t : Mark kind, taken = [t.1] := by
  refine ((accept _ _).bind fun t => pure ()).imp ?_
  rintro taken a ⟨first, t, second, rfl, ⟨rfl, ht⟩, rfl, -⟩
  exact ⟨⟨t, by simpa using ht⟩, rfl⟩

theorem name (what : Expectation) :
    (name what).Takes fun taken s => ∃ t : Name, taken = [t.1] ∧ s = t.1.value := by
  refine ((accept _ _).bind fun t => pure t.value).imp ?_
  rintro taken s ⟨first, t, second, rfl, ⟨rfl, ht⟩, rfl, rfl⟩
  exact ⟨⟨t, ht⟩, rfl, rfl⟩

theorem keyword (word : String) :
    (keyword word).Takes fun taken _ => ∃ t : Reserved word, taken = [t.1] := by
  refine ((accept _ _).bind fun t => pure ()).imp ?_
  rintro taken a ⟨first, t, second, rfl, ⟨rfl, ht⟩, rfl, -⟩
  exact ⟨⟨t, ht⟩, rfl⟩

theorem optionalName : optionalName.Takes fun taken s? =>
    ∃ t? : Option Name, taken = maybe t? ∧ s? = t?.map (·.1.value) := by
  intro ts s? rest h
  cases ts with
  | nil =>
    obtain ⟨rfl, rfl⟩ := Prod.mk.inj (Except.ok.inj h)
    exact ⟨[], rfl, none, rfl, rfl⟩
  | cons t ts =>
    by_cases ht : t.isName = true
    · rw [run_optionalName_some ⟨t, ht⟩] at h
      obtain ⟨rfl, rfl⟩ := Prod.mk.inj (Except.ok.inj h)
      exact ⟨[t], rfl, some ⟨t, ht⟩, rfl, rfl⟩
    · rw [run_optionalName_none (by simpa using ht)] at h
      obtain ⟨rfl, rfl⟩ := Prod.mk.inj (Except.ok.inj h)
      exact ⟨[], rfl, none, rfl, rfl⟩

theorem fail (what : Expectation) : (fail what : Parser α).Takes fun _ _ => False := by
  intro ts a rest h
  cases ts <;> cases h

theorem ifTaken {test : Token → Bool} (hyes : yes.Takes R) (hno : no.Takes R') :
    (ifTaken test yes no).Takes fun taken a =>
      (∃ t more, taken = t :: more ∧ test t = true ∧ R more a) ∨ R' taken a := by
  intro ts a rest h
  have hno' : no ts = .ok (a, rest) → ∃ taken, ts = taken ++ rest ∧
      ((∃ t more, taken = t :: more ∧ test t = true ∧ R more a) ∨ R' taken a) := fun h => by
    obtain ⟨taken, rfl, hr⟩ := hno h
    exact ⟨taken, rfl, .inr hr⟩
  cases ts with
  | nil => exact hno' h
  | cons t ts =>
    rw [Parser.ifTaken] at h
    split at h
    · next ht =>
      obtain ⟨taken, rfl, hr⟩ := hyes h
      exact ⟨t :: taken, rfl, .inl ⟨t, taken, rfl, ht, hr⟩⟩
    · exact hno' h

/-! ## Repetition -/

/-- Rounds until a token stops them: one piece for each round, from its own first token on. -/
theorem manyUntil {step : Token → Parser α} {h : ∀ t, (step t).LeavesSuffix}
    {R : Token → List Token → α → Prop} (hstep : ∀ t, (step t).Takes (R t)) :
    Takes (Parser.manyUntil stop step h) fun taken as =>
      ∃ pieces : List (List Token × α), taken = pieces.flatMap Prod.fst ∧
        as = pieces.map Prod.snd ∧ ∀ i ∈ pieces, ∃ t more, i.1 = t :: more ∧ R t more i.2 := by
  intro ts
  fun_induction Parser.manyUntil stop step h ts with
  | case1 =>
    intro as rest hr
    obtain ⟨rfl, rfl⟩ := Prod.mk.inj (Except.ok.inj hr)
    exact ⟨[], rfl, [], rfl, rfl, List.forall_mem_nil _⟩
  | case2 t ts ht =>
    intro as rest hr
    obtain ⟨rfl, rfl⟩ := Prod.mk.inj (Except.ok.inj hr)
    exact ⟨[], rfl, [], rfl, rfl, List.forall_mem_nil _⟩
  | case3 => intro as rest hr; cases hr
  | case4 => intro as rest hr; cases hr
  | case5 t ts ht a mid hs as rest' hm ih =>
    intro bs rest hr
    obtain ⟨rfl, rfl⟩ := Prod.mk.inj (Except.ok.inj hr)
    obtain ⟨more, rfl, hmore⟩ := hstep t hs
    obtain ⟨taken, rfl, pieces, rfl, rfl, hpieces⟩ := ih hm
    refine ⟨t :: more ++ pieces.flatMap Prod.fst, by simp, (t :: more, a) :: pieces, rfl, rfl, ?_⟩
    rw [List.forall_mem_cons]
    exact ⟨⟨t, more, rfl, hmore⟩, hpieces⟩

/-- A list whose members stand between commas: the members with a comma behind them, and perhaps
one more without.  If there is none without, what comes next stops the list. -/
theorem commaSeparated {tokens : ι → List Token} {value : ι → α} {hc : member.Consumes}
    (hmember : member.Takes fun taken a => ∃ i, taken = tokens i ∧ a = value i)
    {ts rest : List Token} {as : List α}
    (h : commaSeparated stop member hc ts = .ok (as, rest)) :
    ∃ (leading : List (ι × Mark .comma)) (last : Option ι),
      ts = commaTokens tokens leading ++ ((last.map tokens).getD [] ++ rest) ∧
      as = (leading.map Prod.fst ++ last.toList).map value ∧
      (last = none → rest.head?.any stop = true) := by
  revert as rest
  fun_induction Parser.commaSeparated stop member hc ts with
  | case1 ts hstop =>
    intro rest as h
    obtain ⟨rfl, rfl⟩ := Prod.mk.inj (Except.ok.inj h)
    exact ⟨[], none, rfl, rfl, fun _ => hstop⟩
  | case2 => intro rest as h; cases h
  | case3 ts hstop a hm =>
    intro rest as h
    obtain ⟨rfl, rfl⟩ := Prod.mk.inj (Except.ok.inj h)
    obtain ⟨taken, rfl, i, rfl, rfl⟩ := hmember hm
    exact ⟨[], some i, rfl, rfl, fun hlast => absurd hlast (Option.some_ne_none i)⟩
  | case4 => intro rest as h; cases h
  | case5 ts hstop a t mid hm hcomma as' rest' hs ih =>
    intro rest as h
    obtain ⟨rfl, rfl⟩ := Prod.mk.inj (Except.ok.inj h)
    obtain ⟨taken, rfl, i, rfl, rfl⟩ := hmember hm
    obtain ⟨leading, last, rfl, rfl, hlast⟩ := ih hs
    exact ⟨(i, ⟨t, by simpa using hcomma⟩) :: leading, last, by simp [commaTokens], rfl, hlast⟩
  | case6 ts hstop a t mid hm hcomma =>
    intro rest as h
    obtain ⟨rfl, rfl⟩ := Prod.mk.inj (Except.ok.inj h)
    obtain ⟨taken, rfl, i, rfl, rfl⟩ := hmember hm
    exact ⟨[], some i, rfl, rfl, fun hlast => absurd hlast (Option.some_ne_none i)⟩

/-! ## Columns -/

theorem typeArgument : typeArgument.Takes fun taken text =>
    ∃ t : Argument, taken = [t.1] ∧ text = t.1.typeArgumentText := by
  refine ((accept _ _).bind fun t => pure t.typeArgumentText).imp ?_
  rintro taken text ⟨first, t, second, rfl, ⟨rfl, ht⟩, rfl, rfl⟩
  exact ⟨⟨t, ht⟩, rfl, rfl⟩

/-- The arguments of a type: at least one, and no comma behind the last. -/
theorem arguments : Takes (Parser.commaSeparated (fun _ => false) Parser.typeArgument
      Consumes.typeArgument) fun taken texts =>
    ∃ (leading : List (Argument × Mark .comma)) (last : Argument),
      taken = commaTokens (fun t => [t.1]) leading ++ [last.1] ∧
      texts = (leading.map Prod.fst ++ [last]).map fun t => t.1.typeArgumentText := by
  intro ts texts rest h
  obtain ⟨leading, last, rfl, rfl, hlast⟩ := commaSeparated typeArgument h
  cases last with
  | none =>
    have hstop := hlast rfl
    cases rest <;> simp at hstop
  | some last => exact ⟨_, (List.append_assoc ..).symm, leading, last, rfl, rfl⟩

/-- The type of a column is the text of a word or quoted text, with its arguments if it has any. -/
theorem columnType : columnType.Takes fun taken text =>
    ∃ type : { t : Token // t.isTypeName = true } × Option TypeArguments,
      taken = typeTokens type ∧ text = typeTextOf type.1.1 type.2 := by
  refine ((accept _ _).bind fun t => ifTaken
    (arguments.bind fun texts => (mark .rightParen).bind fun _ =>
      pure (typeText t.value texts)) (pure t.value)).imp ?_
  rintro taken text ⟨first, t, second, rfl, ⟨rfl, ht⟩, hsecond⟩
  rcases hsecond with ⟨u, more, rfl, hu, inside, texts, closing, rfl, harguments, hclosing⟩ | hnone
  · obtain ⟨leading, last, rfl, rfl⟩ := harguments
    obtain ⟨closing', -, behind, rfl, ⟨r, rfl⟩, rfl, rfl⟩ := hclosing
    refine ⟨(⟨t, ht⟩, some ⟨⟨u, by simpa using hu⟩, leading, last, r⟩), ?_, ?_⟩
    · simp [typeTokens, TypeArguments.tokens]
    · rw [typeTextOf_some, TypeArguments.texts_eq]
  · obtain ⟨rfl, rfl⟩ := hnone
    exact ⟨(⟨t, ht⟩, none), rfl, rfl⟩

end Takes

/-- Attributes leave the name and the type of a column alone. -/
theorem foldl_apply_name_type (attributes : List ColumnAttribute) (c : Column) :
    (attributes.foldl ColumnAttribute.apply c).name = c.name ∧
      (attributes.foldl ColumnAttribute.apply c).type = c.type := by
  induction attributes generalizing c with
  | nil => exact ⟨rfl, rfl⟩
  | cons a attributes ih =>
    obtain ⟨hname, htype⟩ := ih (a.apply c)
    rw [List.foldl_cons, hname, htype]
    cases a <;> exact ⟨rfl, rfl⟩

end Parser

/-- The tokens begin with the name and the type of the column. -/
def Column.WrittenBy (c : Column) (ts : List Token) : Prop :=
  ∃ (name : Name) (type : { t : Token // t.isTypeName = true } × Option TypeArguments)
    (more : List Token), ts = name.1 :: (typeTokens type ++ more) ∧
      c.name = name.1.value ∧ c.type = typeTextOf type.1.1 type.2

/-- The column stands somewhere in the tokens, right behind an opening parenthesis or a comma. -/
def Column.StandsIn (c : Column) (ts : List Token) : Prop :=
  ∃ before opener written after, ts = before ++ opener :: (written ++ after) ∧
    (opener.kind = .leftParen ∨ opener.kind = .comma) ∧ c.WrittenBy written

theorem Column.StandsIn.mono {c : Column} {us ts : List Token} (h : c.StandsIn us)
    (hts : us <:+: ts) : c.StandsIn ts := by
  obtain ⟨before, opener, written, after, rfl, hopener, hwritten⟩ := h
  obtain ⟨front, back, rfl⟩ := hts
  exact ⟨front ++ before, opener, written, after ++ back, by simp, hopener, hwritten⟩

/-- A member of a list in parentheses stands right behind the parenthesis, or behind a comma. -/
theorem exists_opener {ι : Type} (tokens : ι → List Token) {leading : List (ι × Mark .comma)}
    {last : Option ι} {i : ι} (hi : i ∈ leading.map Prod.fst ++ last.toList) {opener : Token}
    (hopener : opener.kind = .leftParen ∨ opener.kind = .comma) :
    ∃ before u after, (u.kind = .leftParen ∨ u.kind = .comma) ∧
      opener :: (commaTokens tokens leading ++ (last.map tokens).getD []) =
        before ++ u :: (tokens i ++ after) := by
  induction leading generalizing opener with
  | nil =>
    cases last with
    | none => cases hi
    | some j =>
      obtain rfl : i = j := by simpa using hi
      exact ⟨[], opener, [], hopener, by simp [commaTokens]⟩
  | cons m leading ih =>
    rw [List.map_cons, List.cons_append, List.mem_cons] at hi
    rcases hi with rfl | hi
    · exact ⟨[], opener, m.2.1 :: (commaTokens tokens leading ++ (last.map tokens).getD []),
        hopener, by simp [commaTokens]⟩
    · obtain ⟨before, u, after, hu, heq⟩ := ih hi (.inr m.2.2)
      exact ⟨opener :: (tokens m.1 ++ before), u, after, hu, by simp [commaTokens, ← heq]⟩

namespace Parser

theorem Takes.columnDefinition : columnDefinition.Takes fun taken c => c.WrittenBy taken := by
  refine ((Takes.name _).bind fun name => Takes.columnType.bind fun type =>
    (Takes.of_leavesSuffix (LeavesSuffix.manyUntil _)).bind fun attributes =>
      Takes.pure (attributes.foldl ColumnAttribute.apply { name, type })).imp ?_
  rintro taken c ⟨_, _, _, rfl, ⟨name, rfl, rfl⟩, _, _, behind, rfl, ⟨type, rfl, rfl⟩,
    more, attributes, _, rfl, -, rfl, rfl⟩
  obtain ⟨hname, htype⟩ := foldl_apply_name_type attributes
    { name := name.1.value, type := typeTextOf type.1.1 type.2 }
  exact ⟨name, type, more ++ [], rfl, hname, htype⟩

theorem Yields.imp {P Q : α → Prop} (h : Yields P p) (hPQ : ∀ a, P a → Q a) : Yields Q p :=
  fun _ a _ hp => hPQ a (h hp)

/-- The item is a constraint, and no foreign key. -/
def IsIndex (item : TableItem) : Prop :=
  ∃ c, item = .constraint c ∧ c.isForeignKey = false

theorem Yields.foreignKeyItem (name : Option String) :
    Yields (∃ columns target, · = TableItem.foreignKey name columns target)
      (foreignKeyItem name) :=
  .bind fun _ => .pure ⟨_, _, rfl⟩

theorem Yields.primaryKeyItem : Yields IsIndex primaryKeyItem :=
  .bind fun _ => .bind fun _ => .pure ⟨_, rfl, rfl⟩

theorem Yields.keyItem : Yields IsIndex keyItem :=
  .bind fun _ => .bind fun _ => .pure ⟨_, rfl, rfl⟩

theorem Yields.uniqueItem (name : Option String) : Yields IsIndex (uniqueItem name) :=
  .bind fun _ => .bind fun _ => .bind fun _ => .pure ⟨_, rfl, rfl⟩

/-- Constraints give no columns. -/
def NoColumn (item : TableItem) : Prop :=
  ∀ c, item ≠ .column c

theorem IsIndex.noColumn {item : TableItem} (h : IsIndex item) : NoColumn item := by
  obtain ⟨c, rfl, -⟩ := h
  exact nofun

theorem Yields.noColumn_of_foreignKeyItem (name : Option String) :
    Yields NoColumn (Parser.foreignKeyItem name) := by
  refine (Yields.foreignKeyItem name).imp ?_
  rintro item ⟨columns, target, rfl⟩
  exact nofun

theorem Yields.ifTaken {P : α → Prop} {test : Token → Bool} {yes no : Parser α}
    (hyes : Yields P yes) (hno : Yields P no) : Yields P (ifTaken test yes no) := by
  intro ts a rest h
  cases ts with
  | nil => exact hno h
  | cons t ts =>
    rw [Parser.ifTaken] at h
    split at h
    · exact hyes h
    · exact hno h

theorem Yields.fail {P : α → Prop} (what : Expectation) : Yields P (fail what) := by
  intro ts a rest h
  cases ts <;> cases h

theorem Yields.constraintItem : Yields NoColumn constraintItem :=
  .bind fun name => .ifTaken (Yields.primaryKeyItem.imp fun _ => IsIndex.noColumn) <|
    .ifTaken ((Yields.uniqueItem name).imp fun _ => IsIndex.noColumn) <|
      .ifTaken (.noColumn_of_foreignKeyItem name) (.fail _)

/-! ## Table bodies -/

/-- If the item is a column, the tokens begin with its name and type. -/
def WritesColumn (ts : List Token) (item : TableItem) : Prop :=
  ∀ c, item = .column c → c.WrittenBy ts

/-- An item that begins with a reserved word is no column. -/
theorem Takes.ifTaken_noColumn {test : Token → Bool} {yes no : Parser TableItem}
    (hyes : yes.LeavesSuffix) (hnone : Yields NoColumn yes) (hno : no.Takes WritesColumn) :
    (Parser.ifTaken test yes no).Takes WritesColumn := by
  refine ((Takes.of_yields hyes hnone).ifTaken hno).imp ?_
  rintro taken item (⟨t, more, -, -, hitem⟩ | hwritten)
  · exact fun c hc => absurd hc (hitem c)
  · exact hwritten

theorem Takes.tableItem : tableItem.Takes WritesColumn := by
  refine .ifTaken_noColumn Consumes.primaryKeyItem.leavesSuffix
    (Yields.primaryKeyItem.imp fun _ => IsIndex.noColumn) ?_
  refine .ifTaken_noColumn Consumes.keyItem.leavesSuffix
    (Yields.keyItem.imp fun _ => IsIndex.noColumn) ?_
  refine .ifTaken_noColumn (Consumes.uniqueItem _).leavesSuffix
    ((Yields.uniqueItem _).imp fun _ => IsIndex.noColumn) ?_
  refine .ifTaken_noColumn Consumes.constraintItem.leavesSuffix .constraintItem ?_
  refine .ifTaken_noColumn (Consumes.foreignKeyItem _).leavesSuffix
    (.noColumn_of_foreignKeyItem _) ?_
  refine (Takes.columnDefinition.bind fun c => Takes.pure (TableItem.column c)).imp ?_
  rintro taken item ⟨first, c, second, rfl, hwritten, rfl, rfl⟩ c' hc
  obtain rfl := TableItem.column.inj hc
  rwa [List.append_nil]

end Parser

/-- An item of a table body, with the tokens from which it is read. -/
structure ReadItem where
  tokens : List Token
  item : TableItem
  read : ∃ rest, Parser.tableItem (tokens ++ rest) = .ok (item, rest)

/-- A table body as it is read: between the parentheses, items with a comma behind them, and
perhaps one more without. -/
structure ReadBody where
  opening : Mark .leftParen
  leading : List (ReadItem × Mark .comma)
  last : Option ReadItem
  closing : Mark .rightParen

namespace ReadBody

/-- The items of the body, in order. -/
def items (b : ReadBody) : List ReadItem :=
  b.leading.map Prod.fst ++ b.last.toList

/-- The tokens of the body, parentheses included. -/
def tokens (b : ReadBody) : List Token :=
  b.opening.1 :: (commaTokens ReadItem.tokens b.leading ++
    ((b.last.map ReadItem.tokens).getD [] ++ [b.closing.1]))

/-- The columns of a table body stand in it. -/
theorem standsIn {b : ReadBody} {c : Column} (hc : .column c ∈ b.items.map ReadItem.item) :
    c.StandsIn b.tokens := by
  obtain ⟨i, hi, hitem⟩ := List.mem_map.1 hc
  obtain ⟨before, u, after, hu, heq⟩ := exists_opener ReadItem.tokens hi (.inl b.opening.2)
  obtain ⟨rest, hread⟩ := i.read
  have hwritten : c.WrittenBy i.tokens := Parser.Takes.tableItem.of_append hread c hitem
  refine ⟨before, u, i.tokens, after ++ [b.closing.1], ?_, hu, hwritten⟩
  have happend := congrArg (· ++ [b.closing.1]) heq
  simpa [tokens] using happend

end ReadBody

theorem name_foldl_add (items : List TableItem) (t : Table) :
    (items.foldl Table.add t).name = t.name := by
  induction items generalizing t with
  | nil => rfl
  | cons item items ih =>
    rw [List.foldl_cons, ih]
    cases item <;> rfl

theorem mem_columns_foldl_add {items : List TableItem} {t : Table} {c : Column}
    (hc : c ∈ (items.foldl Table.add t).columns) : c ∈ t.columns ∨ .column c ∈ items := by
  induction items generalizing t with
  | nil => exact .inl hc
  | cons item items ih =>
    rw [List.mem_cons]
    rcases ih hc with h | h
    · cases item with
      | column c' =>
        have hmem : c ∈ t.columns ++ [c'] := h
        rw [List.mem_append, List.mem_singleton] at hmem
        exact hmem.imp id fun heq => .inl (congrArg _ heq)
      | _ => exact .inl h
    · exact .inr (.inr h)

theorem mem_columns_ofItems {name : String} {items : List TableItem} {c : Column}
    (hc : c ∈ (Table.ofItems name items).columns) : .column c ∈ items :=
  (mem_columns_foldl_add hc).resolve_left List.not_mem_nil

/-- The declaration of a table as it is read, from behind the word `CREATE`. -/
structure ReadTable where
  front : List Token
  name : Name
  body : ReadBody
  back : List Token

namespace ReadTable

/-- The tokens of a declaration. -/
def tokens (w : ReadTable) : List Token :=
  w.front ++ w.name.1 :: (w.body.tokens ++ w.back)

/-- The table that is declared. -/
def table (w : ReadTable) : Table :=
  Table.ofItems w.name.1.value (w.body.items.map ReadItem.item)

/-- The columns of a table stand in its declaration. -/
theorem standsIn {w : ReadTable} {c : Column} (hc : c ∈ w.table.columns) :
    c.StandsIn w.tokens := by
  refine (ReadBody.standsIn (mem_columns_ofItems hc)).mono ?_
  exact ⟨w.front ++ [w.name.1], w.back, by simp [tokens]⟩

end ReadTable

namespace Parser

theorem Takes.tableBody : tableBody.Takes fun taken items =>
    ∃ b : ReadBody, taken = b.tokens ∧ items = b.items.map ReadItem.item := by
  intro ts items rest h
  obtain ⟨_, inside, hopening, hinside⟩ := bind_eq_ok_iff.1 h
  obtain ⟨items', behind, hitems, hclosing⟩ := bind_eq_ok_iff.1 hinside
  obtain ⟨_, rest', hmark, hpure⟩ := bind_eq_ok_iff.1 hclosing
  obtain ⟨rfl, rfl⟩ := Prod.mk.inj (Except.ok.inj hpure)
  obtain ⟨_, rfl, opening, rfl⟩ := Takes.mark _ hopening
  obtain ⟨_, rfl, closing, rfl⟩ := Takes.mark _ hmark
  have hmember : Parser.tableItem.Takes fun taken item =>
      ∃ i : ReadItem, taken = i.tokens ∧ item = i.item := by
    intro us item rest hread
    obtain ⟨taken, rfl⟩ := Consumes.tableItem.leavesSuffix hread
    exact ⟨taken, rfl, ⟨taken, item, rest, hread⟩, rfl, rfl⟩
  obtain ⟨leading, last, rfl, rfl, -⟩ := Takes.commaSeparated hmember hitems
  exact ⟨_, by simp [ReadBody.tokens], ⟨opening, leading, last, closing⟩, rfl, rfl⟩

/-! ## Statements -/

theorem Takes.createTable : createTable.Takes fun taken s =>
    ∃ w : ReadTable, taken = w.tokens ∧ s = .createTable w.table := by
  refine ((Takes.of_leavesSuffix (Consumes.keyword _).leavesSuffix).bind fun _ =>
    (Takes.of_leavesSuffix (LeavesSuffix.ifTaken ((Consumes.keyword _).leavesSuffix.bind fun _ =>
      (Consumes.keyword _).leavesSuffix) (LeavesSuffix.pure _))).bind fun _ =>
    (Takes.name _).bind fun name => Takes.tableBody.bind fun items =>
    (Takes.of_leavesSuffix (LeavesSuffix.passOver dropStatement_suffix)).bind fun _ =>
      Takes.pure (Statement.createTable (Table.ofItems name items))).imp ?_
  rintro taken s ⟨front, _, _, rfl, -, middle, _, _, rfl, -, named, _, _, rfl, ⟨name, rfl, rfl⟩,
    body, items, _, rfl, ⟨b, rfl, rfl⟩, back, _, _, rfl, -, rfl, rfl⟩
  exact ⟨⟨front ++ middle, name, b, back⟩, by simp [ReadTable.tokens], rfl⟩

/-- A statement that declares a table is read from the declaration of that table. -/
theorem Takes.statement (t : Token) : (statement t).Takes fun taken s? =>
    ∀ table, s? = some (.createTable table) → ∃ w : ReadTable,
      taken = w.tokens ∧ table = w.table := by
  unfold Parser.statement
  split
  · refine (Takes.createTable.bind fun s => Takes.pure (some s)).imp ?_
    rintro taken s? ⟨first, s, second, rfl, ⟨w, rfl, rfl⟩, rfl, rfl⟩ table htable
    cases htable
    exact ⟨w, List.append_nil _, rfl⟩
  split
  · refine ((Takes.of_yields Consumes.alterTable.leavesSuffix Yields.alterTable).bind fun s =>
      Takes.pure (some s)).imp ?_
    rintro taken s? ⟨first, s, second, rfl, ⟨name, keyName, columns, target, rfl⟩, rfl, rfl⟩
    exact nofun
  · refine (Takes.pure none).imp ?_
    rintro taken s? ⟨rfl, rfl⟩
    exact nofun

/-- The columns of all tables that are declared stand in the tokens. -/
theorem standsIn_of_statements {ts rest : List Token} {ss : List Statement}
    (h : Parser.statements ts = .ok (ss, rest)) {t : Table} (ht : .createTable t ∈ ss)
    {c : Column} (hc : c ∈ t.columns) : c.StandsIn ts := by
  obtain ⟨found, mid, hfound, hpure⟩ := bind_eq_ok_iff.1 h
  obtain ⟨rfl, rfl⟩ := Prod.mk.inj (Except.ok.inj hpure)
  rw [List.mem_filterMap] at ht
  obtain ⟨s, hs, rfl⟩ := ht
  refine (rounds_induction (P := fun ts found => some (.createTable t) ∈ found → c.StandsIn ts)
    nofun ?_ hfound).2 hs
  intro u us s? mid found hu _ ih hmem
  obtain ⟨taken, rfl, htaken⟩ := Takes.statement u hu
  rcases List.mem_cons.1 hmem with rfl | hmem
  · obtain ⟨w, rfl, rfl⟩ := htaken t rfl
    exact (ReadTable.standsIn hc).mono ⟨[u], mid, rfl⟩
  · exact (ih hmem).mono ⟨u :: taken, [], by simp⟩

end Parser

/-! ## Schemas -/

/-- The columns of a table that statements declare are those of a declaration. -/
theorem Grammar.exists_createTable {ss : List Statement} {t : Table} (h : t ∈ declared ss) :
    ∃ t', .createTable t' ∈ ss ∧ t'.columns = t.columns := by
  induction ss with
  | nil => cases h
  | cons s ss ih =>
    cases s with
    | createTable table =>
      rcases List.mem_cons.1 h with rfl | h
      · exact ⟨table, List.mem_cons_self, rfl⟩
      · obtain ⟨t', ht', hcolumns⟩ := ih h
        exact ⟨t', List.mem_cons_of_mem _ ht', hcolumns⟩
    | addForeignKey name key =>
      obtain ⟨t', ht', hcolumns⟩ := ih h
      exact ⟨t', List.mem_cons_of_mem _ ht', hcolumns⟩

/-- Every column of a schema stands in the tokens of its script. -/
theorem standsIn_of_readTokens {ts : List Token} {tables : List Table}
    (h : readTokens ts = .ok tables) {t : Table} (ht : t ∈ tables) {c : Column}
    (hc : c ∈ t.columns) : c.StandsIn ts := by
  obtain ⟨ss, hss, rfl⟩ := readTokens_eq_ok_iff.1 h
  rw [schemaOf_eq_declared] at ht
  obtain ⟨t', ht', hcolumns⟩ := exists_createTable ht
  exact Parser.standsIn_of_statements hss ht' (hcolumns ▸ hc)

end SchemaArchive
