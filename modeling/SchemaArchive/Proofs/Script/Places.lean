import Mathlib.Data.List.Forall2
import SchemaArchive.Proofs.Script.EarliestError

/-!
# Reading does not look at places

The place of a token says where it stood in the text of its script.  Reading carries places into
its errors and looks at none of them: whoever moves the tokens gets the same schema, or the same
error with the moved token in it.  So two lists of tokens that differ in nothing but places have
the same outcome, and an error names the tokens with the same number in both.

* `Parser.Placeless` — a parser that takes moved tokens as it takes the others.  `Placeless.bind`,
  `Placeless.ifTaken`, `Placeless.manyUntil`, `Placeless.commaSeparated` and the others say how
  parsers are put together.
* `readTokens_map_move` — reading moved tokens.
* `FailsFrom` — the number of the token at which reading fails.
* `readTokens_sameText` — two lists of tokens that differ in nothing but places.
-/

namespace SchemaArchive

/-! ## Moving tokens -/

/-- The token, moved to where `place` says. -/
def Token.move (place : Token → Nat) (t : Token) : Token :=
  { t with position := place t }

@[simp] theorem Token.kind_move (place : Token → Nat) (t : Token) :
    (t.move place).kind = t.kind := rfl

/-- The error, about the moved token. -/
def ParseError.move (place : Token → Nat) : ParseError → ParseError
  | .expected what found => .expected what (found.move place)
  | .unexpectedEnd what => .unexpectedEnd what

/-- The test does not look at places. -/
def PlacelessTest (test : Token → Bool) : Prop :=
  ∀ place t, test (Token.move place t) = test t

/-- What is passed over does not depend on places. -/
def PlacelessDrop (drop : List Token → List Token) : Prop :=
  ∀ place ts, drop (ts.map (Token.move place)) = (drop ts).map (Token.move place)

/-! ## What is passed over -/

theorem placelessDrop_dropGroup (depth : Nat) : PlacelessDrop (dropGroup depth) := by
  intro place ts
  fun_induction dropGroup depth ts with
  | case1 => simp [dropGroup]
  | case2 => rfl
  | case3 depth t ts ht ih => simpa [dropGroup, ht] using ih
  | case4 depth t ts ht ih => simpa [dropGroup, ht] using ih
  | case5 depth t ts hleft hright ih => simpa [dropGroup, hleft, hright] using ih

theorem placelessDrop_dropActions : PlacelessDrop dropActions := by
  intro place ts
  fun_induction dropActions ts with
  | case1 => simp [dropActions]
  | case2 t ts ht ih =>
    have hlength : actionLength (ts.map (Token.move place)) = actionLength ts := by
      unfold actionLength
      rw [List.getElem?_map, Option.any_map]
      rfl
    rw [List.map_cons, dropActions_on (by exact ht), hlength, ← List.map_drop]
    exact ih
  | case3 t ts ht =>
    rw [List.map_cons, dropActions, if_neg (by exact ht)]

theorem placelessDrop_dropStatement : PlacelessDrop dropStatement := by
  intro place ts
  unfold dropStatement
  rw [List.dropWhile_map, List.map_tail]
  rfl

namespace Parser

variable {α β : Type} {p q yes no member : Parser α} {f : α → Parser β}

/-- The outcome for moved tokens: what is left is moved as well, and so is the token of an
error. -/
def moveOutcome (place : Token → Nat) :
    Except ParseError (α × List Token) → Except ParseError (α × List Token)
  | .ok (a, rest) => .ok (a, rest.map (Token.move place))
  | .error e => .error (e.move place)

/-- On the tokens `ts`, the parser does not look at places. -/
def PlacelessAt (place : Token → Nat) (p : Parser α) (ts : List Token) : Prop :=
  p (ts.map (Token.move place)) = moveOutcome place (p ts)

/-- The parser does not look at places. -/
def Placeless (p : Parser α) : Prop :=
  ∀ place ts, PlacelessAt place p ts

theorem PlacelessAt.bind {place : Token → Nat} {ts : List Token} (hp : PlacelessAt place p ts)
    (hf : ∀ a mid, p ts = .ok (a, mid) → PlacelessAt place (f a) mid) :
    PlacelessAt place (p >>= f) ts := by
  unfold PlacelessAt at hp ⊢
  cases hrun : p ts with
  | error e =>
    rw [hrun] at hp
    rw [run_bind_error hp, run_bind_error hrun]
    rfl
  | ok r =>
    obtain ⟨a, mid⟩ := r
    rw [hrun] at hp
    rw [run_bind hp, run_bind hrun]
    exact hf a mid hrun

theorem PlacelessAt.ifTaken {place : Token → Nat} {ts : List Token} {test : Token → Bool}
    (htest : PlacelessTest test) (hyes : ∀ t more, ts = t :: more → PlacelessAt place yes more)
    (hno : PlacelessAt place no ts) : PlacelessAt place (ifTaken test yes no) ts := by
  unfold PlacelessAt at hno ⊢
  cases ts with
  | nil => exact hno
  | cons t more =>
    have hmove := htest place t
    rw [List.map_cons] at hno ⊢
    by_cases ht : test t = true
    · rw [ht] at hmove
      rw [run_ifTaken_pos hmove, run_ifTaken_pos ht]
      exact hyes t more rfl
    · have ht' : test t = false := by simpa using ht
      rw [ht'] at hmove
      rw [run_ifTaken_neg hmove, run_ifTaken_neg ht']
      exact hno

namespace Placeless

theorem bind (hp : p.Placeless) (hf : ∀ a, (f a).Placeless) : (p >>= f).Placeless := by
  intro place ts
  apply (hp place ts).bind
  intro a mid _
  exact hf a place mid

theorem pure (a : α) : (Pure.pure a : Parser α).Placeless := by
  intro place ts
  rfl

theorem fail (what : Expectation) : (fail what : Parser α).Placeless := by
  intro place ts
  cases ts <;> rfl

/-- A token is taken, and what is done with it does not depend on its place. -/
theorem accept_bind {what : Expectation} {test : Token → Bool} {g : Token → Parser β}
    (htest : PlacelessTest test) (hplace : ∀ place t, g (Token.move place t) = g t)
    (hg : ∀ t, (g t).Placeless) : (accept what test >>= g).Placeless := by
  intro place ts
  unfold PlacelessAt
  cases ts with
  | nil => rfl
  | cons t ts =>
    rw [List.map_cons]
    by_cases ht : test t = true
    · have ht' : test (t.move place) = true := by rw [htest, ht]
      rw [run_bind (run_accept ht' _), run_bind (run_accept ht ts), hplace]
      exact hg t place ts
    · have ht' : ¬ test (t.move place) = true := by rwa [htest]
      rw [run_bind_error (if_neg ht'), run_bind_error (if_neg ht)]
      rfl

theorem keyword (word : String) : (keyword word).Placeless :=
  accept_bind (fun _ _ => rfl) (fun _ _ => rfl) fun _ => pure ()

theorem mark (kind : TokenKind) : (mark kind).Placeless :=
  accept_bind (fun _ _ => rfl) (fun _ _ => rfl) fun _ => pure ()

theorem name (what : Expectation) : (name what).Placeless :=
  accept_bind (fun _ _ => rfl) (fun _ _ => rfl) fun t => pure t.value

theorem optionalName : optionalName.Placeless := by
  intro place ts
  cases ts with
  | nil => rfl
  | cons t ts =>
    unfold PlacelessAt
    by_cases ht : t.isName = true
    · have ht' : (t.move place).isName = true := ht
      rw [List.map_cons, run_optionalName_some ⟨_, ht'⟩, run_optionalName_some ⟨t, ht⟩]
      rfl
    · have hnone : t.isName = false := by simpa using ht
      have hnone' : (t.move place).isName = false := hnone
      rw [List.map_cons, run_optionalName_none hnone', run_optionalName_none hnone]
      rfl

theorem passOver {drop : List Token → List Token} (h : PlacelessDrop drop) :
    (passOver drop).Placeless := by
  intro place ts
  unfold PlacelessAt
  rw [run_passOver, run_passOver, h]
  rfl

theorem ifTaken {test : Token → Bool} (htest : PlacelessTest test) (hyes : yes.Placeless)
    (hno : no.Placeless) : (ifTaken test yes no).Placeless := by
  intro place ts
  exact .ifTaken htest (fun t more _ => hyes place more) (hno place ts)

theorem manyUntil {stop : Token → Bool} {step : Token → Parser α}
    {h : ∀ t, (step t).LeavesSuffix} (hstop : PlacelessTest stop)
    (hplace : ∀ place t, step (Token.move place t) = step t) (hstep : ∀ t, (step t).Placeless) :
    Placeless (Parser.manyUntil stop step h : Parser (List α)) := by
  intro place ts
  -- Every round takes a token, so the tokens behind it are fewer.
  induction hn : ts.length using Nat.strongRecOn generalizing ts with
  | ind n ih =>
    unfold PlacelessAt
    cases ts with
    | nil =>
      rw [List.map_nil, run_manyUntil_stop rfl]
      rfl
    | cons t ts =>
      have hmove := hstop place t
      rw [List.map_cons]
      by_cases ht : stop t = true
      · rw [ht] at hmove
        rw [run_manyUntil_stop (by simpa using hmove), run_manyUntil_stop (by simpa using ht)]
        rfl
      · have ht' : stop t = false := by simpa using ht
        rw [ht'] at hmove
        rw [manyUntil_cons hmove, manyUntil_cons ht', hplace]
        apply (hstep t place ts).bind
        intro a mid hmid
        have hlen := (h t hmid).length_le
        rw [List.length_cons] at hn
        apply (ih mid.length (by omega) mid rfl).bind
        intro as rest _
        exact pure (a :: as) place rest

theorem commaSeparated {stop : Token → Bool} {h : member.Consumes} (hstop : PlacelessTest stop)
    (hmember : member.Placeless) :
    Placeless (Parser.commaSeparated stop member h : Parser (List α)) := by
  intro place ts
  -- A member takes a token, so the tokens behind its comma are fewer.
  induction hn : ts.length using Nat.strongRecOn generalizing ts with
  | ind n ih =>
    have hhead : (ts.map (Token.move place)).head?.any stop = ts.head?.any stop := by
      cases ts with
      | nil => rfl
      | cons t ts => exact hstop place t
    unfold PlacelessAt
    by_cases hts : ts.head?.any stop = true
    · rw [hts] at hhead
      rw [run_commaSeparated_stop hhead, run_commaSeparated_stop hts]
      rfl
    · have hts' : ts.head?.any stop = false := by simpa using hts
      rw [hts'] at hhead
      rw [commaSeparated_eq hhead, commaSeparated_eq hts']
      apply (hmember place ts).bind
      intro a mid hmid
      have hlen := (h hmid).2
      apply PlacelessAt.ifTaken (fun _ _ => rfl)
      · rintro t more rfl
        rw [List.length_cons] at hlen
        apply (ih more.length (by omega) more rfl).bind
        intro as rest _
        exact pure (a :: as) place rest
      · exact pure [a] place mid

/-! ## The readers -/

theorem dropGroup : (Parser.passOver (SchemaArchive.dropGroup 1)).Placeless :=
  passOver (placelessDrop_dropGroup 1)

theorem columnListEntry (t : Token) : (columnListEntry t).Placeless := by
  unfold Parser.columnListEntry
  split
  · exact dropGroup.bind fun _ => pure none
  · exact pure _

theorem columnList : columnList.Placeless := by
  apply (mark _).bind
  intro _
  apply (manyUntil (fun _ _ => rfl) (fun _ _ => rfl) columnListEntry).bind
  intro entries
  exact (mark _).bind fun _ => pure (entries.filterMap id)

theorem foreignKeyBody : foreignKeyBody.Placeless := by
  apply (keyword _).bind
  intro _
  apply columnList.bind
  intro columns
  apply (keyword _).bind
  intro _
  apply (name _).bind
  intro table
  apply columnList.bind
  intro targetColumns
  exact (passOver placelessDrop_dropActions).bind fun _ => pure _

theorem foreignKeyItem (keyName : Option String) : (foreignKeyItem keyName).Placeless :=
  foreignKeyBody.bind fun r => pure (TableItem.foreignKey keyName r.1 r.2)

theorem primaryKeyItem : primaryKeyItem.Placeless :=
  (keyword _).bind fun _ => columnList.bind fun _ => pure _

theorem keyItem : keyItem.Placeless :=
  optionalName.bind fun _ => columnList.bind fun _ => pure _

theorem uniqueItem (constraintName : Option String) : (uniqueItem constraintName).Placeless := by
  apply (ifTaken (fun _ _ => rfl) (pure ()) (pure ())).bind
  intro _
  exact optionalName.bind fun _ => columnList.bind fun _ => pure _

theorem constraintItem : constraintItem.Placeless := by
  apply optionalName.bind
  intro constraintName
  apply ifTaken (fun _ _ => rfl) primaryKeyItem
  apply ifTaken (fun _ _ => rfl) (uniqueItem constraintName)
  exact ifTaken (fun _ _ => rfl) (foreignKeyItem constraintName) (fail _)

theorem typeArgument : typeArgument.Placeless :=
  accept_bind (fun _ _ => rfl) (fun _ _ => rfl) fun t => pure t.typeArgumentText

theorem columnType : columnType.Placeless := by
  apply accept_bind (fun _ _ => rfl) (fun _ _ => rfl)
  intro t
  apply ifTaken (fun _ _ => rfl)
  · apply (commaSeparated (fun _ _ => rfl) typeArgument).bind
    intro arguments
    exact (mark _).bind fun _ => pure (typeText t.value arguments)
  · exact pure t.value

theorem columnAttribute (t : Token) : (columnAttribute t).Placeless := by
  unfold Parser.columnAttribute
  split
  · exact dropGroup.bind fun _ => pure ColumnAttribute.ignored
  split
  · exact pure ColumnAttribute.unsigned
  split
  · exact pure ColumnAttribute.autoIncrement
  split
  · exact (keyword _).bind fun _ => pure ColumnAttribute.notNull
  split
  · exact pure ColumnAttribute.null
  split
  · exact accept_bind (fun _ _ => rfl) (fun _ _ => rfl) fun value =>
      pure (ColumnAttribute.defaultValue value.value)
  · exact pure ColumnAttribute.ignored

theorem columnDefinition : columnDefinition.Placeless := by
  apply (name _).bind
  intro columnName
  apply columnType.bind
  intro type
  exact (manyUntil (fun _ _ => rfl) (fun _ _ => rfl) columnAttribute).bind fun _ => pure _

theorem tableItem : tableItem.Placeless := by
  apply ifTaken (fun _ _ => rfl) primaryKeyItem
  apply ifTaken (fun _ _ => rfl) keyItem
  apply ifTaken (fun _ _ => rfl) (uniqueItem none)
  apply ifTaken (fun _ _ => rfl) constraintItem
  apply ifTaken (fun _ _ => rfl) (foreignKeyItem none)
  exact columnDefinition.bind fun definition => pure (TableItem.column definition)

theorem tableBody : tableBody.Placeless := by
  apply (mark _).bind
  intro _
  apply (commaSeparated (fun _ _ => rfl) tableItem).bind
  intro items
  exact (mark _).bind fun _ => pure items

theorem createTable : createTable.Placeless := by
  apply (keyword _).bind
  intro _
  apply (ifTaken (fun _ _ => rfl) ((keyword _).bind fun _ => keyword _) (pure ())).bind
  intro _
  apply (name _).bind
  intro tableName
  apply tableBody.bind
  intro items
  exact (passOver placelessDrop_dropStatement).bind fun _ =>
    pure (Statement.createTable (Table.ofItems tableName items))

theorem alterTable : alterTable.Placeless := by
  apply (keyword _).bind
  intro _
  apply (name _).bind
  intro table
  apply (keyword _).bind
  intro _
  apply (keyword _).bind
  intro _
  apply (name _).bind
  intro keyName
  apply (keyword _).bind
  intro _
  exact foreignKeyBody.bind fun r =>
    pure (Statement.addForeignKey table (.foreignKey keyName r.1 r.2))

theorem statement (t : Token) : (statement t).Placeless := by
  unfold Parser.statement
  split
  · exact createTable.bind fun s => pure (some s)
  split
  · exact alterTable.bind fun s => pure (some s)
  · exact pure none

theorem statements : statements.Placeless :=
  (manyUntil (fun _ _ => rfl) (fun _ _ => rfl) statement).bind fun found =>
    pure (found.filterMap id)

end Placeless

end Parser

/-! ## Scripts -/

/-- The schema of moved tokens is that of the tokens, and so is the error, but for the place of its
token. -/
theorem readTokens_map_move (place : Token → Nat) (ts : List Token) :
    readTokens (ts.map (Token.move place)) = (readTokens ts).mapError (ParseError.move place) := by
  have h : Parser.PlacelessAt place Parser.statements ts := Parser.Placeless.statements place ts
  unfold Parser.PlacelessAt at h
  rw [readTokens, readTokens, h]
  cases Parser.statements ts <;> rfl

/-- The tokens are of the same kind and have the same value. -/
def Token.SameText (t t' : Token) : Prop :=
  t.kind = t'.kind ∧ t.value = t'.value

instance (t t' : Token) : Decidable (t.SameText t') :=
  inferInstanceAs (Decidable (_ ∧ _))

/-- The tokens, each with its number in place of its place. -/
def withNumbers (ts : List Token) : List Token :=
  ts.mapIdx fun i t => { t with position := i }

/-- The place of the token of `ts` whose number stands in the place of `t`. -/
def placeIn (ts : List Token) (t : Token) : Nat :=
  (ts[t.position]?.map Token.position).getD 0

/-- The numbered tokens can be moved to where the tokens of `ts'` are, if these are the same. -/
theorem map_move_withNumbers {ts ts' : List Token} (h : List.Forall₂ Token.SameText ts ts') :
    (withNumbers ts).map (Token.move (placeIn ts')) = ts' := by
  apply List.ext_getElem
  · simp [withNumbers, h.length_eq]
  · intro i hi hi'
    have hlen : i < ts.length := by simpa [withNumbers] using hi
    obtain ⟨hkind, hvalue⟩ := h.get hlen hi'
    simp only [List.get_eq_getElem] at hkind hvalue
    simp [withNumbers, placeIn, Token.move, hkind, hvalue, hi']

/-- What reading makes of tokens follows from what it makes of their numbers, kinds and values: the
places only say where the token of an error is. -/
theorem readTokens_eq_withNumbers {ts ts' : List Token} (h : List.Forall₂ Token.SameText ts ts') :
    readTokens ts' = (readTokens (withNumbers ts)).mapError (ParseError.move (placeIn ts')) := by
  rw [← readTokens_map_move, map_move_withNumbers h]

instance : Std.Refl Token.SameText :=
  ⟨fun _ => ⟨rfl, rfl⟩⟩

theorem Token.SameText.symm {t t' : Token} (h : t.SameText t') : t'.SameText t :=
  ⟨h.1.symm, h.2.symm⟩

/-! ## Where reading fails -/

/-- The token number `i` is the one at which reading fails: the tokens before it can be continued
to a script, and with it they cannot. -/
def FailsFrom (ts : List Token) (i : Nat) : Prop :=
  HasContinuation (ts.take i) ∧ ¬ HasContinuation (ts.take (i + 1))

/-- What can be continued can also be continued after fewer tokens. -/
theorem HasContinuation.take {ts : List Token} {i j : Nat} (hij : i ≤ j)
    (h : HasContinuation (ts.take j)) : HasContinuation (ts.take i) := by
  obtain ⟨more, tables, hread⟩ := h
  refine ⟨(ts.take j).drop i ++ more, tables, ?_⟩
  have hsplit : ts.take i ++ (ts.take j).drop i = ts.take j := by
    rw [← Nat.min_eq_left hij, ← List.take_take, Nat.min_eq_left hij, List.take_append_drop]
  rwa [← List.append_assoc, hsplit]

/-- Reading fails at no more than one token. -/
theorem FailsFrom.unique {ts : List Token} {i j : Nat} (hi : FailsFrom ts i) (hj : FailsFrom ts j) :
    i = j := by
  by_contra hne
  rcases Nat.lt_or_gt_of_ne hne with hlt | hlt
  · exact hi.2 (hj.1.take hlt)
  · exact hj.2 (hi.1.take hlt)

theorem exists_failsFrom {ts : List Token} {what : Expectation} {found : Token}
    (h : readTokens ts = .error (.expected what found)) :
    ∃ i, ∃ hi : i < ts.length, FailsFrom ts i ∧ found = ts[i] := by
  obtain ⟨pre, rest, rfl, hbefore, hall⟩ := exists_split_of_expected h
  have htake : (pre ++ [found] ++ rest).take (pre.length + 1) = pre ++ [found] :=
    List.take_left' (by simp)
  refine ⟨pre.length, by simp, ⟨by simpa using hbefore, ?_⟩, by simp⟩
  rw [htake]
  exact not_hasContinuation hall

/-- Whether something can follow does not depend on places. -/
theorem HasContinuation.sameText {ts ts' : List Token} (h : List.Forall₂ Token.SameText ts ts')
    (hcont : HasContinuation ts) : HasContinuation ts' := by
  obtain ⟨more, tables, hread⟩ := hcont
  refine ⟨more, tables, ?_⟩
  have hmore : List.Forall₂ Token.SameText (ts ++ more) (ts' ++ more) :=
    List.rel_append h (List.forall₂_refl more)
  have hself : List.Forall₂ Token.SameText (ts ++ more) (ts ++ more) := List.forall₂_refl _
  rw [readTokens_eq_withNumbers hself] at hread
  rw [readTokens_eq_withNumbers hmore]
  cases hnum : readTokens (withNumbers (ts ++ more)) with
  | ok found => rwa [hnum] at hread
  | error e => rw [hnum] at hread; cases hread

theorem FailsFrom.sameText {ts ts' : List Token} {i : Nat}
    (h : List.Forall₂ Token.SameText ts ts') (hi : FailsFrom ts i) : FailsFrom ts' i := by
  have hback : List.Forall₂ Token.SameText (ts'.take (i + 1)) (ts.take (i + 1)) :=
    (List.forall₂_take (i + 1) h).flip.imp fun _ _ (hsame : Token.SameText _ _) => hsame.symm
  refine ⟨hi.1.sameText (List.forall₂_take i h), ?_⟩
  intro hcont
  exact hi.2 (hcont.sameText hback)

/-- Two lists of tokens of the same kinds and values, wherever the tokens are: reading both gives
the same schema, or both end too early and the same is missing, or reading fails in both at the
token with the same number, where the same was expected. -/
theorem readTokens_sameText {ts ts' : List Token} (h : List.Forall₂ Token.SameText ts ts') :
    (∃ tables, readTokens ts = .ok tables ∧ readTokens ts' = .ok tables) ∨
    (∃ what, readTokens ts = .error (.unexpectedEnd what) ∧
      readTokens ts' = .error (.unexpectedEnd what)) ∨
    ∃ what i, ∃ (hi : i < ts.length) (hi' : i < ts'.length),
      FailsFrom ts i ∧ FailsFrom ts' i ∧
      readTokens ts = .error (.expected what ts[i]) ∧
      readTokens ts' = .error (.expected what ts'[i]) := by
  have hself : List.Forall₂ Token.SameText ts ts := List.forall₂_refl _
  have hread := readTokens_eq_withNumbers hself
  have hread' := readTokens_eq_withNumbers h
  cases hnum : readTokens (withNumbers ts) with
  | ok tables =>
    rw [hnum] at hread hread'
    exact .inl ⟨tables, hread, hread'⟩
  | error e =>
    rw [hnum] at hread hread'
    cases e with
    | unexpectedEnd what => exact .inr (.inl ⟨what, hread, hread'⟩)
    | expected what found =>
      obtain ⟨i, hi, hfails, hfound⟩ := exists_failsFrom hread
      obtain ⟨j, hj, hfails', hfound'⟩ := exists_failsFrom hread'
      -- Reading fails at one token only, and that is one with the same number in both.
      obtain rfl := (hfails.sameText h).unique hfails'
      refine .inr (.inr ⟨what, i, hi, hj, hfails, hfails', ?_, ?_⟩)
      · rw [← hfound]
        exact hread
      · rw [← hfound']
        exact hread'

/-- `ALTER TABLE T DROP` fails at `DROP`, on one line and spread over several. -/
theorem readTokens_sameText_drop :
    let oneLine : List Token := [⟨.keyword, "ALTER", 0⟩, ⟨.keyword, "TABLE", 6⟩,
      ⟨.identifier, "T", 12⟩, ⟨.identifier, "DROP", 14⟩]
    let spread : List Token := [⟨.keyword, "ALTER", 3⟩, ⟨.keyword, "TABLE", 10⟩,
      ⟨.identifier, "T", 20⟩, ⟨.identifier, "DROP", 30⟩]
    List.Forall₂ Token.SameText oneLine spread ∧ FailsFrom oneLine 3 ∧ FailsFrom spread 3 ∧
      readTokens oneLine = .error (.expected (.keyword "ADD") oneLine[3]) ∧
      readTokens spread = .error (.expected (.keyword "ADD") spread[3]) := by
  intro oneLine spread
  have hsame : List.Forall₂ Token.SameText oneLine spread := by decide
  have hnumber : ∀ j : Fin oneLine.length, oneLine[j] = oneLine[3] → j.val = 3 := by decide
  have hread : readTokens oneLine = .error (.expected (.keyword "ADD") oneLine[3]) := by
    refine readTokens_eq_error_iff.2 (Parser.run_bind_error ?_)
    exact (Parser.rounds_cons _ _).trans (Parser.run_bind_error rfl)
  obtain ⟨tables, h, -⟩ | ⟨what, h, -⟩ | ⟨what, i, hi, hi', honeLine, hspread, h, h'⟩ :=
    readTokens_sameText hsame
  · rw [hread] at h
    cases h
  · rw [hread] at h
    cases h
  · rw [hread] at h
    injection h with h
    injection h with hwhat hfound
    subst hwhat
    obtain rfl := hnumber ⟨i, hi⟩ hfound.symm
    exact ⟨hsame, honeLine, hspread, hread, h'⟩

end SchemaArchive
