import SchemaArchive.Proofs.Script.EarliestError

/-!
# Reading makes progress

Reading goes through a list of tokens from the front.  Wherever it succeeds or fails, it stands in
front of a suffix of the tokens it was given.  Its repetitions are loops, which are described here
by their rounds.  A round that goes on takes at least one token, so that a loop comes to an end, and
it does so within as many rounds as it takes tokens, whether the tokens are a script or not.

* `Parser.Forward` — a parser that never goes back.  `Parser.Prompt.forward` — parsers that find
  errors early do not.
* `Loop.Progressive.ends_of_follows` — loops that make progress end.
* `Parser.manyLoop_follows`, `Parser.commaLoop_follows` and the others — which loops the
  repetitions are.
* `readers_forward_loops_end` — all readers of a script, and all their loops.
-/

namespace SchemaArchive

/-! ## Where reading stands -/

/-- The error is found in front of the tokens `left`: it is about the first of them, or there are
none. -/
def ParseError.At (left : List Token) : ParseError → Prop
  | .expected _ found => left.head? = some found
  | .unexpectedEnd _ => left = []

/-- The outcome leaves the tokens `left`. -/
def Leaves {α : Type} (left : List Token) : Except ParseError (α × List Token) → Prop
  | .ok (_, rest) => rest = left
  | .error e => e.At left

/-- The parser never goes back, and never past the end: whether it succeeds or fails, it leaves a
suffix of what it was given. -/
def Parser.Forward {α : Type} (p : Parser α) : Prop :=
  ∀ ts, ∃ left, Leaves left (p ts) ∧ left <:+ ts

namespace Parser

variable {α : Type} {F : Token → Prop}

theorem Prompt.forward {p : Parser α} (h : Prompt F p) : p.Forward := by
  intro ts
  cases hp : p ts with
  | ok r =>
    obtain ⟨a, rest⟩ := r
    cases rest with
    | nil => exact ⟨[], rfl, List.nil_suffix⟩
    | cons t rest =>
      obtain ⟨pre, hts, -⟩ := (h ts).ok_split hp
      exact ⟨t :: rest, rfl, pre, hts.symm⟩
  | error e =>
    cases e with
    | unexpectedEnd what => exact ⟨[], rfl, List.nil_suffix⟩
    | expected what found =>
      obtain ⟨pre, rest, hts, -⟩ := (h ts).error_split hp
      exact ⟨found :: rest, rfl, pre, hts.symm⟩

theorem Forward.accept (what : Expectation) (test : Token → Bool) :
    (accept what test).Forward := by
  intro ts
  cases ts with
  | nil => exact ⟨[], rfl, List.nil_suffix⟩
  | cons t ts =>
    rw [Parser.accept]
    split
    · exact ⟨ts, rfl, List.suffix_cons t ts⟩
    · exact ⟨t :: ts, rfl, List.suffix_rfl⟩

theorem Forward.passOver {drop : List Token → List Token} (h : ∀ ts, drop ts <:+ ts) :
    (passOver drop).Forward :=
  fun ts => ⟨drop ts, rfl, h ts⟩

end Parser

/-! ## Loops -/

/-- What a round of a loop comes to. -/
inductive Round (σ : Type) where
  /-- The loop goes on with the tokens that are left. -/
  | again (state : σ) (left : List Token)
  /-- The loop is over. -/
  | done (state : σ) (left : List Token)
  /-- Reading fails. -/
  | failed (e : ParseError)

/-- The round never goes back behind the tokens `ts` that it was given; if the loop goes on, it has
taken one of them. -/
def Round.Advances {σ : Type} (ts : List Token) : Round σ → Prop
  | again _ left => left <:+ ts ∧ left.length < ts.length
  | done _ left => left <:+ ts
  | failed e => ∃ left, e.At left ∧ left <:+ ts

/-- A loop over tokens, given by what a round makes of its state and of the tokens that are
left. -/
abbrev Loop (σ : Type) := σ → List Token → Round σ

namespace Loop

variable {σ : Type} {loop : Loop σ}

/-- The loop advances in each of its rounds. -/
def Progressive (loop : Loop σ) : Prop :=
  ∀ s ts, (loop s ts).Advances ts

/-- From the state `s` and the tokens `ts` on, the loop goes on for `n` rounds and then comes to an
end with the given outcome. -/
inductive Ends (loop : Loop σ) :
    σ → List Token → Nat → Except ParseError (σ × List Token) → Prop
  | done {s ts s' left} : loop s ts = .done s' left → Ends loop s ts 0 (.ok (s', left))
  | failed {s ts e} : loop s ts = .failed e → Ends loop s ts 0 (.error e)
  | again {s ts s' mid n r} : loop s ts = .again s' mid → Ends loop s' mid n r →
      Ends loop s ts (n + 1) r

/-- A loop ends in one way only. -/
theorem Ends.unique {s : σ} {ts : List Token} {n m : Nat}
    {r q : Except ParseError (σ × List Token)} (h : loop.Ends s ts n r) (h' : loop.Ends s ts m q) :
    m = n ∧ q = r := by
  induction h generalizing m q with
  | done hround => cases h' <;> simp_all
  | failed hround => cases h' <;> simp_all
  | again hround _ ih =>
    cases h' with
    | done hround' => simp_all
    | failed hround' => simp_all
    | again hround' hends =>
      rw [hround] at hround'
      obtain ⟨rfl, rfl⟩ := Round.again.inj hround'
      obtain ⟨rfl, rfl⟩ := ih hends
      exact ⟨rfl, rfl⟩

/-- The function `f` does what the loop does, round by round. -/
def Follows (loop : Loop σ) (f : σ → List Token → Except ParseError (σ × List Token)) : Prop :=
  ∀ s ts, f s ts =
    match loop s ts with
    | .again s' left => f s' left
    | .done s' left => .ok (s', left)
    | .failed e => .error e

/-- A loop that makes progress comes to an end, and takes at least as many tokens as it has
rounds. -/
theorem Progressive.ends_of_follows (h : loop.Progressive)
    {f : σ → List Token → Except ParseError (σ × List Token)} (hf : loop.Follows f) (s : σ)
    (ts : List Token) :
    ∃ n left, loop.Ends s ts n (f s ts) ∧ Leaves left (f s ts) ∧ left <:+ ts ∧
      n + left.length ≤ ts.length := by
  -- A round that goes on takes a token, so the tokens behind it are fewer.
  induction hlen : ts.length using Nat.strongRecOn generalizing s ts with
  | ind k ih =>
    have hround := h s ts
    have hstep := hf s ts
    cases hloop : loop s ts with
    | again s' mid =>
      rw [hloop] at hround hstep
      obtain ⟨hsuffix, hlt⟩ := hround
      obtain ⟨n, left, hends, hleaves, hrest, hle⟩ := ih mid.length (by omega) s' mid rfl
      rw [hstep]
      exact ⟨n + 1, left, .again hloop hends, hleaves, hrest.trans hsuffix, by omega⟩
    | done s' left =>
      rw [hloop] at hround hstep
      have hle := hround.length_le
      rw [hstep]
      exact ⟨0, left, .done hloop, rfl, hround, by omega⟩
    | failed e =>
      rw [hloop] at hround hstep
      obtain ⟨left, hleft, hsuffix⟩ := hround
      have hle := hsuffix.length_le
      rw [hstep]
      exact ⟨0, left, .failed hloop, hleft, hsuffix, by omega⟩

/-- Started with `s`, the loop makes progress in each round and comes to the outcome that `p` has.
It leaves a suffix of the tokens, and has no more rounds that go on than it takes tokens. -/
def EndsAs (loop : Loop σ) (s : σ) (p : Parser σ) : Prop :=
  loop.Progressive ∧ ∀ ts, ∃ n left,
    loop.Ends s ts n (p ts) ∧ (∀ m r, loop.Ends s ts m r → m = n ∧ r = p ts) ∧
      Leaves left (p ts) ∧ left <:+ ts ∧ n + left.length ≤ ts.length

theorem Progressive.endsAs (h : loop.Progressive)
    {f : σ → List Token → Except ParseError (σ × List Token)} (hf : loop.Follows f) (s : σ) :
    loop.EndsAs s (f s) := by
  refine ⟨h, fun ts => ?_⟩
  obtain ⟨n, left, hends, hleaves, hsuffix, hle⟩ := h.ends_of_follows hf s ts
  exact ⟨n, left, hends, fun m r hother => hends.unique hother, hleaves, hsuffix, hle⟩

end Loop

namespace Parser

variable {α : Type}

/-! ## Repetitions -/

/-- The outcome of a repetition that has collected `as` before. -/
def collected (as : List α) (r : Except ParseError (List α × List Token)) :
    Except ParseError (List α × List Token) :=
  r.map fun (bs, rest) => (as ++ bs, rest)

theorem collected_nil (r : Except ParseError (List α × List Token)) : collected [] r = r := by
  cases r <;> rfl

/-- What is collected later goes behind. -/
theorem collected_bind_cons (as : List α) (a : α) (p : Parser (List α)) (ts : List Token) :
    collected as ((p >>= fun bs => pure (a :: bs)) ts) = collected (as ++ [a]) (p ts) := by
  cases hp : p ts with
  | error e =>
    rw [run_bind_error hp]
    rfl
  | ok r =>
    obtain ⟨bs, rest⟩ := r
    rw [run_bind hp]
    simp [collected, Except.map, run_pure]

/-- The loop that takes tokens one after another, each with what `step` reads behind it. -/
def manyLoop (stop : Token → Bool) (step : Token → Parser α) : Loop (List α)
  | as, [] => .done as []
  | as, t :: ts =>
    if stop t then .done as (t :: ts)
    else
      match step t ts with
      | .error e => .failed e
      | .ok (a, rest) => .again (as ++ [a]) rest

theorem manyLoop_follows (stop : Token → Bool) (step : Token → Parser α)
    (h : ∀ t, (step t).LeavesSuffix) :
    (manyLoop stop step).Follows fun as ts => collected as (manyUntil stop step h ts) := by
  intro as ts
  show collected as (manyUntil stop step h ts) = _
  cases ts with
  | nil =>
    rw [run_manyUntil_stop rfl]
    simp [manyLoop, collected, Except.map]
  | cons t ts =>
    by_cases ht : stop t = true
    · rw [run_manyUntil_stop (by simpa using ht)]
      simp [manyLoop, ht, collected, Except.map]
    · rw [manyUntil_cons (by simpa using ht), manyLoop, if_neg ht]
      cases hs : step t ts with
      | error e =>
        rw [run_bind_error hs]
        rfl
      | ok r =>
        obtain ⟨a, mid⟩ := r
        rw [run_bind hs]
        exact collected_bind_cons as a _ mid

theorem manyLoop_progressive {stop : Token → Bool} {step : Token → Parser α}
    (hstep : ∀ t, (step t).Forward) : (manyLoop stop step).Progressive := by
  intro as ts
  cases ts with
  | nil => exact List.suffix_rfl
  | cons t ts =>
    rw [manyLoop]
    split
    · exact List.suffix_rfl
    · obtain ⟨left, hleft, hsuffix⟩ := hstep t ts
      cases hs : step t ts with
      | error e =>
        rw [hs] at hleft
        exact ⟨left, hleft, hsuffix.trans (List.suffix_cons t ts)⟩
      | ok r =>
        rw [hs] at hleft
        obtain rfl : r.2 = left := hleft
        exact ⟨hsuffix.trans (List.suffix_cons t ts), Nat.lt_succ_of_le hsuffix.length_le⟩

theorem manyLoop_endsAs {stop : Token → Bool} {step : Token → Parser α}
    (h : ∀ t, (step t).LeavesSuffix) (hstep : ∀ t, (step t).Forward) :
    (manyLoop stop step).EndsAs [] (manyUntil stop step h) := by
  have hends := (manyLoop_progressive hstep).endsAs (manyLoop_follows stop step h) []
  simpa only [collected_nil] using hends

/-- The loop that reads the members of a list between commas.  Behind a comma it goes on, and also
in front of a token that ends the list: this is found out in the next round. -/
def commaLoop (stop : Token → Bool) (member : Parser α) : Loop (List α) := fun as ts =>
  if ts.head?.any stop then .done as ts
  else
    match member ts with
    | .error e => .failed e
    | .ok (a, []) => .done (as ++ [a]) []
    | .ok (a, t :: rest) =>
      if t.kind == .comma then .again (as ++ [a]) rest
      else if stop t then .again (as ++ [a]) (t :: rest)
      else .done (as ++ [a]) (t :: rest)

theorem commaLoop_follows (stop : Token → Bool) (member : Parser α) (h : member.Consumes) :
    (commaLoop stop member).Follows fun as ts =>
      collected as (commaSeparated stop member h ts) := by
  intro as ts
  show collected as (commaSeparated stop member h ts) = _
  rw [commaLoop]
  by_cases hts : ts.head?.any stop = true
  · rw [run_commaSeparated_stop hts, if_pos hts]
    simp [collected, Except.map]
  · rw [commaSeparated_eq (by simpa using hts), if_neg hts]
    cases hm : member ts with
    | error e =>
      rw [run_bind_error hm]
      rfl
    | ok r =>
      obtain ⟨a, rest⟩ := r
      rw [run_bind hm]
      cases rest with
      | nil => rfl
      | cons t rest =>
        by_cases hcomma : (t.kind == TokenKind.comma) = true
        · rw [run_ifTaken_pos hcomma]
          simp only [hcomma, if_true]
          exact collected_bind_cons as a _ rest
        · rw [run_ifTaken_neg (by simpa using hcomma)]
          by_cases hstop : stop t = true
          · have hlast : commaSeparated stop member h (t :: rest) = .ok ([], t :: rest) :=
              run_commaSeparated_stop (by simpa using hstop)
            simp [hcomma, hstop, hlast, collected, Except.map, run_pure]
          · simp [hcomma, hstop, collected, Except.map, run_pure]

theorem commaLoop_progressive {stop : Token → Bool} {member : Parser α} (h : member.Consumes)
    (hmember : member.Forward) : (commaLoop stop member).Progressive := by
  intro as ts
  rw [commaLoop]
  split
  · exact List.suffix_rfl
  · obtain ⟨left, hleft, hsuffix⟩ := hmember ts
    split
    · next e hm =>
      rw [hm] at hleft
      exact ⟨left, hleft, hsuffix⟩
    · exact List.nil_suffix
    · next a t rest hm =>
      -- A member takes a token, also if no comma follows it.
      obtain ⟨hmid, hlt⟩ := h hm
      split
      · have hrest := List.suffix_cons t rest
        exact ⟨hrest.trans hmid, Nat.lt_of_le_of_lt hrest.length_le hlt⟩
      split
      · exact ⟨hmid, hlt⟩
      · exact hmid

theorem commaLoop_endsAs {stop : Token → Bool} {member : Parser α} (h : member.Consumes)
    (hmember : member.Forward) :
    (commaLoop stop member).EndsAs [] (commaSeparated stop member h) := by
  have hends := (commaLoop_progressive h hmember).endsAs (commaLoop_follows stop member h) []
  simpa only [collected_nil] using hends

end Parser

/-! ## Passing over -/

/-- The loop that passes over tokens until `depth` parentheses are closed.  How many of them were
left open at the end of all tokens does not matter any more. -/
def groupLoop : Loop Nat
  | 0, ts => .done 0 ts
  | _ + 1, [] => .done 0 []
  | depth + 1, t :: ts => .again (depthBehind depth t) ts

theorem groupLoop_follows : groupLoop.Follows fun depth ts => .ok (0, dropGroup depth ts) := by
  intro depth ts
  show Except.ok (0, dropGroup depth ts) = _
  match depth, ts with
  | 0, ts => rw [groupLoop, dropGroup_zero]
  | depth + 1, [] => rfl
  | depth + 1, t :: ts => rw [groupLoop, dropGroup_cons]

theorem groupLoop_progressive : groupLoop.Progressive := by
  intro depth ts
  match depth, ts with
  | 0, ts => exact List.suffix_rfl
  | depth + 1, [] => exact List.suffix_rfl
  | depth + 1, t :: ts => exact ⟨List.suffix_cons t ts, Nat.lt_succ_self _⟩

/-- The loop that passes over the actions of a foreign key, one in each round. -/
def actionLoop : Loop Unit
  | _, [] => .done () []
  | _, t :: ts =>
    if t.isWord "ON" then .again () (ts.drop (actionLength ts)) else .done () (t :: ts)

theorem actionLoop_follows : actionLoop.Follows fun _ ts => .ok ((), dropActions ts) := by
  intro _ ts
  show Except.ok ((), dropActions ts) = _
  cases ts with
  | nil => rw [actionLoop, dropActions]
  | cons t ts =>
    rw [actionLoop]
    by_cases hon : t.isWord "ON" = true
    · rw [dropActions_on hon, if_pos hon]
    · rw [dropActions, if_neg hon, if_neg hon]

theorem actionLoop_progressive : actionLoop.Progressive := by
  intro _ ts
  cases ts with
  | nil => exact List.suffix_rfl
  | cons t ts =>
    rw [actionLoop]
    split
    · -- The word `ON` is taken, even if an action breaks off behind it.
      have hrest := List.drop_suffix (actionLength ts) ts
      exact ⟨hrest.trans (List.suffix_cons t ts), Nat.lt_succ_of_le hrest.length_le⟩
    · exact List.suffix_rfl

/-- The loop that passes over the rest of a statement, with its semicolon. -/
def statementEndLoop : Loop Unit
  | _, [] => .done () []
  | _, t :: ts => if t.kind == .semicolon then .done () ts else .again () ts

theorem statementEndLoop_follows :
    statementEndLoop.Follows fun _ ts => .ok ((), dropStatement ts) := by
  intro _ ts
  show Except.ok ((), dropStatement ts) = _
  cases ts with
  | nil => rfl
  | cons t ts =>
    rw [statementEndLoop]
    by_cases ht : t.kind = .semicolon
    · simp [dropStatement, ht]
    · simp [dropStatement_of_ne ht, ht]

theorem statementEndLoop_progressive : statementEndLoop.Progressive := by
  intro _ ts
  cases ts with
  | nil => exact List.suffix_rfl
  | cons t ts =>
    rw [statementEndLoop]
    split
    · exact List.suffix_cons t ts
    · exact ⟨List.suffix_cons t ts, Nat.lt_succ_self _⟩

/-! ## The readers -/

/-- The readers of which the reading of a script is made up, with the type of what they give. -/
inductive Reader : Type → Type
  | accept (what : Expectation) (test : Token → Bool) : Reader Token
  | keyword (word : String) : Reader Unit
  | mark (kind : TokenKind) : Reader Unit
  | name (what : Expectation) : Reader String
  | optionalName : Reader (Option String)
  | typeArgument : Reader String
  | columnType : Reader String
  | columnAttribute (first : Token) : Reader ColumnAttribute
  | columnDefinition : Reader Column
  | columnListEntry (first : Token) : Reader (Option String)
  | columnList : Reader (List String)
  | foreignKeyBody : Reader (List String × Reference)
  | foreignKeyItem (keyName : Option String) : Reader TableItem
  | primaryKeyItem : Reader TableItem
  | keyItem : Reader TableItem
  | uniqueItem (constraintName : Option String) : Reader TableItem
  | constraintItem : Reader TableItem
  | tableItem : Reader TableItem
  | tableBody : Reader (List TableItem)
  | createTable : Reader Statement
  | alterTable : Reader Statement
  | statement (first : Token) : Reader (Option Statement)
  | statements : Reader (List Statement)
  | group (depth : Nat) : Reader Unit
  | actions : Reader Unit
  | statementEnd : Reader Unit

/-- What a reader does. -/
def Reader.parser : {α : Type} → Reader α → Parser α
  | _, accept what test => .accept what test
  | _, keyword word => .keyword word
  | _, mark kind => .mark kind
  | _, name what => .name what
  | _, optionalName => .optionalName
  | _, typeArgument => .typeArgument
  | _, columnType => .columnType
  | _, columnAttribute first => .columnAttribute first
  | _, columnDefinition => .columnDefinition
  | _, columnListEntry first => .columnListEntry first
  | _, columnList => .columnList
  | _, foreignKeyBody => .foreignKeyBody
  | _, foreignKeyItem keyName => .foreignKeyItem keyName
  | _, primaryKeyItem => .primaryKeyItem
  | _, keyItem => .keyItem
  | _, uniqueItem constraintName => .uniqueItem constraintName
  | _, constraintItem => .constraintItem
  | _, tableItem => .tableItem
  | _, tableBody => .tableBody
  | _, createTable => .createTable
  | _, alterTable => .alterTable
  | _, statement first => .statement first
  | _, statements => .statements
  | _, group depth => .passOver (dropGroup depth)
  | _, actions => .passOver dropActions
  | _, statementEnd => .passOver dropStatement

open SchemaArchive.Parser (Prompt Forward Consumes LeavesSuffix)

/-- No reader ever goes back. -/
theorem Reader.forward {α : Type} (r : Reader α) : r.parser.Forward := by
  cases r with
  | accept what test => exact Forward.accept what test
  | keyword word => exact (Prompt.keyword word).forward
  | mark kind => exact (Prompt.mark kind).forward
  | name what => exact (Prompt.name what).forward
  | optionalName => exact Prompt.optionalName.forward
  | typeArgument => exact Prompt.typeArgument.forward
  | columnType => exact Prompt.columnType.forward
  | columnAttribute first => exact (Prompt.columnAttribute first).forward
  | columnDefinition => exact Prompt.columnDefinition.forward
  | columnListEntry first => exact (Prompt.columnListEntry first).forward
  | columnList => exact Prompt.columnList.forward
  | foreignKeyBody => exact Prompt.foreignKeyBody.forward
  | foreignKeyItem keyName => exact (Prompt.foreignKeyItem keyName).forward
  | primaryKeyItem => exact Prompt.primaryKeyItem.forward
  | keyItem => exact Prompt.keyItem.forward
  | uniqueItem constraintName => exact (Prompt.uniqueItem constraintName).forward
  | constraintItem => exact Prompt.constraintItem.forward
  | tableItem => exact Prompt.tableItem.forward
  | tableBody => exact Prompt.tableBody.forward
  | createTable => exact Prompt.createTable.forward
  | alterTable => exact Prompt.alterTable.forward
  | statement first => exact (Prompt.statement first).forward
  | statements => exact Prompt.statements.forward
  | group depth => exact Forward.passOver (dropGroup_suffix depth)
  | actions => exact Forward.passOver dropActions_suffix
  | statementEnd => exact Forward.passOver dropStatement_suffix

/-- No reader of a script ever goes back, and items, foreign keys, column lists and columns take at
least one token.  All loops of reading end: those over statements, table items, the arguments of
types, attributes and the entries of column lists, and those that pass over actions, groups and the
rest of a statement.  Each round that goes on has taken a token, and there are at most as many of
them as tokens that the loop takes, whatever these are. -/
theorem readers_forward_loops_end :
    (∀ {α : Type} (r : Reader α), r.parser.Forward) ∧
    (Parser.tableItem.Consumes ∧ Parser.foreignKeyBody.Consumes ∧ Parser.columnList.Consumes ∧
      Parser.columnDefinition.Consumes) ∧
    (Parser.manyLoop (fun _ => false) Parser.statement).EndsAs []
      (Parser.manyUntil (fun _ => false) Parser.statement LeavesSuffix.statement) ∧
    (Parser.commaLoop (·.kind == .rightParen) Parser.tableItem).EndsAs []
      (Parser.commaSeparated (·.kind == .rightParen) Parser.tableItem Consumes.tableItem) ∧
    (Parser.commaLoop (fun _ => false) Parser.typeArgument).EndsAs []
      (Parser.commaSeparated (fun _ => false) Parser.typeArgument Consumes.typeArgument) ∧
    (Parser.manyLoop Token.endsAttributes Parser.columnAttribute).EndsAs []
      (Parser.manyUntil Token.endsAttributes Parser.columnAttribute
        LeavesSuffix.columnAttribute) ∧
    (Parser.manyLoop (·.kind == .rightParen) Parser.columnListEntry).EndsAs []
      (Parser.manyUntil (·.kind == .rightParen) Parser.columnListEntry
        LeavesSuffix.columnListEntry) ∧
    actionLoop.EndsAs () (Parser.passOver dropActions) ∧
    (∀ depth, groupLoop.EndsAs depth fun ts => .ok (0, dropGroup depth ts)) ∧
    statementEndLoop.EndsAs () (Parser.passOver dropStatement) := by
  refine ⟨fun r => r.forward, ⟨Consumes.tableItem, Consumes.foreignKeyBody, Consumes.columnList,
    Consumes.columnDefinition⟩, ?_, ?_, ?_, ?_, ?_, ?_, ?_, ?_⟩
  · exact Parser.manyLoop_endsAs _ fun t => (Reader.statement t).forward
  · exact Parser.commaLoop_endsAs _ Reader.tableItem.forward
  · exact Parser.commaLoop_endsAs _ Reader.typeArgument.forward
  · exact Parser.manyLoop_endsAs _ fun t => (Reader.columnAttribute t).forward
  · exact Parser.manyLoop_endsAs _ fun t => (Reader.columnListEntry t).forward
  · exact actionLoop_progressive.endsAs actionLoop_follows ()
  · exact groupLoop_progressive.endsAs groupLoop_follows
  · exact statementEndLoop_progressive.endsAs statementEndLoop_follows ()

end SchemaArchive
