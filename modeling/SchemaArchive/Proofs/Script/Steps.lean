import SchemaArchive.Proofs.Script.Grammar

/-!
# What reading does with tokens that fit

One equation for each step of reading, for the case that the next tokens are what the step waits
for: it takes exactly those, and goes on with the rest.  The two repetitions have theirs for a
list of pieces, whatever the pieces are.

* `Parser.run_bind` — reading in sequence.
* `Parser.run_manyUntil`, `Parser.run_commaSeparated` — repetition, piece by piece.
-/

namespace SchemaArchive

open Grammar (Reserved Mark Name commaTokens)

namespace Parser

variable {α β ι : Type}

/-! ## Single steps -/

theorem run_bind {p : Parser α} {f : α → Parser β} {ts mid : List Token} {a : α}
    (h : p ts = .ok (a, mid)) : (p >>= f) ts = f a mid := by
  show (p ts >>= fun r => f r.1 r.2) = f a mid
  rw [h]
  rfl

theorem run_pure (a : α) (ts : List Token) : (pure a : Parser α) ts = .ok (a, ts) := rfl

theorem run_accept {what : Expectation} {test : Token → Bool} {t : Token} (h : test t = true)
    (ts : List Token) : accept what test (t :: ts) = .ok (t, ts) := by
  rw [accept, if_pos h]

theorem run_keyword {word : String} (t : Reserved word) (ts : List Token) :
    keyword word (t.1 :: ts) = .ok ((), ts) := by
  rw [keyword, run_bind (run_accept t.2 ts)]
  rfl

theorem run_mark {kind : TokenKind} (t : Mark kind) (ts : List Token) :
    mark kind (t.1 :: ts) = .ok ((), ts) := by
  rw [mark, run_bind (run_accept (by simp [t.2]) ts)]
  rfl

theorem run_name {what : Expectation} (t : Name) (ts : List Token) :
    name what (t.1 :: ts) = .ok (t.1.value, ts) := by
  rw [name, run_bind (run_accept t.2 ts)]
  rfl

theorem run_passOver (drop : List Token → List Token) (ts : List Token) :
    passOver drop ts = .ok ((), drop ts) := rfl

theorem run_ifTaken_pos {test : Token → Bool} {yes no : Parser α} {t : Token}
    (h : test t = true) (ts : List Token) : ifTaken test yes no (t :: ts) = yes ts := by
  rw [ifTaken, if_pos h]

theorem run_ifTaken_neg {test : Token → Bool} {yes no : Parser α} {t : Token}
    (h : test t = false) (ts : List Token) : ifTaken test yes no (t :: ts) = no (t :: ts) := by
  rw [ifTaken, if_neg (by simp [h])]

theorem run_optionalName_some (t : Name) (ts : List Token) :
    optionalName (t.1 :: ts) = .ok (some t.1.value, ts) := by
  rw [optionalName, if_pos t.2]

theorem run_optionalName_none {t : Token} (h : t.isName = false) (ts : List Token) :
    optionalName (t :: ts) = .ok (none, t :: ts) := by
  rw [optionalName, if_neg (by simp [h])]

/-- A name that may be left out is read from its own tokens, if no name comes next. -/
theorem run_optionalName (name : Option Name) {t : Token} (h : t.isName = false)
    (ts : List Token) :
    optionalName (Grammar.maybe name ++ t :: ts) =
      .ok (name.map (·.1.value), t :: ts) := by
  cases name with
  | none => exact run_optionalName_none h ts
  | some name => exact run_optionalName_some name (t :: ts)

/-! ## Repetition -/

/-- A step that begins at a token which does not stop the repetition. -/
theorem run_manyUntil_cons {stop : Token → Bool} {step : Token → Parser α}
    {h : ∀ t, (step t).LeavesSuffix} {t : Token} {ts mid rest : List Token} {a : α} {as : List α}
    (ht : stop t = false) (hs : step t ts = .ok (a, mid))
    (hm : manyUntil stop step h mid = .ok (as, rest)) :
    manyUntil stop step h (t :: ts) = .ok (a :: as, rest) := by
  rw [manyUntil, if_neg (by simp [ht])]
  split
  · next e he => rw [he] at hs; cases hs
  · next b mid' he =>
    rw [he] at hs
    obtain ⟨rfl, rfl⟩ := Prod.mk.inj (Except.ok.inj hs)
    rw [hm]

theorem run_manyUntil_stop {stop : Token → Bool} {step : Token → Parser α}
    {h : ∀ t, (step t).LeavesSuffix} {ts : List Token} (hts : ts.head?.all stop = true) :
    manyUntil stop step h ts = .ok ([], ts) := by
  cases ts with
  | nil => rw [manyUntil]
  | cons t ts => rw [manyUntil, if_pos (by simpa using hts)]

/-- The repetition reads a list of pieces, each from its own first token on, up to a token that
stops it. -/
theorem run_manyUntil {stop : Token → Bool} {step : Token → Parser α}
    {h : ∀ t, (step t).LeavesSuffix} (tokens : ι → List Token) (value : ι → α)
    (hstep : ∀ i, ∃ t more, tokens i = t :: more ∧ stop t = false ∧
      ∀ rest, step t (more ++ rest) = .ok (value i, rest))
    (pieces : List ι) (rest : List Token) (hrest : rest.head?.all stop = true) :
    manyUntil stop step h (pieces.flatMap tokens ++ rest) = .ok (pieces.map value, rest) := by
  induction pieces with
  | nil => exact run_manyUntil_stop hrest
  | cons i pieces ih =>
    obtain ⟨t, more, hi, ht, hs⟩ := hstep i
    rw [List.flatMap_cons, hi, List.append_assoc, List.cons_append]
    exact run_manyUntil_cons ht (hs _) ih

theorem run_commaSeparated_stop {stop : Token → Bool} {member : Parser α}
    {h : member.Consumes} {ts : List Token} (hts : ts.head?.any stop = true) :
    commaSeparated stop member h ts = .ok ([], ts) := by
  rw [commaSeparated, if_pos hts]

/-- A member with a comma behind it. -/
theorem run_commaSeparated_comma {stop : Token → Bool} {member : Parser α}
    {h : member.Consumes} {ts mid rest : List Token} {a : α} {as : List α} {t : Token}
    (hts : ts.head?.any stop = false) (hm : member ts = .ok (a, t :: mid)) (ht : t.kind = .comma)
    (hs : commaSeparated stop member h mid = .ok (as, rest)) :
    commaSeparated stop member h ts = .ok (a :: as, rest) := by
  rw [commaSeparated, if_neg (by simp [hts])]
  split
  · next e he => rw [he] at hm; cases hm
  · next b he => rw [he] at hm; cases hm
  · next b u mid' he =>
    rw [he] at hm
    obtain ⟨rfl, htm⟩ := Prod.mk.inj (Except.ok.inj hm)
    obtain ⟨rfl, rfl⟩ := List.cons.inj htm
    rw [if_pos (by simp [ht]), hs]

/-- A member without a comma behind it, which is the last one. -/
theorem run_commaSeparated_last {stop : Token → Bool} {member : Parser α}
    {h : member.Consumes} {ts rest : List Token} {a : α} {t : Token}
    (hts : ts.head?.any stop = false) (hm : member ts = .ok (a, t :: rest))
    (ht : t.kind ≠ .comma) :
    commaSeparated stop member h ts = .ok ([a], t :: rest) := by
  rw [commaSeparated, if_neg (by simp [hts])]
  split
  · next e he => rw [he] at hm; cases hm
  · next b he => rw [he] at hm; cases hm
  · next b u mid' he =>
    rw [he] at hm
    obtain ⟨rfl, htm⟩ := Prod.mk.inj (Except.ok.inj hm)
    obtain ⟨rfl, rfl⟩ := List.cons.inj htm
    rw [if_neg (by simp [ht])]

/-- The repetition reads members with commas behind them, and perhaps one more without, up to a
token `t` that can follow a member.  If there is none without a comma, `t` has to stop it. -/
theorem run_commaSeparated {stop : Token → Bool} {member : Parser α} {h : member.Consumes}
    (tokens : ι → List Token) (value : ι → α) (follows : Token → Prop)
    (hcomma : ∀ t : Token, t.kind = .comma → follows t)
    (hmember : ∀ i t rest, follows t → (tokens i ++ t :: rest).head?.any stop = false ∧
      member (tokens i ++ t :: rest) = .ok (value i, t :: rest))
    (leading : List (ι × Mark .comma)) (last : Option ι) {t : Token} (rest : List Token)
    (ht : follows t) (hc : t.kind ≠ .comma) (hlast : last = none → stop t = true) :
    commaSeparated stop member h
        (commaTokens tokens leading ++ ((last.map tokens).getD [] ++ t :: rest)) =
      .ok ((leading.map Prod.fst ++ last.toList).map value, t :: rest) := by
  induction leading with
  | nil =>
    cases last with
    | none => exact run_commaSeparated_stop (by simpa [commaTokens] using hlast rfl)
    | some i => exact run_commaSeparated_last (hmember i t rest ht).1 (hmember i t rest ht).2 hc
  | cons m leading ih =>
    have hm := hmember m.1 m.2.1
      (commaTokens tokens leading ++ ((last.map tokens).getD [] ++ t :: rest)) (hcomma _ m.2.2)
    have hts : commaTokens tokens (m :: leading) ++ ((last.map tokens).getD [] ++ t :: rest) =
        tokens m.1 ++ m.2.1 ::
          (commaTokens tokens leading ++ ((last.map tokens).getD [] ++ t :: rest)) := by
      simp [commaTokens]
    rw [hts]
    exact run_commaSeparated_comma hm.1 hm.2 m.2.2 ih

end Parser

end SchemaArchive
