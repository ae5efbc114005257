import SchemaArchive.Script.ParseError

/-!
# Reading from a list of tokens

A `Parser α` takes tokens from the front of a list and gives an `α` with the tokens it left, or
the error at which it stopped.  This module holds the steps from which the readers of columns,
constraints and statements are put together, and two kinds of repetition that end because every
round takes a token.

* `Parser.LeavesSuffix` — what a parser leaves is a suffix of what it was given: it never goes
  back.  `Parser.Consumes` — it takes at least one token as well.
* Both properties pass through sequencing (`LeavesSuffix.bind`, `Consumes.bind`,
  `LeavesSuffix.bind_consumes`), choice (`ifTaken`) and repetition (`manyUntil`,
  `commaSeparated`).
-/

namespace SchemaArchive

/-- A reader of tokens. -/
abbrev Parser (α : Type) := StateT (List Token) (Except ParseError) α

namespace Parser

variable {α β : Type}

/-! ## Progress -/

/-- What `p` leaves is a suffix of what it was given. -/
def LeavesSuffix (p : Parser α) : Prop :=
  ∀ ⦃ts : List Token⦄ ⦃a : α⦄ ⦃rest : List Token⦄, p ts = .ok (a, rest) → rest <:+ ts

/-- What `p` leaves is a shorter suffix of what it was given. -/
def Consumes (p : Parser α) : Prop :=
  ∀ ⦃ts : List Token⦄ ⦃a : α⦄ ⦃rest : List Token⦄, p ts = .ok (a, rest) →
    rest <:+ ts ∧ rest.length < ts.length

theorem Consumes.leavesSuffix {p : Parser α} (h : p.Consumes) : p.LeavesSuffix :=
  fun _ _ _ hp => (h hp).1

theorem bind_eq_ok_iff {p : Parser α} {f : α → Parser β} {ts rest : List Token} {b : β} :
    (p >>= f) ts = .ok (b, rest) ↔ ∃ a mid, p ts = .ok (a, mid) ∧ f a mid = .ok (b, rest) := by
  show (p ts >>= fun r => f r.1 r.2) = _ ↔ _
  cases p ts with
  | error e => simp [bind, Except.bind]
  | ok r =>
    obtain ⟨a, mid⟩ := r
    constructor
    · exact fun h => ⟨a, mid, rfl, h⟩
    · rintro ⟨a', mid', h₁, h₂⟩
      obtain ⟨rfl, rfl⟩ := Prod.mk.inj (Except.ok.inj h₁)
      exact h₂

theorem LeavesSuffix.pure (a : α) : LeavesSuffix (Pure.pure a : Parser α) := by
  intro ts b rest h
  obtain ⟨-, rfl⟩ := Prod.mk.inj (Except.ok.inj h)
  exact List.suffix_rfl

theorem LeavesSuffix.bind {p : Parser α} {f : α → Parser β} (hp : p.LeavesSuffix)
    (hf : ∀ a, (f a).LeavesSuffix) : (p >>= f).LeavesSuffix := by
  intro ts b rest h
  obtain ⟨a, mid, h₁, h₂⟩ := bind_eq_ok_iff.1 h
  exact (hf a h₂).trans (hp h₁)

theorem Consumes.bind {p : Parser α} {f : α → Parser β} (hp : p.Consumes)
    (hf : ∀ a, (f a).LeavesSuffix) : (p >>= f).Consumes := by
  intro ts b rest h
  obtain ⟨a, mid, h₁, h₂⟩ := bind_eq_ok_iff.1 h
  obtain ⟨hsuf, hlt⟩ := hp h₁
  have := (hf a h₂).length_le
  exact ⟨(hf a h₂).trans hsuf, by omega⟩

theorem LeavesSuffix.bind_consumes {p : Parser α} {f : α → Parser β} (hp : p.LeavesSuffix)
    (hf : ∀ a, (f a).Consumes) : (p >>= f).Consumes := by
  intro ts b rest h
  obtain ⟨a, mid, h₁, h₂⟩ := bind_eq_ok_iff.1 h
  obtain ⟨hsuf, hlt⟩ := hf a h₂
  have := (hp h₁).length_le
  exact ⟨hsuf.trans (hp h₁), by omega⟩

/-! ## Single steps -/

/-- Stops at the next token, which is not what is waited for. -/
def fail (what : Expectation) : Parser α := fun ts =>
  match ts with
  | [] => .error (.unexpectedEnd what)
  | t :: _ => .error (.expected what t)

/-- Takes the next token, which has to pass the test. -/
def accept (what : Expectation) (test : Token → Bool) : Parser Token := fun ts =>
  match ts with
  | [] => .error (.unexpectedEnd what)
  | t :: ts => if test t then .ok (t, ts) else .error (.expected what t)

/-- Takes a reserved word. -/
def keyword (word : String) : Parser Unit := do
  let _ ← accept (.keyword word) (Token.isKeyword word)

/-- Takes a punctuation mark. -/
def mark (kind : TokenKind) : Parser Unit := do
  let _ ← accept (.mark kind) (·.kind == kind)

/-- Takes a token that can name something, and gives the name. -/
def name (what : Expectation) : Parser String := do
  let t ← accept what Token.isName
  return t.value

/-- Takes a name if one comes next. -/
def optionalName : Parser (Option String) := fun ts =>
  match ts with
  | [] => .ok (none, [])
  | t :: ts => if t.isName then .ok (some t.value, ts) else .ok (none, t :: ts)

/-- Goes on with what `drop` leaves of the tokens. -/
def passOver (drop : List Token → List Token) : Parser Unit := fun ts => .ok ((), drop ts)

/-- Takes the next token and goes on with `yes` if it passes the test; goes on with `no`, and
takes nothing, otherwise. -/
def ifTaken (test : Token → Bool) (yes no : Parser α) : Parser α := fun ts =>
  match ts with
  | [] => no []
  | t :: ts => if test t then yes ts else no (t :: ts)

theorem Consumes.fail (what : Expectation) : (fail what : Parser α).Consumes := by
  intro ts a rest h
  cases ts <;> simp [Parser.fail] at h

theorem Consumes.accept (what : Expectation) (test : Token → Bool) :
    (accept what test).Consumes := by
  intro ts a rest h
  cases ts with
  | nil => simp [Parser.accept] at h
  | cons t ts =>
    simp only [Parser.accept] at h
    split at h
    · obtain ⟨-, rfl⟩ := Prod.mk.inj (Except.ok.inj h)
      exact ⟨List.suffix_cons t ts, by simp⟩
    · simp at h

theorem Consumes.keyword (word : String) : (keyword word).Consumes :=
  (Consumes.accept _ _).bind fun _ => LeavesSuffix.pure _

theorem Consumes.mark (kind : TokenKind) : (mark kind).Consumes :=
  (Consumes.accept _ _).bind fun _ => LeavesSuffix.pure _

theorem Consumes.name (what : Expectation) : (name what).Consumes :=
  (Consumes.accept _ _).bind fun _ => LeavesSuffix.pure _

theorem LeavesSuffix.optionalName : Parser.optionalName.LeavesSuffix := by
  intro ts a rest h
  cases ts with
  | nil =>
    obtain ⟨-, rfl⟩ := Prod.mk.inj (Except.ok.inj h)
    exact List.suffix_rfl
  | cons t ts =>
    simp only [Parser.optionalName] at h
    split at h
    · obtain ⟨-, rfl⟩ := Prod.mk.inj (Except.ok.inj h)
      exact List.suffix_cons t ts
    · obtain ⟨-, rfl⟩ := Prod.mk.inj (Except.ok.inj h)
      exact List.suffix_rfl

theorem LeavesSuffix.passOver {drop : List Token → List Token} (h : ∀ ts, drop ts <:+ ts) :
    (passOver drop).LeavesSuffix := by
  intro ts a rest hp
  obtain ⟨-, rfl⟩ := Prod.mk.inj (Except.ok.inj hp)
  exact h ts

theorem LeavesSuffix.ifTaken {test : Token → Bool} {yes no : Parser α} (hy : yes.LeavesSuffix)
    (hn : no.LeavesSuffix) : (ifTaken test yes no).LeavesSuffix := by
  intro ts a rest h
  cases ts with
  | nil => exact hn h
  | cons t ts =>
    simp only [Parser.ifTaken] at h
    split at h
    · exact (hy h).trans (List.suffix_cons t ts)
    · exact hn h

theorem Consumes.ifTaken {test : Token → Bool} {yes no : Parser α} (hy : yes.LeavesSuffix)
    (hn : no.Consumes) : (ifTaken test yes no).Consumes := by
  intro ts a rest h
  cases ts with
  | nil => exact hn h
  | cons t ts =>
    simp only [Parser.ifTaken] at h
    split at h
    · exact ⟨(hy h).trans (List.suffix_cons t ts), Nat.lt_succ_of_le (hy h).length_le⟩
    · exact hn h

/-! ## Repetition -/

/-- Takes tokens one after another, each with what `step` reads behind it, until a token comes
that passes `stop`, or none.  That token is not taken. -/
def manyUntil (stop : Token → Bool) (step : Token → Parser α) (h : ∀ t, (step t).LeavesSuffix)
    (ts : List Token) : Except ParseError (List α × List Token) :=
  match ts with
  | [] => .ok ([], [])
  | t :: ts =>
    if stop t then .ok ([], t :: ts)
    else
      match _hs : step t ts with
      | .error e => .error e
      | .ok (a, rest) =>
        match manyUntil stop step h rest with
        | .error e => .error e
        | .ok (as, rest) => .ok (a :: as, rest)
termination_by ts.length
decreasing_by
  have := (h t _hs).length_le
  simp only [List.length_cons]
  omega

/-- Reads a list whose members stand between commas.  Where a member could begin, a token that
passes `stop` ends the list; behind a member, any token but a comma does. -/
def commaSeparated (stop : Token → Bool) (member : Parser α) (h : member.Consumes)
    (ts : List Token) : Except ParseError (List α × List Token) :=
  if ts.head?.any stop then .ok ([], ts)
  else
    match _hm : member ts with
    | .error e => .error e
    | .ok (a, []) => .ok ([a], [])
    | .ok (a, t :: rest) =>
      if t.kind == .comma then
        match commaSeparated stop member h rest with
        | .error e => .error e
        | .ok (as, rest) => .ok (a :: as, rest)
      else .ok ([a], t :: rest)
termination_by ts.length
decreasing_by
  have := (h _hm).2
  simp only [List.length_cons] at this
  omega

theorem LeavesSuffix.manyUntil {stop : Token → Bool} {step : Token → Parser α}
    (h : ∀ t, (step t).LeavesSuffix) :
    LeavesSuffix (Parser.manyUntil stop step h : Parser (List α)) := by
  intro ts
  fun_induction Parser.manyUntil stop step h ts with
  | case1 =>
    intro as rest hr
    obtain ⟨-, rfl⟩ := Prod.mk.inj (Except.ok.inj hr)
    exact List.suffix_rfl
  | case2 t ts =>
    intro as rest hr
    obtain ⟨-, rfl⟩ := Prod.mk.inj (Except.ok.inj hr)
    exact List.suffix_rfl
  | case3 => intro as rest hr; simp at hr
  | case4 => intro as rest hr; simp at hr
  | case5 t ts hstop a mid hs as rest' hm ih =>
    intro bs rest hr
    obtain ⟨-, rfl⟩ := Prod.mk.inj (Except.ok.inj hr)
    exact ((ih hm).trans (h t hs)).trans (List.suffix_cons t ts)

theorem LeavesSuffix.commaSeparated {stop : Token → Bool} {member : Parser α}
    (h : member.Consumes) :
    LeavesSuffix (Parser.commaSeparated stop member h : Parser (List α)) := by
  intro ts
  fun_induction Parser.commaSeparated stop member h ts with
  | case1 =>
    intro as rest hr
    obtain ⟨-, rfl⟩ := Prod.mk.inj (Except.ok.inj hr)
    exact List.suffix_rfl
  | case2 => intro as rest hr; simp at hr
  | case3 ts hstop a hm =>
    intro as rest hr
    obtain ⟨-, rfl⟩ := Prod.mk.inj (Except.ok.inj hr)
    exact (h hm).1
  | case4 => intro as rest hr; simp at hr
  | case5 ts hstop a t mid hm hc as rest' hs ih =>
    intro bs rest hr
    obtain ⟨-, rfl⟩ := Prod.mk.inj (Except.ok.inj hr)
    exact ((ih hs).trans (List.suffix_cons t mid)).trans (h hm).1
  | case6 ts hstop a t mid hm hc =>
    intro as rest hr
    obtain ⟨-, rfl⟩ := Prod.mk.inj (Except.ok.inj hr)
    exact (h hm).1

end Parser

end SchemaArchive
