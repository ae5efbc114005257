import SchemaArchive.Proofs.Script.Steps

/-!
# Prompt reading

A parser is prompt when it looks at no token that it could do without: the token at which it
stops, or which it leaves untouched, is the first one that settles its outcome, and up to that
token everything could still have turned out well.

`PromptAt follows p ts` says this of the tokens `ts`, in three parts.  An outcome other than
"more tokens are needed" is settled by the token that it names, whatever comes behind; before that
token, `p` was still open; and where `p` is open, some further tokens bring it to an end in front
of any token that can follow.  Not every token can follow every parser: attributes, for instance,
only end before a comma or a closing parenthesis.

* `Prompt.bind` — reading in sequence, `Prompt.ifTaken` — choice.
* `Prompt.manyUntil`, `Prompt.commaSeparated` — repetition.
-/

namespace SchemaArchive.Parser

variable {α β : Type} {F G : Token → Prop} {p q : Parser α} {f : α → Parser β}
  {ts : List Token}

/-! ## What is settled and what is open -/

/-- All tokens are taken, and nothing was wrong with them. -/
def Open (p : Parser α) (ts : List Token) : Prop :=
  (∃ a, p ts = .ok (a, [])) ∨ ∃ what, p ts = .error (.unexpectedEnd what)

/-- The token `t` behind `pre` settles the outcome of `p`, and nothing before it does. -/
def Settles (p : Parser α) (pre : List Token) (t : Token)
    (outcome : List Token → Except ParseError (α × List Token)) : Prop :=
  Open p pre ∧ ∀ rest, p (pre ++ t :: rest) = outcome rest

/-- On the tokens `ts`, the outcome of `p` is settled no later than it has to be. -/
structure PromptAt (follows : Token → Prop) (p : Parser α) (ts : List Token) : Prop where
  ok_split : ∀ {a t rest}, p ts = .ok (a, t :: rest) →
    ∃ pre, ts = pre ++ t :: rest ∧ Settles p pre t fun rest => .ok (a, t :: rest)
  error_split : ∀ {what t}, p ts = .error (.expected what t) →
    ∃ pre rest, ts = pre ++ t :: rest ∧ Settles p pre t fun _ => .error (.expected what t)
  complete : Open p ts →
    ∃ more a, ∀ t rest, follows t → p (ts ++ (more ++ t :: rest)) = .ok (a, t :: rest)

/-- The outcome of `p` is never settled later than it has to be. -/
def Prompt (follows : Token → Prop) (p : Parser α) : Prop :=
  ∀ ts, PromptAt follows p ts

/-- Any token at all. -/
abbrev anyToken : Token → Prop := fun _ => True

theorem PromptAt.mono (h : PromptAt F p ts) (hle : ∀ t, G t → F t) : PromptAt G p ts := by
  refine ⟨h.ok_split, h.error_split, fun ho => ?_⟩
  obtain ⟨more, a, hmore⟩ := h.complete ho
  exact ⟨more, a, fun t rest ht => hmore t rest (hle t ht)⟩

theorem Prompt.mono (h : Prompt F p) (hle : ∀ t, G t → F t) : Prompt G p :=
  fun ts => (h ts).mono hle

/-- Before the first token, everything is open. -/
theorem PromptAt.open_nil (h : PromptAt F p []) : Open p [] := by
  cases hp : p [] with
  | ok r =>
    obtain ⟨a, rest⟩ := r
    cases rest with
    | nil => exact .inl ⟨a, hp⟩
    | cons t rest =>
      obtain ⟨pre, hnil, -⟩ := h.ok_split hp
      simp at hnil
  | error e =>
    cases e with
    | unexpectedEnd what => exact .inr ⟨what, hp⟩
    | expected what t =>
      obtain ⟨pre, rest, hnil, -⟩ := h.error_split hp
      simp at hnil

/-- Before the first token it is enough that everything is open and can come to an end. -/
theorem PromptAt.nil (ho : Open p [])
    (h : ∃ more a, ∀ t rest, F t → p (more ++ t :: rest) = .ok (a, t :: rest)) :
    PromptAt F p [] where
  ok_split hp := by
    rw [Open, hp] at ho
    simp at ho
  error_split hp := by
    rw [Open, hp] at ho
    simp at ho
  complete _ := h

/-- A parser that goes on as `p` behind the token `t`. -/
theorem PromptAt.cons {t : Token} (heq : ∀ ts, q (t :: ts) = p ts) (h : PromptAt F p ts) :
    PromptAt F q (t :: ts) where
  ok_split hq := by
    rw [heq] at hq
    obtain ⟨pre, rfl, ho, hs⟩ := h.ok_split hq
    exact ⟨t :: pre, rfl, by rwa [Open, heq], fun rest => (heq _).trans (hs rest)⟩
  error_split hq := by
    rw [heq] at hq
    obtain ⟨pre, rest, rfl, ho, hs⟩ := h.error_split hq
    exact ⟨t :: pre, rest, rfl, by rwa [Open, heq], fun rest => (heq _).trans (hs rest)⟩
  complete ho := by
    rw [Open, heq] at ho
    obtain ⟨more, a, hmore⟩ := h.complete ho
    exact ⟨more, a, fun u rest hu => (heq _).trans (hmore u rest hu)⟩

/-- A parser that is the same as `p` when the token `t` comes first. -/
theorem PromptAt.congr_head {t : Token} (hnil : Open q []) (heq : ∀ ts, q (t :: ts) = p (t :: ts))
    (h : PromptAt F p (t :: ts)) : PromptAt F q (t :: ts) := by
  -- Whatever comes before the settling token is empty or begins with `t`.
  have hopen : ∀ {pre : List Token} {u : Token} {rest : List Token}, t :: ts = pre ++ u :: rest →
      Open p pre → Open q pre := by
    intro pre u rest hts ho
    cases pre with
    | nil => exact hnil
    | cons t' pre =>
      obtain ⟨rfl, -⟩ := List.cons.inj hts
      rwa [Open, heq]
  have hsame : ∀ {pre : List Token} {u : Token} {rest : List Token}, t :: ts = pre ++ u :: rest →
      ∀ rest', q (pre ++ u :: rest') = p (pre ++ u :: rest') := by
    intro pre u rest hts rest'
    cases pre with
    | nil =>
      obtain ⟨rfl, -⟩ := List.cons.inj hts
      exact heq rest'
    | cons t' pre =>
      obtain ⟨rfl, -⟩ := List.cons.inj hts
      exact heq _
  refine ⟨fun hq => ?_, fun hq => ?_, fun ho => ?_⟩
  · rw [heq] at hq
    obtain ⟨pre, hts, ho, hs⟩ := h.ok_split hq
    exact ⟨pre, hts, hopen hts ho, fun rest => (hsame hts rest).trans (hs rest)⟩
  · rw [heq] at hq
    obtain ⟨pre, rest, hts, ho, hs⟩ := h.error_split hq
    exact ⟨pre, rest, hts, hopen hts ho, fun rest => (hsame hts rest).trans (hs rest)⟩
  · rw [Open, heq] at ho
    obtain ⟨more, a, hmore⟩ := h.complete ho
    exact ⟨more, a, fun u rest hu => (heq _).trans (hmore u rest hu)⟩

/-! ## Sequence -/

theorem run_bind_error {e : ParseError} (h : p ts = .error e) : (p >>= f) ts = .error e := by
  show (p ts >>= fun r => f r.1 r.2) = _
  rw [h]
  rfl

theorem Open.bind (h : Open p ts) (hnil : ∀ a, Open (f a) []) : Open (p >>= f) ts := by
  rcases h with ⟨a, ha⟩ | ⟨what, hw⟩
  · rw [Open, run_bind ha]
    exact hnil a
  · exact .inr ⟨what, run_bind_error hw⟩

/-- If reading in sequence is open, then `p` is, or it is done and something behind it is open. -/
theorem Open.of_bind (h : Open (p >>= f) ts) :
    Open p ts ∨ ∃ a t mid, p ts = .ok (a, t :: mid) ∧ Open (f a) (t :: mid) := by
  cases hp : p ts with
  | error e =>
    cases e with
    | unexpectedEnd what => exact .inl (.inr ⟨what, hp⟩)
    | expected what t =>
      rw [Open, run_bind_error hp] at h
      simp at h
  | ok r =>
    obtain ⟨a, mid⟩ := r
    cases mid with
    | nil => exact .inl (.inl ⟨a, hp⟩)
    | cons t mid =>
      rw [Open, run_bind hp] at h
      exact .inr ⟨a, t, mid, rfl, h⟩

/-- What is computed from the outcome of `p` without reading is open only if `p` is. -/
theorem Open.of_map (h : Open (p >>= f) ts) (hf : ∀ a, ∃ b, f a = pure b) : Open p ts := by
  rcases h.of_bind with ho | ⟨a, t, mid, -, ho⟩
  · exact ho
  · obtain ⟨b, hb⟩ := hf a
    rw [Open, hb] at ho
    rcases ho with ⟨c, hc⟩ | ⟨what, hw⟩
    · cases hc
    · cases hw

/-- What is settled behind `p` is settled for both in sequence. -/
theorem PromptAt.settles_bind (hp : PromptAt F p ts) (hnil : ∀ a, Open (f a) []) {a : α}
    {pre rest : List Token} {t : Token} (h : p ts = .ok (a, pre ++ t :: rest))
    {outcome : List Token → Except ParseError (β × List Token)}
    (hs : Settles (f a) pre t outcome) :
    ∃ pre', ts = pre' ++ t :: rest ∧ Settles (p >>= f) pre' t outcome := by
  cases pre with
  | nil =>
    obtain ⟨pre', hts, ho, hall⟩ := hp.ok_split h
    exact ⟨pre', hts, ho.bind hnil, fun rest => (run_bind (hall rest)).trans (hs.2 rest)⟩
  | cons u pre =>
    obtain ⟨pre', hts, -, hall⟩ := hp.ok_split h
    refine ⟨pre' ++ u :: pre, by simp [hts], ?_, fun rest => ?_⟩
    · rw [Open, run_bind (hall pre)]
      exact hs.1
    · rw [List.append_assoc, List.cons_append, run_bind (hall _)]
      exact hs.2 rest

/-- Reading in sequence.  What is read behind `p` has to be able to begin with a token that can
follow `p`. -/
theorem PromptAt.bind (hp : PromptAt G p ts)
    (hf : ∀ a mid, p ts = .ok (a, mid) → PromptAt F (f a) mid) (hnil : ∀ a, Open (f a) [])
    (hnext : ∀ a, ∃ more b, ∀ t rest, F t → (∀ u ∈ (more ++ t :: rest).head?, G u) ∧
      f a (more ++ t :: rest) = .ok (b, t :: rest)) :
    PromptAt F (p >>= f) ts where
  ok_split h := by
    obtain ⟨a, mid, ha, hb⟩ := bind_eq_ok_iff.1 h
    obtain ⟨pre, rfl, hs⟩ := (hf a mid ha).ok_split hb
    exact hp.settles_bind hnil ha hs
  error_split h := by
    cases ha : p ts with
    | error e =>
      rw [run_bind_error ha] at h
      rw [Except.error.inj h] at ha
      obtain ⟨pre, rest, hts, ho, hall⟩ := hp.error_split ha
      exact ⟨pre, rest, hts, ho.bind hnil, fun rest => run_bind_error (hall rest)⟩
    | ok r =>
      obtain ⟨a, mid⟩ := r
      rw [run_bind ha] at h
      obtain ⟨pre, rest, rfl, hs⟩ := (hf a mid ha).error_split h
      obtain ⟨pre', hts, hs'⟩ := hp.settles_bind hnil ha hs
      exact ⟨pre', rest, hts, hs'⟩
  complete ho := by
    rcases ho.of_bind with hop | ⟨a, t, mid, ha, ho⟩
    · obtain ⟨more, a, hmore⟩ := hp.complete hop
      obtain ⟨more', b, hmore'⟩ := hnext a
      refine ⟨more ++ more', b, fun t rest ht => ?_⟩
      obtain ⟨hhead, hb⟩ := hmore' t rest ht
      obtain ⟨u, us, hus⟩ : ∃ u us, more' ++ t :: rest = u :: us := by
        cases more' <;> exact ⟨_, _, rfl⟩
      rw [hus] at hhead hb
      rw [List.append_assoc, hus, run_bind (hmore u us (hhead u rfl)), hb]
    · obtain ⟨more, b, hmore⟩ := (hf a _ ha).complete ho
      obtain ⟨pre, hts, -, hall⟩ := hp.ok_split ha
      refine ⟨more, b, fun u rest hu => ?_⟩
      rw [hts, List.append_assoc, List.cons_append, run_bind (hall _)]
      exact hmore u rest hu

/-- Reading in sequence, behind a parser that any token can follow. -/
theorem Prompt.bind (hp : Prompt anyToken p) (hf : ∀ a, Prompt F (f a)) : Prompt F (p >>= f) := by
  intro ts
  refine (hp ts).bind (fun a mid _ => hf a mid) (fun a => (hf a []).open_nil) fun a => ?_
  obtain ⟨more, b, hmore⟩ := (hf a []).complete (hf a []).open_nil
  exact ⟨more, b, fun t rest ht => ⟨fun _ _ => trivial, hmore t rest ht⟩⟩

/-! ## Single steps -/

theorem Prompt.pure (a : α) : Prompt F (Pure.pure a : Parser α) := by
  intro ts
  refine ⟨fun h => ?_, fun h => ?_, fun h => ?_⟩
  · obtain ⟨rfl, rfl⟩ := Prod.mk.inj (Except.ok.inj h)
    exact ⟨[], rfl, .inl ⟨_, rfl⟩, fun _ => rfl⟩
  · cases h
  · rcases h with ⟨b, hb⟩ | ⟨what, hw⟩
    · obtain ⟨-, rfl⟩ := Prod.mk.inj (Except.ok.inj hb)
      exact ⟨[], a, fun _ _ _ => rfl⟩
    · cases hw

/-- The outcome may be computed further without reading. -/
theorem PromptAt.map (hp : PromptAt F p ts) (hf : ∀ a, ∃ b, f a = Pure.pure b) :
    PromptAt F (p >>= f) ts := by
  have hpure : ∀ a, Prompt F (f a) := by
    intro a
    obtain ⟨b, hb⟩ := hf a
    rw [hb]
    exact Prompt.pure b
  refine hp.bind (fun a mid _ => hpure a mid) (fun a => (hpure a []).open_nil) fun a => ?_
  obtain ⟨b, hb⟩ := hf a
  refine ⟨[], b, fun t rest ht => ⟨fun u hu => ?_, by rw [hb]; rfl⟩⟩
  obtain rfl := Option.some.inj hu
  exact ht

@[inherit_doc PromptAt.map]
theorem Prompt.map (hp : Prompt F p) (hf : ∀ a, ∃ b, f a = Pure.pure b) : Prompt F (p >>= f) :=
  fun ts => (hp ts).map hf

theorem Prompt.accept {what : Expectation} {test : Token → Bool} (htest : ∃ t, test t = true) :
    Prompt anyToken (accept what test) := by
  obtain ⟨good, hgood⟩ := htest
  intro ts
  cases ts with
  | nil => exact .nil (.inr ⟨what, rfl⟩) ⟨[good], good, fun t rest _ => run_accept hgood _⟩
  | cons t ts =>
    by_cases ht : test t = true
    · exact .cons (run_accept ht) (Prompt.pure t ts)
    · have hfail : ∀ rest, Parser.accept what test (t :: rest) = .error (.expected what t) :=
        fun rest => if_neg ht
      refine ⟨fun h => ?_, fun h => ?_, fun h => ?_⟩
      · rw [hfail] at h
        cases h
      · rw [hfail] at h
        obtain ⟨rfl, rfl⟩ := ParseError.expected.inj (Except.error.inj h)
        exact ⟨[], ts, rfl, .inr ⟨what, rfl⟩, hfail⟩
      · rw [Open, hfail] at h
        simp at h

theorem Prompt.optionalName : Prompt anyToken optionalName := by
  intro ts
  cases ts with
  | nil =>
    let name : Grammar.Name := ⟨⟨.identifier, "", 0⟩, rfl⟩
    exact .nil (.inl ⟨none, rfl⟩) ⟨[name.1], _, fun t rest _ => run_optionalName_some name _⟩
  | cons t ts =>
    by_cases ht : t.isName = true
    · exact .cons (run_optionalName_some ⟨t, ht⟩) (Prompt.pure _ ts)
    · have hnone := run_optionalName_none (by simpa using ht)
      exact .congr_head (p := Pure.pure none) (.inl ⟨none, rfl⟩) hnone (Prompt.pure none (t :: ts))

theorem Prompt.ifTaken {test : Token → Bool} {yes no : Parser α} (hy : Prompt F yes)
    (hn : Prompt F no) (htest : ∃ t, test t = true) : Prompt F (ifTaken test yes no) := by
  intro ts
  cases ts with
  | nil =>
    obtain ⟨good, hgood⟩ := htest
    obtain ⟨more, a, hmore⟩ := (hy []).complete (hy []).open_nil
    refine .nil (hn []).open_nil ⟨good :: more, a, fun t rest ht => ?_⟩
    exact (run_ifTaken_pos hgood _).trans (hmore t rest ht)
  | cons t ts =>
    by_cases ht : test t = true
    · exact .cons (run_ifTaken_pos ht) (hy ts)
    · exact .congr_head (p := no) (hn []).open_nil (run_ifTaken_neg (by simpa using ht))
        (hn (t :: ts))

/-- A choice that fails unless the token is taken only waits for the token. -/
theorem ifTaken_fail (test : Token → Bool) (yes : Parser α) (what : Expectation) :
    ifTaken test yes (fail what) = accept what test >>= fun _ => yes := by
  funext ts
  cases ts with
  | nil => rfl
  | cons t ts =>
    by_cases ht : test t = true
    · rw [run_ifTaken_pos ht, run_bind (run_accept ht ts)]
    · rw [run_ifTaken_neg (by simpa using ht), run_bind_error (if_neg ht)]
      rfl

theorem Prompt.passOver {drop : List Token → List Token}
    (hsplit : ∀ ts t rest, drop ts = t :: rest → ∃ pre, ts = pre ++ t :: rest ∧ drop pre = [] ∧
      ∀ rest', drop (pre ++ t :: rest') = t :: rest')
    (hcomplete : ∀ ts, drop ts = [] →
      ∃ more, ∀ t rest, F t → drop (ts ++ (more ++ t :: rest)) = t :: rest) :
    Prompt F (passOver drop) := by
  intro ts
  refine ⟨fun {_ t rest} h => ?_, fun h => ?_, fun h => ?_⟩
  · have hdrop : drop ts = t :: rest := (Prod.mk.inj (Except.ok.inj h)).2
    obtain ⟨pre, hts, hnil, hall⟩ := hsplit ts t rest hdrop
    refine ⟨pre, hts, .inl ⟨(), ?_⟩, fun rest' => ?_⟩
    · rw [run_passOver, hnil]
    · rw [run_passOver, hall]
  · cases h
  · rcases h with ⟨a, ha⟩ | ⟨what, hw⟩
    · obtain ⟨more, hmore⟩ := hcomplete ts (Prod.mk.inj (Except.ok.inj ha)).2
      exact ⟨more, (), fun t rest ht => by rw [run_passOver, hmore t rest ht]⟩
    · cases hw

/-! ## Repetition -/

section ManyUntil

variable {stop : Token → Bool} {step : Token → Parser α} {h : ∀ t, (step t).LeavesSuffix}

/-- One round of a repetition, and then the others. -/
theorem manyUntil_cons {t : Token} (ht : stop t = false) (ts : List Token) :
    manyUntil stop step h (t :: ts) =
      (step t >>= fun a => (manyUntil stop step h : Parser (List α)) >>= fun as =>
        pure (a :: as)) ts := by
  rw [manyUntil, if_neg (by simp [ht])]
  split
  · next e he => rw [run_bind_error he]
  · next a mid he =>
    rw [run_bind he]
    split
    · next e hm => exact (run_bind_error hm).symm
    · next as rest hm =>
      rw [run_bind hm]
      rfl

/-- A repetition is prompt if each of its rounds is, and if the tokens that stop it can follow a
round.  Those tokens are the ones that can follow the repetition. -/
theorem Prompt.manyUntil (hstep : ∀ t, stop t = false → Prompt G (step t))
    (hG : ∀ t, stop t = true → G t) :
    Prompt (fun t => stop t = true) (manyUntil stop step h : Parser (List α)) := by
  have hnil : Parser.manyUntil stop step h [] = .ok ([], []) := run_manyUntil_stop rfl
  have hstop : ∀ {t}, stop t = true → ∀ ts,
      Parser.manyUntil stop step h (t :: ts) = .ok ([], t :: ts) :=
    fun ht ts => run_manyUntil_stop (by simpa using ht)
  intro ts
  -- Every round takes a token, so the tokens behind it are fewer.
  induction hn : ts.length using Nat.strongRecOn generalizing ts with
  | ind n ih =>
    cases ts with
    | nil => exact .nil (.inl ⟨[], hnil⟩) ⟨[], [], fun t rest ht => hstop ht rest⟩
    | cons t ts =>
      by_cases ht : stop t = true
      · exact .congr_head (p := Pure.pure []) (.inl ⟨[], hnil⟩) (hstop ht)
          (Prompt.pure [] (t :: ts))
      · have ht' : stop t = false := by simpa using ht
        refine .cons (manyUntil_cons ht') ?_
        refine (hstep t ht' ts).bind (fun a mid hmid => ?_) (fun a => ?_) fun a => ?_
        · have hlen := (h t hmid).length_le
          have hmany := ih mid.length (by simp only [← hn, List.length_cons]; omega) mid rfl
          exact hmany.map fun as => ⟨a :: as, rfl⟩
        · exact .inl ⟨[a], run_bind hnil⟩
        · refine ⟨[], [a], fun u rest hu => ⟨fun v hv => ?_, run_bind (hstop hu rest)⟩⟩
          obtain rfl := Option.some.inj hv
          exact hG u hu

end ManyUntil

section CommaSeparated

variable {stop : Token → Bool} {member : Parser α} {h : member.Consumes}

/-- One member of a list, and what its comma or the lack of one means. -/
theorem commaSeparated_eq (hts : ts.head?.any stop = false) :
    commaSeparated stop member h ts =
      (member >>= fun a => ifTaken (·.kind == .comma)
        ((commaSeparated stop member h : Parser (List α)) >>= fun as => pure (a :: as))
        (pure [a])) ts := by
  rw [commaSeparated, if_neg (by simp [hts])]
  split
  · next e he => rw [run_bind_error he]
  · next a he =>
    rw [run_bind he]
    rfl
  · next a t mid he =>
    rw [run_bind he]
    by_cases ht : t.kind = .comma
    · rw [if_pos (by simp [ht]), run_ifTaken_pos (by simp [ht])]
      split
      · next e hm => exact (run_bind_error hm).symm
      · next as rest hm =>
        rw [run_bind hm]
        rfl
    · rw [if_neg (by simp [ht]), run_ifTaken_neg (by simp [ht])]
      rfl

/-- A list with commas is prompt if its members are.  Any token but a comma that can follow a
member can follow the list, if the list comes to an end before it where a member could begin. -/
theorem Prompt.commaSeparated (hmember : Prompt G member) (hG : ∀ t, F t → G t)
    (hF : ∀ t, F t → t.kind ≠ .comma)
    (hempty : ∃ more as, ∀ t rest, F t →
      commaSeparated stop member h (more ++ t :: rest) = .ok (as, t :: rest)) :
    Prompt F (commaSeparated stop member h : Parser (List α)) := by
  have hnil : Open (Parser.commaSeparated stop member h : Parser (List α)) [] := by
    rw [Open, commaSeparated_eq rfl]
    exact (hmember []).open_nil.bind fun a => .inl ⟨[a], rfl⟩
  -- In front of a token that can follow the list, no comma goes on with it.
  have hlast : ∀ {t}, F t → ∀ (a : α) rest,
      Parser.ifTaken (·.kind == .comma)
        ((Parser.commaSeparated stop member h : Parser (List α)) >>= fun as => Pure.pure (a :: as))
        (Pure.pure [a]) (t :: rest) = .ok ([a], t :: rest) :=
    fun ht a rest => run_ifTaken_neg (by simp [hF _ ht]) rest
  intro ts
  -- A member takes a token, so the tokens behind its comma are fewer.
  induction hn : ts.length using Nat.strongRecOn generalizing ts with
  | ind n ih =>
    cases ts with
    | nil => exact .nil hnil hempty
    | cons t ts =>
      by_cases ht : stop t = true
      · exact .congr_head (p := Pure.pure []) hnil
          (fun ts => run_commaSeparated_stop (by simpa using ht)) (Prompt.pure [] (t :: ts))
      · refine .congr_head hnil (fun ts => commaSeparated_eq (by simpa using ht)) ?_
        refine (hmember (t :: ts)).bind (fun a mid hmid => ?_) (fun a => .inl ⟨[a], rfl⟩)
          fun a => ?_
        · cases mid with
          | nil => exact .nil (.inl ⟨[a], rfl⟩) ⟨[], [a], fun t rest ht => hlast ht a rest⟩
          | cons u mid =>
            by_cases hu : u.kind = .comma
            · have hlen := (h hmid).2
              simp only [List.length_cons] at hlen hn
              have hlist := ih mid.length (by omega) mid rfl
              exact .cons (run_ifTaken_pos (by simp [hu])) (hlist.map fun as => ⟨a :: as, rfl⟩)
            · exact .congr_head (p := Pure.pure [a]) (.inl ⟨[a], rfl⟩)
                (run_ifTaken_neg (by simp [hu])) (Prompt.pure [a] (u :: mid))
        · refine ⟨[], [a], fun u rest hu => ⟨fun v hv => ?_, hlast hu a rest⟩⟩
          obtain rfl := Option.some.inj hv
          exact hG u hu

end CommaSeparated

end SchemaArchive.Parser
