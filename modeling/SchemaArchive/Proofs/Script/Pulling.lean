import SchemaArchive.Proofs.Script.Decomposition

/-!
# Tokens one at a time

A scanner gives its tokens one after another, and it may be asked for a few of them, or for more
than there are, before it is asked for all that are left.  However it is asked, the answers are the
tokens of the script in order, each of them once.  A scanner that has no token to give passes over
what is left, and stands at the end of the script from then on.

* `Scanner.of_next_eq_some` — what one answer takes of the text: a gap, and a lexeme of at least
  one character.
* `Scanner.of_next_eq_none` — without an answer all that is left is taken, which is a gap.
* `Scanner.StandsIn.pull` — a scanner always stands where the text that it took ends.
* `Scanner.pull_tokensOf` — any number of answers, and the tokens behind them.
-/

namespace SchemaArchive.Scanner

/-! ## One token -/

/-- A scanner passes over a gap and takes a lexeme.  The token is placed where the lexeme begins,
and the scanner is left where it ends. -/
theorem of_nextFrom_eq_some {offset : Nat} {cs : List Char} {t : Token} {s : Scanner}
    (h : nextFrom offset cs = (some t, s)) :
    ∃ gap lexeme, cs = gap ++ lexeme ++ s.rest ∧ (∀ c ∈ gap, IsGapChar c) ∧ lexeme ≠ [] ∧
      t.position = offset + byteLength gap ∧ s.offset = offset + byteLength (gap ++ lexeme) := by
  fun_induction nextFrom offset cs with
  | case1 => simp at h
  | case2 offset c cs hc ih =>
    obtain ⟨gap, lexeme, rfl, hgap, hne, hplace, hoffset⟩ := ih h
    refine ⟨c :: gap, lexeme, rfl, ?_, hne, ?_, ?_⟩
    · exact List.forall_mem_cons.2 ⟨opening?_eq_none_iff.1 hc, hgap⟩
    · rw [hplace, byteLength_cons, Nat.add_assoc]
    · rw [hoffset, List.cons_append, byteLength_cons, Nat.add_assoc]
  | case3 offset c cs o hc more rest hsplit =>
    obtain ⟨hanswer, rfl⟩ := Prod.mk.inj h
    obtain rfl := Option.some.inj hanswer
    have happend := o.split_append c cs
    rw [hsplit] at happend
    refine ⟨[], c :: more, ?_, by simp, List.cons_ne_nil c more, ?_, rfl⟩
    · rw [List.nil_append, List.cons_append, happend]
    · cases o <;> rfl

theorem of_next_eq_some {s s' : Scanner} {t : Token} (h : s.next = (some t, s')) :
    ∃ gap lexeme, s.rest = gap ++ lexeme ++ s'.rest ∧ (∀ c ∈ gap, IsGapChar c) ∧ lexeme ≠ [] ∧
      t.position = s.offset + byteLength gap ∧ s'.offset = s.offset + byteLength (gap ++ lexeme) :=
  of_nextFrom_eq_some h

/-- A scanner without a token passes over a gap that reaches to the end of the text, and is left
there. -/
theorem of_nextFrom_eq_none {offset : Nat} {cs : List Char} {s : Scanner}
    (h : nextFrom offset cs = (none, s)) :
    (∀ c ∈ cs, IsGapChar c) ∧ s = ⟨offset + byteLength cs, []⟩ := by
  fun_induction nextFrom offset cs with
  | case1 offset =>
    obtain ⟨-, rfl⟩ := Prod.mk.inj h
    simp
  | case2 offset c cs hc ih =>
    obtain ⟨hgap, rfl⟩ := ih h
    refine ⟨List.forall_mem_cons.2 ⟨opening?_eq_none_iff.1 hc, hgap⟩, ?_⟩
    rw [byteLength_cons, Nat.add_assoc]
  | case3 offset c cs o hc more rest hsplit => simp at h

theorem of_next_eq_none {s s' : Scanner} (h : s.next = (none, s')) :
    (∀ c ∈ s.rest, IsGapChar c) ∧ s' = ⟨s.offset + byteLength s.rest, []⟩ :=
  of_nextFrom_eq_none h

/-- At the end of the text there is no token, and a scanner stays where it is. -/
theorem next_atEnd (offset : Nat) : (Scanner.mk offset []).next = (none, ⟨offset, []⟩) :=
  rfl

theorem tokens_of_next_eq_none {s s' : Scanner} (h : s.next = (none, s')) : s.tokens = [] := by
  rw [tokens_eq, h]

theorem tokens_of_next_eq_some {s s' : Scanner} {t : Token} (h : s.next = (some t, s')) :
    s.tokens = t :: s'.tokens := by
  rw [tokens_eq, h]

/-! ## Several tokens -/

theorem pull_succ {s s' : Scanner} {answer : Option Token} (h : s.next = (answer, s')) (n : Nat) :
    s.pull (n + 1) = (answer :: (s'.pull n).1, (s'.pull n).2) := by
  rw [pull, h]

/-- At the end of the text all answers are none, and the scanner does not move. -/
theorem pull_atEnd (offset n : Nat) :
    (Scanner.mk offset []).pull n = (List.replicate n none, ⟨offset, []⟩) := by
  induction n with
  | zero => rfl
  | succ n ih => rw [pull_succ (next_atEnd offset), ih, List.replicate_succ]

/-- A scanner that has no token is left at the end by the first question, and answers the others
from there. -/
theorem pull_succ_of_next_eq_none {s s' : Scanner} (h : s.next = (none, s')) (n : Nat) :
    s.pull (n + 1) = (List.replicate (n + 1) none, s') := by
  obtain ⟨-, rfl⟩ := of_next_eq_none h
  rw [pull_succ h, pull_atEnd, List.replicate_succ]

/-- Asking may be interrupted and taken up again. -/
theorem pull_add (n m : Nat) (s : Scanner) :
    s.pull (n + m) = ((s.pull n).1 ++ ((s.pull n).2.pull m).1, ((s.pull n).2.pull m).2) := by
  induction n generalizing s with
  | zero => simp [pull]
  | succ n ih =>
    rw [Nat.add_right_comm, pull_succ rfl, pull_succ rfl, ih, List.cons_append]

/-- The answers are the first tokens, and behind the last one there are none; the other tokens are
left. -/
theorem pull_eq (n : Nat) (s : Scanner) :
    (s.pull n).1 = (s.tokens.take n).map some ++ List.replicate (n - s.tokens.length) none ∧
      (s.pull n).2.tokens = s.tokens.drop n := by
  induction n generalizing s with
  | zero => simp [pull]
  | succ n ih =>
    rcases h : s.next with ⟨_ | t, s'⟩
    · rw [pull_succ_of_next_eq_none h, tokens_of_next_eq_none h]
      obtain ⟨-, rfl⟩ := of_next_eq_none h
      simp [tokens_nil]
    · obtain ⟨hanswers, hleft⟩ := ih s'
      rw [pull_succ h, tokens_of_next_eq_some h, hanswers, hleft]
      simp

/-! ## Where a scanner stands -/

/-- The scanner has taken some text, of so many bytes, and what is left of `text` is to come. -/
def StandsIn (text : List Char) (s : Scanner) : Prop :=
  ∃ taken, text = taken ++ s.rest ∧ s.offset = byteLength taken

theorem standsIn_ofText (text : List Char) : StandsIn text (ofText text) :=
  ⟨[], rfl, rfl⟩

/-- A scanner without a token is left at the end of the whole text. -/
theorem StandsIn.of_next_eq_none {text : List Char} {s s' : Scanner} (h : StandsIn text s)
    (hnext : s.next = (none, s')) : s' = ⟨byteLength text, []⟩ := by
  obtain ⟨taken, rfl, hoffset⟩ := h
  obtain ⟨-, rfl⟩ := Scanner.of_next_eq_none hnext
  rw [hoffset, byteLength_append]

theorem StandsIn.next {text : List Char} {s : Scanner} (h : StandsIn text s) :
    StandsIn text s.next.2 := by
  rcases hnext : s.next with ⟨_ | t, s'⟩
  · rw [h.of_next_eq_none hnext]
    exact ⟨text, (List.append_nil text).symm, rfl⟩
  · obtain ⟨taken, rfl, hoffset⟩ := h
    obtain ⟨gap, lexeme, hrest, -, -, -, hoffset'⟩ := of_next_eq_some hnext
    refine ⟨taken ++ (gap ++ lexeme), by simp [hrest], ?_⟩
    rw [hoffset', hoffset, byteLength_append taken]

theorem StandsIn.pull {text : List Char} {s : Scanner} (h : StandsIn text s) (n : Nat) :
    StandsIn text (s.pull n).2 := by
  induction n generalizing s with
  | zero => exact h
  | succ n ih => exact ih h.next

/-- However many tokens a scanner is asked for, one at a time: it answers with the first tokens of
the script and then with none, and those that are left are the other tokens of the script, in their
places.  It may be asked again at any point.  When it answers with none, only a gap was left; it then
stands at the end of the script, where it answers with none for ever and does not move.  Whenever it
answers with a token, it passes over a gap of any length and takes at least one character behind
it. -/
theorem pull_tokensOf (script : String) (n : Nat) :
    let start := ofText script.toList
    let behind := (start.pull n).2
    (start.pull n).1 = ((tokenize script).take n).map some ++
      List.replicate (n - (tokenize script).length) none ∧
    behind.tokens = (tokenize script).drop n ∧
    (∀ m, start.pull (n + m) = ((start.pull n).1 ++ (behind.pull m).1, (behind.pull m).2)) ∧
    (∀ s, behind.next = (none, s) → (∀ c ∈ behind.rest, IsGapChar c) ∧
      s = ⟨byteLength script.toList, []⟩ ∧ ∀ m, s.pull m = (List.replicate m none, s)) ∧
    ∀ t s, behind.next = (some t, s) →
      ∃ taken gap lexeme, script.toList = taken ++ behind.rest ∧
        behind.rest = gap ++ lexeme ++ s.rest ∧ (∀ c ∈ gap, IsGapChar c) ∧ lexeme ≠ [] ∧
        t.position = byteLength (taken ++ gap) ∧ s.rest.length < behind.rest.length := by
  intro start behind
  obtain ⟨hanswers, hleft⟩ := pull_eq n start
  have hstands : StandsIn script.toList behind := (standsIn_ofText script.toList).pull n
  refine ⟨hanswers, hleft, fun m => pull_add n m start, fun s hnone => ?_, fun t s hnext => ?_⟩
  · obtain rfl := hstands.of_next_eq_none hnone
    exact ⟨(of_next_eq_none hnone).1, rfl, pull_atEnd _⟩
  · obtain ⟨taken, htext, hoffset⟩ := hstands
    obtain ⟨gap, lexeme, hrest, hgap, hne, hplace, -⟩ := of_next_eq_some hnext
    refine ⟨taken, gap, lexeme, htext, hrest, hgap, hne, ?_, next_length_lt hnext⟩
    rw [hplace, hoffset, byteLength_append]

-- Behind the last token there is a gap, which the first none takes.
example : ((ofText " ( ?; !".toList).pull 4).1.map (·.map Token.position) =
      [some 1, some 4, none, none] ∧
    ((ofText " ( ?; !".toList).pull 2).2.rest = [' ', '!'] ∧
    ((ofText " ( ?; !".toList).pull 3).2.rest = [] := by
  decide +kernel

end SchemaArchive.Scanner
