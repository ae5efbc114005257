import SchemaArchive.Proofs.Script.WellFormedScript

/-!
# Where passing over ends

Groups in parentheses, the actions of a foreign key and the rest of a statement are passed over.
For each of them: the tokens that are left begin at a token which settles the end, as nothing
before it does; and when all tokens are gone, some further ones bring the end about.

* `dropGroup_split`, `dropActions_split`, `dropStatement_split` — the end, once it is there.
* `dropGroup_complete`, `dropActions_complete`, `dropStatement_complete` — how to bring it about.
-/

namespace SchemaArchive

/-! ## Groups in parentheses -/

/-- How many parentheses are open behind a token, if there are `depth + 1` before it. -/
def depthBehind (depth : Nat) (t : Token) : Nat :=
  match t.kind with
  | .leftParen => depth + 2
  | .rightParen => depth
  | _ => depth + 1

theorem dropGroup_cons (depth : Nat) (t : Token) (ts : List Token) :
    dropGroup (depth + 1) (t :: ts) = dropGroup (depthBehind depth t) ts := by
  rw [dropGroup, depthBehind]
  cases t.kind <;> rfl

theorem dropGroup_zero (ts : List Token) : dropGroup 0 ts = ts := by
  rw [dropGroup]

theorem dropGroup_split {depth : Nat} {ts : List Token} {t : Token} {rest : List Token}
    (h : dropGroup depth ts = t :: rest) :
    ∃ pre, ts = pre ++ t :: rest ∧ dropGroup depth pre = [] ∧
      ∀ rest', dropGroup depth (pre ++ t :: rest') = t :: rest' := by
  induction ts generalizing depth with
  | nil => cases depth <;> simp [dropGroup] at h
  | cons u us ih =>
    cases depth with
    | zero =>
      rw [dropGroup_zero] at h
      exact ⟨[], h, dropGroup_zero _, fun _ => dropGroup_zero _⟩
    | succ depth =>
      rw [dropGroup_cons] at h
      obtain ⟨pre, rfl, hnil, hall⟩ := ih h
      exact ⟨u :: pre, rfl, (dropGroup_cons depth u pre).trans hnil,
        fun rest' => (dropGroup_cons depth u _).trans (hall rest')⟩

/-- Closing parentheses end any number of open groups. -/
theorem dropGroup_closing (depth : Nat) (rest : List Token) :
    dropGroup depth (List.replicate depth ⟨.rightParen, ")", 0⟩ ++ rest) = rest := by
  induction depth with
  | zero => exact dropGroup_zero rest
  | succ depth ih => exact ih

theorem dropGroup_complete {depth : Nat} {ts : List Token} (h : dropGroup depth ts = []) :
    ∃ more, ∀ rest, dropGroup depth (ts ++ (more ++ rest)) = rest := by
  induction ts generalizing depth with
  | nil => exact ⟨_, dropGroup_closing depth⟩
  | cons u us ih =>
    cases depth with
    | zero =>
      rw [dropGroup_zero] at h
      cases h
    | succ depth =>
      rw [dropGroup_cons] at h
      obtain ⟨more, hmore⟩ := ih h
      exact ⟨more, fun rest => (dropGroup_cons depth u _).trans (hmore rest)⟩

/-! ## Actions of foreign keys -/

/-- How many of the tokens behind the word `ON` are an action. -/
def actionLength (ts : List Token) : Nat :=
  if (ts[1]?).any Token.beginsTwoWordAction then 3 else 2

theorem two_le_actionLength (ts : List Token) : 2 ≤ actionLength ts := by
  unfold actionLength
  split <;> omega

/-- The second token of an action tells how long it is, whatever comes behind it. -/
theorem actionLength_append {action : List Token} (h : 2 ≤ action.length) (rest : List Token) :
    actionLength (action ++ rest) = actionLength action := by
  unfold actionLength
  rw [List.getElem?_append_left (by omega)]

theorem dropActions_on {on : Token} (hon : on.isWord "ON" = true) (ts : List Token) :
    dropActions (on :: ts) = dropActions (ts.drop (actionLength ts)) := by
  rw [dropActions, if_pos hon]
  rfl

/-- A whole action is passed over. -/
theorem dropActions_action {on : Token} (hon : on.isWord "ON" = true) {action : List Token}
    (h : action.length = actionLength action) (rest : List Token) :
    dropActions (on :: (action ++ rest)) = dropActions rest := by
  have htwo := two_le_actionLength action
  rw [dropActions_on hon, actionLength_append (by omega), ← h, List.drop_left]

/-- Where there are enough tokens, the first of them are an action. -/
theorem exists_action {ts : List Token} (h : actionLength ts ≤ ts.length) :
    ∃ action, action.length = actionLength action ∧ ts = action ++ ts.drop (actionLength ts) := by
  have htwo := two_le_actionLength ts
  have hlen : (ts.take (actionLength ts)).length = actionLength ts := by
    rw [List.length_take]
    omega
  refine ⟨ts.take (actionLength ts), ?_, (List.take_append_drop _ _).symm⟩
  have hpos : 2 ≤ (ts.take (actionLength ts)).length := by omega
  have happend := actionLength_append hpos (ts.drop (actionLength ts))
  rw [List.take_append_drop] at happend
  exact hlen.trans happend

/-- An action that breaks off can be completed. -/
theorem exists_action_append {ts : List Token} (h : ts.length < actionLength ts) :
    ∃ more, (ts ++ more).length = actionLength (ts ++ more) := by
  let word : Token := ⟨.comma, ",", 0⟩
  match ts with
  | [] => exact ⟨[word, word], rfl⟩
  | [event] => exact ⟨[word], rfl⟩
  | [event, action] =>
    have hthree : actionLength [event, action] = 3 := by
      unfold actionLength at h ⊢
      split at h
      · rw [if_pos ‹_›]
      · simp at h
    exact ⟨[word], (actionLength_append (by simp) [word]).trans hthree |>.symm⟩
  | event :: action :: word :: ts =>
    unfold actionLength at h
    simp only [List.length_cons] at h
    split at h <;> omega

theorem dropActions_split {ts : List Token} {t : Token} {rest : List Token}
    (h : dropActions ts = t :: rest) :
    ∃ pre, ts = pre ++ t :: rest ∧ dropActions pre = [] ∧
      ∀ rest', dropActions (pre ++ t :: rest') = t :: rest' := by
  fun_induction dropActions ts with
  | case1 => cases h
  | case2 on ts hon ih =>
    obtain ⟨pre, hdrop, hnil, hall⟩ := ih h
    have hlength : ts.length - actionLength ts = (pre ++ t :: rest).length := by
      rw [← List.length_drop]
      exact congrArg List.length hdrop
    simp only [List.length_append, List.length_cons] at hlength
    have hlen : actionLength ts ≤ ts.length := by omega
    obtain ⟨action, haction, hts⟩ := exists_action hlen
    refine ⟨on :: (action ++ pre), ?_, ?_, fun rest' => ?_⟩
    · rw [hts, List.cons_append, List.append_assoc]
      exact congrArg (on :: action ++ ·) hdrop
    · rw [dropActions_action hon haction, hnil]
    · rw [List.cons_append, List.append_assoc, dropActions_action hon haction, hall]
  | case3 u us hu =>
    obtain ⟨rfl, rfl⟩ := List.cons.inj h
    refine ⟨[], rfl, by rw [dropActions], fun rest' => ?_⟩
    rw [List.nil_append, dropActions, if_neg hu]

theorem dropActions_complete {ts : List Token} (h : dropActions ts = []) :
    ∃ more, ∀ t rest, t.isWord "ON" = false →
      dropActions (ts ++ (more ++ t :: rest)) = t :: rest := by
  have hend : ∀ t rest, Token.isWord "ON" t = false → dropActions (t :: rest) = t :: rest :=
    fun t rest ht => dropActions_of_head (by simpa using ht)
  fun_induction dropActions ts with
  | case1 => exact ⟨[], hend⟩
  | case2 on ts hon ih =>
    by_cases hlen : actionLength ts ≤ ts.length
    · obtain ⟨more, hmore⟩ := ih h
      obtain ⟨action, haction, hts⟩ := exists_action hlen
      refine ⟨more, fun t rest ht => ?_⟩
      rw [hts, List.cons_append, List.append_assoc, dropActions_action hon haction]
      exact hmore t rest ht
    · obtain ⟨more, haction⟩ := exists_action_append (Nat.lt_of_not_le hlen)
      refine ⟨more, fun t rest ht => ?_⟩
      rw [List.cons_append, ← List.append_assoc, dropActions_action hon haction, hend t rest ht]
  | case3 u us hu => cases h

/-! ## The rest of a statement -/

theorem dropStatement_of_ne {t : Token} (ht : t.kind ≠ .semicolon) (ts : List Token) :
    dropStatement (t :: ts) = dropStatement ts := by
  rw [dropStatement, List.dropWhile_cons_of_pos (by simpa using ht)]
  rfl

theorem dropStatement_split {ts : List Token} {t : Token} {rest : List Token}
    (h : dropStatement ts = t :: rest) :
    ∃ pre, ts = pre ++ t :: rest ∧ dropStatement pre = [] ∧
      ∀ rest', dropStatement (pre ++ t :: rest') = t :: rest' := by
  induction ts with
  | nil => cases h
  | cons u us ih =>
    by_cases hu : u.kind = .semicolon
    · have hdrop := dropStatement_semicolon ⟨u, hu⟩
      rw [hdrop] at h
      exact ⟨[u], by rw [h]; rfl, hdrop [], fun rest' => hdrop _⟩
    · rw [dropStatement_of_ne hu] at h
      obtain ⟨pre, rfl, hnil, hall⟩ := ih h
      exact ⟨u :: pre, rfl, (dropStatement_of_ne hu pre).trans hnil,
        fun rest' => (dropStatement_of_ne hu _).trans (hall rest')⟩

theorem dropStatement_complete {ts : List Token} (h : dropStatement ts = []) :
    ∃ more, ∀ rest, dropStatement (ts ++ (more ++ rest)) = rest := by
  induction ts with
  | nil => exact ⟨[⟨.semicolon, ";", 0⟩], dropStatement_semicolon ⟨_, rfl⟩⟩
  | cons u us ih =>
    by_cases hu : u.kind = .semicolon
    · rw [dropStatement_semicolon ⟨u, hu⟩] at h
      exact ⟨[], fun rest => by rw [h]; exact dropStatement_semicolon ⟨u, hu⟩ rest⟩
    · rw [dropStatement_of_ne hu] at h
      obtain ⟨more, hmore⟩ := ih h
      exact ⟨more, fun rest => (dropStatement_of_ne hu _).trans (hmore rest)⟩

end SchemaArchive
