import SchemaArchive.Proofs.Json.Writing

/-!
# Values that are written and read back

The machine that puts lexemes together takes the lexemes of a value from the state in which a
value has to come to the state behind this value, whatever lists and objects it stands in.  So
every value is read back from its text, in either layout.

* `steps_lexemesOf` — the lexemes of a value, in the middle of others.
* `ofChars?_of_writes` — a text that is cut into the lexemes of a value reads as this value;
  `ofChars?_compact` and `ofChars?_pretty` for both layouts.
-/

namespace SchemaArchive.Json

theorem steps_cons (s : State) (l : Lexeme) (ls : List Lexeme) :
    s.steps (l :: ls) = (s.step l).bind fun s' => s'.steps ls :=
  List.foldlM_cons

/-- One step more in front. -/
theorem steps_of_step {s s' : State} {l : Lexeme} (h : s.step l = some s') (ls : List Lexeme) :
    s.steps (l :: ls) = s'.steps ls := by
  rw [steps_cons, h, Option.bind_some]

/-! ## In front of a list or an object -/

/-- A value does not begin with a closing bracket. -/
theorem exists_lexemesOf (v : Json) : ∃ l ls, lexemesOf v = l :: ls ∧ l ≠ .rightBracket := by
  cases v <;> exact ⟨_, _, by rw [lexemesOf], by simp⟩

theorem exists_itemLexemes (item : Json) (items : List Json) :
    ∃ more, itemLexemes (item :: items) = lexemesOf item ++ more := by
  cases items with
  | nil => exact ⟨[], by rw [itemLexemes, List.append_nil]⟩
  | cons item' items => exact ⟨_, by rw [itemLexemes]; nofun⟩

/-- Behind an opening bracket, items are read as those of a list of which nothing has been read. -/
theorem steps_arrayStart (item : Json) (items : List Json) (stack : List Frame)
    (ls : List Lexeme) :
    (State.arrayStart stack).steps (itemLexemes (item :: items) ++ ls) =
      (State.value (.array [] :: stack)).steps (itemLexemes (item :: items) ++ ls) := by
  obtain ⟨more, hitems⟩ := exists_itemLexemes item items
  obtain ⟨l, behind, hitem, hl⟩ := exists_lexemesOf item
  have hstep : (State.arrayStart stack).step l = (State.value (.array [] :: stack)).step l :=
    if_neg hl
  rw [hitems, hitem, List.cons_append, List.cons_append, steps_cons, steps_cons, hstep]

theorem exists_memberLexemes (key : String) (value : Json) (members : List (String × Json)) :
    ∃ more, memberLexemes ((key, value) :: members) = .string key :: .colon :: more := by
  cases members with
  | nil => exact ⟨_, by rw [memberLexemes]⟩
  | cons member members => exact ⟨_, by rw [memberLexemes]; nofun⟩

/-- Behind an opening brace, members are read as those of an object of which nothing has been
read. -/
theorem steps_objectStart (key : String) (value : Json) (members : List (String × Json))
    (stack : List Frame) (ls : List Lexeme) :
    (State.objectStart stack).steps (memberLexemes ((key, value) :: members) ++ ls) =
      (State.key [] stack).steps (memberLexemes ((key, value) :: members) ++ ls) := by
  obtain ⟨more, hmembers⟩ := exists_memberLexemes key value members
  rw [hmembers, List.cons_append, steps_of_step rfl, steps_of_step rfl]

mutual

/-- The lexemes of a value lead behind this value. -/
theorem steps_lexemesOf : ∀ (v : Json) (stack : List Frame) (ls : List Lexeme),
    (State.value stack).steps (lexemesOf v ++ ls) = (State.behind v stack).steps ls
  | .null, _, _ => by
    rw [lexemesOf]
    exact steps_of_step rfl _
  | .bool _, _, _ => by
    rw [lexemesOf]
    exact steps_of_step rfl _
  | .number _, _, _ => by
    rw [lexemesOf]
    exact steps_of_step rfl _
  | .string _, _, _ => by
    rw [lexemesOf]
    exact steps_of_step rfl _
  | .array [], stack, ls => by
    rw [lexemesOf, itemLexemes]
    exact (steps_of_step rfl _).trans (steps_of_step rfl ls)
  | .array (item :: items), stack, ls => by
    rw [lexemesOf, List.cons_append, List.append_assoc, List.singleton_append, steps_of_step rfl,
      steps_arrayStart, steps_itemLexemes (item :: items) [] stack ls (by simp)]
    rfl
  | .object [], stack, ls => by
    rw [lexemesOf, memberLexemes]
    exact (steps_of_step rfl _).trans (steps_of_step rfl ls)
  | .object ((key, value) :: members), stack, ls => by
    rw [lexemesOf, List.cons_append, List.append_assoc, List.singleton_append, steps_of_step rfl,
      steps_objectStart, steps_memberLexemes ((key, value) :: members) [] stack ls (by simp)]
    rfl

/-- The lexemes of items lead behind the list that they complete. -/
theorem steps_itemLexemes : ∀ (items done : List Json) (stack : List Frame) (ls : List Lexeme),
    items ≠ [] →
      (State.value (.array done :: stack)).steps (itemLexemes items ++ .rightBracket :: ls) =
        (State.behind (.array (done.reverse ++ items)) stack).steps ls
  | [], _, _, _, h => absurd rfl h
  | [item], done, stack, ls, _ => by
    rw [itemLexemes, steps_lexemesOf, steps_of_step rfl, List.reverse_cons]
  | item :: item' :: items, done, stack, ls, _ => by
    rw [itemLexemes, List.append_assoc, steps_lexemesOf, List.cons_append, steps_of_step rfl,
      steps_itemLexemes (item' :: items) _ stack ls (by simp), List.reverse_cons,
      List.append_assoc]
    · rfl
    · nofun

/-- The lexemes of members lead behind the object that they complete. -/
theorem steps_memberLexemes : ∀ (members done : List (String × Json)) (stack : List Frame)
    (ls : List Lexeme), members ≠ [] →
      (State.key done stack).steps (memberLexemes members ++ .rightBrace :: ls) =
        (State.behind (.object (done.reverse ++ members)) stack).steps ls
  | [], _, _, _, h => absurd rfl h
  | [(key, value)], done, stack, ls, _ => by
    rw [memberLexemes, List.cons_append, List.cons_append, steps_of_step rfl, steps_of_step rfl,
      steps_lexemesOf, steps_of_step rfl, List.reverse_cons]
  | (key, value) :: member :: members, done, stack, ls, _ => by
    rw [memberLexemes, List.cons_append, List.cons_append, steps_of_step rfl, steps_of_step rfl,
      List.append_assoc, steps_lexemesOf, List.cons_append, steps_of_step rfl,
      steps_memberLexemes (member :: members) _ stack ls (by simp), List.reverse_cons,
      List.append_assoc]
    · rfl
    · nofun

end

/-! ## Whole texts -/

/-- A text that is cut into the lexemes of a value reads as this value. -/
theorem ofChars?_of_writes {text : List Char} {v : Json} (h : Writes text (lexemesOf v)) :
    ofChars? text = some v := by
  have hlexemes : lexemes text = some (lexemesOf v) := by
    have hend := h [] rfl
    rwa [List.append_nil, lexemes, Option.map_some, List.append_nil] at hend
  have hsteps : (State.value []).steps (lexemesOf v) = some (.behind v []) := by
    have hvalue := steps_lexemesOf v [] []
    rwa [List.append_nil] at hvalue
  rw [ofChars?, hlexemes]
  show ofLexemes (lexemesOf v) = some v
  rw [ofLexemes, hsteps]

theorem ofChars?_compact (v : Json) : ofChars? v.compact = some v :=
  ofChars?_of_writes (writes_compact v)

theorem ofChars?_pretty (v : Json) : ofChars? v.pretty = some v :=
  ofChars?_of_writes (writes_prettyAt 0 v)

end SchemaArchive.Json
