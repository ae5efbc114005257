import SchemaArchive.Proofs.Script.KeysLast
import SchemaArchive.Proofs.Script.Taken

/-!
# Names that foreign keys get for want of one

Foreign keys are counted twice.  Reading a table body counts those it has read so far, whatever
stands between them, and names one without a name after its number; writing a schema counts the
foreign keys of each table again, and does the same for one with an empty name.  Both counts are
the same, so it makes no difference to the script of a schema whether names that were made by
reading are there or have been blanked.

* `declaresKey`, `constraintName?` — what the tokens of an item say about a foreign key;
  `ReadItem.keyWritten` — the item that is read says the same.
* `names_foreignKeys_table` — the names of the foreign keys of a table that is declared.
* `renderScript_blanked` — a schema in which generated names are blanked.
* `createTable_generatedNames` — both, for every table that reading makes.
-/

namespace SchemaArchive

open Grammar

/-! ## What the tokens of an item say -/

/-- The tokens behind the word `CONSTRAINT` and the name behind it, or all tokens if they do not
begin with that word. -/
def clauseTokens : List Token → List Token
  | [] => []
  | t :: ts =>
    if t.isKeyword "CONSTRAINT" then if ts.head?.any Token.isName then ts.tail else ts
    else t :: ts

/-- Is the item with these tokens a foreign key? -/
def declaresKey (ts : List Token) : Bool :=
  (clauseTokens ts).head?.any (Token.isKeyword "FOREIGN")

/-- The name that stands behind the word `CONSTRAINT`. -/
def constraintName? : List Token → Option String
  | t :: u :: _ => if t.isKeyword "CONSTRAINT" && u.isName then some u.value else none
  | _ => none

/-- The item is a foreign key if its tokens say so, and has the name that they give it. -/
def TableItem.KeyWritten (taken : List Token) : TableItem → Prop
  | column _ => declaresKey taken = false
  | constraint c => declaresKey taken = false ∧ c.isForeignKey = false
  | foreignKey name _ _ => declaresKey taken = true ∧ name = constraintName? taken

theorem clauseTokens_of_ne {t : Token} (h : t.isKeyword "CONSTRAINT" = false) (ts : List Token) :
    clauseTokens (t :: ts) = t :: ts := by
  simp [clauseTokens, h]

theorem constraintName?_of_ne {t : Token} (h : t.isKeyword "CONSTRAINT" = false)
    (ts : List Token) : constraintName? (t :: ts) = none := by
  cases ts <;> simp [constraintName?, h]

/-- An item that begins with neither of the two words is no foreign key. -/
theorem declaresKey_of_ne {t : Token} (h : t.isKeyword "CONSTRAINT" = false)
    (h' : t.isKeyword "FOREIGN" = false) (ts : List Token) : declaresKey (t :: ts) = false := by
  simp [declaresKey, clauseTokens_of_ne h, h']

section Constraint

variable {t : Token} (ht : t.isKeyword "CONSTRAINT" = true) (name : Option Name) {u : Token}
  (hu : u.isName = false) (more : List Token)

include ht hu

theorem clauseTokens_constraint : clauseTokens (t :: (maybe name ++ u :: more)) = u :: more := by
  cases name with
  | none => simp [clauseTokens, ht, maybe, hu]
  | some n => simp [clauseTokens, ht, maybe, n.2]

theorem constraintName?_constraint :
    constraintName? (t :: (maybe name ++ u :: more)) = name.map (·.1.value) := by
  cases name with
  | none => simp [constraintName?, maybe, hu]
  | some n => simp [constraintName?, ht, maybe, n.2]

end Constraint

/-! ## Items -/

namespace Parser

theorem IsIndex.keyWritten {item : TableItem} (h : IsIndex item) {taken : List Token}
    (htaken : declaresKey taken = false) : item.KeyWritten taken := by
  obtain ⟨c, rfl, hc⟩ := h
  exact ⟨htaken, hc⟩

/-- Behind the word `CONSTRAINT`, the next reserved word tells whether the item is a foreign
key. -/
theorem Takes.constraintItem_keyWritten : constraintItem.Takes fun taken item =>
    ∀ t : Token, t.isKeyword "CONSTRAINT" = true → item.KeyWritten (t :: taken) := by
  refine (Takes.optionalName.bind fun name =>
    (Takes.of_yields Consumes.primaryKeyItem.leavesSuffix Yields.primaryKeyItem).ifTaken <|
    (Takes.of_yields (Consumes.uniqueItem _).leavesSuffix (Yields.uniqueItem name)).ifTaken <|
    (Takes.of_yields (Consumes.foreignKeyItem _).leavesSuffix
      (Yields.foreignKeyItem name)).ifTaken (Takes.fail _)).imp ?_
  rintro _ item ⟨_, _, _, rfl, ⟨name, rfl, rfl⟩, hclause⟩ t ht
  -- Each of the three words is reserved, so it is not taken for a name.
  have hname : ∀ {u : Token} {word : String}, u.isKeyword word = true → u.isName = false :=
    fun hu => Token.isName_of_kind (Token.kind_of_isKeyword hu) rfl
  have hother : ∀ {u : Token} {word : String}, u.isKeyword word = true → word ≠ "FOREIGN" →
      ∀ more, declaresKey (t :: (maybe name ++ u :: more)) = false := by
    intro u word hu hne more
    rw [declaresKey, clauseTokens_constraint ht name (hname hu)]
    exact Token.isKeyword_eq_false hu hne
  rcases hclause with ⟨u, more, rfl, hu, hitem⟩ | ⟨u, more, rfl, hu, hitem⟩ |
    ⟨u, more, rfl, hu, hitem⟩ | hnone
  · exact hitem.keyWritten (hother hu (by decide) more)
  · exact hitem.keyWritten (hother hu (by decide) more)
  · obtain ⟨columns, target, rfl⟩ := hitem
    refine ⟨?_, (constraintName?_constraint ht name (hname hu) more).symm⟩
    rw [declaresKey, clauseTokens_constraint ht name (hname hu)]
    exact hu
  · exact hnone.elim

/-- The first word of an item, or the second behind `CONSTRAINT` and a name, tells whether it is a
foreign key. -/
theorem Takes.tableItem_keyWritten :
    Parser.tableItem.Takes fun taken item => item.KeyWritten taken := by
  refine ((Takes.of_yields Consumes.primaryKeyItem.leavesSuffix Yields.primaryKeyItem).ifTaken <|
    (Takes.of_yields Consumes.keyItem.leavesSuffix Yields.keyItem).ifTaken <|
    (Takes.of_yields (Consumes.uniqueItem _).leavesSuffix (Yields.uniqueItem _)).ifTaken <|
    Takes.constraintItem_keyWritten.ifTaken <|
    (Takes.of_yields (Consumes.foreignKeyItem _).leavesSuffix (Yields.foreignKeyItem _)).ifTaken <|
    Takes.columnDefinition.bind fun c => Takes.pure (TableItem.column c)).imp ?_
  have hother : ∀ {t : Token} {word : String}, t.isKeyword word = true → word ≠ "CONSTRAINT" →
      word ≠ "FOREIGN" → ∀ more, declaresKey (t :: more) = false :=
    fun ht hne hne' => declaresKey_of_ne (Token.isKeyword_eq_false ht hne)
      (Token.isKeyword_eq_false ht hne')
  rintro taken item (⟨t, more, rfl, ht, hitem⟩ | ⟨t, more, rfl, ht, hitem⟩ |
    ⟨t, more, rfl, ht, hitem⟩ | ⟨t, more, rfl, ht, hitem⟩ | ⟨t, more, rfl, ht, hitem⟩ |
    ⟨_, c, _, rfl, hwritten, rfl, rfl⟩)
  · exact hitem.keyWritten (hother ht (by decide) (by decide) more)
  · refine hitem.keyWritten ?_
    rcases Bool.or_eq_true _ _ ▸ ht with hkey | hindex
    · exact hother hkey (by decide) (by decide) more
    · exact hother hindex (by decide) (by decide) more
  · exact hitem.keyWritten (hother ht (by decide) (by decide) more)
  · exact hitem t ht
  · obtain ⟨columns, target, rfl⟩ := hitem
    have hne : t.isKeyword "CONSTRAINT" = false := Token.isKeyword_eq_false ht (by decide)
    refine ⟨?_, (constraintName?_of_ne hne more).symm⟩
    rw [declaresKey, clauseTokens_of_ne hne]
    exact ht
  · -- A column begins with a name, which is no reserved word.
    obtain ⟨name, type, more, rfl, -⟩ := hwritten
    have hkind : name.1.kind ≠ .keyword := Token.kind_ne_of_isName name.2 rfl
    exact declaresKey_of_ne (Token.isKeyword_of_kind hkind _) (Token.isKeyword_of_kind hkind _) _

end Parser

theorem ReadItem.keyWritten (i : ReadItem) : i.item.KeyWritten i.tokens := by
  obtain ⟨rest, hread⟩ := i.read
  exact Parser.Takes.tableItem_keyWritten.of_append hread

/-! ## The count of reading -/

/-- The foreign key that an item is, by the name that it gives: none if it leaves its name out. -/
def TableItem.declaredName? : TableItem → Option (Option String)
  | foreignKey name _ _ => some name
  | _ => none

/-- An item that is no foreign key does not change the foreign keys of a table. -/
theorem foreignKeys_add_of_none {item : TableItem} (hitem : item.declaredName? = none)
    (hindex : ∀ c, item = .constraint c → c.isForeignKey = false) (t : Table) :
    (t.add item).foreignKeys = t.foreignKeys := by
  cases item with
  | column c => rfl
  | constraint c => simp [Table.add, Table.foreignKeys, hindex c rfl]
  | foreignKey name columns target => cases hitem

theorem names_foreignKeys_add {item : TableItem} {name : Option String}
    (hitem : item.declaredName? = some name) (t : Table) :
    (t.add item).foreignKeys.map Constraint.name? = t.foreignKeys.map Constraint.name? ++
      [some (name.getD (Table.generatedName t.name (t.foreignKeys.length + 1)))] := by
  cases item with
  | foreignKey name' columns target =>
    obtain rfl := Option.some.inj hitem
    rw [Table.add, Table.foreignKeys, List.filter_append, List.map_append]
    rfl
  | _ => cases hitem

/-- The names of the foreign keys of a table to which items have been added: those that it had,
and those of the items, numbered on from there. -/
theorem names_foreignKeys_foldl_add {items : List TableItem}
    (h : ∀ c, .constraint c ∈ items → c.isForeignKey = false) (t : Table) :
    (items.foldl Table.add t).foreignKeys.map Constraint.name? =
      t.foreignKeys.map Constraint.name? ++
        (items.filterMap TableItem.declaredName?).mapIdx fun i name =>
          some (name.getD (Table.generatedName t.name (t.foreignKeys.length + (i + 1)))) := by
  induction items generalizing t with
  | nil => simp
  | cons item items ih =>
    have hmore : ∀ c, .constraint c ∈ items → c.isForeignKey = false :=
      fun c hc => h c (List.mem_cons_of_mem item hc)
    have hname : (t.add item).name = t.name := name_foldl_add [item] t
    rw [List.foldl_cons, ih hmore, hname]
    cases hitem : item.declaredName? with
    | none =>
      have hkeys := foreignKeys_add_of_none hitem
        (fun c hc => h c (hc ▸ List.mem_cons_self)) t
      rw [hkeys, List.filterMap_cons_none hitem]
    | some name =>
      have hnames := names_foreignKeys_add hitem t
      have hlength : (t.add item).foreignKeys.length = t.foreignKeys.length + 1 := by
        simpa using congrArg List.length hnames
      rw [hnames, hlength, List.filterMap_cons_some hitem, List.mapIdx_cons, List.append_assoc,
        List.singleton_append, Nat.zero_add]
      simp only [Nat.add_assoc, Nat.add_comm 1]

/-- The foreign key behind `i` others in a body has the name that it is declared with, or the name
that is made from the number `i + 1`. -/
theorem names_foreignKeys_ofItems {items : List TableItem}
    (h : ∀ c, .constraint c ∈ items → c.isForeignKey = false) (name : String) :
    (Table.ofItems name items).foreignKeys.map Constraint.name? =
      (items.filterMap TableItem.declaredName?).mapIdx fun i keyName =>
        some (keyName.getD (Table.generatedName name (i + 1))) := by
  have hnames := names_foreignKeys_foldl_add h { name }
  simpa [Table.ofItems, Table.foreignKeys] using hnames

/-- Names that are made from different numbers are different: the number can be read off. -/
theorem generatedName_inj {table : String} {i j : Nat}
    (h : Table.generatedName table i = Table.generatedName table j) : i = j := by
  unfold Table.generatedName at h
  rw [String.append_right_inj] at h
  have hdigits : Nat.toDigits 10 i = Nat.toDigits 10 j := String.ofList_injective h
  have hread : ∀ n, Nat.ofDigitChars 10 (Nat.toDigits 10 n) 0 = n :=
    fun n => Nat.ofDigitChars_toDigits (by omega) (by omega)
  rw [← hread i, hdigits, hread j]

/-! ## The count of writing -/

/-- The constraints with empty names for the chosen foreign keys, of which the first has the
number `number`. -/
def blankedFrom (chosen : Nat → Bool) (number : Nat) : List Constraint → List Constraint
  | [] => []
  | .foreignKey name columns target :: constraints =>
    .foreignKey (if chosen number then "" else name) columns target ::
      blankedFrom chosen (number + 1) constraints
  | c :: constraints => c :: blankedFrom chosen number constraints

/-- The table with empty names for those of its foreign keys whose numbers are chosen. -/
def Table.blanked (chosen : Nat → Bool) (t : Table) : Table :=
  { t with constraints := blankedFrom chosen 1 t.constraints }

theorem blankedFrom_cons (chosen : Nat → Bool) (number : Nat) (name : String)
    (columns : List String) (target : Reference) (constraints : List Constraint) :
    blankedFrom chosen number (.foreignKey name columns target :: constraints) =
      .foreignKey (if chosen number then "" else name) columns target ::
        blankedFrom chosen (number + 1) constraints := rfl

theorem blankedFrom_cons_of_index (chosen : Nat → Bool) (number : Nat) {c : Constraint}
    (h : c.isForeignKey = false) (constraints : List Constraint) :
    blankedFrom chosen number (c :: constraints) = c :: blankedFrom chosen number constraints := by
  cases c with
  | foreignKey => cases h
  | _ => rfl

/-- An empty name is written as the generated one. -/
theorem foreignKey_blank (table : String) (number : Nat) (columns : List String)
    (target : Reference) :
    Render.foreignKey table number "" columns target =
      Render.foreignKey table number (Table.generatedName table number) columns target := by
  have hempty : "".isEmpty = true := rfl
  unfold Render.foreignKey
  simp only [if_pos hempty, ite_self]

/-- Foreign keys are written with the names that have been blanked, if these are the generated
ones. -/
theorem foreignKeysFrom_blankedFrom {chosen : Nat → Bool} {table : String} {number : Nat}
    {constraints : List Constraint}
    (h : ∀ i, chosen (number + i) = true →
      ((constraints.filter Constraint.isForeignKey).map Constraint.name?)[i]? =
        some (some (Table.generatedName table (number + i)))) :
    Render.foreignKeysFrom table number (blankedFrom chosen number constraints) =
      Render.foreignKeysFrom table number constraints := by
  induction constraints generalizing number with
  | nil => rfl
  | cons c constraints ih =>
    cases hc : c.isForeignKey with
    | false =>
      rw [List.filter_cons_of_neg (by simp [hc])] at h
      rw [blankedFrom_cons_of_index _ _ hc, foreignKeysFrom_cons_of_index _ _ hc,
        foreignKeysFrom_cons_of_index _ _ hc, ih h]
    | true =>
      rw [List.filter_cons_of_pos hc] at h
      cases c with
      | foreignKey name columns target =>
        have hmore : Render.foreignKeysFrom table (number + 1)
              (blankedFrom chosen (number + 1) constraints) =
            Render.foreignKeysFrom table (number + 1) constraints := by
          refine ih fun i hi => ?_
          have hnext := h (i + 1)
          rw [Nat.add_assoc, Nat.add_comm 1] at hi ⊢
          simpa using hnext hi
        rw [blankedFrom_cons, foreignKeysFrom_cons, foreignKeysFrom_cons, hmore]
        refine congrArg (· ++ _) ?_
        by_cases hchosen : chosen number = true
        · have hname : name = Table.generatedName table number := by
            simpa [Constraint.name?] using h 0 hchosen
          rw [if_pos hchosen, foreignKey_blank, hname]
        · rw [if_neg hchosen]
      | _ => cases hc

theorem filterMap_constraint?_blankedFrom (chosen : Nat → Bool) (number : Nat)
    (constraints : List Constraint) :
    (blankedFrom chosen number constraints).filterMap Render.constraint? =
      constraints.filterMap Render.constraint? := by
  induction constraints generalizing number with
  | nil => rfl
  | cons c constraints ih =>
    cases c with
    | foreignKey name columns target => exact ih (number + 1)
    | _ => exact congrArg (_ :: ·) (ih number)

theorem table_blanked (chosen : Nat → Bool) (t : Table) :
    Render.table (t.blanked chosen) = Render.table t := by
  have hlines : Render.tableLines (t.blanked chosen) = Render.tableLines t := by
    rw [Render.tableLines, Render.tableLines, Table.blanked, filterMap_constraint?_blankedFrom]
  have hname : (t.blanked chosen).name = t.name := rfl
  unfold Render.table
  rw [hlines, hname]

/-- A schema is written as it is written with generated names blanked in one of its tables. -/
theorem renderScript_blanked {chosen : Nat → Bool} {t : Table}
    (h : ∀ i, chosen (i + 1) = true → (t.foreignKeys.map Constraint.name?)[i]? =
      some (some (Table.generatedName t.name (i + 1)))) (before after : List Table) :
    renderScript (before ++ t.blanked chosen :: after) = renderScript (before ++ t :: after) := by
  have hkeys : Render.foreignKeys (t.blanked chosen) = Render.foreignKeys t :=
    foreignKeysFrom_blankedFrom fun i hi => by
      rw [Nat.add_comm] at hi ⊢
      exact h i hi
  simp only [renderScript, Render.schema, List.map_append, List.map_cons, List.flatMap_append,
    List.flatMap_cons, table_blanked, hkeys]

/-! ## Both counts -/

/-- The foreign key that the item with these tokens is, by the name that they give it. -/
def keyName? (ts : List Token) : Option (Option String) :=
  if declaresKey ts then some (constraintName? ts) else none

theorem ReadItem.declaredName?_item (i : ReadItem) :
    i.item.declaredName? = keyName? i.tokens := by
  have hwritten := i.keyWritten
  unfold keyName?
  cases hitem : i.item with
  | column c =>
    rw [hitem] at hwritten
    rw [if_neg (ne_true_of_eq_false hwritten)]
    rfl
  | constraint c =>
    rw [hitem] at hwritten
    rw [if_neg (ne_true_of_eq_false hwritten.1)]
    rfl
  | foreignKey name columns target =>
    rw [hitem] at hwritten
    rw [if_pos hwritten.1, ← hwritten.2]
    rfl

namespace ReadBody

/-- The foreign keys of a body, by the names that their tokens give them. -/
def keyNames (b : ReadBody) : List (Option String) :=
  b.items.filterMap fun i => keyName? i.tokens

theorem filterMap_declaredName? (b : ReadBody) :
    (b.items.map ReadItem.item).filterMap TableItem.declaredName? = b.keyNames := by
  rw [List.filterMap_map]
  exact List.filterMap_congr fun i _ => i.declaredName?_item

theorem isForeignKey_of_constraint {b : ReadBody} {c : Constraint}
    (hc : .constraint c ∈ b.items.map ReadItem.item) : c.isForeignKey = false := by
  obtain ⟨i, -, hitem⟩ := List.mem_map.1 hc
  have hwritten := i.keyWritten
  rw [hitem] at hwritten
  exact hwritten.2

end ReadBody

/-- The names of the foreign keys of a table that is declared. -/
theorem names_foreignKeys_table (w : ReadTable) :
    w.table.foreignKeys.map Constraint.name? =
      w.body.keyNames.mapIdx fun i name =>
        some (name.getD (Table.generatedName w.name.1.value (i + 1))) := by
  rw [← w.body.filterMap_declaredName?]
  exact names_foreignKeys_ofItems (fun _ hc => ReadBody.isForeignKey_of_constraint hc) _

/-- A foreign key without a name in a declaration gets the one that is made from its number. -/
theorem getElem?_names_of_unnamed {w : ReadTable} {i : Nat}
    (h : w.body.keyNames[i]? = some none) :
    (w.table.foreignKeys.map Constraint.name?)[i]? =
      some (some (Table.generatedName w.name.1.value (i + 1))) := by
  rw [names_foreignKeys_table, List.getElem?_mapIdx, h]
  rfl

/-- A table that reading makes comes from a declaration.  Its foreign keys have the names that they
are declared with, and those that are declared without one are named after their numbers, each one
differently.  Any of the names that are made in this way can be blanked without a difference to
the script of a schema with this table, whatever constraints have been added to it. -/
theorem createTable_generatedNames {ts rest : List Token} {t : Table}
    (h : Parser.createTable ts = .ok (.createTable t, rest)) :
    (∃ w : ReadTable, ts = w.tokens ++ rest ∧ t = w.table) ∧
      ∀ w : ReadTable, t = w.table →
        (t.foreignKeys.map Constraint.name? =
          w.body.keyNames.mapIdx fun i name =>
            some (name.getD (Table.generatedName t.name (i + 1)))) ∧
        (∀ i j : Nat, i ≠ j → w.body.keyNames[i]? = some none → w.body.keyNames[j]? = some none →
          (t.foreignKeys.map Constraint.name?)[i]? ≠ (t.foreignKeys.map Constraint.name?)[j]?) ∧
        ∀ chosen : Nat → Bool, (∀ i, chosen (i + 1) = true → w.body.keyNames[i]? = some none) →
          ∀ (more : List Constraint) (before after : List Table),
            let added : Table := { t with constraints := t.constraints ++ more }
            renderScript (before ++ added.blanked chosen :: after) =
              renderScript (before ++ added :: after) := by
  constructor
  · obtain ⟨_, rfl, w, rfl, hw⟩ := Parser.Takes.createTable h
    exact ⟨w, rfl, Statement.createTable.inj hw⟩
  rintro w rfl
  have hname : w.table.name = w.name.1.value := name_foldl_add _ _
  refine ⟨?_, fun i j hne hi hj heq => hne ?_, fun chosen hchosen more => ?_⟩
  · rw [hname]
    exact names_foreignKeys_table w
  · rw [getElem?_names_of_unnamed hi, getElem?_names_of_unnamed hj] at heq
    have hnumber := generatedName_inj (Option.some.inj (Option.some.inj heq))
    omega
  · intro before after added
    refine renderScript_blanked (fun i hi => ?_) before after
    have hown := getElem?_names_of_unnamed (hchosen i hi)
    have hkeys : added.foreignKeys.map Constraint.name? =
        w.table.foreignKeys.map Constraint.name? ++
          (more.filter Constraint.isForeignKey).map Constraint.name? := by
      simp [added, Table.foreignKeys]
    rw [hkeys, List.getElem?_append_left (List.getElem?_eq_some_iff.1 hown).1, hown, ← hname]

/-- The item that a text is, if it is one and nothing else. -/
def ReadItem.ofText (text : String) (item : TableItem)
    (h : (Parser.tableItem (tokenize text)).toOption = some (item, [])) : ReadItem where
  tokens := tokenize text
  item := item
  read := ⟨[], by rw [List.append_nil, eq_ok_of_toOption h]⟩

/-- There is a foreign key with a name, and around a primary key one with an empty place for a name
and one without the word `CONSTRAINT`.  The last two get names, and one of these is blanked. -/
theorem createTable_generatedNames_mixed :
    let text := "TABLE T (CONSTRAINT F FOREIGN KEY (A) REFERENCES U (B),
      CONSTRAINT FOREIGN KEY (A) REFERENCES U (B), CONSTRAINT PRIMARY KEY (A),
      FOREIGN KEY (A) REFERENCES U (B))"
    let key : String → Constraint := fun name => .foreignKey name ["A"] ⟨"U", ["B"]⟩
    let t : String → Table := fun last =>
      ⟨"T", [], [key "F", key "T_ibfk_2", .primaryKey ["A"], key last]⟩
    Parser.createTable (tokenize text) = .ok (.createTable (t "T_ibfk_3"), []) ∧
      renderScript [t ""] = renderScript [t "T_ibfk_3"] := by
  intro text key t
  have h : Parser.createTable (tokenize text) = .ok (.createTable (t "T_ibfk_3"), []) :=
    eq_ok_of_toOption (by decide +kernel)
  let target : Reference := ⟨"U", ["B"]⟩
  let comma : Mark .comma := ⟨⟨.comma, ",", 0⟩, rfl⟩
  let leading : List (ReadItem × Mark .comma) :=
    [(.ofText "CONSTRAINT F FOREIGN KEY (A) REFERENCES U (B)" (.foreignKey (some "F") ["A"] target)
        (by decide +kernel), comma),
      (.ofText "CONSTRAINT FOREIGN KEY (A) REFERENCES U (B)" (.foreignKey none ["A"] target)
        (by decide +kernel), comma),
      (.ofText "CONSTRAINT PRIMARY KEY (A)" (.constraint (.primaryKey ["A"]))
        (by decide +kernel), comma)]
  let last : ReadItem :=
    .ofText "FOREIGN KEY (A) REFERENCES U (B)" (.foreignKey none ["A"] target) (by decide +kernel)
  let body : ReadBody :=
    ⟨⟨⟨.leftParen, "(", 8⟩, rfl⟩, leading, last, ⟨⟨.rightParen, ")", 0⟩, rfl⟩⟩
  let w : ReadTable := ⟨[], ⟨⟨.identifier, "T", 6⟩, rfl⟩, body, []⟩
  have hnames : w.body.keyNames = [some "F", none, none] := by decide +kernel
  have hblank := ((createTable_generatedNames h).2 w (by decide +kernel)).2.2
  refine ⟨h, hblank (· == 3) (fun i hi => ?_) [] [] []⟩
  obtain rfl : i = 2 := by simpa using hi
  rw [hnames]
  rfl

end SchemaArchive
