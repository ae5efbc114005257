import SchemaArchive.Proofs.Script.Reading

/-!
# A growing schema and the schema as a whole

Reading builds a schema step by step: items are added to a table, tables to the schema, and
foreign keys to the tables already there.  The grammar says at once what comes out.  Both agree.

* `Grammar.ofItems_eq` — a body, item by item, makes the table that it declares.
* `Grammar.schemaOf_eq_declared` — statements, one by one, make the schema that they declare.
-/

namespace SchemaArchive.Grammar

/-! ## Items into a table -/

/-- A foreign key without a name gets the same name from the reader and from the grammar. -/
theorem generatedName_eq_unnamedKey : Table.generatedName = unnamedKey :=
  rfl

/-- One item more: its column and its constraint come last, and a foreign key gets the next
number. -/
theorem add_tableItem (table : Table) (i : Item) :
    table.add i.tableItem =
      { table with
        columns := table.columns ++ i.column?.toList
        constraints := table.constraints ++
          constraintsFrom table.name (table.foreignKeys.length + 1) [i] } := by
  cases i with
  | constraint word name clause =>
    cases clause with
    | unique u =>
      cases hu : u.name <;>
        simp [Item.tableItem, NamedClause.item, Table.add, Item.column?, constraintsFrom,
          Item.foreignKey?, Item.index?, hu]
    | _ =>
      simp [Item.tableItem, NamedClause.item, Table.add, Item.column?, constraintsFrom,
        Item.foreignKey?, Item.index?, ForeignKeyClause.constraint, generatedName_eq_unnamedKey]
  | _ =>
    simp [Item.tableItem, Table.add, Item.column?, constraintsFrom, Item.foreignKey?,
      Item.index?, ForeignKeyClause.constraint, generatedName_eq_unnamedKey]

theorem isForeignKey_of_index? {i : Item} {c : Constraint} (h : i.index? = some c) :
    c.isForeignKey = false := by
  cases i with
  | constraint word name clause =>
    cases clause <;> simp only [Item.index?, Option.some.injEq, reduceCtorEq] at h <;>
      subst h <;> rfl
  | foreignKey f => simp [Item.index?] at h
  | column c => simp [Item.index?] at h
  | _ => simp only [Item.index?, Option.some.injEq] at h; subst h; rfl

/-- The number of foreign keys that an item declares: one or none. -/
theorem length_filter_constraintsFrom (table : String) (number : Nat) (i : Item) :
    ((constraintsFrom table number [i]).filter Constraint.isForeignKey).length =
      i.foreignKey?.toList.length := by
  cases hf : i.foreignKey? with
  | some key =>
    simp only [constraintsFrom, hf, ForeignKeyClause.constraint]
    rfl
  | none =>
    cases hi : i.index? with
    | none => simp [constraintsFrom, hf, hi]
    | some c => simp [constraintsFrom, hf, hi, isForeignKey_of_index? hi]

theorem constraintsFrom_cons (table : String) (number : Nat) (i : Item) (items : List Item) :
    constraintsFrom table number (i :: items) =
      constraintsFrom table number [i] ++
        constraintsFrom table (number + i.foreignKey?.toList.length) items := by
  cases hf : i.foreignKey? with
  | some key => simp [constraintsFrom, hf]
  | none => simp [constraintsFrom, hf]

/-- Items added to a table that already has some. -/
theorem foldl_add (items : List Item) (table : Table) :
    (items.map Item.tableItem).foldl Table.add table =
      { table with
        columns := table.columns ++ items.filterMap Item.column?
        constraints := table.constraints ++
          constraintsFrom table.name (table.foreignKeys.length + 1) items } := by
  induction items generalizing table with
  | nil => simp [constraintsFrom]
  | cons i items ih =>
    have hcolumns : (i :: items).filterMap Item.column? =
        i.column?.toList ++ items.filterMap Item.column? := by
      cases hc : i.column? <;> simp [hc]
    have hnumber : ∀ constraints : List Constraint,
        (table.constraints ++ constraints).filter Constraint.isForeignKey =
          table.foreignKeys ++ constraints.filter Constraint.isForeignKey :=
      fun constraints => List.filter_append _ _
    rw [List.map_cons, List.foldl_cons, ih, add_tableItem, constraintsFrom_cons _ _ i items,
      hcolumns]
    simp only [Table.foreignKeys] at hnumber ⊢
    rw [hnumber, List.length_append, length_filter_constraintsFrom]
    simp only [List.append_assoc, Nat.add_right_comm]

theorem ofItems_eq (c : TableClause) :
    Table.ofItems c.name.1.value (c.items.map Item.tableItem) = c.declaredTable := by
  rw [Table.ofItems, foldl_add]
  simp [TableClause.declaredTable, Table.foreignKeys]

/-! ## Statements into a schema -/

/-- The tables of a schema with the foreign keys that later statements add to them.  Only the
last table of a name gets any. -/
def extended (ss : List Statement) : List Table → List Table
  | [] => []
  | t :: ts =>
    (if ts.any (·.name == t.name) then t
      else { t with constraints := t.constraints ++ addedTo t.name ss }) :: extended ss ts

theorem extended_nil (tables : List Table) : extended [] tables = tables := by
  induction tables with
  | nil => rfl
  | cons t ts ih => simp [extended, addedTo, ih]

/-- A further table takes the later foreign keys away from the tables of its name. -/
theorem extended_createTable (table : Table) (ss : List Statement) (tables : List Table) :
    extended ss (tables ++ [table]) =
      extended (.createTable table :: ss) tables ++
        [{ table with constraints := table.constraints ++ addedTo table.name ss }] := by
  induction tables with
  | nil => simp [extended]
  | cons t ts ih =>
    rw [List.cons_append, extended, ih, extended, List.cons_append, addedTo]
    by_cases hname : table.name = t.name
    · simp [hname]
    · simp [hname]

/-- A foreign key for a table that is not there changes nothing. -/
theorem extended_addForeignKey_of_not_any {name : String} (key : Constraint) (ss : List Statement)
    {tables : List Table} (h : tables.any (·.name == name) = false) :
    extended (.addForeignKey name key :: ss) tables = extended ss tables := by
  induction tables with
  | nil => rfl
  | cons t ts ih =>
    rw [List.any_cons, Bool.or_eq_false_iff, beq_eq_false_iff_ne] at h
    simp only [extended, ih h.2, addedTo, if_neg (Ne.symm h.1)]

/-- A foreign key that is added at once comes before those that are added later. -/
theorem extended_attachForeignKey (name : String) (key : Constraint) (ss : List Statement)
    (tables : List Table) :
    extended ss (attachForeignKey name key tables) =
      extended (.addForeignKey name key :: ss) tables := by
  induction tables with
  | nil => rfl
  | cons t ts ih =>
    by_cases hlast : (t.name == name && !ts.any (·.name == name)) = true
    · rw [attachForeignKey, if_pos hlast]
      simp only [Bool.and_eq_true, beq_iff_eq, Bool.not_eq_true'] at hlast
      obtain ⟨rfl, hlast⟩ := hlast
      simp [extended, hlast, addedTo, extended_addForeignKey_of_not_any key ss hlast]
    · rw [attachForeignKey, if_neg hlast, extended, extended, ih]
      have hany : (attachForeignKey name key ts).any (·.name == t.name) =
          ts.any (·.name == t.name) := by
        have hnames := congrArg (List.any · (· == t.name)) (names_attachForeignKey name key ts)
        simpa [List.any_map, Function.comp_def] using hnames
      rw [hany]
      by_cases hname : t.name = name
      · -- A later table has the same name, so neither side adds anything to this one.
        subst hname
        have hsame : ts.any (·.name == t.name) = true := by simpa using hlast
        rw [if_pos hsame, if_pos hsame]
      · rw [addedTo, if_neg (Ne.symm hname)]

theorem foldl_apply (ss : List Statement) (tables : List Table) :
    ss.foldl Statement.apply tables = extended ss tables ++ declared ss := by
  induction ss generalizing tables with
  | nil => simp [extended_nil, declared]
  | cons s ss ih =>
    cases s with
    | createTable table =>
      rw [List.foldl_cons, ih, Statement.apply, extended_createTable, declared, List.append_assoc]
      rfl
    | addForeignKey name key =>
      rw [List.foldl_cons, ih, Statement.apply, extended_attachForeignKey, declared]

theorem schemaOf_eq_declared (ss : List Statement) : schemaOf ss = declared ss := by
  rw [schemaOf, foldl_apply]
  rfl

end SchemaArchive.Grammar
