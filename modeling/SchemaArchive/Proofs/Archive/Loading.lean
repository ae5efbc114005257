import Mathlib.Data.List.Nodup
import SchemaArchive.Proofs.Archive.Storing

/-!
# What is stored is what is loaded

A schema that is stored as a new version of an intact archive is loaded again as it was, except
that a constraint keeps only the columns which its table has, and a reference only those which
the table referred to has.  The rows of older versions do not get in the way: their numbers are
others.

* `restricted` — the schema with the columns that are kept.
* `Archive.toTables_newVersion` — a version is loaded as it was written.
-/

namespace SchemaArchive

/-! ## Columns that are kept -/

/-- Does the table have a column of this name? -/
def Table.hasColumn (t : Table) (name : String) : Bool :=
  t.columns.any (·.name == name)

/-- The constraint of the table `owner`, with those of its columns that the table has, and those
of its target's columns that the table referred to has. -/
def Constraint.restricted (tables : List Table) (owner : Table) : Constraint → Constraint
  | primaryKey columns => primaryKey (columns.filter owner.hasColumn)
  | unique name columns => unique name (columns.filter owner.hasColumn)
  | key name columns => key name (columns.filter owner.hasColumn)
  | foreignKey name columns target =>
    foreignKey name (columns.filter owner.hasColumn)
      { target with
        columns := target.columns.filter fun name =>
          (tables.find? (·.name == target.table)).any (·.hasColumn name) }

/-- The schema with the columns of constraints and targets that are there. -/
def restricted (tables : List Table) : List Table :=
  tables.map fun t => { t with constraints := t.constraints.map (.restricted tables t) }

/-- Every column that a constraint or a target names is there. -/
def NamesExist (tables : List Table) : Prop :=
  ∀ t ∈ tables, ∀ c ∈ t.constraints, (∀ name ∈ c.columns, t.hasColumn name = true) ∧
    ∀ target, c.reference? = some target → ∀ name ∈ target.columns,
      (tables.find? (·.name == target.table)).any (·.hasColumn name) = true

theorem Constraint.restricted_eq_self {tables : List Table} {owner : Table} {c : Constraint}
    (hcolumns : ∀ name ∈ c.columns, owner.hasColumn name = true)
    (htarget : ∀ target, c.reference? = some target → ∀ name ∈ target.columns,
      (tables.find? (·.name == target.table)).any (·.hasColumn name) = true) :
    c.restricted tables owner = c := by
  have hkept : c.columns.filter owner.hasColumn = c.columns := List.filter_eq_self.2 hcolumns
  cases c with
  | primaryKey columns => exact congrArg primaryKey hkept
  | unique name columns => exact congrArg (unique name) hkept
  | key name columns => exact congrArg (key name) hkept
  | foreignKey name columns target =>
    have htargetKept := List.filter_eq_self.2 (htarget target rfl)
    show foreignKey name ((foreignKey name columns target).columns.filter _) _ = _
    rw [hkept, htargetKept]
    rfl

/-- Nothing is lost if all columns are there. -/
theorem restricted_eq_self {tables : List Table} (h : NamesExist tables) :
    restricted tables = tables := by
  have htables : ∀ t ∈ tables,
      ({ t with constraints := t.constraints.map (.restricted tables t) } : Table) = t := by
    intro t ht
    have hconstraints : ∀ c ∈ t.constraints, c.restricted tables t = c := fun c hc =>
      Constraint.restricted_eq_self (h t ht c hc).1 (h t ht c hc).2
    rw [List.map_congr_left hconstraints, List.map_id']
  rw [restricted, List.map_congr_left htables, List.map_id']

namespace Archive

variable {a : Archive} {tables : List Table}

/-! ## Columns -/

theorem columns_stored (h : a.Intact) (value : VersionRow) {w : WrittenTable}
    (hw : w ∈ a.newTables tables) :
    (a.stored value tables).columns.values.filter (·.table == w.id) =
      columnValues w.id 1 w.table.columns := by
  refine h.columns_table.filter_values_insertAll h.tables (map_id_placed ..) ?_ hw
  intro w' _ v hv
  obtain ⟨c, -, rfl⟩ := List.mem_map.1 hv
  rfl

/-- The columns of a new table. -/
theorem map_column_loadColumn_stored (h : a.Intact) (value : VersionRow) {w : WrittenTable}
    (hw : w ∈ a.newTables tables) :
    ((((a.stored value tables).columns.rows.filter (·.value.table == w.id)).map
      loadColumn).map (·.column)) = w.table.columns := by
  rw [List.map_map]
  calc ((a.stored value tables).columns.rows.filter (·.value.table == w.id)).map (·.value.column)
    _ = ((a.stored value tables).columns.values.filter (·.table == w.id)).map (·.column) :=
        Relation.map_filter_value _ (·.table == w.id) ColumnRow.column
    _ = (w.table.columns.zipIdx 1).map Prod.fst := by
        rw [columns_stored h value hw, columnValues, List.map_map]
        rfl
    _ = w.table.columns := List.zipIdx_map_fst ..

/-! ## Members and targets -/

/-- The name of the column with this number. -/
def columnName? (a : Archive) (id : Nat) : Option String :=
  (a.columns.find? id).map (·.value.column.name)

/-- The names of columns that rows mention, in whichever way they are put into the tree. -/
theorem map_name_mapColumns {ρ σ : Type} (a : Archive) (r : Relation ρ) (key column : ρ → Nat)
    (k : Nat) {make : Row ρ → Row ColumnRow → σ} {name : σ → String}
    (hname : ∀ row c, name (make row c) = c.value.column.name) :
    (a.mapColumns r key column make k).map name =
      ((r.values.filter (key · == k)).map column).filterMap a.columnName? := by
  have hmake : (fun row => Option.map name (do
        return make row (← a.columns.find? (column row.value)))) =
      a.columnName? ∘ column ∘ Row.value := by
    funext row
    show Option.map name ((a.columns.find? (column row.value)).bind _) =
      (a.columns.find? (column row.value)).map _
    cases a.columns.find? (column row.value) with
    | none => rfl
    | some c => exact congrArg some (hname row c)
  rw [mapColumns, List.map_filterMap, hmake, ← List.filterMap_map]
  exact congrArg (List.filterMap a.columnName?) (r.map_filter_value (key · == k) column)

theorem names_membersOf (a : Archive) (constraint : Nat) :
    (a.membersOf constraint).map (·.columnName) =
      ((a.members.values.filter (·.constraint == constraint)).map (·.column)).filterMap
        a.columnName? := by
  rw [membersOf]
  exact a.map_name_mapColumns _ _ _ _ fun _ _ => rfl

theorem names_targetsOf (a : Archive) (reference : Nat) :
    (a.targetsOf reference).map (·.columnName) =
      ((a.targets.values.filter (·.reference == reference)).map (·.column)).filterMap
        a.columnName? := by
  rw [targetsOf]
  exact a.map_name_mapColumns _ _ _ _ fun _ _ => rfl

/-- A name stands for the number of the column that has it. -/
theorem columnName?_lookup_stored (h : a.Intact) (value : VersionRow) {w : WrittenTable}
    (hw : w ∈ a.newTables tables) (name : String) :
    (w.columnIds.lookup name).bind (a.stored value tables).columnName? =
      if w.table.hasColumn name then some name else none := by
  have hcolumn := isSome_lookup_columnIds hw name
  cases hlookup : w.columnIds.lookup name with
  | none =>
    rw [hlookup] at hcolumn
    rw [Table.hasColumn, ← hcolumn]
    rfl
  | some id =>
    rw [hlookup] at hcolumn
    rw [Table.hasColumn, ← hcolumn]
    obtain ⟨row, hrow, rfl, -, hname⟩ :=
      exists_column_stored value hw (mem_columnIds_of_lookup hlookup)
    show (a.stored value tables).columnName? row.id = some name
    rw [columnName?, (h.stored value tables).columns.find?_of_mem hrow, Option.map_some, hname]

/-- Of some names, those of columns come back. -/
theorem names_idsOf_stored (h : a.Intact) (value : VersionRow) {w : WrittenTable}
    (hw : w ∈ a.newTables tables) (names : List String) :
    (w.idsOf names).filterMap (a.stored value tables).columnName? =
      names.filter w.table.hasColumn := by
  rw [WrittenTable.idsOf, List.filterMap_filterMap, ← List.filterMap_eq_filter]
  congr 1
  funext name
  rw [columnName?_lookup_stored h value hw]
  rfl

/-- The members of a new constraint. -/
theorem members_stored (h : a.Intact) (value : VersionRow) {c : WrittenConstraint}
    (hc : c ∈ a.newConstraints tables) :
    (a.stored value tables).members.values.filter (·.constraint == c.id) = c.members := by
  refine h.members_constraint.filter_values_insertAll h.constraints
    (map_id_placedConstraints ..) ?_ hc
  exact fun c' _ v hv => (of_mem_members hv).1

/-- The targets of a new reference. -/
theorem targets_stored (h : a.Intact) (value : VersionRow) {r : WrittenReference}
    (hr : r ∈ a.newReferences tables) :
    (a.stored value tables).targets.values.filter (·.reference == r.id) = r.targets := by
  refine h.targets_reference.filter_values_insertAll h.references
    (map_id_placedReferences ..) ?_ hr
  exact fun r' _ v hv => (of_mem_targets hv).1

theorem names_members_stored (h : a.Intact) (value : VersionRow) {c : WrittenConstraint}
    (hc : c ∈ a.newConstraints tables) :
    ((a.stored value tables).membersOf c.id).map (·.columnName) =
      c.constraint.columns.filter c.owner.table.hasColumn := by
  rw [names_membersOf, members_stored h value hc, map_column_members,
    names_idsOf_stored h value (owner_mem_newTables hc)]

theorem names_targets_stored (h : a.Intact) (value : VersionRow) {r : WrittenReference}
    (hr : r ∈ a.newReferences tables) :
    ((a.stored value tables).targetsOf r.id).map (·.columnName) =
      r.columns.filter r.table.table.hasColumn := by
  rw [names_targetsOf, targets_stored h value hr, map_column_targets,
    names_idsOf_stored h value (exists_constraint_of_mem_newReferences hr).1]

/-! ## References -/

/-- A reference that mentions a new constraint is the one that was written for it. -/
theorem exists_newReference_of_mem (h : a.Intact) (value : VersionRow) {c : WrittenConstraint}
    (hc : c ∈ a.newConstraints tables) {row : Row ReferenceRow}
    (hrow : row ∈ (a.stored value tables).references.rows)
    (hconstraint : row.value.constraint = c.id) :
    ∃ r ∈ a.newReferences tables, row = ⟨r.id, r.value⟩ ∧
      c.constraint.referenced? (a.newTables tables) = some (r.table, r.columns) := by
  have hids := map_id_placedConstraints a.constraints.nextId (owned (a.newTables tables))
  have hold := h.references_constraint.filter_rows_eq_nil h.constraints (le_id_of_map_id hids hc)
  rw [rows_references_stored, List.mem_append] at hrow
  rcases hrow with hrow | hrow
  · -- An old reference would be that of an old constraint.
    exact absurd (beq_iff_eq.2 hconstraint) (List.filter_eq_nil_iff.1 hold row hrow)
  · obtain ⟨r, hmem, rfl⟩ := List.mem_map.1 hrow
    obtain ⟨-, c', hc', hid, hr'⟩ := exists_constraint_of_mem_newReferences hmem
    have heq : c' = c := List.inj_on_of_nodup_map (nodup_of_map_id hids) hc' hc
      (hid.symm.trans hconstraint)
    exact ⟨r, hmem, rfl, heq ▸ hr'⟩

/-- The reference that is found for a new constraint is its own. -/
theorem find?_references_stored (h : a.Intact) (value : VersionRow) {c : WrittenConstraint}
    (hc : c ∈ a.newConstraints tables) {table : WrittenTable} {columns : List String}
    (hr : c.constraint.referenced? (a.newTables tables) = some (table, columns)) :
    ∃ r ∈ a.newReferences tables, r.table = table ∧ r.columns = columns ∧
      (a.stored value tables).references.rows.find? (·.value.constraint == c.id) =
        some ⟨r.id, r.value⟩ := by
  obtain ⟨r₀, hr₀, hid₀⟩ := exists_mem_placedReferences hc hr a.references.nextId
  have hsome : ((a.stored value tables).references.rows.find?
      (·.value.constraint == c.id)).isSome = true :=
    List.find?_isSome.2 ⟨_, mem_references_stored value hr₀, beq_iff_eq.2 hid₀⟩
  obtain ⟨row, hfind⟩ := Option.isSome_iff_exists.1 hsome
  obtain ⟨r, hmem, rfl, hr'⟩ := exists_newReference_of_mem h value hc
    (List.mem_of_find?_eq_some hfind) (by simpa using List.find?_some hfind)
  rw [hr, Option.some.injEq, Prod.mk.injEq] at hr'
  exact ⟨r, hmem, hr'.1.symm, hr'.2.symm, hfind⟩

/-- A table that has been written is found by its number. -/
theorem find?_tables_stored (h : a.Intact) (value : VersionRow) {w : WrittenTable}
    (hw : w ∈ a.newTables tables) :
    (a.stored value tables).tables.find? w.id =
      some ⟨w.id, ⟨a.versions.nextId, w.table.name⟩⟩ :=
  (h.stored value tables).tables.find?_of_mem (mem_tables_stored value hw)

/-- What a new foreign key refers to is loaded with the table that it names. -/
theorem referenceOf_stored (h : a.Intact) (value : VersionRow) {c : WrittenConstraint}
    (hc : c ∈ a.newConstraints tables) {table : WrittenTable} {columns : List String}
    (hr : c.constraint.referenced? (a.newTables tables) = some (table, columns)) :
    ∃ r ∈ a.newReferences tables, r.table = table ∧ r.columns = columns ∧
      (a.stored value tables).referenceOf c.id =
        some ⟨r.id, c.id, table.id, table.table.name,
          (a.stored value tables).targetsOf r.id⟩ := by
  obtain ⟨r, hmem, rfl, rfl, hfind⟩ := find?_references_stored h value hc hr
  have htable := find?_tables_stored h value (exists_constraint_of_mem_newReferences hmem).1
  refine ⟨r, hmem, rfl, rfl, ?_⟩
  rw [referenceOf, hfind]
  show ((a.stored value tables).tables.find? r.table.id).bind _ = _
  rw [htable]
  rfl

/-- What a new foreign key refers to is stored under the same names, as far as they are those of
columns. -/
theorem target_stored (h : a.Intact) (value : VersionRow) {c : WrittenConstraint}
    (hc : c ∈ a.newConstraints tables) {table : WrittenTable} {columns : List String}
    (hr : c.constraint.referenced? (a.newTables tables) = some (table, columns)) :
    ((a.stored value tables).constraintTree ⟨c.id, c.value⟩).target =
      ⟨table.table.name, columns.filter table.table.hasColumn⟩ := by
  obtain ⟨r, hmem, rfl, rfl, hreference⟩ := referenceOf_stored h value hc hr
  rw [StoredConstraint.target, constraintTree, hreference]
  exact congrArg (Reference.mk _) (names_targets_stored h value hmem)

/-! ## Constraints -/

/-- A table of the schema is found by its name among those that have been written. -/
theorem find?_newTables (a : Archive) (tables : List Table) (name : String) :
    tables.find? (·.name == name) =
      ((a.newTables tables).find? (·.table.name == name)).map WrittenTable.table := by
  have hmap : (a.newTables tables).map WrittenTable.table = tables := map_table_placed ..
  have hfind := List.find?_map (p := fun t : Table => t.name == name) (f := WrittenTable.table)
    (l := a.newTables tables)
  rw [hmap] at hfind
  exact hfind

/-- A constraint is loaded as it was written, with those of its columns that are there. -/
theorem toConstraint_stored (h : a.Intact) (value : VersionRow) {c : WrittenConstraint}
    (hc : c ∈ a.newConstraints tables)
    (hresolved : c.constraint.Resolved (a.newTables tables)) :
    ((a.stored value tables).constraintTree ⟨c.id, c.value⟩).toConstraint =
      c.constraint.restricted tables c.owner.table := by
  have hmembers := names_members_stored h value hc
  obtain ⟨owner, constraint, id⟩ := c
  cases constraint with
  | primaryKey columns => exact congrArg Constraint.primaryKey hmembers
  | unique name columns => exact congrArg (Constraint.unique name) hmembers
  | key name columns => exact congrArg (Constraint.key name) hmembers
  | foreignKey name columns target =>
    obtain ⟨⟨table, targetColumns⟩, hr⟩ := Option.isSome_iff_exists.1 (hresolved rfl)
    have htarget := target_stored h value hc hr
    obtain ⟨_, htarget', hfind, rfl⟩ := Constraint.referenced?_eq_some_iff.1 hr
    cases htarget'
    have hname : table.table.name = target.table := by
      simpa using List.find?_some hfind
    have hcolumns : target.columns.filter table.table.hasColumn =
        target.columns.filter fun name =>
          (tables.find? (·.name == target.table)).any (·.hasColumn name) := by
      rw [find?_newTables a, hfind]
      rfl
    rw [hname, hcolumns] at htarget
    exact congr (congrArg (Constraint.foreignKey name) hmembers) htarget

/-! ## Tables and versions -/

theorem map_pair_placedConstraints (start : Nat) (cs : List (WrittenTable × Constraint)) :
    (placedConstraints start cs).map (fun c => (c.owner, c.constraint)) = cs := by
  rw [placedConstraints, List.map_map]
  exact List.zipIdx_map_fst ..

/-- The constraints of a new table are those whose number of a table is its own. -/
theorem filter_newConstraints {w : WrittenTable} (hw : w ∈ a.newTables tables) :
    ((a.newConstraints tables).filter (·.owner.id == w.id)).map
        (fun c => (c.owner, c.constraint)) = w.table.constraints.map (w, ·) := by
  have hblocks : (owned (a.newTables tables)).filter (fun p => p.1.id == w.id) =
      w.table.constraints.map (w, ·) := by
    refine filter_flatMap_of_nodup ?_ (nodup_of_map_id (map_id_placed ..)) hw
    intro w' _ p hp
    obtain ⟨c, -, rfl⟩ := List.mem_map.1 hp
    rfl
  have hpairs := map_pair_placedConstraints a.constraints.nextId (owned (a.newTables tables))
  rw [← hblocks, ← hpairs, List.filter_map]
  rfl

/-- The constraints of a new table are loaded as they were written. -/
theorem map_toConstraint_stored (h : a.Intact) (value : VersionRow)
    (hresolved : ∀ c ∈ owned (a.newTables tables), c.2.Resolved (a.newTables tables))
    {w : WrittenTable} (hw : w ∈ a.newTables tables) :
    (((a.stored value tables).constraints.rows.filter (·.value.table == w.id)).map
        (a.stored value tables).constraintTree).map StoredConstraint.toConstraint =
      w.table.constraints.map (.restricted tables w.table) := by
  have hids := map_id_placed a.tables.nextId a.columns.nextId tables
  have hold := h.constraints_table.filter_rows_eq_nil h.tables (le_id_of_map_id hids hw)
  have hnew : ∀ c ∈ (a.newConstraints tables).filter (·.owner.id == w.id),
      ((a.stored value tables).constraintTree ⟨c.id, c.value⟩).toConstraint =
        c.constraint.restricted tables c.owner.table := by
    intro c hc
    have hmem := (List.mem_filter.1 hc).1
    exact toConstraint_stored h value hmem
      (hresolved _ (mem_owned_of_mem_placedConstraints hmem))
  rw [rows_constraints_stored, List.filter_append, hold, List.nil_append, List.filter_map,
    List.map_map, List.map_map]
  calc ((a.newConstraints tables).filter (·.owner.id == w.id)).map
        (fun c => ((a.stored value tables).constraintTree ⟨c.id, c.value⟩).toConstraint)
    _ = ((a.newConstraints tables).filter (·.owner.id == w.id)).map
          (fun c => c.constraint.restricted tables c.owner.table) := List.map_congr_left hnew
    _ = (((a.newConstraints tables).filter (·.owner.id == w.id)).map
          (fun c => (c.owner, c.constraint))).map (fun p => p.2.restricted tables p.1.table) := by
        rw [List.map_map]
        rfl
    _ = w.table.constraints.map (.restricted tables w.table) := by
        rw [filter_newConstraints hw, List.map_map]
        rfl

/-- The tables of a new version are those that were written for it. -/
theorem tables_newVersion (h : a.Intact) (value : VersionRow) (tables : List Table) :
    (a.newVersion value tables).tables =
      (a.newTables tables).map fun w =>
        (a.stored value tables).tableTree ⟨w.id, ⟨a.versions.nextId, w.table.name⟩⟩ := by
  have hold := h.tables_version.filter_rows_eq_nil h.versions (Nat.le_refl _)
  have hrows : (a.stored value tables).tables.rows.filter
      (·.value.version == a.versions.nextId) =
        (a.newTables tables).map fun w => ⟨w.id, ⟨a.versions.nextId, w.table.name⟩⟩ := by
    rw [rows_tables_stored, List.filter_append, hold, List.nil_append, List.filter_eq_self]
    intro row hrow
    obtain ⟨w, -, rfl⟩ := List.mem_map.1 hrow
    exact beq_self_eq_true _
  rw [newVersion, tree, hrows, List.map_map]
  rfl

/-- A version is loaded as it was written. -/
theorem toTables_newVersion (h : a.Intact) (value : VersionRow)
    (hresolved : ∀ c ∈ owned (a.newTables tables), c.2.Resolved (a.newTables tables)) :
    (a.newVersion value tables).toTables = restricted tables := by
  have htable : ∀ w ∈ a.newTables tables,
      ((a.stored value tables).tableTree
          ⟨w.id, ⟨a.versions.nextId, w.table.name⟩⟩).toTable =
        { w.table with constraints := w.table.constraints.map (.restricted tables w.table) } :=
    fun w hw => congr (congrArg (Table.mk w.table.name) (map_column_loadColumn_stored h value hw))
      (map_toConstraint_stored h value hresolved hw)
  have hmap : (a.newTables tables).map WrittenTable.table = tables := map_table_placed ..
  rw [Version.toTables, tables_newVersion h, List.map_map]
  calc (a.newTables tables).map (fun w => ((a.stored value tables).tableTree
        ⟨w.id, ⟨a.versions.nextId, w.table.name⟩⟩).toTable)
    _ = ((a.newTables tables).map WrittenTable.table).map
          (fun t => { t with constraints := t.constraints.map (.restricted tables t) }) := by
        rw [List.map_map]
        exact List.map_congr_left htable
    _ = restricted tables := by rw [hmap, restricted]

/-- A version that has been stored in a reachable archive carries the name and the description
that it was stored under, and the schema that was stored, less the columns which constraints and
targets name in vain.  If there are none of these, it is the schema itself. -/
theorem store_toTables (operations : List (String × Operation)) {value : VersionRow}
    {v : Version} {a' : Archive}
    (h : (empty.run operations).2.store value tables = (.ok v, a')) :
    v.name = value.name ∧ v.description = value.description ∧
      v.toTables = restricted tables ∧ (NamesExist tables → v.toTables = tables) := by
  obtain ⟨rfl, rfl, hresolved⟩ := store_eq_ok (sound_run operations) h
  have htables := toTables_newVersion (intact_run operations) value hresolved
  refine ⟨rfl, rfl, htables, fun hexist => ?_⟩
  rw [htables, restricted_eq_self hexist]

/-- A second schema is stored where an earlier one has been deleted.  Its foreign key refers to
the table itself, and loses the column that the table does not have. -/
theorem store_toTables_selfReference :
    let x : Column := ⟨"x", "INT", false, true, none, false⟩
    let old : List Table := [⟨"a", [x], [.primaryKey ["x"]]⟩]
    let operations : List (String × Operation) :=
      [("1", .store old "v" none), ("2", .store old "w" none), ("3", .delete 1)]
    ∃ v a', (empty.run operations).2.store ⟨"v", some "", "4"⟩
        [⟨"a", [x], [.foreignKey "" ["y", "x"] ⟨"a", ["x", "x", "y"]⟩]⟩] = (.ok v, a') ∧
      v.description = some "" ∧
      v.toTables = [⟨"a", [x], [.foreignKey "" ["x"] ⟨"a", ["x", "x"]⟩]⟩] := by
  intro x old operations
  have hok : ((empty.run operations).2.store ⟨"v", some "", "4"⟩
      [⟨"a", [x], [.foreignKey "" ["y", "x"] ⟨"a", ["x", "x", "y"]⟩]⟩]).1.isOk = true := by
    decide +kernel
  rcases hstored : (empty.run operations).2.store ⟨"v", some "", "4"⟩
      [⟨"a", [x], [.foreignKey "" ["y", "x"] ⟨"a", ["x", "x", "y"]⟩]⟩] with ⟨e | v, a'⟩
  · rw [hstored] at hok
    cases hok
  · obtain ⟨-, hdescription, htables, -⟩ := store_toTables operations hstored
    exact ⟨v, a', rfl, hdescription, htables.trans (by decide)⟩

end Archive

end SchemaArchive
