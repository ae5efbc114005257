import SchemaArchive.Archive.Store
import SchemaArchive.Proofs.Archive.Numbering

/-!
# The rows of a schema

Storing goes through a schema row by row and takes each number when it gets there.  Which rows
there are in the end, and under which numbers, can be said at once: tables, columns, constraints
and references are each numbered in the order of the schema.

* `placed`, `placedConstraints`, `placedReferences` — a schema with its numbers.
* `Archive.stored` — the archive with all rows of one more version.
-/

namespace SchemaArchive

/-! ## Rows in the order of the schema -/

/-- The names of columns with their numbers, the first of which is `start`. -/
def namedIds (start : Nat) (columns : List Column) : List (String × Nat) :=
  (columns.zipIdx start).map fun c => (c.1.name, c.2)

/-- Tables and their columns, when the next table has the number `tableId` and the next column
the number `columnId`. -/
def placed : (tableId columnId : Nat) → List Table → List WrittenTable
  | _, _, [] => []
  | tableId, columnId, t :: ts =>
    { table := t, id := tableId, columnIds := namedIds columnId t.columns } ::
      placed (tableId + 1) (columnId + t.columns.length) ts

/-- The rows of a table's columns, when the first column has the place `order`. -/
def columnValues (table order : Nat) (columns : List Column) : List ColumnRow :=
  (columns.zipIdx order).map fun c => { table, column := c.1, order := c.2 }

/-- A constraint with the table that it belongs to and its number. -/
structure WrittenConstraint where
  owner : WrittenTable
  constraint : Constraint
  id : Nat

/-- A reference: the number of its constraint, the table and the columns that it names, and its
own number. -/
structure WrittenReference where
  constraint : Nat
  table : WrittenTable
  columns : List String
  id : Nat

/-- The constraints of tables, each with its table. -/
def owned (written : List WrittenTable) : List (WrittenTable × Constraint) :=
  written.flatMap fun w => w.table.constraints.map (w, ·)

/-- Constraints with their numbers, the first of which is `start`. -/
def placedConstraints (start : Nat) (cs : List (WrittenTable × Constraint)) :
    List WrittenConstraint :=
  (cs.zipIdx start).map fun c => { owner := c.1.1, constraint := c.1.2, id := c.2 }

/-- The table that a foreign key refers to, if it has been written, and the columns that it
names there. -/
def Constraint.referenced? (written : List WrittenTable) (c : Constraint) :
    Option (WrittenTable × List String) := do
  let target ← c.reference?
  let table ← written.find? (·.table.name == target.table)
  return (table, target.columns)

/-- If the constraint is a foreign key, the table that it refers to has been written. -/
def Constraint.Resolved (written : List WrittenTable) (c : Constraint) : Prop :=
  c.reference?.isSome = true → (c.referenced? written).isSome = true

/-- The references of constraints with their numbers, the first of which is `start`. -/
def placedReferences (written : List WrittenTable) :
    (start : Nat) → List WrittenConstraint → List WrittenReference
  | _, [] => []
  | start, c :: cs =>
    match c.constraint.referenced? written with
    | some (table, columns) =>
      { constraint := c.id, table, columns, id := start } :: placedReferences written (start + 1) cs
    | none => placedReferences written start cs

/-- The row of a constraint. -/
def WrittenConstraint.value (c : WrittenConstraint) : ConstraintRow where
  table := c.owner.id
  name := c.constraint.name?
  kind := c.constraint.kind.text

/-- The rows of the columns that a constraint constrains. -/
def WrittenConstraint.members (c : WrittenConstraint) : List MemberRow :=
  (c.owner.idsOf c.constraint.columns).mapIdx fun i column =>
    { constraint := c.id, column, order := i + 1 }

/-- The row of a reference. -/
def WrittenReference.value (r : WrittenReference) : ReferenceRow where
  constraint := r.constraint
  table := r.table.id

/-- The rows of the columns that a foreign key refers to. -/
def WrittenReference.targets (r : WrittenReference) : List TargetRow :=
  (r.table.idsOf r.columns).mapIdx fun i column =>
    { reference := r.id, column, order := i + 1 }

/-! ## Numbers -/

theorem map_table_placed (tableId columnId : Nat) (tables : List Table) :
    (placed tableId columnId tables).map WrittenTable.table = tables := by
  induction tables generalizing tableId columnId with
  | nil => rfl
  | cons t tables ih => rw [placed, List.map_cons, ih]

theorem map_id_placed (tableId columnId : Nat) (tables : List Table) :
    (placed tableId columnId tables).map WrittenTable.id =
      List.range' tableId (placed tableId columnId tables).length := by
  induction tables generalizing tableId columnId with
  | nil => rfl
  | cons t tables ih => rw [placed, List.map_cons, ih, List.length_cons, List.range'_succ]

theorem map_id_placedConstraints (start : Nat) (cs : List (WrittenTable × Constraint)) :
    (placedConstraints start cs).map WrittenConstraint.id =
      List.range' start (placedConstraints start cs).length := by
  induction cs generalizing start with
  | nil => rfl
  | cons c cs ih =>
    have hcons : placedConstraints start (c :: cs) =
        ⟨c.1, c.2, start⟩ :: placedConstraints (start + 1) cs := rfl
    rw [hcons, List.map_cons, ih, List.length_cons, List.range'_succ]

theorem map_id_placedReferences (written : List WrittenTable) (start : Nat)
    (cs : List WrittenConstraint) :
    (placedReferences written start cs).map WrittenReference.id =
      List.range' start (placedReferences written start cs).length := by
  induction cs generalizing start with
  | nil => rfl
  | cons c cs ih =>
    cases hr : c.constraint.referenced? written with
    | none => simpa [placedReferences, hr] using ih start
    | some r => simp [placedReferences, hr, ih, List.range'_succ]

/-- A constraint that has been placed belongs to its table. -/
theorem mem_owned_of_mem_placedConstraints {start : Nat} {cs : List (WrittenTable × Constraint)}
    {c : WrittenConstraint} (h : c ∈ placedConstraints start cs) :
    (c.owner, c.constraint) ∈ cs := by
  obtain ⟨⟨p, id⟩, hp, rfl⟩ := List.mem_map.1 h
  exact List.fst_mem_of_mem_zipIdx hp

theorem mem_written_of_mem_owned {written : List WrittenTable} {c : WrittenTable × Constraint}
    (h : c ∈ owned written) : c.1 ∈ written ∧ c.2 ∈ c.1.table.constraints := by
  obtain ⟨w, hw, hc⟩ := List.mem_flatMap.1 h
  obtain ⟨k, hk, rfl⟩ := List.mem_map.1 hc
  exact ⟨hw, hk⟩

/-- A reference that has been placed is that of a constraint. -/
theorem exists_of_mem_placedReferences {written : List WrittenTable} {start : Nat}
    {cs : List WrittenConstraint} {r : WrittenReference}
    (h : r ∈ placedReferences written start cs) :
    ∃ c ∈ cs, r.constraint = c.id ∧
      c.constraint.referenced? written = some (r.table, r.columns) := by
  induction cs generalizing start with
  | nil => cases h
  | cons c cs ih =>
    rw [placedReferences] at h
    split at h
    · next table columns hr =>
      rcases List.mem_cons.1 h with rfl | h
      · exact ⟨c, List.mem_cons_self .., rfl, hr⟩
      · obtain ⟨c', hc', hr'⟩ := ih h
        exact ⟨c', List.mem_cons_of_mem c hc', hr'⟩
    · obtain ⟨c', hc', hr'⟩ := ih h
      exact ⟨c', List.mem_cons_of_mem c hc', hr'⟩

/-- A constraint that refers to a table that has been written has a reference. -/
theorem exists_mem_placedReferences {written : List WrittenTable} {cs : List WrittenConstraint}
    {c : WrittenConstraint} (hc : c ∈ cs) {table : WrittenTable} {columns : List String}
    (hr : c.constraint.referenced? written = some (table, columns)) (start : Nat) :
    ∃ r ∈ placedReferences written start cs, r.constraint = c.id := by
  induction cs generalizing start with
  | nil => cases hc
  | cons c' cs ih =>
    rw [placedReferences]
    rcases List.mem_cons.1 hc with rfl | hc
    · rw [hr]
      exact ⟨_, List.mem_cons_self .., rfl⟩
    · split
      · obtain ⟨r, hmem, hid⟩ := ih hc (start + 1)
        exact ⟨r, List.mem_cons_of_mem _ hmem, hid⟩
      · exact ih hc start

theorem Constraint.referenced?_eq_some_iff {written : List WrittenTable} {c : Constraint}
    {table : WrittenTable} {columns : List String} :
    c.referenced? written = some (table, columns) ↔
      ∃ target, c.reference? = some target ∧
        written.find? (·.table.name == target.table) = some table ∧ target.columns = columns := by
  simp only [referenced?, Option.bind_eq_bind, Option.bind_eq_some_iff, Option.pure_def,
    Option.some.injEq, Prod.mk.injEq]
  constructor
  · rintro ⟨target, htarget, found, hfind, rfl, hcolumns⟩
    exact ⟨target, htarget, hfind, hcolumns⟩
  · rintro ⟨target, htarget, hfind, hcolumns⟩
    exact ⟨target, htarget, table, hfind, rfl, hcolumns⟩

theorem mem_written_of_referenced? {written : List WrittenTable} {c : Constraint}
    {table : WrittenTable} {columns : List String}
    (h : c.referenced? written = some (table, columns)) : table ∈ written := by
  obtain ⟨target, -, hfind, -⟩ := Constraint.referenced?_eq_some_iff.1 h
  exact List.mem_of_find?_eq_some hfind

/-- The column of a table that a number stands for is one of the rows. -/
theorem exists_row_of_mem_namedIds (table order : Nat) {start : Nat} {columns : List Column}
    {p : String × Nat} (h : p ∈ namedIds start columns) :
    ∃ row ∈ numbered start (columnValues table order columns),
      row.id = p.2 ∧ row.value.table = table ∧ row.value.column.name = p.1 := by
  induction columns generalizing start order with
  | nil => cases h
  | cons c columns ih =>
    have hids : namedIds start (c :: columns) = (c.name, start) :: namedIds (start + 1) columns :=
      rfl
    have hvalues : columnValues table order (c :: columns) =
        ⟨table, c, order⟩ :: columnValues table (order + 1) columns := rfl
    rw [hids, List.mem_cons] at h
    rw [hvalues, numbered_cons]
    rcases h with rfl | h
    · exact ⟨_, List.mem_cons_self .., rfl, rfl, rfl⟩
    · obtain ⟨row, hrow, hmeaning⟩ := ih (order + 1) h
      exact ⟨row, List.mem_cons_of_mem _ hrow, hmeaning⟩

theorem exists_row_of_mem_columnIds {tableId columnId : Nat} {tables : List Table}
    {w : WrittenTable} (hw : w ∈ placed tableId columnId tables) {p : String × Nat}
    (hp : p ∈ w.columnIds) :
    ∃ row ∈ numbered columnId ((placed tableId columnId tables).flatMap fun w =>
        columnValues w.id 1 w.table.columns),
      row.id = p.2 ∧ row.value.table = w.id ∧ row.value.column.name = p.1 := by
  induction tables generalizing tableId columnId with
  | nil => cases hw
  | cons t tables ih =>
    have hlength : (columnValues tableId 1 t.columns).length = t.columns.length := by
      rw [columnValues, List.length_map, List.length_zipIdx]
    rw [placed, List.flatMap_cons, numbered_append, hlength]
    rw [placed, List.mem_cons] at hw
    rcases hw with rfl | hw
    · obtain ⟨row, hrow, hmeaning⟩ := exists_row_of_mem_namedIds tableId 1 hp
      exact ⟨row, List.mem_append_left _ hrow, hmeaning⟩
    · obtain ⟨row, hrow, hmeaning⟩ := ih hw
      exact ⟨row, List.mem_append_right _ hrow, hmeaning⟩

theorem of_mem_members {c : WrittenConstraint} {v : MemberRow} (h : v ∈ c.members) :
    v.constraint = c.id ∧ v.column ∈ c.owner.idsOf c.constraint.columns := by
  obtain ⟨i, hi, rfl⟩ := List.mem_mapIdx.1 h
  exact ⟨rfl, List.getElem_mem hi⟩

theorem of_mem_targets {r : WrittenReference} {v : TargetRow} (h : v ∈ r.targets) :
    v.reference = r.id ∧ v.column ∈ r.table.idsOf r.columns := by
  obtain ⟨i, hi, rfl⟩ := List.mem_mapIdx.1 h
  exact ⟨rfl, List.getElem_mem hi⟩

/-- A row for each of some numbers, with its place, says which numbers they are. -/
theorem map_mapIdx_cancel {α : Type} (ids : List Nat) {row : Nat → Nat → α} {column : α → Nat}
    (h : ∀ i id, column (row i id) = id) : (ids.mapIdx row).map column = ids := by
  rw [List.mapIdx_eq_zipIdx_map, List.map_map]
  have hfst : (column ∘ fun p : Nat × Nat => row p.2 p.1) = Prod.fst := funext fun p => h p.2 p.1
  exact (congrArg (List.map · ids.zipIdx) hfst).trans (List.zipIdx_map_fst ..)

theorem map_column_members (c : WrittenConstraint) :
    c.members.map (·.column) = c.owner.idsOf c.constraint.columns :=
  map_mapIdx_cancel _ fun _ _ => rfl

theorem map_column_targets (r : WrittenReference) :
    r.targets.map (·.column) = r.table.idsOf r.columns :=
  map_mapIdx_cancel _ fun _ _ => rfl

/-- Rows that are written one after another have the places from one on. -/
theorem map_order_mapIdx {α : Type} (ids : List Nat) {row : Nat → Nat → α} {order : α → Nat}
    (h : ∀ i id, order (row i id) = i + 1) :
    (ids.mapIdx row).map order = List.range' 1 ids.length := by
  rw [List.mapIdx_eq_zipIdx_map, List.map_map]
  have hsnd : (order ∘ fun p : Nat × Nat => row p.2 p.1) = (1 + ·) ∘ Prod.snd := by
    funext p
    show order (row p.2 p.1) = 1 + p.2
    rw [h, Nat.add_comm]
  rw [hsnd, ← List.map_map, List.zipIdx_map_snd, List.map_add_range']

theorem map_order_members (c : WrittenConstraint) :
    c.members.map (·.order) = List.range' 1 (c.owner.idsOf c.constraint.columns).length :=
  map_order_mapIdx _ fun _ _ => rfl

theorem map_order_targets (r : WrittenReference) :
    r.targets.map (·.order) = List.range' 1 (r.table.idsOf r.columns).length :=
  map_order_mapIdx _ fun _ _ => rfl

theorem map_order_columnValues (table order : Nat) (columns : List Column) :
    (columnValues table order columns).map (·.order) = List.range' order columns.length := by
  rw [columnValues, List.map_map]
  exact List.zipIdx_map_snd ..

theorem isSome_lookup_namedIds (start : Nat) (columns : List Column) (name : String) :
    ((namedIds start columns).lookup name).isSome = columns.any (·.name == name) := by
  induction columns generalizing start with
  | nil => rfl
  | cons c columns ih =>
    have hids : namedIds start (c :: columns) = (c.name, start) :: namedIds (start + 1) columns :=
      rfl
    rw [hids, List.lookup_cons, List.any_cons, BEq.comm]
    by_cases hname : c.name == name
    · rw [hname]
      rfl
    · rw [Bool.eq_false_iff.2 hname, Bool.false_or]
      exact ih (start + 1)

/-- A table has a number for the names of its columns, and for no other. -/
theorem isSome_lookup_columnIds {tableId columnId : Nat} {tables : List Table}
    {w : WrittenTable} (hw : w ∈ placed tableId columnId tables) (name : String) :
    (w.columnIds.lookup name).isSome = w.table.columns.any (·.name == name) := by
  induction tables generalizing tableId columnId with
  | nil => cases hw
  | cons t tables ih =>
    rcases List.mem_cons.1 hw with rfl | hw
    · exact isSome_lookup_namedIds columnId t.columns name
    · exact ih hw

/-- A number that a name stands for is that of a column of this name. -/
theorem mem_columnIds_of_lookup {w : WrittenTable} {name : String} {id : Nat}
    (h : w.columnIds.lookup name = some id) : (name, id) ∈ w.columnIds := by
  obtain ⟨before, after, hids, -⟩ := List.lookup_eq_some_iff.1 h
  rw [hids]
  exact List.mem_append_right _ (List.mem_cons_self ..)

/-! ## The archive with these rows -/

/-- The archive with the rows of some constraints. -/
def Archive.withConstraints (a : Archive) (written : List WrittenTable)
    (cs : List (WrittenTable × Constraint)) : Archive :=
  let placed := placedConstraints a.constraints.nextId cs
  let references := placedReferences written a.references.nextId placed
  { a with
    constraints := a.constraints.insertAll (placed.map WrittenConstraint.value)
    members := a.members.insertAll (placed.flatMap WrittenConstraint.members)
    references := a.references.insertAll (references.map WrittenReference.value)
    targets := a.targets.insertAll (references.flatMap WrittenReference.targets) }

/-- The archive with the rows of some tables and their columns. -/
def Archive.withTables (a : Archive) (version : Nat) (tables : List Table) : Archive :=
  let written := placed a.tables.nextId a.columns.nextId tables
  { a with
    tables := a.tables.insertAll (tables.map fun t => { version, name := t.name })
    columns := a.columns.insertAll
      (written.flatMap fun w => columnValues w.id 1 w.table.columns) }

namespace Archive

/-- The tables of one more version. -/
def newTables (a : Archive) (tables : List Table) : List WrittenTable :=
  placed a.tables.nextId a.columns.nextId tables

/-- The constraints of one more version. -/
def newConstraints (a : Archive) (tables : List Table) : List WrittenConstraint :=
  placedConstraints a.constraints.nextId (owned (a.newTables tables))

/-- The references of one more version. -/
def newReferences (a : Archive) (tables : List Table) : List WrittenReference :=
  placedReferences (a.newTables tables) a.references.nextId (a.newConstraints tables)

/-- The archive with all rows of one more version. -/
def stored (a : Archive) (value : VersionRow) (tables : List Table) : Archive where
  versions := a.versions.insertAll [value]
  tables := a.tables.insertAll ((a.newTables tables).map fun w =>
    { version := a.versions.nextId, name := w.table.name })
  columns := a.columns.insertAll ((a.newTables tables).flatMap fun w =>
    columnValues w.id 1 w.table.columns)
  constraints := a.constraints.insertAll ((a.newConstraints tables).map WrittenConstraint.value)
  members := a.members.insertAll ((a.newConstraints tables).flatMap WrittenConstraint.members)
  references := a.references.insertAll ((a.newReferences tables).map WrittenReference.value)
  targets := a.targets.insertAll ((a.newReferences tables).flatMap WrittenReference.targets)

theorem withConstraints_withTables (a : Archive) (value : VersionRow) (tables : List Table) :
    ({ a with versions := a.versions.insert value }.withTables a.versions.nextId
        tables).withConstraints (a.newTables tables) (owned (a.newTables tables)) =
      a.stored value tables := by
  have htables : tables.map (fun t => (⟨a.versions.nextId, t.name⟩ : TableRow)) =
      (a.newTables tables).map fun w => ⟨a.versions.nextId, w.table.name⟩ := by
    have hmap := congrArg (List.map fun t : Table => (⟨a.versions.nextId, t.name⟩ : TableRow))
      (map_table_placed a.tables.nextId a.columns.nextId tables)
    rw [List.map_map] at hmap
    exact hmap.symm
  rw [withTables, htables]
  rfl

end Archive

/-! ## Rows that have been written -/

namespace Archive

variable {a : Archive} {tables : List Table}

/-- The rows of the tables of a new version. -/
theorem rows_tables_stored (a : Archive) (value : VersionRow) (tables : List Table) :
    (a.stored value tables).tables.rows = a.tables.rows ++
      (a.newTables tables).map fun w => ⟨w.id, ⟨a.versions.nextId, w.table.name⟩⟩ := by
  rw [stored, Relation.rows_insertAll]
  exact congrArg _ (numbered_map (map_id_placed ..) _)

/-- The rows of the constraints of a new version. -/
theorem rows_constraints_stored (a : Archive) (value : VersionRow) (tables : List Table) :
    (a.stored value tables).constraints.rows = a.constraints.rows ++
      (a.newConstraints tables).map fun c => ⟨c.id, c.value⟩ := by
  rw [stored, Relation.rows_insertAll]
  exact congrArg _ (numbered_map (map_id_placedConstraints ..) _)

/-- The rows of the references of a new version. -/
theorem rows_references_stored (a : Archive) (value : VersionRow) (tables : List Table) :
    (a.stored value tables).references.rows = a.references.rows ++
      (a.newReferences tables).map fun r => ⟨r.id, r.value⟩ := by
  rw [stored, Relation.rows_insertAll]
  exact congrArg _ (numbered_map (map_id_placedReferences ..) _)

theorem mem_tables_stored (value : VersionRow) {w : WrittenTable} (hw : w ∈ a.newTables tables) :
    ⟨w.id, ⟨a.versions.nextId, w.table.name⟩⟩ ∈ (a.stored value tables).tables.rows := by
  rw [rows_tables_stored]
  exact List.mem_append_right _ (List.mem_map.2 ⟨w, hw, rfl⟩)

theorem mem_constraints_stored (value : VersionRow) {c : WrittenConstraint}
    (hc : c ∈ a.newConstraints tables) :
    ⟨c.id, c.value⟩ ∈ (a.stored value tables).constraints.rows := by
  rw [rows_constraints_stored]
  exact List.mem_append_right _ (List.mem_map.2 ⟨c, hc, rfl⟩)

theorem mem_references_stored (value : VersionRow) {r : WrittenReference}
    (hr : r ∈ a.newReferences tables) :
    ⟨r.id, r.value⟩ ∈ (a.stored value tables).references.rows := by
  rw [rows_references_stored]
  exact List.mem_append_right _ (List.mem_map.2 ⟨r, hr, rfl⟩)

/-- The numbers of a table's columns are those of rows, with the names that they stand for. -/
theorem exists_column_stored (value : VersionRow) {w : WrittenTable}
    (hw : w ∈ a.newTables tables) {p : String × Nat} (hp : p ∈ w.columnIds) :
    ∃ row ∈ (a.stored value tables).columns.rows,
      row.id = p.2 ∧ row.value.table = w.id ∧ row.value.column.name = p.1 := by
  obtain ⟨row, hrow, hmeaning⟩ := exists_row_of_mem_columnIds hw hp
  refine ⟨row, ?_, hmeaning⟩
  rw [stored, Relation.rows_insertAll]
  exact List.mem_append_right _ hrow

/-- The numbers that names of a table's columns stand for are those of rows of the table. -/
theorem exists_column_of_mem_idsOf (value : VersionRow) {w : WrittenTable}
    (hw : w ∈ a.newTables tables) {names : List String} {id : Nat} (hid : id ∈ w.idsOf names) :
    ∃ row ∈ (a.stored value tables).columns.rows, row.id = id ∧ row.value.table = w.id := by
  obtain ⟨name, -, hlookup⟩ := List.mem_filterMap.1 hid
  obtain ⟨row, hrow, hid, htable, -⟩ :=
    exists_column_stored value hw (mem_columnIds_of_lookup hlookup)
  exact ⟨row, hrow, hid, htable⟩

/-- A new constraint belongs to a new table. -/
theorem owner_mem_newTables {c : WrittenConstraint} (h : c ∈ a.newConstraints tables) :
    c.owner ∈ a.newTables tables :=
  (mem_written_of_mem_owned (mem_owned_of_mem_placedConstraints h)).1

/-- A new reference is that of a new constraint, and refers to a new table. -/
theorem exists_constraint_of_mem_newReferences {r : WrittenReference}
    (h : r ∈ a.newReferences tables) :
    r.table ∈ a.newTables tables ∧ ∃ c ∈ a.newConstraints tables, r.constraint = c.id ∧
      c.constraint.referenced? (a.newTables tables) = some (r.table, r.columns) := by
  obtain ⟨c, hc, hid, hr⟩ := exists_of_mem_placedReferences h
  exact ⟨mem_written_of_referenced? hr, c, hc, hid, hr⟩

end Archive

end SchemaArchive
