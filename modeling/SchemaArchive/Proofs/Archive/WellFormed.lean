import SchemaArchive.Proofs.Archive.Immutability
import SchemaArchive.Proofs.Archive.Loading

/-!
# Well-formed trees

In the tree of a stored version every node says by number in which node it stands, places are
counted from one without a gap, and whatever a node mentions by number and name is a node of the
same tree that has this number and this name.

* `Version.WellFormed` — what a tree is like, from the version down to the targets of references.
* `Archive.wellFormed_of_store` — the tree of a new version is like this.
* `Archive.wellFormed_of_live` — and so are the trees of all versions of a reachable archive.
-/

namespace SchemaArchive

/-! ## Nodes in their places -/

/-- The table has a column of this number and this name. -/
def StoredTable.HasColumn (t : StoredTable) (id : Nat) (name : String) : Prop :=
  ∃ c ∈ t.columns, c.id = id ∧ c.column.name = name

/-- The reference stands in the constraint `k`, and leads to columns of a table of `v`. -/
structure StoredReference.InPlace (r : StoredReference) (v : Version) (k : StoredConstraint) :
    Prop where
  owner : r.constraintId = k.id
  targets_owner : ∀ m ∈ r.targets, m.referenceId = r.id
  targets_order : r.targets.map (·.order) = List.range' 1 r.targets.length
  table : ∃ t ∈ v.tables, t.id = r.tableId ∧ t.name = r.tableName ∧
    ∀ m ∈ r.targets, t.HasColumn m.columnId m.columnName

/-- The constraint stands in the table `t` of `v`, and constrains columns of it. -/
structure StoredConstraint.InPlace (k : StoredConstraint) (v : Version) (t : StoredTable) :
    Prop where
  owner : k.tableId = t.id
  members_owner : ∀ m ∈ k.members, m.constraintId = k.id
  members_order : k.members.map (·.order) = List.range' 1 k.members.length
  members_column : ∀ m ∈ k.members, t.HasColumn m.columnId m.columnName
  reference_iff : k.reference.isSome = true ↔ k.kind = .foreignKey
  reference : ∀ r, k.reference = some r → r.InPlace v k

/-- The table stands in the version `v`, with its columns and constraints in it. -/
structure StoredTable.InPlace (t : StoredTable) (v : Version) : Prop where
  owner : t.versionId = v.id
  columns_owner : ∀ c ∈ t.columns, c.tableId = t.id
  columns_order : t.columns.map (·.order) = List.range' 1 t.columns.length
  column_names : (t.columns.map (·.column.name)).Nodup
  constraints : ∀ k ∈ t.constraints, k.InPlace v t

/-- Tables have names of their own and stand in the order of their numbers, and all that they
own is in its place. -/
structure Version.WellFormed (v : Version) : Prop where
  table_names : (v.tables.map (·.name)).Nodup
  table_ids : (v.tables.map (·.id)).Pairwise (· < ·)
  tables : ∀ t ∈ v.tables, t.InPlace v

theorem Constraint.kind_eq_foreignKey_iff {c : Constraint} :
    c.kind = .foreignKey ↔ c.reference?.isSome = true := by
  cases c <;> simp [kind, reference?]

/-! ## Places -/

/-- Things whose places run on without a gap are as many as there are places. -/
theorem map_eq_range'_length {α : Type} {things : List α} {order : α → Nat} {start n : Nat}
    (h : things.map order = List.range' start n) :
    things.map order = List.range' start things.length := by
  have hlength := congrArg List.length h
  rw [List.length_map, List.length_range'] at hlength
  rw [h, hlength]

namespace Archive

variable {a : Archive}

/-! ## Rows that mention columns -/

section Columns

variable {ρ σ : Type} {r : Relation ρ} {key column : ρ → Nat} {k : Nat}
  {make : Row ρ → Row ColumnRow → σ}

theorem mem_mapColumns_iff {m : σ} :
    m ∈ a.mapColumns r key column make k ↔ ∃ row ∈ r.rows, key row.value = k ∧
      ∃ c, a.columns.find? (column row.value) = some c ∧ make row c = m := by
  simp only [mapColumns, List.mem_filterMap, List.mem_filter, beq_iff_eq, Option.bind_eq_bind,
    Option.bind_eq_some_iff, Option.pure_def, Option.some.injEq, and_assoc]

/-- If the columns that rows mention are there, no row is left out. -/
theorem map_mapColumns (h : r.Mentions column a.columns) {part : σ → Nat}
    {place : Row ρ → Nat} (hpart : ∀ row c, part (make row c) = place row) :
    (a.mapColumns r key column make k).map part =
      (r.rows.filter (key ·.value == k)).map place := by
  have hfound : ∀ row ∈ r.rows.filter (key ·.value == k),
      Option.map part (do return make row (← a.columns.find? (column row.value))) =
        some (place row) := by
    intro row hrow
    obtain ⟨c, hc, hid⟩ := Relation.has_iff.1 (h row (List.mem_filter.1 hrow).1)
    have hsome : (a.columns.find? (column row.value)).isSome = true :=
      List.find?_isSome.2 ⟨c, hc, beq_iff_eq.2 hid⟩
    obtain ⟨c', hfind⟩ := Option.isSome_iff_exists.1 hsome
    rw [hfind]
    exact congrArg some (hpart row c')
  rw [mapColumns, List.map_filterMap, List.filterMap_congr hfound, List.filterMap_eq_map']

end Columns

/-- The members of a constraint are made of rows that carry its number. -/
theorem exists_of_mem_membersOf {constraint : Nat} {m : StoredMember}
    (h : m ∈ a.membersOf constraint) :
    m.constraintId = constraint ∧ ∃ row ∈ a.members.rows, row.value.constraint = constraint ∧
      ∃ c ∈ a.columns.rows, c.id = row.value.column ∧ c.id = m.columnId ∧
        c.value.column.name = m.columnName := by
  rw [membersOf] at h
  obtain ⟨row, hrow, hkey, c, hfind, rfl⟩ := mem_mapColumns_iff.1 h
  have hid := List.find?_some hfind
  exact ⟨rfl, row, hrow, hkey, c, List.mem_of_find?_eq_some hfind, beq_iff_eq.1 hid, rfl, rfl⟩

/-- The targets of a reference are made of rows that carry its number. -/
theorem exists_of_mem_targetsOf {reference : Nat} {m : StoredTarget}
    (h : m ∈ a.targetsOf reference) :
    m.referenceId = reference ∧ ∃ row ∈ a.targets.rows, row.value.reference = reference ∧
      ∃ c ∈ a.columns.rows, c.id = row.value.column ∧ c.id = m.columnId ∧
        c.value.column.name = m.columnName := by
  rw [targetsOf] at h
  obtain ⟨row, hrow, hkey, c, hfind, rfl⟩ := mem_mapColumns_iff.1 h
  have hid := List.find?_some hfind
  exact ⟨rfl, row, hrow, hkey, c, List.mem_of_find?_eq_some hfind, beq_iff_eq.1 hid, rfl, rfl⟩

/-! ## Links -/

/-- The columns of a table are those whose rows mention it. -/
theorem hasColumn_tableTree {t : Row TableRow} {c : Row ColumnRow} (hc : c ∈ a.columns.rows)
    (htable : c.value.table = t.id) : (a.tableTree t).HasColumn c.id c.value.column.name :=
  ⟨loadColumn c, List.mem_map_of_mem (List.mem_filter.2 ⟨hc, beq_iff_eq.2 htable⟩), rfl, rfl⟩

/-- A constraint of a table constrains columns of it. -/
theorem hasColumn_of_mem_membersOf (h : a.Sound) {t : Row TableRow} {k : Row ConstraintRow}
    (hk : k ∈ a.constraints.rows) (htable : k.value.table = t.id) {m : StoredMember}
    (hm : m ∈ a.membersOf k.id) : (a.tableTree t).HasColumn m.columnId m.columnName := by
  obtain ⟨-, row, hrow, hkey, c, hc, hid, hcolumn, hname⟩ := exists_of_mem_membersOf hm
  have howner := h.separate.members row hrow k hk c hc hkey.symm hid
  rw [← hcolumn, ← hname]
  exact hasColumn_tableTree hc (howner.trans htable)

/-- What is loaded for a constraint is a reference of it, with the table that this mentions. -/
theorem referenceOf_eq_some {k : Nat} {r : StoredReference} (h : a.referenceOf k = some r) :
    ∃ row ∈ a.references.rows, row.value.constraint = k ∧
      ∃ t ∈ a.tables.rows, t.id = row.value.table ∧
        r = ⟨row.id, k, t.id, t.value.name, a.targetsOf row.id⟩ := by
  obtain ⟨row, hrow, hmake⟩ := Option.bind_eq_some_iff.1 h
  obtain ⟨t, ht, hr⟩ := Option.bind_eq_some_iff.1 hmake
  have hkey := List.find?_some hrow
  have hid := List.find?_some ht
  exact ⟨row, List.mem_of_find?_eq_some hrow, beq_iff_eq.1 hkey, t, List.mem_of_find?_eq_some ht,
    beq_iff_eq.1 hid, (Option.some.inj hr).symm⟩

/-- A foreign key of a version refers to a table of the version, and to columns of it. -/
theorem exists_table_of_referenceOf (h : a.Sound) {version : Row VersionRow} {t : Row TableRow}
    (ht : t ∈ a.tables.rows) (hversion : t.value.version = version.id) {k : Row ConstraintRow}
    (hk : k ∈ a.constraints.rows) (htable : k.value.table = t.id) {r : StoredReference}
    (hr : a.referenceOf k.id = some r) :
    ∃ t' ∈ (a.tree version).tables, t'.id = r.tableId ∧ t'.name = r.tableName ∧
      ∀ m ∈ r.targets, t'.HasColumn m.columnId m.columnName := by
  obtain ⟨row, hrow, hkey, t', ht', hid, rfl⟩ := referenceOf_eq_some hr
  have hsame := h.separate.references row hrow k hk t ht t' ht' hkey.symm htable.symm hid
  refine ⟨a.tableTree t', List.mem_map_of_mem (List.mem_filter.2 ⟨ht', ?_⟩), rfl, rfl, ?_⟩
  · exact beq_iff_eq.2 (hsame.trans hversion)
  · intro m hm
    obtain ⟨-, target, htarget, hreference, c, hc, hid', hcolumn, hname⟩ :=
      exists_of_mem_targetsOf hm
    have howner := h.separate.targets target htarget row hrow c hc hreference.symm hid'
    rw [← hcolumn, ← hname]
    exact hasColumn_tableTree hc (howner.trans hid.symm)

/-! ## The tree of a new version -/

variable {tables : List Table}

/-- A constraint that mentions a new table is a new one. -/
theorem exists_newConstraint_of_mem (h : a.Intact) (value : VersionRow) {w : WrittenTable}
    (hw : w ∈ a.newTables tables) {k : Row ConstraintRow}
    (hk : k ∈ (a.stored value tables).constraints.rows) (htable : k.value.table = w.id) :
    ∃ c ∈ a.newConstraints tables, k = ⟨c.id, c.value⟩ := by
  have hids := map_id_placed a.tables.nextId a.columns.nextId tables
  have hold := h.constraints_table.filter_rows_eq_nil h.tables (le_id_of_map_id hids hw)
  rw [rows_constraints_stored, List.mem_append] at hk
  rcases hk with hk | hk
  · -- An old constraint would be that of an old table.
    exact absurd (beq_iff_eq.2 htable) (List.filter_eq_nil_iff.1 hold k hk)
  · obtain ⟨c, hc, rfl⟩ := List.mem_map.1 hk
    exact ⟨c, hc, rfl⟩

theorem columns_order_stored (h : a.Intact) (value : VersionRow) {w : WrittenTable}
    (hw : w ∈ a.newTables tables) (row : TableRow) :
    ((a.stored value tables).tableTree ⟨w.id, row⟩).columns.map (·.order) =
      List.range' 1 w.table.columns.length := by
  rw [tableTree, List.map_map]
  calc ((a.stored value tables).columns.rows.filter (·.value.table == w.id)).map (·.value.order)
    _ = ((a.stored value tables).columns.values.filter (·.table == w.id)).map (·.order) :=
        Relation.map_filter_value _ (·.table == w.id) ColumnRow.order
    _ = List.range' 1 w.table.columns.length := by
        rw [columns_stored h value hw, map_order_columnValues]

theorem members_order_stored (h : a.Intact) (value : VersionRow) {c : WrittenConstraint}
    (hc : c ∈ a.newConstraints tables) :
    ((a.stored value tables).membersOf c.id).map (·.order) =
      List.range' 1 (c.owner.idsOf c.constraint.columns).length := by
  calc ((a.stored value tables).membersOf c.id).map (·.order)
    _ = ((a.stored value tables).members.rows.filter (·.value.constraint == c.id)).map
          (·.value.order) := by
        rw [membersOf]
        exact map_mapColumns (h.stored value tables).members_column fun _ _ => rfl
    _ = ((a.stored value tables).members.values.filter (·.constraint == c.id)).map (·.order) :=
        Relation.map_filter_value _ (·.constraint == c.id) MemberRow.order
    _ = c.members.map (·.order) := by rw [members_stored h value hc]
    _ = _ := map_order_members c

theorem targets_order_stored (h : a.Intact) (value : VersionRow) {r : WrittenReference}
    (hr : r ∈ a.newReferences tables) :
    ((a.stored value tables).targetsOf r.id).map (·.order) =
      List.range' 1 (r.table.idsOf r.columns).length := by
  calc ((a.stored value tables).targetsOf r.id).map (·.order)
    _ = ((a.stored value tables).targets.rows.filter (·.value.reference == r.id)).map
          (·.value.order) := by
        rw [targetsOf]
        exact map_mapColumns (h.stored value tables).targets_column fun _ _ => rfl
    _ = ((a.stored value tables).targets.values.filter (·.reference == r.id)).map (·.order) :=
        Relation.map_filter_value _ (·.reference == r.id) TargetRow.order
    _ = r.targets.map (·.order) := by rw [targets_stored h value hr]
    _ = _ := map_order_targets r

/-- A new constraint has a reference if it is a foreign key, and only then. -/
theorem isSome_referenceOf_stored (h : a.Intact) (value : VersionRow) {c : WrittenConstraint}
    (hc : c ∈ a.newConstraints tables)
    (hresolved : c.constraint.Resolved (a.newTables tables)) :
    ((a.stored value tables).referenceOf c.id).isSome = true ↔
      c.constraint.kind = .foreignKey := by
  rw [Constraint.kind_eq_foreignKey_iff]
  constructor
  · intro hsome
    obtain ⟨r, hr⟩ := Option.isSome_iff_exists.1 hsome
    obtain ⟨row, hrow, hkey, -⟩ := referenceOf_eq_some hr
    obtain ⟨r', -, -, hreferenced⟩ := exists_newReference_of_mem h value hc hrow hkey
    obtain ⟨target, htarget, -⟩ := Constraint.referenced?_eq_some_iff.1 hreferenced
    rw [htarget]
    rfl
  · intro hforeign
    obtain ⟨⟨table, columns⟩, hr⟩ := Option.isSome_iff_exists.1 (hresolved hforeign)
    obtain ⟨r, -, -, -, hload⟩ := referenceOf_stored h value hc hr
    rw [hload]
    rfl

/-- The constraints of a new table are in their places. -/
theorem inPlace_constraintTree_stored (h : a.Intact) {value : VersionRow}
    (hsound : (a.stored value tables).Sound)
    (hresolved : ∀ c ∈ owned (a.newTables tables), c.2.Resolved (a.newTables tables))
    {w : WrittenTable} (hw : w ∈ a.newTables tables) {c : WrittenConstraint}
    (hc : c ∈ a.newConstraints tables) (htable : c.value.table = w.id) :
    ((a.stored value tables).constraintTree ⟨c.id, c.value⟩).InPlace
      ((a.stored value tables).tree ⟨a.versions.nextId, value⟩)
      ((a.stored value tables).tableTree ⟨w.id, ⟨a.versions.nextId, w.table.name⟩⟩) where
  owner := htable
  members_owner m hm := (exists_of_mem_membersOf hm).1
  members_order := map_eq_range'_length (members_order_stored h value hc)
  members_column m hm :=
    hasColumn_of_mem_membersOf hsound (mem_constraints_stored value hc) htable hm
  reference_iff := by
    have hkind : ((a.stored value tables).constraintTree ⟨c.id, c.value⟩).kind =
        c.constraint.kind := ConstraintKind.known_text _
    rw [hkind]
    exact isSome_referenceOf_stored h value hc
      (hresolved _ (mem_owned_of_mem_placedConstraints hc))
  reference r hr := by
    obtain ⟨row, hrow, hkey, t, ht, hid, heq⟩ := referenceOf_eq_some hr
    obtain ⟨r', hr', rfl, -⟩ := exists_newReference_of_mem h value hc hrow hkey
    constructor
    case owner => rw [heq]; rfl
    case targets_owner =>
      rw [heq]
      exact fun m hm => (exists_of_mem_targetsOf hm).1
    case targets_order =>
      rw [heq]
      exact map_eq_range'_length (targets_order_stored h value hr')
    case table =>
      exact exists_table_of_referenceOf hsound (mem_tables_stored value hw) rfl
        (mem_constraints_stored value hc) htable hr

/-- The new tables are in their places. -/
theorem inPlace_tableTree_stored (h : a.Intact) {value : VersionRow}
    (hsound : (a.stored value tables).Sound)
    (hcolumns : ∀ t ∈ tables, (t.columns.map (·.name)).Nodup)
    (hresolved : ∀ c ∈ owned (a.newTables tables), c.2.Resolved (a.newTables tables))
    {w : WrittenTable} (hw : w ∈ a.newTables tables) :
    ((a.stored value tables).tableTree ⟨w.id, ⟨a.versions.nextId, w.table.name⟩⟩).InPlace
      ((a.stored value tables).tree ⟨a.versions.nextId, value⟩) where
  owner := rfl
  columns_owner c hc := by
    obtain ⟨row, hrow, rfl⟩ := List.mem_map.1 hc
    exact beq_iff_eq.1 (List.mem_filter.1 hrow).2
  columns_order := map_eq_range'_length (columns_order_stored h value hw _)
  column_names := by
    have hwritten : (a.newTables tables).map WrittenTable.table = tables := map_table_placed ..
    have hnames := congrArg (List.map Column.name) (map_column_loadColumn_stored h value hw)
    rw [List.map_map] at hnames
    exact hnames ▸ hcolumns w.table (hwritten ▸ List.mem_map_of_mem hw)
  constraints k hk := by
    obtain ⟨row, hrow, rfl⟩ := List.mem_map.1 hk
    obtain ⟨hrow, htable⟩ := List.mem_filter.1 hrow
    obtain ⟨c, hc, rfl⟩ := exists_newConstraint_of_mem h value hw hrow (beq_iff_eq.1 htable)
    exact inPlace_constraintTree_stored h hsound hresolved hw hc (beq_iff_eq.1 htable)

/-- The tree of a new version is well formed. -/
theorem wellFormed_of_store (h : a.Sound) {value : VersionRow} {v : Version} {a' : Archive}
    (hs : a.store value tables = (.ok v, a')) : v.WellFormed := by
  have hsound := h.store hs
  obtain ⟨-, hnames, hcolumns, -⟩ := (exists_store_eq_ok_iff h).1 ⟨v, a', hs⟩
  obtain ⟨rfl, rfl, hresolved⟩ := store_eq_ok h hs
  have htables := tables_newVersion h.intact value tables
  have hids : (a.newTables tables).map WrittenTable.id = _ := map_id_placed ..
  have hwritten : (a.newTables tables).map WrittenTable.table = tables := map_table_placed ..
  constructor
  case table_names =>
    rw [htables, List.map_map]
    rw [← hwritten, List.map_map] at hnames
    exact hnames
  case table_ids =>
    rw [htables, List.map_map]
    exact hids ▸ List.pairwise_lt_range'
  case tables =>
    rw [htables, List.forall_mem_map]
    exact fun w hw => inPlace_tableTree_stored h.intact hsound hcolumns hresolved hw

/-! ## The trees of a reachable archive -/

/-- A version that is there after an operation was there before, or has been stored by it. -/
theorem live_or_stored_of_perform (h : a.Sound) {time : String} {operation : Operation}
    {v : Version} (hv : (a.perform time operation).2.Live v) :
    a.Live v ∨ ∃ value tables, a.store value tables = (.ok v, (a.perform time operation).2) := by
  obtain ⟨row, hrow, rfl⟩ := hv
  rcases h.perform_cases time operation with ⟨value, tables, v, hs, -⟩ | ⟨id, rfl⟩ | ⟨hsame, -⟩
  · obtain ⟨ha, hv, -⟩ := store_eq_ok h hs
    rw [ha, stored, Relation.rows_insertAll, List.mem_append] at hrow
    rcases hrow with hold | hnew
    · left
      exact ⟨row, hold, by rw [ha, tree_stored h hold]⟩
    · right
      obtain rfl := List.mem_singleton.1 hnew
      rw [hv, newVersion, ← ha] at hs
      exact ⟨value, tables, hs⟩
  · left
    obtain ⟨hmem, hid⟩ := mem_versions_delete_iff.1 hrow
    exact ⟨row, hmem, (tree_delete h hmem hid).symm⟩
  · rw [hsame] at hrow ⊢
    exact .inl ⟨row, hrow, rfl⟩

/-- The trees of all versions are well formed. -/
theorem wellFormed_of_live (operations : List (String × Operation)) {v : Version}
    (hv : (empty.run operations).2.Live v) : v.WellFormed := by
  have hinvariant : ∀ (a : Archive) time operation, (a.Sound ∧ ∀ v, a.Live v → v.WellFormed) →
      (a.perform time operation).2.Sound ∧
        ∀ v, (a.perform time operation).2.Live v → v.WellFormed := by
    rintro a time operation ⟨h, hwf⟩
    refine ⟨h.perform time operation, fun v hv => ?_⟩
    rcases live_or_stored_of_perform h hv with hlive | ⟨value, tables, hs⟩
    · exact hwf v hlive
    · exact wellFormed_of_store h hs
  have hempty : empty.Sound ∧ ∀ v, empty.Live v → v.WellFormed :=
    ⟨sound_empty, fun v ⟨row, hrow, _⟩ => nomatch hrow⟩
  exact (run_induction hinvariant hempty operations).2 v hv

end Archive

end SchemaArchive
