import Mathlib.Data.List.Basic
import SchemaArchive.Proofs.Archive.Separation

/-!
# The tree of a version, node by node

Loading goes relation by relation: it takes all rows of a version, sorts them and deals them out to
the rows that they name.  In a sound archive the same tree is found from the top down, each node
with the rows that name it, in the order in which they were written.  This is the tree that is
reasoned about.

* `Archive.tree` — the tree of a version from the top down.
* `Archive.Sound.loadVersion` — it is the tree that is loaded.
* `Archive.list_eq` — the list from the last row to the first.
-/

namespace SchemaArchive

/-- The kind that a text stands for.  A text that is unknown, of which an archive in order has
none, counts as a plain index. -/
def ConstraintKind.known (text : String) : ConstraintKind :=
  match ofText text with
  | .ok kind => kind
  | .error _ => .key

@[simp] theorem ConstraintKind.known_text (k : ConstraintKind) : known k.text = k := by
  rw [known, ofText_text]

namespace Archive

/-! ## From the top down -/

section Columns

variable {ρ σ : Type}

/-- What is made of the rows that carry the key `k`, each with the column that it mentions.  Rows
without such a column are left out. -/
def mapColumns (a : Archive) (r : Relation ρ) (key column : ρ → Nat)
    (make : Row ρ → Row ColumnRow → σ) (k : Nat) : List σ :=
  (r.rows.filter (key ·.value == k)).filterMap fun row => do
    return make row (← a.columns.find? (column row.value))

end Columns

/-- The columns that a constraint constrains. -/
def membersOf (a : Archive) (constraint : Nat) : List StoredMember :=
  a.mapColumns a.members MemberRow.constraint MemberRow.column
    (fun row c => ⟨row.id, constraint, c.id, row.value.order, c.value.column.name⟩) constraint

/-- The columns that a reference refers to. -/
def targetsOf (a : Archive) (reference : Nat) : List StoredTarget :=
  a.mapColumns a.targets TargetRow.reference TargetRow.column
    (fun row c => ⟨row.id, reference, c.id, row.value.order, c.value.column.name⟩) reference

/-- What a constraint refers to, if it is a foreign key. -/
def referenceOf (a : Archive) (constraint : Nat) : Option StoredReference := do
  let row ← a.references.rows.find? (·.value.constraint == constraint)
  let table ← a.tables.find? row.value.table
  return {
    id := row.id
    constraintId := constraint
    tableId := table.id
    tableName := table.value.name
    targets := a.targetsOf row.id }

/-- A constraint with all that it owns. -/
def constraintTree (a : Archive) (row : Row ConstraintRow) : StoredConstraint where
  id := row.id
  tableId := row.value.table
  name := row.value.name
  kind := .known row.value.kind
  members := a.membersOf row.id
  reference := a.referenceOf row.id

/-- A table with all that it owns. -/
def tableTree (a : Archive) (row : Row TableRow) : StoredTable where
  id := row.id
  versionId := row.value.version
  name := row.value.name
  columns := (a.columns.rows.filter (·.value.table == row.id)).map loadColumn
  constraints := (a.constraints.rows.filter (·.value.table == row.id)).map a.constraintTree

/-- A version with all that it owns. -/
def tree (a : Archive) (row : Row VersionRow) : Version where
  id := row.id
  name := row.value.name
  description := row.value.description
  createdAt := row.value.createdAt
  tables := (a.tables.rows.filter (·.value.version == row.id)).map a.tableTree

/-! ## What a version owns -/

variable {a : Archive} {version : Nat}

theorem ownsTable_iff {table : Nat} : a.ownsTable version table = true ↔
    ∃ row ∈ a.tables.rows, row.id = table ∧ row.value.version = version := by
  simp [ownsTable]

theorem ownsConstraint_iff {constraint : Nat} : a.ownsConstraint version constraint = true ↔
    ∃ row ∈ a.constraints.rows, row.id = constraint ∧
      a.ownsTable version row.value.table = true := by
  simp [ownsConstraint]

theorem ownsReference_iff {reference : Nat} : a.ownsReference version reference = true ↔
    ∃ row ∈ a.references.rows, row.id = reference ∧
      a.ownsConstraint version row.value.constraint = true := by
  simp [ownsReference]

/-! ## Queries in order -/

theorem selectTables_eq (h : a.Intact) (version : Nat) :
    a.selectTables version =
      (a.tables.rows.filter (·.value.version == version)).map loadTable := by
  refine orderBy_eq_self (List.pairwise_map.2 ((h.tables.increasing.filter _).imp fun hlt => ?_))
  exact decide_eq_true (Nat.le_of_lt hlt)

theorem selectColumns_eq (h : a.Ordered) (version : Nat) :
    a.selectColumns version =
      (a.columns.rows.filter fun row => a.ownsTable version row.value.table).map loadColumn :=
  orderBy_eq_self (List.pairwise_map.2
    (((List.pairwise_map.1 h.columns).filter _).imp Before.placeLe))

theorem of_loadMember? {row : Row MemberRow} {m : StoredMember} (h : a.loadMember? row = some m) :
    m.constraintId = row.value.constraint ∧ m.order = row.value.order := by
  obtain ⟨c, -, h⟩ := Option.bind_eq_some_iff.1 h
  cases h
  exact ⟨rfl, rfl⟩

theorem of_loadTarget? {row : Row TargetRow} {t : StoredTarget} (h : a.loadTarget? row = some t) :
    t.referenceId = row.value.reference ∧ t.order = row.value.order := by
  obtain ⟨c, -, h⟩ := Option.bind_eq_some_iff.1 h
  cases h
  exact ⟨rfl, rfl⟩

/-- What is made of rows in order is in order, if it keeps their owners and places. -/
theorem orderBy_filterMap_eq_self {α β : Type} {owner place : α → Nat} {owner' place' : β → Nat}
    {load : α → Option β} {rows : List α} (h : rows.Pairwise (Before owner place))
    (hload : ∀ row x, load row = some x → owner' x = owner row ∧ place' x = place row) :
    orderBy (placeLe owner' place') (rows.filterMap load) = rows.filterMap load := by
  refine orderBy_eq_self (h.filterMap _ fun row row' hbefore x hx x' hx' => Before.placeLe ?_)
  obtain ⟨howner, hplace⟩ := hload row x hx
  obtain ⟨howner', hplace'⟩ := hload row' x' hx'
  rwa [Before, howner, hplace, howner', hplace']

theorem selectMembers_eq (h : a.Ordered) (version : Nat) :
    a.selectMembers version = (a.members.rows.filter fun row =>
      a.ownsConstraint version row.value.constraint).filterMap a.loadMember? :=
  orderBy_filterMap_eq_self ((List.pairwise_map.1 h.members).filter _) fun _ _ => of_loadMember?

theorem selectTargets_eq (h : a.Ordered) (version : Nat) :
    a.selectTargets version = (a.targets.rows.filter fun row =>
      a.ownsReference version row.value.reference).filterMap a.loadTarget? :=
  orderBy_filterMap_eq_self ((List.pairwise_map.1 h.targets).filter _) fun _ _ => of_loadTarget?

/-- A constraint whose kind is known, without what it owns. -/
def knownConstraint (row : Row ConstraintRow) : StoredConstraint where
  id := row.id
  tableId := row.value.table
  name := row.value.name
  kind := .known row.value.kind
  members := []
  reference := none

theorem loadConstraint_eq_ok (h : a.Ordered) {row : Row ConstraintRow}
    (hrow : row ∈ a.constraints.rows) : loadConstraint row = .ok (knownConstraint row) := by
  obtain ⟨kind, hkind⟩ := h.kinds row.value (List.mem_map_of_mem hrow)
  rw [loadConstraint, knownConstraint, hkind, ConstraintKind.ofText_text,
    ConstraintKind.known_text]

/-- Steps that all have an outcome have all outcomes. -/
theorem mapM_eq_ok {α β ε : Type} {f : α → Except ε β} {g : α → β} {rows : List α}
    (h : ∀ row ∈ rows, f row = .ok (g row)) : rows.mapM f = .ok (rows.map g) := by
  induction rows with
  | nil => rfl
  | cons row rows ih =>
    rw [List.mapM_cons, h row (List.mem_cons_self ..),
      ih fun other hother => h other (List.mem_cons_of_mem row hother)]
    rfl

theorem selectConstraints_eq (h : a.Sound) (version : Nat) :
    a.selectConstraints version = .ok ((a.constraints.rows.filter fun row =>
      a.ownsTable version row.value.table).map knownConstraint) := by
  have hsorted : orderBy (fun k l => k.id ≤ l.id)
      (a.constraints.rows.filter fun row => a.ownsTable version row.value.table) = _ :=
    orderBy_eq_self ((h.intact.constraints.increasing.filter _).imp
      fun hlt => decide_eq_true (Nat.le_of_lt hlt))
  rw [selectConstraints, hsorted]
  exact mapM_eq_ok fun row hrow => loadConstraint_eq_ok h.ordered (List.mem_filter.1 hrow).1

/-! ## Dealing rows out -/

/-- Of what a query gives, that which carries a key is made of the rows that carry it. -/
theorem filter_filterMap_key {α β : Type} (rows : List α) (key : α → Nat) (key' : β → Nat)
    {test : α → Bool} {load : α → Option β} {k : Nat}
    (hkey : ∀ row x, load row = some x → key' x = key row)
    (htest : ∀ row, key row = k → test row = true) :
    ((rows.filter test).filterMap load).filter (key' · == k) =
      (rows.filter (key · == k)).filterMap load := by
  rw [List.filter_filterMap, List.filterMap_filter, List.filterMap_filter]
  congr 1
  funext row
  cases hload : load row with
  | none => simp
  | some x =>
    rw [Option.filter_some, hkey row x hload]
    by_cases hrow : key row = k
    · simp [hrow, htest row hrow]
    · simp [hrow]

theorem filter_map_key {α β : Type} (rows : List α) (key : α → Nat) (key' : β → Nat)
    {test : α → Bool} {load : α → β} {k : Nat} (hkey : ∀ row, key' (load row) = key row)
    (htest : ∀ row, key row = k → test row = true) :
    ((rows.filter test).map load).filter (key' · == k) = (rows.filter (key · == k)).map load := by
  rw [List.filter_map, List.filter_filter]
  refine congrArg _ (List.filter_congr fun row _ => ?_)
  by_cases hrow : key row = k
  · simp [hkey, hrow, htest row hrow]
  · simp [hkey, hrow]

/-- Rows that carry a key are loaded with the columns that they mention. -/
theorem filterMap_eq_mapColumns {ρ σ : Type} (r : Relation ρ) (key column : ρ → Nat)
    {load : Row ρ → Option σ} {make : Row ρ → Row ColumnRow → σ} {k : Nat}
    (hload : ∀ row, key row.value = k → load row = (a.columns.find? (column row.value)).map
      fun c => make row { c with id := column row.value }) :
    (r.rows.filter (key ·.value == k)).filterMap load = a.mapColumns r key column make k := by
  refine List.filterMap_congr fun row hrow => ?_
  rw [hload row (beq_iff_eq.1 (List.mem_filter.1 hrow).2)]
  cases hfind : a.columns.find? (column row.value) with
  | none => rfl
  | some c =>
    have hid : c.id = column row.value := by simpa using List.find?_some hfind
    rw [← hid]
    rfl

theorem filter_selectMembers (h : a.Ordered) {constraint : Nat}
    (howned : a.ownsConstraint version constraint = true) :
    (a.selectMembers version).filter (·.constraintId == constraint) = a.membersOf constraint := by
  rw [selectMembers_eq h, filter_filterMap_key a.members.rows (·.value.constraint)]
  · refine filterMap_eq_mapColumns a.members MemberRow.constraint MemberRow.column
      fun row hkey => ?_
    rw [loadMember?, ← hkey]
    cases a.columns.find? row.value.column <;> rfl
  · exact fun row m hm => (of_loadMember? hm).1
  · exact fun row hkey => hkey ▸ howned

theorem filter_selectTargets (h : a.Ordered) {reference : Nat}
    (howned : a.ownsReference version reference = true) :
    (a.selectTargets version).filter (·.referenceId == reference) = a.targetsOf reference := by
  rw [selectTargets_eq h, filter_filterMap_key a.targets.rows (·.value.reference)]
  · refine filterMap_eq_mapColumns a.targets TargetRow.reference TargetRow.column fun row hkey => ?_
    rw [loadTarget?, ← hkey]
    cases a.columns.find? row.value.column <;> rfl
  · exact fun row t ht => (of_loadTarget? ht).1
  · exact fun row hkey => hkey ▸ howned

/-- The last reference of a constraint is its only one. -/
theorem getLast?_selectReferences (h : a.Ordered) {constraint : Nat}
    (howned : a.ownsConstraint version constraint = true) :
    (((a.selectReferences version).map (StoredReference.take (a.selectTargets version))).filter
      (·.constraintId == constraint)).getLast? = a.referenceOf constraint := by
  have hkeys : (a.references.rows.map (·.value.constraint)).Nodup :=
    List.pairwise_map.2 ((List.pairwise_map.1 h.references).imp Nat.ne_of_lt)
  have hgiven : ((a.selectReferences version).map
      (StoredReference.take (a.selectTargets version))).filter (·.constraintId == constraint) =
        ((a.references.rows.filter (·.value.constraint == constraint)).filterMap
          a.loadReference?).map (StoredReference.take (a.selectTargets version)) := by
    rw [List.filter_map, selectReferences]
    refine congrArg _ (filter_filterMap_key a.references.rows (·.value.constraint)
      StoredReference.constraintId ?_ fun row hkey => hkey ▸ howned)
    intro row r hr
    obtain ⟨t, -, hr⟩ := Option.bind_eq_some_iff.1 hr
    cases hr
    rfl
  rw [hgiven, referenceOf]
  cases hfind : a.references.rows.find? (·.value.constraint == constraint) with
  | none =>
    rw [← List.head?_filter, List.head?_eq_none_iff] at hfind
    rw [hfind]
    rfl
  | some row =>
    have hrow := List.mem_of_find?_eq_some hfind
    have hkey : row.value.constraint = constraint := by simpa using List.find?_some hfind
    subst hkey
    have hreference := ownsReference_iff.2 ⟨row, hrow, rfl, howned⟩
    have honly : a.references.rows.filter (·.value.constraint == row.value.constraint) = [row] :=
      filter_of_nodup_map hkeys hrow
    rw [honly]
    show (((loadReference? a row).toList).map _).getLast? = _
    cases ht : a.tables.find? row.value.table with
    | none => simp [loadReference?, ht]
    | some t =>
      have hid : t.id = row.value.table := by simpa using List.find?_some ht
      simp [loadReference?, ht, StoredReference.take, filter_selectTargets h hreference, hid]

/-- A constraint takes what it owns. -/
theorem take_knownConstraint (h : a.Ordered) {row : Row ConstraintRow}
    (howned : a.ownsConstraint version row.id = true) :
    (knownConstraint row).take (a.selectMembers version)
        ((a.selectReferences version).map (.take (a.selectTargets version))) =
      a.constraintTree row := by
  rw [StoredConstraint.take]
  show StoredConstraint.mk _ _ _ _ (List.filter (·.constraintId == row.id) _)
    (List.filter (·.constraintId == row.id) _).getLast? = _
  rw [filter_selectMembers h howned, getLast?_selectReferences h howned]
  rfl

/-- In a sound archive, the tree from the top down is the one that is loaded.  In particular every
version can be loaded. -/
theorem Sound.loadVersion (h : a.Sound) (row : Row VersionRow) :
    a.loadVersion row = .ok (a.tree row) := by
  rw [Archive.loadVersion, selectConstraints_eq h]
  refine congrArg (fun tables => Except.ok (Version.mk _ _ _ _ tables)) ?_
  rw [selectTables_eq h.intact, List.map_map]
  refine List.map_congr_left fun t ht => ?_
  obtain ⟨hmem, hversion⟩ := List.mem_filter.1 ht
  have howned : ∀ table, table = t.id → a.ownsTable row.id table = true := fun _ hid =>
    ownsTable_iff.2 ⟨t, hmem, hid.symm, beq_iff_eq.1 hversion⟩
  have hcolumns : (a.selectColumns row.id).filter (·.tableId == t.id) =
      (a.columns.rows.filter (·.value.table == t.id)).map loadColumn := by
    rw [selectColumns_eq h.ordered]
    exact filter_map_key a.columns.rows (·.value.table) StoredColumn.tableId (fun _ => rfl)
      fun _ => howned _
  have hconstraints : (((a.constraints.rows.filter fun k =>
      a.ownsTable row.id k.value.table).map knownConstraint).map (.take (a.selectMembers row.id)
        ((a.selectReferences row.id).map (.take (a.selectTargets row.id))))).filter
          (·.tableId == t.id) =
      (a.constraints.rows.filter (·.value.table == t.id)).map a.constraintTree := by
    rw [List.map_map, filter_map_key a.constraints.rows (·.value.table) StoredConstraint.tableId
      (fun _ => rfl) fun _ => howned _]
    refine List.map_congr_left fun k hk => take_knownConstraint h.ordered ?_
    obtain ⟨hmem, htable⟩ := List.mem_filter.1 hk
    exact ownsConstraint_iff.2 ⟨k, hmem, rfl, howned _ (beq_iff_eq.1 htable)⟩
  show StoredTable.mk _ _ _ (List.filter _ _) (List.filter _ _) = _
  exact congr (congrArg (StoredTable.mk _ _ _) hcolumns) hconstraints

/-! ## The list -/

/-- The newest versions are those that were written last. -/
theorem list_eq (h : a.Intact) : a.list = a.versions.rows.reverse.map summary := by
  have hrows : (a.versions.rows.reverse.map summary).Pairwise
      fun s t => decide (t.id ≤ s.id) = true := by
    rw [List.pairwise_map, List.pairwise_reverse]
    exact h.versions.increasing.imp fun hlt => decide_eq_true (Nat.le_of_lt hlt)
  have hsorted : a.list.Pairwise fun s t => decide (t.id ≤ s.id) = true := by
    refine pairwise_orderBy (fun s t => ?_) (fun s t u => ?_) _
    · simp only [decide_eq_true_eq]
      omega
    · simp only [decide_eq_true_eq]
      omega
  have hperm : a.list.Perm (a.versions.rows.reverse.map summary) :=
    (perm_orderBy _).trans ((List.reverse_perm _).map summary).symm
  refine hperm.eq_of_pairwise (fun s t hs ht hst hts => ?_) hsorted hrows
  -- Both are the summary of the row that has their number.
  obtain ⟨row, hrow, rfl⟩ := List.mem_map.1 (hperm.mem_iff.1 hs)
  obtain ⟨row', hrow', rfl⟩ := List.mem_map.1 ht
  have hid : row.id = row'.id :=
    Nat.le_antisymm (of_decide_eq_true hts) (of_decide_eq_true hst)
  rw [h.versions.eq_of_id_eq (List.mem_reverse.1 hrow) (List.mem_reverse.1 hrow') hid]

end Archive

end SchemaArchive
