import SchemaArchive.Proofs.Archive.DistinctNumbers

/-!
# Numbers in the order of writing

The nodes of a new version get the numbers that come next, kind by kind, and one after another in
the order of the tree.  So the tree that storing answers holds exactly the numbers that storing
gives out.

* `Version.ids` — the numbers of a tree, for each of the seven kinds of nodes.
* `Relation.Mentions.flatMap_filter_insertAll` — values that are written in blocks are found
  again block by block, and in the order of writing.
* `Archive.ids_newVersion` — the numbers of a new version.
* `Archive.rowIds_stored` — they are those of the rows that storing writes.
-/

namespace SchemaArchive

/-- The kinds of nodes in the trees of versions, the versions themselves among them. -/
inductive NodeKind where
  | version
  | table
  | column
  | constraint
  | member
  | reference
  | target
  deriving DecidableEq, Repr

/-- The numbers of all nodes of a kind, in the order of the tree. -/
def Version.ids (v : Version) : NodeKind → List Nat
  | .version => [v.id]
  | .table => v.tables.map (·.id)
  | .column => v.columns.map (·.id)
  | .constraint => v.constraints.map (·.id)
  | .member => v.members.map (·.id)
  | .reference => v.references.map (·.id)
  | .target => v.targets.map (·.id)

/-- The last number that a node of a kind has got. -/
def Archive.lastId (a : Archive) : NodeKind → Nat
  | .version => a.versions.lastId
  | .table => a.tables.lastId
  | .column => a.columns.lastId
  | .constraint => a.constraints.lastId
  | .member => a.members.lastId
  | .reference => a.references.lastId
  | .target => a.targets.lastId

/-- The numbers of the rows of a kind, in the order of writing. -/
def Archive.rowIds (a : Archive) : NodeKind → List Nat
  | .version => a.versions.rows.map Row.id
  | .table => a.tables.rows.map Row.id
  | .column => a.columns.rows.map Row.id
  | .constraint => a.constraints.rows.map Row.id
  | .member => a.members.rows.map Row.id
  | .reference => a.references.rows.map Row.id
  | .target => a.targets.rows.map Row.id

/-! ## Blocks -/

section Blocks

variable {α β ι : Type}

theorem map_id_numbered (start : Nat) (values : List α) :
    (numbered start values).map Row.id = List.range' start values.length := by
  induction values generalizing start with
  | nil => rfl
  | cons value values ih =>
    rw [numbered_cons, List.map_cons, ih, List.length_cons, List.range'_succ]

theorem Relation.map_id_insertAll (r : Relation α) (values : List α) :
    (r.insertAll values).rows.map Row.id =
      r.rows.map Row.id ++ List.range' (r.lastId + 1) ((r.insertAll values).lastId - r.lastId) := by
  rw [rows_insertAll, List.map_append, map_id_numbered, lastId_insertAll, Nat.add_sub_cancel_left]
  rfl

theorem value_mem_of_mem_numbered {start : Nat} {values : List α} {row : Row α}
    (h : row ∈ numbered start values) : row.value ∈ values := by
  rw [← map_value_numbered start values]
  exact List.mem_map_of_mem h

/-- Rows that are written in blocks, each of which carries a number of its own, are found again
block by block. -/
theorem flatMap_filter_numbered {blocks : List ι} {id : ι → Nat} {block : ι → List β}
    {key : β → Nat} (hkey : ∀ i ∈ blocks, ∀ b ∈ block i, key b = id i)
    (hid : (blocks.map id).Nodup) (start : Nat) :
    (blocks.flatMap fun i =>
        (numbered start (blocks.flatMap block)).filter (key ·.value == id i)) =
      numbered start (blocks.flatMap block) := by
  induction blocks generalizing start with
  | nil => rfl
  | cons i blocks ih =>
    rw [List.map_cons, List.nodup_cons] at hid
    have hrest := fun j hj => hkey j (List.mem_cons_of_mem i hj)
    have hne : ∀ j ∈ blocks, id i ≠ id j := fun j hj heq => hid.1 (heq ▸ List.mem_map_of_mem hj)
    -- The first block has the number of `i` throughout, and no later one has it anywhere.
    have hfirst : ∀ row ∈ numbered start (block i), key row.value = id i := fun row hrow =>
      hkey i List.mem_cons_self _ (value_mem_of_mem_numbered hrow)
    have hlater : ∀ row ∈ numbered (start + (block i).length) (blocks.flatMap block),
        ∃ j ∈ blocks, key row.value = id j := by
      intro row hrow
      obtain ⟨j, hj, hvalue⟩ := List.mem_flatMap.1 (value_mem_of_mem_numbered hrow)
      exact ⟨j, hj, hrest j hj _ hvalue⟩
    rw [List.flatMap_cons, List.flatMap_cons, numbered_append, List.filter_append]
    have hself : (numbered start (block i)).filter (key ·.value == id i) =
        numbered start (block i) := by
      rw [List.filter_eq_self]
      intro row hrow
      exact beq_iff_eq.2 (hfirst row hrow)
    have hnone : (numbered (start + (block i).length) (blocks.flatMap block)).filter
        (key ·.value == id i) = [] := by
      rw [List.filter_eq_nil_iff]
      intro row hrow heq
      obtain ⟨j, hj, hrow'⟩ := hlater row hrow
      exact hne j hj ((beq_iff_eq.1 heq).symm.trans hrow')
    have hothers : (blocks.flatMap fun j => (numbered start (block i) ++
          numbered (start + (block i).length) (blocks.flatMap block)).filter
            (key ·.value == id j)) =
        numbered (start + (block i).length) (blocks.flatMap block) := by
      rw [← ih hrest hid.2]
      refine List.flatMap_congr fun j hj => ?_
      rw [ih hrest hid.2, List.filter_append, List.filter_eq_nil_iff.2, List.nil_append]
      intro row hrow heq
      exact hne j hj ((hfirst row hrow).symm.trans (beq_iff_eq.1 heq))
    rw [hself, hnone, List.append_nil, hothers]

/-- New rows that are written in blocks are found again block by block, in the order in which
they were written. -/
theorem Relation.Mentions.flatMap_filter_insertAll {r : Relation α} {mention : α → Nat}
    {target : Relation β} (h : r.Mentions mention target) (ht : target.Numbered)
    {blocks : List ι} {id : ι → Nat} {n : Nat}
    (hid : blocks.map id = List.range' target.nextId n) {block : ι → List α}
    (hkey : ∀ i ∈ blocks, ∀ v ∈ block i, mention v = id i) :
    (blocks.flatMap fun i =>
        (r.insertAll (blocks.flatMap block)).rows.filter (mention ·.value == id i)) =
      numbered r.nextId (blocks.flatMap block) := by
  rw [← flatMap_filter_numbered hkey (nodup_of_map_id hid)]
  refine List.flatMap_congr fun i hi => ?_
  rw [rows_insertAll, List.filter_append,
    h.filter_rows_eq_nil ht (le_id_of_map_id hid hi), List.nil_append]

end Blocks

/-! ## References -/

/-- The references of constraints, block by block: a constraint has one if it is a foreign key
whose table has been written, and none otherwise. -/
theorem map_value_placedReferences (written : List WrittenTable) (start : Nat)
    (cs : List WrittenConstraint) :
    (placedReferences written start cs).map WrittenReference.value =
      cs.flatMap fun c => (c.constraint.referenced? written).toList.map fun target =>
        ⟨c.id, target.1.id⟩ := by
  induction cs generalizing start with
  | nil => rfl
  | cons c cs ih =>
    rw [placedReferences, List.flatMap_cons]
    cases c.constraint.referenced? written with
    | none => exact ih start
    | some target =>
      rw [List.map_cons, ih]
      rfl

namespace Archive

variable {a : Archive} {tables : List Table}

theorem map_id_newTables (a : Archive) (tables : List Table) :
    (a.newTables tables).map WrittenTable.id =
      List.range' a.tables.nextId (a.newTables tables).length :=
  map_id_placed ..

theorem map_id_newConstraints (a : Archive) (tables : List Table) :
    (a.newConstraints tables).map WrittenConstraint.id =
      List.range' a.constraints.nextId (a.newConstraints tables).length :=
  map_id_placedConstraints ..

theorem map_id_newReferences (a : Archive) (tables : List Table) :
    (a.newReferences tables).map WrittenReference.id =
      List.range' a.references.nextId (a.newReferences tables).length :=
  map_id_placedReferences ..

/-- If a constraint has at most one reference, that is the one which is loaded. -/
theorem map_id_referenceOf (h : a.Intact) {constraint : Nat}
    (hone : (a.references.rows.filter (·.value.constraint == constraint)).length ≤ 1) :
    (a.referenceOf constraint).toList.map (·.id) =
      (a.references.rows.filter (·.value.constraint == constraint)).map Row.id := by
  rw [referenceOf, ← List.head?_filter]
  cases hrows : a.references.rows.filter (·.value.constraint == constraint) with
  | nil => rfl
  | cons row rows =>
    have hmem : row ∈ a.references.rows := by
      have hhead : row ∈ a.references.rows.filter (·.value.constraint == constraint) := by
        rw [hrows]
        exact List.mem_cons_self
      exact (List.mem_filter.1 hhead).1
    obtain ⟨t, ht, hid⟩ := Relation.has_iff.1 (h.references_table row hmem)
    have hfind : a.tables.find? row.value.table = some t := hid ▸ h.tables.find?_of_mem ht
    rw [hrows, List.length_cons] at hone
    obtain rfl : rows = [] := List.eq_nil_of_length_eq_zero (by omega)
    show ((a.tables.find? row.value.table).bind _).toList.map _ = _
    rw [hfind]
    rfl

/-! ## The nodes of a new version -/

/-- The constraints of a new version, table by table. -/
theorem map_value_newConstraints (a : Archive) (tables : List Table) :
    (a.newConstraints tables).map WrittenConstraint.value =
      (a.newTables tables).flatMap fun w =>
        w.table.constraints.map fun c => ⟨w.id, c.name?, c.kind.text⟩ := by
  have hpairs := congrArg
    (List.map fun p : WrittenTable × Constraint =>
      (⟨p.1.id, p.2.name?, p.2.kind.text⟩ : ConstraintRow))
    (map_pair_placedConstraints a.constraints.nextId (owned (a.newTables tables)))
  rw [List.map_map, owned, List.map_flatMap] at hpairs
  refine hpairs.trans (List.flatMap_congr fun w _ => ?_)
  rw [List.map_map]
  rfl

/-- The constraints of a new version are loaded from the rows that were written for it, in the
order in which they were written. -/
theorem constraints_newVersion (h : a.Intact) (value : VersionRow) (tables : List Table) :
    (a.newVersion value tables).constraints = (a.newConstraints tables).map fun c =>
      (a.stored value tables).constraintTree ⟨c.id, c.value⟩ := by
  have hblocks : (a.newTables tables).flatMap (fun w =>
      (a.stored value tables).constraints.rows.filter (·.value.table == w.id)) =
        (a.newConstraints tables).map fun c => ⟨c.id, c.value⟩ := by
    have hrows := numbered_map (a.map_id_newConstraints tables) WrittenConstraint.value
    refine Eq.trans ?_ hrows
    rw [stored]
    show _ = numbered a.constraints.nextId ((a.newConstraints tables).map WrittenConstraint.value)
    rw [map_value_newConstraints]
    refine h.constraints_table.flatMap_filter_insertAll h.tables (a.map_id_newTables tables) ?_
    intro w _ v hv
    obtain ⟨c, -, rfl⟩ := List.mem_map.1 hv
    rfl
  rw [Version.constraints, tables_newVersion h, List.flatMap_map]
  have hload := congrArg (List.map (a.stored value tables).constraintTree) hblocks
  rw [List.map_flatMap, List.map_map] at hload
  exact hload

/-! ## Their numbers -/

theorem ids_columns_newVersion (h : a.Intact) (value : VersionRow) (tables : List Table) :
    (a.newVersion value tables).columns.map (·.id) =
      List.range' a.columns.nextId
        ((a.newTables tables).flatMap fun w => columnValues w.id 1 w.table.columns).length := by
  have hkey : ∀ w ∈ a.newTables tables, ∀ v ∈ columnValues w.id 1 w.table.columns,
      v.table = w.id := by
    intro w _ v hv
    obtain ⟨c, -, rfl⟩ := List.mem_map.1 hv
    rfl
  have hblocks : (a.newTables tables).flatMap (fun w =>
      (a.stored value tables).columns.rows.filter (·.value.table == w.id)) = _ :=
    h.columns_table.flatMap_filter_insertAll h.tables (a.map_id_newTables tables) hkey
  rw [Version.columns, tables_newVersion h, List.flatMap_map, List.map_flatMap,
    ← map_id_numbered, ← hblocks, List.map_flatMap]
  exact List.flatMap_congr fun w _ => ids_columns_tableTree _ _

theorem ids_members_newVersion (h : a.Intact) (value : VersionRow) (tables : List Table) :
    (a.newVersion value tables).members.map (·.id) =
      List.range' a.members.nextId
        ((a.newConstraints tables).flatMap WrittenConstraint.members).length := by
  have hblocks : (a.newConstraints tables).flatMap (fun c =>
      (a.stored value tables).members.rows.filter (·.value.constraint == c.id)) = _ :=
    h.members_constraint.flatMap_filter_insertAll h.constraints (a.map_id_newConstraints tables)
      fun c _ v hv => (of_mem_members hv).1
  rw [Version.members, constraints_newVersion h, List.flatMap_map, List.map_flatMap,
    ← map_id_numbered, ← hblocks, List.map_flatMap]
  exact List.flatMap_congr fun c _ => ids_membersOf (h.stored value tables) c.id

theorem references_newVersion (h : a.Intact) (value : VersionRow) (tables : List Table) :
    (a.newVersion value tables).references = (a.newConstraints tables).flatMap fun c =>
      ((a.stored value tables).referenceOf c.id).toList := by
  rw [Version.references, constraints_newVersion h, List.flatMap_map]
  rfl

theorem ids_references_newVersion (h : a.Intact) (value : VersionRow) (tables : List Table) :
    (a.newVersion value tables).references.map (·.id) =
      (a.newReferences tables).map WrittenReference.id := by
  let block (c : WrittenConstraint) : List ReferenceRow :=
    (c.constraint.referenced? (a.newTables tables)).toList.map fun target => ⟨c.id, target.1.id⟩
  have hkey : ∀ c ∈ a.newConstraints tables, ∀ v ∈ block c, v.constraint = c.id := by
    intro c _ v hv
    obtain ⟨target, -, rfl⟩ := List.mem_map.1 hv
    rfl
  have hvalues : (a.newReferences tables).map WrittenReference.value =
      (a.newConstraints tables).flatMap block := map_value_placedReferences ..
  have hids := a.map_id_newConstraints tables
  have hstored : (a.stored value tables).references =
      a.references.insertAll ((a.newConstraints tables).flatMap block) := by
    rw [← hvalues]
    rfl
  have hblocks := h.references_constraint.flatMap_filter_insertAll h.constraints hids hkey
  rw [← hstored] at hblocks
  have hone : ∀ c ∈ a.newConstraints tables, ((a.stored value tables).references.rows.filter
      (·.value.constraint == c.id)).length ≤ 1 := by
    intro c hc
    have hfilter := h.references_constraint.filter_values_insertAll h.constraints hids hkey hc
    rw [← hstored, ← Relation.map_value_filter] at hfilter
    have hlen := congrArg List.length hfilter
    rw [List.length_map, List.length_map] at hlen
    rw [hlen]
    cases c.constraint.referenced? (a.newTables tables) <;> simp
  calc (a.newVersion value tables).references.map (·.id)
    _ = (a.newConstraints tables).flatMap fun c =>
          ((a.stored value tables).references.rows.filter
            (·.value.constraint == c.id)).map Row.id := by
        rw [references_newVersion h, List.map_flatMap]
        exact List.flatMap_congr fun c hc =>
          map_id_referenceOf (h.stored value tables) (hone c hc)
    _ = (numbered a.references.nextId ((a.newConstraints tables).flatMap block)).map Row.id := by
        rw [← hblocks, List.map_flatMap]
    _ = (a.newReferences tables).map WrittenReference.id := by
        rw [map_id_numbered, ← hvalues, List.length_map]
        exact (a.map_id_newReferences tables).symm

theorem ids_targets_newVersion (h : a.Intact) (value : VersionRow) (tables : List Table) :
    (a.newVersion value tables).targets.map (·.id) =
      List.range' a.targets.nextId
        ((a.newReferences tables).flatMap WrittenReference.targets).length := by
  have hblocks : (a.newReferences tables).flatMap (fun r =>
      (a.stored value tables).targets.rows.filter (·.value.reference == r.id)) = _ :=
    h.targets_reference.flatMap_filter_insertAll h.references (a.map_id_newReferences tables)
      fun r _ v hv => (of_mem_targets hv).1
  have htargets : ∀ r ∈ (a.newVersion value tables).references, r.targets.map (·.id) =
      ((a.stored value tables).targets.rows.filter (·.value.reference == r.id)).map Row.id := by
    intro r hr
    rw [references_newVersion h] at hr
    obtain ⟨c, -, hr⟩ := List.mem_flatMap.1 hr
    obtain ⟨row, -, -, t, -, -, rfl⟩ := referenceOf_eq_some (Option.mem_toList.1 hr)
    exact ids_targetsOf (h.stored value tables) row.id
  rw [Version.targets, List.map_flatMap, List.flatMap_congr htargets, ← map_id_numbered,
    ← hblocks, List.map_flatMap]
  have hids := congrArg (List.flatMap fun id =>
    ((a.stored value tables).targets.rows.filter (·.value.reference == id)).map Row.id)
      (ids_references_newVersion h value tables)
  rw [List.flatMap_map, List.flatMap_map] at hids
  exact hids

/-- Storing gives out the next numbers of every kind, and the nodes of the new version have them,
one after another in the order of the tree. -/
theorem ids_newVersion (h : a.Intact) (value : VersionRow) (tables : List Table)
    (kind : NodeKind) :
    ∃ n, (a.stored value tables).lastId kind = a.lastId kind + n ∧
      (a.newVersion value tables).ids kind = List.range' (a.lastId kind + 1) n := by
  cases kind with
  | version => exact ⟨1, rfl, rfl⟩
  | table =>
    refine ⟨_, Relation.lastId_insertAll .., ?_⟩
    show (a.newVersion value tables).tables.map (·.id) = _
    rw [tables_newVersion h, List.map_map, List.length_map]
    exact a.map_id_newTables tables
  | column => exact ⟨_, Relation.lastId_insertAll .., ids_columns_newVersion h value tables⟩
  | constraint =>
    refine ⟨_, Relation.lastId_insertAll .., ?_⟩
    show (a.newVersion value tables).constraints.map (·.id) = _
    rw [constraints_newVersion h, List.map_map, List.length_map]
    exact a.map_id_newConstraints tables
  | member => exact ⟨_, Relation.lastId_insertAll .., ids_members_newVersion h value tables⟩
  | reference =>
    refine ⟨_, Relation.lastId_insertAll .., (ids_references_newVersion h value tables).trans ?_⟩
    rw [List.length_map]
    exact a.map_id_newReferences tables
  | target => exact ⟨_, Relation.lastId_insertAll .., ids_targets_newVersion h value tables⟩

/-- The rows that storing writes are those of the nodes of the new version, and they are written
in the order of the tree. -/
theorem rowIds_stored (h : a.Intact) (value : VersionRow) (tables : List Table)
    (kind : NodeKind) :
    (a.stored value tables).rowIds kind =
      a.rowIds kind ++ (a.newVersion value tables).ids kind := by
  obtain ⟨n, hlast, hids⟩ := ids_newVersion h value tables kind
  have hrows : (a.stored value tables).rowIds kind = a.rowIds kind ++
      List.range' (a.lastId kind + 1) ((a.stored value tables).lastId kind - a.lastId kind) := by
    cases kind <;> exact Relation.map_id_insertAll _ _
  rw [hrows, hids, hlast, Nat.add_sub_cancel_left]

/-- Deleting gives no number back. -/
theorem lastId_delete (a : Archive) (id : Int) (kind : NodeKind) :
    (a.delete id).2.lastId kind = a.lastId kind := by
  rw [delete]
  split
  · cases kind <;> rfl
  · rfl

end Archive

end SchemaArchive
