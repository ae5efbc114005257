import SchemaArchive.Proofs.Archive.WellFormed

/-!
# One number, one node

Rows of one relation have different numbers, and every row stands in one place of one tree: below
the node that it mentions.  So in all trees of an archive together no two nodes of a kind have the
same number.

* `nodup_map_flatMap` — one step down the trees, from nodes to the nodes in them.
* `Archive.distinctNumbers` — all seven kinds of nodes, over all versions.
* `Archive.run_wellFormed` — what holds of every tree that a run answers.
-/

namespace SchemaArchive

/-! ## The nodes of a tree -/

namespace Version

/-- The columns of all tables. -/
def columns (v : Version) : List StoredColumn :=
  v.tables.flatMap (·.columns)

/-- The constraints of all tables. -/
def constraints (v : Version) : List StoredConstraint :=
  v.tables.flatMap (·.constraints)

/-- The columns that constraints constrain, for all constraints. -/
def members (v : Version) : List StoredMember :=
  v.constraints.flatMap (·.members)

/-- The references of all foreign keys. -/
def references (v : Version) : List StoredReference :=
  v.constraints.flatMap (·.reference.toList)

/-- The columns that foreign keys refer to, for all foreign keys. -/
def targets (v : Version) : List StoredTarget :=
  v.references.flatMap (·.targets)

end Version

section Nodes

variable (vs : List Version)

theorem flatMap_columns :
    vs.flatMap (·.columns) = (vs.flatMap (·.tables)).flatMap (·.columns) :=
  List.flatMap_assoc.symm

theorem flatMap_constraints :
    vs.flatMap (·.constraints) = (vs.flatMap (·.tables)).flatMap (·.constraints) :=
  List.flatMap_assoc.symm

theorem flatMap_members :
    vs.flatMap (·.members) = (vs.flatMap (·.constraints)).flatMap (·.members) :=
  List.flatMap_assoc.symm

theorem flatMap_references :
    vs.flatMap (·.references) = (vs.flatMap (·.constraints)).flatMap (·.reference.toList) :=
  List.flatMap_assoc.symm

theorem flatMap_targets :
    vs.flatMap (·.targets) = (vs.flatMap (·.references)).flatMap (·.targets) :=
  List.flatMap_assoc.symm

end Nodes

/-- No two nodes of a kind have the same number, in all these trees together. -/
structure DistinctNumbers (vs : List Version) : Prop where
  versions : (vs.map (·.id)).Nodup
  tables : ((vs.flatMap (·.tables)).map (·.id)).Nodup
  columns : ((vs.flatMap (·.columns)).map (·.id)).Nodup
  constraints : ((vs.flatMap (·.constraints)).map (·.id)).Nodup
  members : ((vs.flatMap (·.members)).map (·.id)).Nodup
  references : ((vs.flatMap (·.references)).map (·.id)).Nodup
  targets : ((vs.flatMap (·.targets)).map (·.id)).Nodup

/-! ## From nodes to the nodes in them -/

/-- Nodes whose numbers are those of rows that mention the node above are told apart by them, if
the nodes above are told apart by theirs. -/
theorem nodup_map_flatMap {α ι κ : Type} {r : Relation α} (hr : r.Numbered) (mention : α → Nat)
    {parents : List ι} {id : ι → Nat} {children : ι → List κ} {number : κ → Nat}
    (hparents : (parents.map id).Nodup)
    (hchildren : ∀ p ∈ parents, ((children p).map number).Sublist
      ((r.rows.filter (mention ·.value == id p)).map Row.id)) :
    ((parents.flatMap children).map number).Nodup := by
  rw [List.map_flatMap, List.nodup_flatMap]
  constructor
  · intro p hp
    exact (hr.nodup_ids.sublist (List.filter_sublist.map Row.id)).sublist (hchildren p hp)
  · refine (List.pairwise_map.1 hparents).imp_of_mem ?_
    intro p q hp hq hne n hn hn'
    obtain ⟨row, hrow, hid⟩ := List.mem_map.1 ((hchildren p hp).mem hn)
    obtain ⟨row', hrow', hid'⟩ := List.mem_map.1 ((hchildren q hq).mem hn')
    obtain ⟨hmem, hmention⟩ := List.mem_filter.1 hrow
    obtain ⟨hmem', hmention'⟩ := List.mem_filter.1 hrow'
    -- One number is that of one row, which mentions one node above.
    obtain rfl := hr.eq_of_id_eq hmem hmem' (hid.trans hid'.symm)
    exact hne ((beq_iff_eq.1 hmention).symm.trans (beq_iff_eq.1 hmention'))

namespace Archive

variable {a : Archive}

/-! ## Numbers in the trees of an archive -/

theorem ids_tables_tree (a : Archive) (row : Row VersionRow) :
    (a.tree row).tables.map (·.id) =
      (a.tables.rows.filter (·.value.version == row.id)).map Row.id := by
  rw [tree, List.map_map]
  rfl

theorem ids_columns_tableTree (a : Archive) (row : Row TableRow) :
    (a.tableTree row).columns.map (·.id) =
      (a.columns.rows.filter (·.value.table == row.id)).map Row.id := by
  rw [tableTree, List.map_map]
  rfl

theorem ids_constraints_tableTree (a : Archive) (row : Row TableRow) :
    (a.tableTree row).constraints.map (·.id) =
      (a.constraints.rows.filter (·.value.table == row.id)).map Row.id := by
  rw [tableTree, List.map_map]
  rfl

theorem ids_membersOf (h : a.Intact) (constraint : Nat) :
    (a.membersOf constraint).map (·.id) =
      (a.members.rows.filter (·.value.constraint == constraint)).map Row.id := by
  rw [membersOf]
  exact map_mapColumns h.members_column fun _ _ => rfl

theorem ids_targetsOf (h : a.Intact) (reference : Nat) :
    (a.targetsOf reference).map (·.id) =
      (a.targets.rows.filter (·.value.reference == reference)).map Row.id := by
  rw [targetsOf]
  exact map_mapColumns h.targets_column fun _ _ => rfl

theorem ids_referenceOf (a : Archive) (constraint : Nat) :
    ((a.referenceOf constraint).toList.map (·.id)).Sublist
      ((a.references.rows.filter (·.value.constraint == constraint)).map Row.id) := by
  cases hr : a.referenceOf constraint with
  | none => exact List.nil_sublist _
  | some r =>
    obtain ⟨row, hrow, hkey, t, -, -, rfl⟩ := referenceOf_eq_some hr
    exact List.singleton_sublist.2
      (List.mem_map_of_mem (List.mem_filter.2 ⟨hrow, beq_iff_eq.2 hkey⟩))

/-- The versions that are there, in the order of the list that the archive gives of them. -/
def liveVersions (a : Archive) : List Version :=
  a.list.filterMap fun summary => (a.get? summary.id).toOption.join

theorem liveVersions_eq (h : a.Sound) :
    a.liveVersions = a.versions.rows.reverse.map a.tree := by
  have hget : ∀ row ∈ a.versions.rows.reverse,
      (a.get? (summary row).id).toOption.join = some (a.tree row) := by
    intro row hrow
    have hlive : a.Live (a.tree row) := ⟨row, List.mem_reverse.1 hrow, rfl⟩
    exact congrArg (·.toOption.join) (hlive.get? h)
  rw [liveVersions, list_eq h.intact, List.filterMap_map]
  exact (List.filterMap_congr hget).trans (congrFun List.filterMap_eq_map' _)

theorem mem_liveVersions_iff (h : a.Sound) {v : Version} : v ∈ a.liveVersions ↔ a.Live v := by
  rw [liveVersions_eq h, List.mem_map]
  simp only [List.mem_reverse]
  rfl

/-- Every table is loaded from a row. -/
theorem exists_row_of_mem_tables (h : a.Sound) {t : StoredTable}
    (ht : t ∈ a.liveVersions.flatMap (·.tables)) : ∃ row, t = a.tableTree row := by
  rw [liveVersions_eq h] at ht
  obtain ⟨v, hv, ht⟩ := List.mem_flatMap.1 ht
  obtain ⟨row, -, rfl⟩ := List.mem_map.1 hv
  obtain ⟨row', -, rfl⟩ := List.mem_map.1 ht
  exact ⟨row', rfl⟩

/-- Every constraint is loaded from a row. -/
theorem exists_row_of_mem_constraints (h : a.Sound) {k : StoredConstraint}
    (hk : k ∈ a.liveVersions.flatMap (·.constraints)) : ∃ row, k = a.constraintTree row := by
  rw [flatMap_constraints] at hk
  obtain ⟨t, ht, hk⟩ := List.mem_flatMap.1 hk
  obtain ⟨row, rfl⟩ := exists_row_of_mem_tables h ht
  obtain ⟨row', -, rfl⟩ := List.mem_map.1 hk
  exact ⟨row', rfl⟩

/-- The targets of every reference are loaded by its number. -/
theorem targets_eq_of_mem_references (h : a.Sound) {r : StoredReference}
    (hr : r ∈ a.liveVersions.flatMap (·.references)) : r.targets = a.targetsOf r.id := by
  rw [flatMap_references] at hr
  obtain ⟨k, hk, hr⟩ := List.mem_flatMap.1 hr
  obtain ⟨row, rfl⟩ := exists_row_of_mem_constraints h hk
  obtain ⟨row', -, -, t, -, -, rfl⟩ := referenceOf_eq_some (Option.mem_toList.1 hr)
  rfl

theorem nodup_ids_versions (h : a.Sound) : (a.liveVersions.map (·.id)).Nodup := by
  rw [liveVersions_eq h, List.map_map, List.map_reverse, List.nodup_reverse]
  exact h.intact.versions.nodup_ids

theorem nodup_ids_tables (h : a.Sound) :
    ((a.liveVersions.flatMap (·.tables)).map (·.id)).Nodup := by
  refine nodup_map_flatMap h.intact.tables TableRow.version (nodup_ids_versions h) fun v hv => ?_
  rw [liveVersions_eq h] at hv
  obtain ⟨row, -, rfl⟩ := List.mem_map.1 hv
  rw [ids_tables_tree a row]
  exact .refl _

theorem nodup_ids_constraints (h : a.Sound) :
    ((a.liveVersions.flatMap (·.constraints)).map (·.id)).Nodup := by
  rw [flatMap_constraints]
  refine nodup_map_flatMap h.intact.constraints ConstraintRow.table (nodup_ids_tables h)
    fun t ht => ?_
  obtain ⟨row, rfl⟩ := exists_row_of_mem_tables h ht
  rw [ids_constraints_tableTree a row]
  exact .refl _

theorem nodup_ids_references (h : a.Sound) :
    ((a.liveVersions.flatMap (·.references)).map (·.id)).Nodup := by
  rw [flatMap_references]
  refine nodup_map_flatMap h.intact.references ReferenceRow.constraint (nodup_ids_constraints h)
    fun k hk => ?_
  obtain ⟨row, rfl⟩ := exists_row_of_mem_constraints h hk
  exact ids_referenceOf a row.id

/-- No two nodes of a kind have the same number, over all versions of an archive. -/
theorem distinctNumbers (h : a.Sound) : DistinctNumbers a.liveVersions where
  versions := nodup_ids_versions h
  tables := nodup_ids_tables h
  columns := by
    rw [flatMap_columns]
    refine nodup_map_flatMap h.intact.columns ColumnRow.table (nodup_ids_tables h) fun t ht => ?_
    obtain ⟨row, rfl⟩ := exists_row_of_mem_tables h ht
    rw [ids_columns_tableTree a row]
    exact .refl _
  constraints := nodup_ids_constraints h
  members := by
    rw [flatMap_members]
    refine nodup_map_flatMap h.intact.members MemberRow.constraint (nodup_ids_constraints h)
      fun k hk => ?_
    obtain ⟨row, rfl⟩ := exists_row_of_mem_constraints h hk
    show ((a.membersOf row.id).map (·.id)).Sublist _
    rw [ids_membersOf h.intact]
    exact .refl _
  references := nodup_ids_references h
  targets := by
    rw [flatMap_targets]
    refine nodup_map_flatMap h.intact.targets TargetRow.reference (nodup_ids_references h)
      fun r hr => ?_
    rw [targets_eq_of_mem_references h hr, ids_targetsOf h.intact r.id]

/-! ## Trees that are answered -/

/-- A tree that is found is that of a version which is there. -/
theorem live_of_found (h : a.Sound) {time : String} {operation : Operation} {v : Version}
    (hv : (a.perform time operation).1 = .found (some v)) : a.Live v := by
  have hfound : ∀ row?, (∀ row, row? = some row → row ∈ a.versions.rows) →
      Answer.of .found (a.loadVersion? row?) = .found (some v) → a.Live v := by
    intro row? hmem hv
    rw [h.loadVersion?] at hv
    obtain ⟨row, hrow, hload⟩ := Option.map_eq_some_iff.1 (Answer.found.inj hv)
    exact ⟨row, hmem row hrow, hload⟩
  cases operation with
  | importScript script name description => exact absurd hv (Answer.of_ne _ (by simp) (by simp))
  | store tables name description => exact absurd hv (Answer.of_ne _ (by simp) (by simp))
  | get id => exact hfound _ (fun _ => List.mem_of_find?_eq_some) hv
  | getByName name => exact hfound _ (fun _ => List.mem_of_find?_eq_some) hv
  | list => cases hv
  | delete id => cases hv
  | script id => exact absurd hv (Answer.of_ne _ (by simp) (by simp))
  | tables id => exact absurd hv (Answer.of_ne _ (by simp) (by simp))

/-- Whatever an archive is asked, every tree that it answers is well formed, and over all the
versions that are there in the end no two nodes of a kind have the same number. -/
theorem run_wellFormed (operations : List (String × Operation)) :
    (∀ v, .stored v ∈ (empty.run operations).1 ∨ .found (some v) ∈ (empty.run operations).1 →
        v.WellFormed) ∧
      DistinctNumbers (empty.run operations).2.liveVersions := by
  refine ⟨fun v hv => ?_, distinctNumbers (sound_run operations)⟩
  rw [← map_snd_transcript] at hv
  rcases hv with hstored | hfound
  · obtain ⟨step, hstep, hanswer⟩ := List.mem_map.1 hstored
    obtain ⟨before, hperform⟩ := exists_of_mem_transcript hstep
    have hlive := live_of_perform (sound_run before) (hperform.symm.trans hanswer)
    -- The version is there after one more operation.
    have hrun : (empty.run (before ++ [step.1])).2 =
        ((empty.run before).2.perform step.1.1 step.1.2).2 := by
      rw [run_append]
      rfl
    exact wellFormed_of_live (before ++ [step.1]) (hrun ▸ hlive)
  · obtain ⟨step, hstep, hanswer⟩ := List.mem_map.1 hfound
    obtain ⟨before, hperform⟩ := exists_of_mem_transcript hstep
    exact wellFormed_of_live before (live_of_found (sound_run before) (hperform.symm.trans hanswer))

/-- Two versions side by side, after a third was deleted.  The foreign key of the later one
refers to a table behind its own, and both leave out a column that is not there. -/
theorem run_wellFormed_laterTable :
    let x : Column := ⟨"x", "INT", false, true, none, false⟩
    let y : Column := ⟨"y", "INT", true, false, some "1", false⟩
    let tables : List Table :=
      [⟨"a", [x, y], [.foreignKey "f" ["z", "y", "x"] ⟨"b", ["y", "z", "y"]⟩]⟩,
        ⟨"b", [y], [.unique none ["y"]]⟩]
    let operations : List (String × Operation) :=
      [("1", .store tables "u" none), ("2", .store tables "v" none),
        ("3", .store tables "v" none), ("4", .delete 1), ("5", .store tables "w" (some "")),
        ("6", .getByName "w")]
    ∃ v, (empty.run operations).1[5]? = some (.found (some v)) ∧ v.WellFormed ∧
      v.members.map (·.order) = [1, 2, 1] ∧ v.targets.map (·.order) = [1, 2] ∧
      (empty.run operations).2.liveVersions.map (·.id) = [3, 2] ∧
      DistinctNumbers (empty.run operations).2.liveVersions := by
  intro x y tables operations
  let v : Version := ((empty.run operations).2.getByName? "w").toOption.join.get (by decide +kernel)
  have hv : (empty.run operations).1[5]? = some (.found (some v)) := by decide +kernel
  obtain ⟨hwf, hdistinct⟩ := run_wellFormed operations
  refine ⟨v, hv, hwf v (.inr (List.mem_of_getElem? hv)), ?_, ?_, ?_, hdistinct⟩
  · decide +kernel
  · decide +kernel
  · decide +kernel

end Archive

end SchemaArchive
