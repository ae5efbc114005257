import SchemaArchive.Proofs.Archive.Order

/-!
# Versions are kept apart

The numbers in the rows of one version lead to rows of the same version: a constraint constrains
columns of its own table, a foreign key refers to a table of its own version, and to columns of
that table.  So nothing that happens to one version can reach another.

* `Archive.Separate` — the invariant, next to that of the numbers.
* `Archive.Sound` — all that holds of a reachable archive, with `Sound.stored` and `Sound.delete`.
-/

namespace SchemaArchive

/-- Rows mention rows of their own version only. -/
structure Archive.Separate (a : Archive) : Prop where
  /-- A constraint constrains columns of its table. -/
  members : ∀ m ∈ a.members.rows, ∀ k ∈ a.constraints.rows, ∀ c ∈ a.columns.rows,
    k.id = m.value.constraint → c.id = m.value.column → c.value.table = k.value.table
  /-- A foreign key refers to a table of the version that its own table belongs to. -/
  references : ∀ r ∈ a.references.rows, ∀ k ∈ a.constraints.rows, ∀ t ∈ a.tables.rows,
    ∀ t' ∈ a.tables.rows, k.id = r.value.constraint → t.id = k.value.table →
      t'.id = r.value.table → t'.value.version = t.value.version
  /-- A foreign key refers to columns of the table that it refers to. -/
  targets : ∀ m ∈ a.targets.rows, ∀ r ∈ a.references.rows, ∀ c ∈ a.columns.rows,
    r.id = m.value.reference → c.id = m.value.column → c.value.table = r.value.table

namespace Archive

theorem separate_empty : empty.Separate where
  members := nofun
  references := nofun
  targets := nofun

/-- Removing rows leaves the others apart. -/
theorem Separate.withoutOrphans {a : Archive} (h : a.Separate) (versions : Relation VersionRow) :
    ({ a with versions }).withoutOrphans.Separate where
  members m hm k hk c hc :=
    h.members m (Relation.mem_keep_iff.1 hm).1 k (Relation.mem_keep_iff.1 hk).1
      c (Relation.mem_keep_iff.1 hc).1
  references r hr k hk t ht t' ht' :=
    h.references r (Relation.mem_keep_iff.1 hr).1 k (Relation.mem_keep_iff.1 hk).1
      t (Relation.mem_keep_iff.1 ht).1 t' (Relation.mem_keep_iff.1 ht').1
  targets m hm r hr c hc :=
    h.targets m (Relation.mem_keep_iff.1 hm).1 r (Relation.mem_keep_iff.1 hr).1
      c (Relation.mem_keep_iff.1 hc).1

theorem Separate.delete {a : Archive} (h : a.Separate) (id : Int) : (a.delete id).2.Separate := by
  rw [Archive.delete]
  split
  · exact h.withoutOrphans _
  · exact h

variable {a : Archive} {tables : List Table}

/-! ## New rows have no numbers in common with old ones -/

theorem value_eq_of_constraint_stored (h : a.Intact) (value : VersionRow) {c : WrittenConstraint}
    (hc : c ∈ a.newConstraints tables) {row : Row ConstraintRow}
    (hrow : row ∈ (a.stored value tables).constraints.rows) (hid : row.id = c.id) :
    row.value = c.value :=
  congrArg Row.value <| (h.stored value tables).constraints.eq_of_id_eq hrow
    (mem_constraints_stored value hc) hid

theorem value_eq_of_table_stored (h : a.Intact) (value : VersionRow) {w : WrittenTable}
    (hw : w ∈ a.newTables tables) {row : Row TableRow}
    (hrow : row ∈ (a.stored value tables).tables.rows) (hid : row.id = w.id) :
    row.value = ⟨a.versions.nextId, w.table.name⟩ :=
  congrArg Row.value <| (h.stored value tables).tables.eq_of_id_eq hrow
    (mem_tables_stored value hw) hid

theorem value_eq_of_reference_stored (h : a.Intact) (value : VersionRow) {r : WrittenReference}
    (hr : r ∈ a.newReferences tables) {row : Row ReferenceRow}
    (hrow : row ∈ (a.stored value tables).references.rows) (hid : row.id = r.id) :
    row.value = r.value :=
  congrArg Row.value <| (h.stored value tables).references.eq_of_id_eq hrow
    (mem_references_stored value hr) hid

/-- The numbers that names of columns stand for belong to columns of their table. -/
theorem table_eq_of_column_stored (h : a.Intact) (value : VersionRow) {w : WrittenTable}
    (hw : w ∈ a.newTables tables) {names : List String} {row : Row ColumnRow}
    (hrow : row ∈ (a.stored value tables).columns.rows) (hid : row.id ∈ w.idsOf names) :
    row.value.table = w.id := by
  obtain ⟨row', hrow', hid', htable⟩ := exists_column_of_mem_idsOf value hw hid
  rw [← (h.stored value tables).columns.eq_of_id_eq hrow' hrow hid']
  exact htable

theorem Separate.stored (hs : a.Separate) (h : a.Intact) (value : VersionRow)
    (tables : List Table) : (a.stored value tables).Separate where
  members m hm k hk c hc hkid hcid := by
    rcases Relation.mem_insertAll hm with hold | ⟨-, hnew⟩
    · have hk' := h.constraints.mem_of_mem_insertAll hk (hkid ▸ h.members_constraint m hold)
      have hc' := h.columns.mem_of_mem_insertAll hc (hcid ▸ h.members_column m hold)
      exact hs.members m hold k hk' c hc' hkid hcid
    · obtain ⟨w, hw, hm'⟩ := List.mem_flatMap.1 hnew
      obtain ⟨hconstraint, hcolumn⟩ := of_mem_members hm'
      have hvalue := value_eq_of_constraint_stored h value hw hk (hkid.trans hconstraint)
      rw [table_eq_of_column_stored h value (owner_mem_newTables hw) hc (hcid ▸ hcolumn), hvalue]
      rfl
  references r hr k hk t ht t' ht' hkid htid htid' := by
    rcases Relation.mem_insertAll hr with hold | ⟨-, hnew⟩
    · have hk' := h.constraints.mem_of_mem_insertAll hk (hkid ▸ h.references_constraint r hold)
      have ht₁ := h.tables.mem_of_mem_insertAll ht (htid ▸ h.constraints_table k hk')
      have ht₂ := h.tables.mem_of_mem_insertAll ht' (htid' ▸ h.references_table r hold)
      exact hs.references r hold k hk' t ht₁ t' ht₂ hkid htid htid'
    · obtain ⟨w, hw, hr'⟩ := List.mem_map.1 hnew
      obtain ⟨htable, c, hc, hid, -⟩ := exists_constraint_of_mem_newReferences hw
      rw [← hr'] at hkid htid'
      have hvalue := value_eq_of_constraint_stored h value hc hk (hkid.trans hid)
      rw [hvalue] at htid
      rw [value_eq_of_table_stored h value htable ht' htid',
        value_eq_of_table_stored h value (owner_mem_newTables hc) ht htid]
  targets m hm r hr c hc hrid hcid := by
    rcases Relation.mem_insertAll hm with hold | ⟨-, hnew⟩
    · have hr' := h.references.mem_of_mem_insertAll hr (hrid ▸ h.targets_reference m hold)
      have hc' := h.columns.mem_of_mem_insertAll hc (hcid ▸ h.targets_column m hold)
      exact hs.targets m hold r hr' c hc' hrid hcid
    · obtain ⟨w, hw, hm'⟩ := List.mem_flatMap.1 hnew
      obtain ⟨hreference, hcolumn⟩ := of_mem_targets hm'
      have hvalue := value_eq_of_reference_stored h value hw hr (hrid.trans hreference)
      rw [table_eq_of_column_stored h value (exists_constraint_of_mem_newReferences hw).1 hc
        (hcid ▸ hcolumn), hvalue]
      rfl

/-! ## Sound archives -/

/-- The rows of an archive fit together. -/
structure Sound (a : Archive) : Prop where
  intact : a.Intact
  ordered : a.Ordered
  separate : a.Separate
  /-- No two versions have the same name. -/
  names : (a.versions.rows.map (·.value.name)).Nodup

theorem sound_empty : empty.Sound :=
  ⟨intact_empty, ordered_empty, separate_empty, .nil⟩

theorem Sound.delete (h : a.Sound) (id : Int) : (a.delete id).2.Sound where
  intact := h.intact.delete id
  ordered := h.ordered.delete id
  separate := h.separate.delete id
  names := by
    rw [Archive.delete]
    split
    · exact h.names.sublist (List.filter_sublist.map _)
    · exact h.names

/-- The archive with one more version is sound if the name of the version is free. -/
theorem Sound.stored (h : a.Sound) {value : VersionRow}
    (hfree : ∀ row ∈ a.versions.rows, row.value.name ≠ value.name) (tables : List Table) :
    (a.stored value tables).Sound where
  intact := h.intact.stored value tables
  ordered := h.ordered.stored h.intact value tables
  separate := h.separate.stored h.intact value tables
  names := by
    have hrows : (a.stored value tables).versions.rows =
        a.versions.rows ++ [⟨a.versions.nextId, value⟩] := Relation.rows_insertAll _ _
    rw [hrows, List.map_append, List.nodup_append]
    refine ⟨h.names, List.pairwise_singleton _ _, ?_⟩
    intro name hname name' hname' heq
    obtain ⟨row, hrow, rfl⟩ := List.mem_map.1 hname
    rw [List.map_singleton, List.mem_singleton] at hname'
    exact hfree row hrow (heq.trans hname')

end Archive

end SchemaArchive
