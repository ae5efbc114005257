import SchemaArchive.Archive.Delete
import SchemaArchive.Proofs.Archive.Writing

/-!
# Intact archives

In an intact archive the rows are numbered, and every number that a row mentions is that of a row
which is there.  Archives stay intact.  Storing adds rows that mention each other or, for the
members of a constraint, columns that have just been written; deleting removes every row that
mentions a removed one.

* `Archive.Intact` — the invariant.
* `Archive.Intact.stored`, `Archive.Intact.delete` — the rows of one more version, and those of
  one version less.
-/

namespace SchemaArchive

/-- Every number that `mention` reads off a row is that of a row of `target`. -/
def Relation.Mentions {α β : Type} (r : Relation α) (mention : α → Nat) (target : Relation β) :
    Prop :=
  ∀ row ∈ r.rows, target.has (mention row.value) = true

namespace Relation.Mentions

variable {α β : Type} {r : Relation α} {mention : α → Nat} {target : Relation β}

theorem insertAll (h : r.Mentions mention target) {values : List α} {more : List β}
    (hvalues : ∀ v ∈ values, (target.insertAll more).has (mention v) = true) :
    (r.insertAll values).Mentions mention (target.insertAll more) := by
  intro row hrow
  rw [rows_insertAll, List.mem_append] at hrow
  rcases hrow with hrow | hrow
  · exact has_insertAll more (h row hrow)
  · have hvalue : row.value ∈ (numbered r.nextId values).map Row.value :=
      List.mem_map_of_mem hrow
    rw [map_value_numbered] at hvalue
    exact hvalues row.value hvalue

theorem keep (test : Row α → Bool)
    (h : ∀ row ∈ r.rows, test row = true → target.has (mention row.value) = true) :
    (r.keep test).Mentions mention target :=
  fun row hrow => h row (mem_keep_iff.1 hrow).1 (mem_keep_iff.1 hrow).2

/-- Old rows mention no new number. -/
theorem filter_rows_eq_nil (h : r.Mentions mention target) (ht : target.Numbered) {id : Nat}
    (hid : target.nextId ≤ id) : (r.rows.filter fun row => mention row.value == id) = [] := by
  rw [List.filter_eq_nil_iff]
  intro row hrow
  have hle := ht.le_of_has (h row hrow)
  simp only [Relation.nextId] at hid
  simp only [beq_iff_eq]
  omega

/-- New values that are written in blocks are found by the number of their block. -/
theorem filter_values_insertAll {ι : Type} (h : r.Mentions mention target) (ht : target.Numbered)
    {blocks : List ι} {id : ι → Nat} {n : Nat}
    (hid : blocks.map id = List.range' target.nextId n) {block : ι → List α}
    (hkey : ∀ i ∈ blocks, ∀ v ∈ block i, mention v = id i) {i : ι} (hi : i ∈ blocks) :
    (r.insertAll (blocks.flatMap block)).values.filter (mention · == id i) = block i := by
  have hold : r.values.filter (mention · == id i) = [] := by
    rw [← map_value_filter, h.filter_rows_eq_nil ht (le_id_of_map_id hid hi), List.map_nil]
  rw [values_insertAll, List.filter_append, hold, List.nil_append,
    filter_flatMap_of_nodup hkey (nodup_of_map_id hid) hi]

end Relation.Mentions

/-- All rows are numbered, and all that they mention is there. -/
structure Archive.Intact (a : Archive) : Prop where
  versions : a.versions.Numbered
  tables : a.tables.Numbered
  columns : a.columns.Numbered
  constraints : a.constraints.Numbered
  members : a.members.Numbered
  references : a.references.Numbered
  targets : a.targets.Numbered
  tables_version : a.tables.Mentions TableRow.version a.versions
  columns_table : a.columns.Mentions ColumnRow.table a.tables
  constraints_table : a.constraints.Mentions ConstraintRow.table a.tables
  members_constraint : a.members.Mentions MemberRow.constraint a.constraints
  members_column : a.members.Mentions MemberRow.column a.columns
  references_constraint : a.references.Mentions ReferenceRow.constraint a.constraints
  references_table : a.references.Mentions ReferenceRow.table a.tables
  targets_reference : a.targets.Mentions TargetRow.reference a.references
  targets_column : a.targets.Mentions TargetRow.column a.columns

namespace Archive

theorem intact_empty : empty.Intact where
  versions := Relation.numbered_empty
  tables := Relation.numbered_empty
  columns := Relation.numbered_empty
  constraints := Relation.numbered_empty
  members := Relation.numbered_empty
  references := Relation.numbered_empty
  targets := Relation.numbered_empty
  tables_version := nofun
  columns_table := nofun
  constraints_table := nofun
  members_constraint := nofun
  members_column := nofun
  references_constraint := nofun
  references_table := nofun
  targets_reference := nofun
  targets_column := nofun

/-! ## Deleting -/

theorem Intact.withoutOrphans {a : Archive} (h : a.Intact)
    (versions : Relation VersionRow) (hv : versions.Numbered) :
    ({ a with versions }).withoutOrphans.Intact where
  versions := hv
  tables := h.tables.keep _
  columns := h.columns.keep _
  constraints := h.constraints.keep _
  members := h.members.keep _
  references := h.references.keep _
  targets := h.targets.keep _
  tables_version := .keep _ fun _ _ htest => htest
  columns_table := .keep _ fun _ _ htest => htest
  constraints_table := .keep _ fun _ _ htest => htest
  members_constraint := .keep _ fun _ _ htest => (Bool.and_eq_true_iff.1 htest).1
  members_column := .keep _ fun _ _ htest => (Bool.and_eq_true_iff.1 htest).2
  references_constraint := .keep _ fun _ _ htest => (Bool.and_eq_true_iff.1 htest).1
  references_table := .keep _ fun _ _ htest => (Bool.and_eq_true_iff.1 htest).2
  targets_reference := .keep _ fun _ _ htest => (Bool.and_eq_true_iff.1 htest).1
  targets_column := .keep _ fun _ _ htest => (Bool.and_eq_true_iff.1 htest).2

theorem Intact.delete {a : Archive} (h : a.Intact) (id : Int) : (a.delete id).2.Intact := by
  rw [Archive.delete]
  split
  · exact h.withoutOrphans _ (h.versions.keep _)
  · exact h

/-! ## Storing -/

variable {a : Archive} {tables : List Table}

theorem has_tables_stored (value : VersionRow) {w : WrittenTable}
    (hw : w ∈ a.newTables tables) : (a.stored value tables).tables.has w.id = true :=
  Relation.has_of_mem (mem_tables_stored value hw)

theorem has_constraints_stored (value : VersionRow) {c : WrittenConstraint}
    (hc : c ∈ a.newConstraints tables) :
    (a.stored value tables).constraints.has c.id = true :=
  Relation.has_of_mem (mem_constraints_stored value hc)

theorem has_references_stored (value : VersionRow) {r : WrittenReference}
    (hr : r ∈ a.newReferences tables) :
    (a.stored value tables).references.has r.id = true :=
  Relation.has_of_mem (mem_references_stored value hr)

/-- The numbers that names of columns stand for are those of rows. -/
theorem has_columns_stored (value : VersionRow) {w : WrittenTable}
    (hw : w ∈ a.newTables tables) {names : List String} {id : Nat} (hid : id ∈ w.idsOf names) :
    (a.stored value tables).columns.has id = true := by
  obtain ⟨row, hrow, rfl, -⟩ := exists_column_of_mem_idsOf value hw hid
  exact Relation.has_of_mem hrow

theorem Intact.stored (h : a.Intact) (value : VersionRow) (tables : List Table) :
    (a.stored value tables).Intact where
  versions := h.versions.insertAll _
  tables := h.tables.insertAll _
  columns := h.columns.insertAll _
  constraints := h.constraints.insertAll _
  members := h.members.insertAll _
  references := h.references.insertAll _
  targets := h.targets.insertAll _
  tables_version := h.tables_version.insertAll fun v hv => by
    obtain ⟨w, -, rfl⟩ := List.mem_map.1 hv
    refine Relation.has_iff.2 ⟨⟨a.versions.nextId, value⟩, ?_, rfl⟩
    rw [Relation.rows_insertAll]
    exact List.mem_append_right _ (List.mem_singleton.2 rfl)
  columns_table := h.columns_table.insertAll fun v hv => by
    obtain ⟨w, hw, hv⟩ := List.mem_flatMap.1 hv
    obtain ⟨c, -, rfl⟩ := List.mem_map.1 hv
    exact has_tables_stored value hw
  constraints_table := h.constraints_table.insertAll fun v hv => by
    obtain ⟨c, hc, rfl⟩ := List.mem_map.1 hv
    exact has_tables_stored value (owner_mem_newTables hc)
  members_constraint := h.members_constraint.insertAll fun v hv => by
    obtain ⟨c, hc, hv⟩ := List.mem_flatMap.1 hv
    rw [(of_mem_members hv).1]
    exact has_constraints_stored value hc
  members_column := h.members_column.insertAll fun v hv => by
    obtain ⟨c, hc, hv⟩ := List.mem_flatMap.1 hv
    exact has_columns_stored value (owner_mem_newTables hc) (of_mem_members hv).2
  references_constraint := h.references_constraint.insertAll fun v hv => by
    obtain ⟨r, hr, rfl⟩ := List.mem_map.1 hv
    obtain ⟨-, c, hc, hid, -⟩ := exists_constraint_of_mem_newReferences hr
    rw [WrittenReference.value, hid]
    exact has_constraints_stored value hc
  references_table := h.references_table.insertAll fun v hv => by
    obtain ⟨r, hr, rfl⟩ := List.mem_map.1 hv
    exact has_tables_stored value (exists_constraint_of_mem_newReferences hr).1
  targets_reference := h.targets_reference.insertAll fun v hv => by
    obtain ⟨r, hr, hv⟩ := List.mem_flatMap.1 hv
    rw [(of_mem_targets hv).1]
    exact has_references_stored value hr
  targets_column := h.targets_column.insertAll fun v hv => by
    obtain ⟨r, hr, hv⟩ := List.mem_flatMap.1 hv
    exact has_columns_stored value (exists_constraint_of_mem_newReferences hr).1
      (of_mem_targets hv).2

end Archive

end SchemaArchive
