import Mathlib.Data.List.Basic
import SchemaArchive.Proofs.Archive.Tree

/-!
# Versions do not disturb each other

The tree of a version depends on the rows that the version owns, and on no others.  Storing adds
rows that belong to the new version, and deleting removes rows of the version that is deleted, so
the trees of all other versions stay as they are, numbers and places included.

* `Archive.Agrees` — two archives have the same rows of a version.
* `Archive.Agrees.tree` — then they have the same tree of it.
* `Archive.tree_stored`, `Archive.tree_delete` — storing another version, and
  deleting another version.
-/

namespace SchemaArchive

/-! ## Rows that pass a test -/

namespace Relation

variable {α β : Type}

/-- The rows that pass the test are the same in both relations. -/
def SameOn (test : Row α → Bool) (r s : Relation α) : Prop :=
  s.rows.filter test = r.rows.filter test

namespace SameOn

variable {r s : Relation α} {test narrow : Row α → Bool}

theorem mono (h : SameOn test r s) (hnarrow : ∀ row, narrow row = true → test row = true) :
    SameOn narrow r s := by
  have htwice : ∀ rows : List (Row α), rows.filter narrow = (rows.filter test).filter narrow := by
    intro rows
    rw [List.filter_filter]
    congr 1
    funext row
    by_cases hrow : narrow row = true
    · simp [hrow, hnarrow row hrow]
    · simp [hrow]
  unfold SameOn at h ⊢
  rw [htwice s.rows, htwice r.rows, h]

theorem find? (h : SameOn test r s) : s.rows.find? test = r.rows.find? test := by
  unfold SameOn at h
  rw [← List.head?_filter, h, List.head?_filter]

theorem mem (h : SameOn test r s) {row : Row α} (hrow : row ∈ r.rows)
    (htest : test row = true) : row ∈ s.rows := by
  have hmem : row ∈ s.rows.filter test := h ▸ List.mem_filter.2 ⟨hrow, htest⟩
  exact (List.mem_filter.1 hmem).1

end SameOn

/-- New rows fail a test that asks for a number which is given out already. -/
theorem sameOn_insertAll {r : Relation α} {target : Relation β} (ht : target.Numbered)
    (mention : α → Nat) {test : Row α → Bool} {values : List α}
    (hold : ∀ row, test row = true → target.has (mention row.value) = true)
    (hnew : ∀ v ∈ values, target.nextId ≤ mention v) : SameOn test r (r.insertAll values) := by
  have hfails : (numbered r.nextId values).filter test = [] := by
    rw [List.filter_eq_nil_iff]
    intro row hrow htest
    have hmem : row.value ∈ (numbered r.nextId values).map Row.value := List.mem_map_of_mem hrow
    rw [map_value_numbered] at hmem
    have hle := ht.le_of_has (hold row htest)
    have hlt := hnew row.value hmem
    simp only [nextId] at hlt
    omega
  unfold SameOn
  rw [rows_insertAll, List.filter_append, hfails, List.append_nil]

theorem sameOn_keep {r : Relation α} {test kept : Row α → Bool}
    (h : ∀ row ∈ r.rows, test row = true → kept row = true) : SameOn test r (r.keep kept) := by
  unfold SameOn keep
  rw [List.filter_filter]
  refine List.filter_congr fun row hrow => ?_
  by_cases htest : test row = true
  · simp [htest, h row hrow htest]
  · simp [htest]

end Relation

namespace Archive

/-! ## What a version owns -/

variable {a b : Archive} {version : Nat}

theorem has_of_ownsTable {table : Nat} (h : a.ownsTable version table = true) :
    a.tables.has table = true := by
  obtain ⟨row, hrow, rfl, -⟩ := ownsTable_iff.1 h
  exact Relation.has_of_mem hrow

theorem has_of_ownsConstraint {constraint : Nat}
    (h : a.ownsConstraint version constraint = true) : a.constraints.has constraint = true := by
  obtain ⟨row, hrow, rfl, -⟩ := ownsConstraint_iff.1 h
  exact Relation.has_of_mem hrow

theorem has_of_ownsReference {reference : Nat}
    (h : a.ownsReference version reference = true) : a.references.has reference = true := by
  obtain ⟨row, hrow, rfl, -⟩ := ownsReference_iff.1 h
  exact Relation.has_of_mem hrow

/-- A column that a member of an owned constraint mentions is one of an owned table. -/
theorem exists_column_of_member (h : a.Sound) {m : Row MemberRow} (hm : m ∈ a.members.rows)
    (howned : a.ownsConstraint version m.value.constraint = true) :
    ∃ c ∈ a.columns.rows, c.id = m.value.column ∧ a.ownsTable version c.value.table = true := by
  obtain ⟨k, hk, hid, htable⟩ := ownsConstraint_iff.1 howned
  obtain ⟨c, hc, hcolumn⟩ := Relation.has_iff.1 (h.intact.members_column m hm)
  rw [← h.separate.members m hm k hk c hc hid hcolumn] at htable
  exact ⟨c, hc, hcolumn, htable⟩

/-- The table that an owned foreign key refers to is owned. -/
theorem exists_table_of_reference (h : a.Sound) {r : Row ReferenceRow}
    (hr : r ∈ a.references.rows) (howned : a.ownsConstraint version r.value.constraint = true) :
    ∃ t ∈ a.tables.rows, t.id = r.value.table ∧ t.value.version = version := by
  obtain ⟨k, hk, hid, htable⟩ := ownsConstraint_iff.1 howned
  obtain ⟨t, ht, htid, hversion⟩ := ownsTable_iff.1 htable
  obtain ⟨t', ht', htid'⟩ := Relation.has_iff.1 (h.intact.references_table r hr)
  rw [← h.separate.references r hr k hk t ht t' ht' hid htid htid'] at hversion
  exact ⟨t', ht', htid', hversion⟩

/-- A column that a target of an owned reference mentions is one of an owned table. -/
theorem exists_column_of_target (h : a.Sound) {m : Row TargetRow} (hm : m ∈ a.targets.rows)
    (howned : a.ownsReference version m.value.reference = true) :
    ∃ c ∈ a.columns.rows, c.id = m.value.column ∧ a.ownsTable version c.value.table = true := by
  obtain ⟨r, hr, hid, hconstraint⟩ := ownsReference_iff.1 howned
  obtain ⟨t, ht, htable, hversion⟩ := exists_table_of_reference h hr hconstraint
  obtain ⟨c, hc, hcolumn⟩ := Relation.has_iff.1 (h.intact.targets_column m hm)
  have heq := h.separate.targets m hm r hr c hc hid hcolumn
  exact ⟨c, hc, hcolumn, ownsTable_iff.2 ⟨t, ht, htable.trans heq.symm, hversion⟩⟩

/-- The rows of the version are the same in both archives. -/
structure Agrees (a b : Archive) (version : Nat) : Prop where
  tables : Relation.SameOn (fun row => row.value.version == version) a.tables b.tables
  columns : Relation.SameOn (fun row => a.ownsTable version row.value.table) a.columns b.columns
  constraints : Relation.SameOn (fun row => a.ownsTable version row.value.table)
    a.constraints b.constraints
  members : Relation.SameOn (fun row => a.ownsConstraint version row.value.constraint)
    a.members b.members
  references : Relation.SameOn (fun row => a.ownsConstraint version row.value.constraint)
    a.references b.references
  targets : Relation.SameOn (fun row => a.ownsReference version row.value.reference)
    a.targets b.targets

/-! ## The tree of a version -/

/-- Rows that are the same in both archives give the same, if the columns that they mention are
found in both alike. -/
theorem mapColumns_congr {ρ σ : Type} {r s : Relation ρ} {key column : ρ → Nat} {k : Nat}
    {make : Row ρ → Row ColumnRow → σ}
    (hsame : Relation.SameOn (fun row => key row.value == k) r s)
    (hcolumns : ∀ row ∈ r.rows, key row.value = k →
      b.columns.find? (column row.value) = a.columns.find? (column row.value)) :
    b.mapColumns s key column make k = a.mapColumns r key column make k := by
  rw [mapColumns, mapColumns, hsame]
  refine List.filterMap_congr fun row hrow => ?_
  obtain ⟨hmem, hkey⟩ := List.mem_filter.1 hrow
  rw [hcolumns row hmem (beq_iff_eq.1 hkey)]

namespace Agrees

/-- A column of the version is found in both archives. -/
theorem find?_column (h : a.Agrees b version) (ha : a.Intact) (hb : b.Intact)
    {c : Row ColumnRow} (hc : c ∈ a.columns.rows)
    (howned : a.ownsTable version c.value.table = true) :
    b.columns.find? c.id = a.columns.find? c.id := by
  rw [ha.columns.find?_of_mem hc, hb.columns.find?_of_mem (h.columns.mem hc howned)]

/-- A table of the version is found in both archives. -/
theorem find?_table (h : a.Agrees b version) (ha : a.Intact) (hb : b.Intact)
    {t : Row TableRow} (ht : t ∈ a.tables.rows) (hversion : t.value.version = version) :
    b.tables.find? t.id = a.tables.find? t.id := by
  rw [ha.tables.find?_of_mem ht,
    hb.tables.find?_of_mem (h.tables.mem ht (beq_iff_eq.2 hversion))]

theorem membersOf (h : a.Agrees b version) (ha : a.Sound) (hb : b.Intact) {constraint : Nat}
    (howned : a.ownsConstraint version constraint = true) :
    b.membersOf constraint = a.membersOf constraint := by
  rw [Archive.membersOf, Archive.membersOf]
  refine mapColumns_congr (h.members.mono fun row hrow => ?_) fun m hm hkey => ?_
  · rwa [beq_iff_eq.1 hrow]
  · obtain ⟨c, hc, hid, htable⟩ := exists_column_of_member ha hm (hkey ▸ howned)
    rw [← hid]
    exact h.find?_column ha.intact hb hc htable

theorem targetsOf (h : a.Agrees b version) (ha : a.Sound) (hb : b.Intact) {reference : Nat}
    (howned : a.ownsReference version reference = true) :
    b.targetsOf reference = a.targetsOf reference := by
  rw [Archive.targetsOf, Archive.targetsOf]
  refine mapColumns_congr (h.targets.mono fun row hrow => ?_) fun m hm hkey => ?_
  · rwa [beq_iff_eq.1 hrow]
  · obtain ⟨c, hc, hid, htable⟩ := exists_column_of_target ha hm (hkey ▸ howned)
    rw [← hid]
    exact h.find?_column ha.intact hb hc htable

theorem referenceOf (h : a.Agrees b version) (ha : a.Sound) (hb : b.Intact) {constraint : Nat}
    (howned : a.ownsConstraint version constraint = true) :
    b.referenceOf constraint = a.referenceOf constraint := by
  have hsame : Relation.SameOn (fun row => row.value.constraint == constraint)
      a.references b.references :=
    h.references.mono fun row hrow => by rwa [beq_iff_eq.1 hrow]
  rw [Archive.referenceOf, Archive.referenceOf, hsame.find?]
  cases hfind : a.references.rows.find? fun row => row.value.constraint == constraint with
  | none => rfl
  | some r =>
    have hr := List.mem_of_find?_eq_some hfind
    have hkey : r.value.constraint = constraint := by simpa using List.find?_some hfind
    have hconstraint : a.ownsConstraint version r.value.constraint = true := hkey ▸ howned
    obtain ⟨t, ht, hid, hversion⟩ := exists_table_of_reference ha hr hconstraint
    have htable := h.find?_table ha.intact hb ht hversion
    have htargets := h.targetsOf ha hb (ownsReference_iff.2 ⟨r, hr, rfl, hconstraint⟩)
    simp only [Option.bind_eq_bind, Option.bind_some, ← hid, htable, htargets]

theorem constraintTree (h : a.Agrees b version) (ha : a.Sound) (hb : b.Intact)
    {k : Row ConstraintRow} (howned : a.ownsConstraint version k.id = true) :
    b.constraintTree k = a.constraintTree k := by
  rw [Archive.constraintTree, Archive.constraintTree, h.membersOf ha hb howned,
    h.referenceOf ha hb howned]

theorem tableTree (h : a.Agrees b version) (ha : a.Sound) (hb : b.Intact) {t : Row TableRow}
    (howned : a.ownsTable version t.id = true) : b.tableTree t = a.tableTree t := by
  have hcolumns : Relation.SameOn (fun row => row.value.table == t.id) a.columns b.columns :=
    h.columns.mono fun row hrow => by rwa [beq_iff_eq.1 hrow]
  have hconstraints : Relation.SameOn (fun row => row.value.table == t.id)
      a.constraints b.constraints :=
    h.constraints.mono fun row hrow => by rwa [beq_iff_eq.1 hrow]
  rw [Archive.tableTree, Archive.tableTree, hcolumns, hconstraints]
  congr 1
  refine List.map_congr_left fun k hk => h.constraintTree ha hb ?_
  obtain ⟨hmem, hkey⟩ := List.mem_filter.1 hk
  exact ownsConstraint_iff.2 ⟨k, hmem, rfl, beq_iff_eq.1 hkey ▸ howned⟩

/-- Archives that have the same rows of a version have the same tree of it. -/
theorem tree {row : Row VersionRow} (h : a.Agrees b row.id) (ha : a.Sound)
    (hb : b.Intact) : b.tree row = a.tree row := by
  rw [Archive.tree, Archive.tree, h.tables]
  congr 1
  refine List.map_congr_left fun t ht => h.tableTree ha hb ?_
  obtain ⟨hmem, hversion⟩ := List.mem_filter.1 ht
  exact ownsTable_iff.2 ⟨t, hmem, rfl, beq_iff_eq.1 hversion⟩

end Agrees

/-! ## Storing and deleting another version -/

/-- New rows belong to none of the versions that are there. -/
theorem agrees_stored (h : a.Intact) (hv : a.versions.has version = true) (value : VersionRow)
    (tables : List Table) : a.Agrees (a.stored value tables) version where
  tables := by
    refine Relation.sameOn_insertAll h.versions TableRow.version ?_ ?_
    · intro row hrow
      rwa [beq_iff_eq.1 hrow]
    · intro v hmem
      obtain ⟨w, -, rfl⟩ := List.mem_map.1 hmem
      exact Nat.le_refl _
  columns := by
    refine Relation.sameOn_insertAll h.tables ColumnRow.table (fun _ => has_of_ownsTable) ?_
    intro v hmem
    obtain ⟨w, hw, hmem⟩ := List.mem_flatMap.1 hmem
    obtain ⟨c, -, rfl⟩ := List.mem_map.1 hmem
    exact le_id_of_map_id (map_id_placed ..) hw
  constraints := by
    refine Relation.sameOn_insertAll h.tables ConstraintRow.table (fun _ => has_of_ownsTable) ?_
    intro v hmem
    obtain ⟨c, hc, rfl⟩ := List.mem_map.1 hmem
    exact le_id_of_map_id (map_id_placed ..) (owner_mem_newTables hc)
  members := by
    refine Relation.sameOn_insertAll h.constraints MemberRow.constraint
      (fun _ => has_of_ownsConstraint) ?_
    intro v hmem
    obtain ⟨c, hc, hmem⟩ := List.mem_flatMap.1 hmem
    rw [(of_mem_members hmem).1]
    exact le_id_of_map_id (map_id_placedConstraints ..) hc
  references := by
    refine Relation.sameOn_insertAll h.constraints ReferenceRow.constraint
      (fun _ => has_of_ownsConstraint) ?_
    intro v hmem
    obtain ⟨r, hr, rfl⟩ := List.mem_map.1 hmem
    obtain ⟨-, c, hc, hid, -⟩ := exists_constraint_of_mem_newReferences hr
    rw [WrittenReference.value, hid]
    exact le_id_of_map_id (map_id_placedConstraints ..) hc
  targets := by
    refine Relation.sameOn_insertAll h.references TargetRow.reference
      (fun _ => has_of_ownsReference) ?_
    intro v hmem
    obtain ⟨r, hr, hmem⟩ := List.mem_flatMap.1 hmem
    rw [(of_mem_targets hmem).1]
    exact le_id_of_map_id (map_id_placedReferences ..) hr

/-- Removing orphans takes no row away from a version that stays. -/
theorem agrees_withoutOrphans (h : a.Sound) {versions : Relation VersionRow}
    (hv : versions.has version = true) :
    a.Agrees ({ a with versions }).withoutOrphans version := by
  -- From the version downwards, what it owns is kept, and so is what that mentions.
  have htableRow : ∀ t ∈ a.tables.rows, t.value.version = version →
      versions.has t.value.version = true := fun t _ hversion => hversion ▸ hv
  have htable : ∀ table, a.ownsTable version table = true →
      (a.tables.keep fun row => versions.has row.value.version).has table = true := by
    intro table howned
    obtain ⟨t, ht, rfl, hversion⟩ := ownsTable_iff.1 howned
    exact Relation.has_of_mem (Relation.mem_keep_iff.2 ⟨ht, htableRow t ht hversion⟩)
  have hcolumn : ∀ c ∈ a.columns.rows, a.ownsTable version c.value.table = true →
      ({ a with versions }).withoutOrphans.columns.has c.id = true := fun c hc howned =>
    Relation.has_of_mem (Relation.mem_keep_iff.2 ⟨hc, htable _ howned⟩)
  have hconstraint : ∀ constraint, a.ownsConstraint version constraint = true →
      ({ a with versions }).withoutOrphans.constraints.has constraint = true := by
    intro constraint howned
    obtain ⟨k, hk, rfl, htableOwned⟩ := ownsConstraint_iff.1 howned
    exact Relation.has_of_mem (Relation.mem_keep_iff.2 ⟨hk, htable _ htableOwned⟩)
  have hreferenceRow : ∀ r ∈ a.references.rows,
      a.ownsConstraint version r.value.constraint = true →
      (({ a with versions }).withoutOrphans.constraints.has r.value.constraint &&
        ({ a with versions }).withoutOrphans.tables.has r.value.table) = true := by
    intro r hr howned
    obtain ⟨t, ht, hid, hversion⟩ := exists_table_of_reference h hr howned
    exact Bool.and_eq_true_iff.2 ⟨hconstraint _ howned,
      htable _ (ownsTable_iff.2 ⟨t, ht, hid, hversion⟩)⟩
  have hreference : ∀ reference, a.ownsReference version reference = true →
      ({ a with versions }).withoutOrphans.references.has reference = true := by
    intro reference howned
    obtain ⟨r, hr, rfl, hconstraintOwned⟩ := ownsReference_iff.1 howned
    exact Relation.has_of_mem
      (Relation.mem_keep_iff.2 ⟨hr, hreferenceRow r hr hconstraintOwned⟩)
  constructor
  case tables => exact Relation.sameOn_keep fun t ht hrow => htableRow t ht (beq_iff_eq.1 hrow)
  case columns => exact Relation.sameOn_keep fun c _ howned => htable _ howned
  case constraints => exact Relation.sameOn_keep fun k _ howned => htable _ howned
  case members =>
    refine Relation.sameOn_keep fun m hm howned => ?_
    obtain ⟨c, hc, hid, htableOwned⟩ := exists_column_of_member h hm howned
    exact Bool.and_eq_true_iff.2 ⟨hconstraint _ howned, hid ▸ hcolumn c hc htableOwned⟩
  case references => exact Relation.sameOn_keep hreferenceRow
  case targets =>
    refine Relation.sameOn_keep fun m hm howned => ?_
    obtain ⟨c, hc, hid, htableOwned⟩ := exists_column_of_target h hm howned
    exact Bool.and_eq_true_iff.2 ⟨hreference _ howned, hid ▸ hcolumn c hc htableOwned⟩

/-- A version that is stored keeps its tree when another one is. -/
theorem tree_stored (h : a.Sound) {row : Row VersionRow} (hrow : row ∈ a.versions.rows)
    (value : VersionRow) (tables : List Table) :
    (a.stored value tables).tree row = a.tree row :=
  (agrees_stored h.intact (Relation.has_of_mem hrow) value tables).tree h
    (h.intact.stored value tables)

/-- Deleting a version removes this version from the archive, and no other. -/
theorem mem_versions_delete_iff {row : Row VersionRow} {id : Int} :
    row ∈ (a.delete id).2.versions.rows ↔ row ∈ a.versions.rows ∧ (row.id : Int) ≠ id := by
  rw [delete]
  split
  · exact Relation.mem_keep_iff.trans (and_congr_right fun _ => bne_iff_ne)
  · next hnone =>
    refine ⟨fun hrow => ⟨hrow, fun hid => hnone ?_⟩, And.left⟩
    exact List.any_eq_true.2 ⟨row, hrow, beq_iff_eq.2 hid⟩

/-- A version that is stored keeps its tree when another one is deleted. -/
theorem tree_delete (h : a.Sound) {row : Row VersionRow} (hrow : row ∈ a.versions.rows)
    {id : Int} (hid : (row.id : Int) ≠ id) :
    (a.delete id).2.tree row = a.tree row := by
  have hintact := h.intact.delete id
  have hkept := Relation.has_of_mem (mem_versions_delete_iff.2 ⟨hrow, hid⟩)
  rw [delete] at hintact hkept ⊢
  split
  · next hthere =>
    rw [if_pos hthere] at hintact hkept
    exact (agrees_withoutOrphans h hkept).tree h hintact
  · rfl

end Archive

end SchemaArchive
