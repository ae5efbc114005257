import Mathlib.Data.List.Sort
import SchemaArchive.Archive.Load
import SchemaArchive.Proofs.Archive.Intact

/-!
# Rows in the order of the tree

Loading sorts the rows of a version: columns by their tables and places, members by their
constraints and places, and so on.  Storing writes them in this order already, and deleting does
not change it.  So in an archive that is in order, sorting leaves the rows as they are.

* `perm_orderBy`, `pairwise_orderBy` — what sorting does to any rows.
* `orderBy_eq_self` — sorting does nothing to rows in order.
* `Archive.Ordered` — the invariant, with `Ordered.stored` and `Ordered.delete`.
-/

namespace SchemaArchive

/-! ## Sorting -/

section Sorting

variable {α : Type} {le : α → α → Bool}

theorem perm_insertOrdered (row : α) (rows : List α) :
    (insertOrdered le row rows).Perm (row :: rows) := by
  induction rows with
  | nil => exact .refl _
  | cons other rows ih =>
    rw [insertOrdered]
    split
    · exact .refl _
    · exact (ih.cons other).trans (.swap ..)

/-- Sorting neither adds nor removes rows. -/
theorem perm_orderBy (rows : List α) : (orderBy le rows).Perm rows := by
  induction rows with
  | nil => exact .refl _
  | cons row rows ih => exact (perm_insertOrdered ..).trans (ih.cons row)

theorem pairwise_insertOrdered (htotal : ∀ x y, le x y = true ∨ le y x = true)
    (htrans : ∀ x y z, le x y = true → le y z = true → le x z = true) {row : α} {rows : List α}
    (h : rows.Pairwise (le · · = true)) :
    (insertOrdered le row rows).Pairwise (le · · = true) := by
  induction rows with
  | nil => exact List.pairwise_singleton ..
  | cons other rows ih =>
    obtain ⟨hother, hrows⟩ := List.pairwise_cons.1 h
    rw [insertOrdered]
    split
    · next hle =>
      refine .cons (fun z hz => ?_) h
      rcases List.mem_cons.1 hz with rfl | hz
      · exact hle
      · exact htrans _ _ _ hle (hother z hz)
    · next hle =>
      refine .cons (fun z hz => ?_) (ih hrows)
      rcases List.mem_cons.1 ((perm_insertOrdered ..).mem_iff.1 hz) with rfl | hz
      · exact (htotal z other).resolve_left hle
      · exact hother z hz

/-- Sorting puts the rows in order. -/
theorem pairwise_orderBy (htotal : ∀ x y, le x y = true ∨ le y x = true)
    (htrans : ∀ x y z, le x y = true → le y z = true → le x z = true) (rows : List α) :
    (orderBy le rows).Pairwise (le · · = true) := by
  induction rows with
  | nil => exact .nil
  | cons row rows ih => exact pairwise_insertOrdered htotal htrans ih

/-- Rows in order are left as they are. -/
theorem orderBy_eq_self {rows : List α} (h : rows.Pairwise (le · · = true)) :
    orderBy le rows = rows := by
  induction rows with
  | nil => rfl
  | cons row rows ih =>
    obtain ⟨hrow, hrows⟩ := List.pairwise_cons.1 h
    rw [orderBy, ih hrows]
    cases rows with
    | nil => rfl
    | cons other rows => rw [insertOrdered, if_pos (hrow other (List.mem_cons_self ..))]

end Sorting

/-! ## Places -/

section Places

variable {α ι : Type} {owner place : α → Nat}

/-- The row belongs to an earlier owner, or it has an earlier place with the same owner. -/
def Before (owner place : α → Nat) (x y : α) : Prop :=
  owner x < owner y ∨ owner x = owner y ∧ place x < place y

theorem Before.placeLe {x y : α} (h : Before owner place x y) : placeLe owner place x y = true := by
  simp only [SchemaArchive.placeLe, Bool.or_eq_true, Bool.and_eq_true, decide_eq_true_eq,
    beq_iff_eq]
  exact h.imp_right fun ⟨howner, hplace⟩ => ⟨howner, Nat.le_of_lt hplace⟩

/-- Blocks whose owners are numbered one after another, with places from one on in each, are in
order. -/
theorem pairwise_before_flatMap {blocks : List ι} {id : ι → Nat} {start n : Nat}
    (hid : blocks.map id = List.range' start n) {block : ι → List α}
    (howner : ∀ i ∈ blocks, ∀ x ∈ block i, owner x = id i)
    (hplace : ∀ i, ∃ m, (block i).map place = List.range' 1 m) :
    (blocks.flatMap block).Pairwise (Before owner place) := by
  have hids : blocks.Pairwise fun i j => id i < id j :=
    List.pairwise_map.1 (hid ▸ List.pairwise_lt_range')
  refine List.pairwise_flatMap.2 ⟨fun i hi => ?_, ?_⟩
  · obtain ⟨m, hm⟩ := hplace i
    have hplaces : (block i).Pairwise fun x y => place x < place y :=
      List.pairwise_map.1 (hm ▸ List.pairwise_lt_range')
    refine hplaces.imp_of_mem fun hx hy hlt => .inr ⟨?_, hlt⟩
    rw [howner i hi _ hx, howner i hi _ hy]
  · refine hids.imp_of_mem fun hi hj hlt x hx y hy => .inl ?_
    rwa [howner _ hi x hx, howner _ hj y hy]

/-- Rows that are added for new owners come behind the old ones. -/
theorem Relation.Mentions.pairwise_insertAll {β : Type} {r : Relation α} {target : Relation β}
    (h : r.Mentions owner target) (ht : target.Numbered) {R : α → α → Prop}
    (hR : ∀ x y, owner x < owner y → R x y) (hold : r.values.Pairwise R) {values : List α}
    (hvalues : values.Pairwise R) (howner : ∀ v ∈ values, target.nextId ≤ owner v) :
    (r.insertAll values).values.Pairwise R := by
  rw [values_insertAll, List.pairwise_append]
  refine ⟨hold, hvalues, fun x hx y hy => hR x y ?_⟩
  obtain ⟨row, hrow, rfl⟩ := List.mem_map.1 hx
  exact Nat.lt_of_le_of_lt (ht.le_of_has (h row hrow)) (howner y hy)

/-- Blocks of rows that are added for new owners come behind the old ones. -/
theorem Relation.Mentions.pairwise_before_insertAll {β : Type} {r : Relation α}
    {target : Relation β} (h : r.Mentions owner target) (ht : target.Numbered)
    (hold : r.values.Pairwise (Before owner place)) {blocks : List ι} {id : ι → Nat} {n : Nat}
    (hid : blocks.map id = List.range' target.nextId n) {block : ι → List α}
    (howner : ∀ i ∈ blocks, ∀ x ∈ block i, owner x = id i)
    (hplace : ∀ i, ∃ m, (block i).map place = List.range' 1 m) :
    (r.insertAll (blocks.flatMap block)).values.Pairwise (Before owner place) := by
  refine h.pairwise_insertAll ht (fun _ _ => .inl) hold
    (pairwise_before_flatMap hid howner hplace) fun v hv => ?_
  obtain ⟨i, hi, hv⟩ := List.mem_flatMap.1 hv
  exact howner i hi v hv ▸ le_id_of_map_id hid hi

theorem Relation.values_keep_sublist (r : Relation α) (test : Row α → Bool) :
    (r.keep test).values.Sublist r.values :=
  List.filter_sublist.map _

end Places

/-! ## Archives in order -/

/-- Rows come in the order of their owners and places.  There is at most one reference for each
constraint, and the texts of kinds are known. -/
structure Archive.Ordered (a : Archive) : Prop where
  columns : a.columns.values.Pairwise (Before ColumnRow.table ColumnRow.order)
  members : a.members.values.Pairwise (Before MemberRow.constraint MemberRow.order)
  references : a.references.values.Pairwise fun r s => r.constraint < s.constraint
  targets : a.targets.values.Pairwise (Before TargetRow.reference TargetRow.order)
  kinds : ∀ v ∈ a.constraints.values, ∃ kind : ConstraintKind, v.kind = kind.text

/-- References come in the order of their constraints. -/
theorem map_constraint_placedReferences_sublist (written : List WrittenTable) (start : Nat)
    (cs : List WrittenConstraint) :
    ((placedReferences written start cs).map (·.constraint)).Sublist (cs.map (·.id)) := by
  induction cs generalizing start with
  | nil => exact .slnil
  | cons c cs ih =>
    rw [placedReferences]
    split
    · exact (ih (start + 1)).cons_cons c.id
    · exact (ih start).cons c.id

namespace Archive

theorem ordered_empty : empty.Ordered where
  columns := .nil
  members := .nil
  references := .nil
  targets := .nil
  kinds := by simp [empty, Relation.values]

/-- Rows that stay are still in order. -/
theorem Ordered.withoutOrphans {a : Archive} (h : a.Ordered) (versions : Relation VersionRow) :
    ({ a with versions }).withoutOrphans.Ordered where
  columns := h.columns.sublist (Relation.values_keep_sublist ..)
  members := h.members.sublist (Relation.values_keep_sublist ..)
  references := h.references.sublist (Relation.values_keep_sublist ..)
  targets := h.targets.sublist (Relation.values_keep_sublist ..)
  kinds v hv := h.kinds v ((Relation.values_keep_sublist ..).subset hv)

theorem Ordered.delete {a : Archive} (h : a.Ordered) (id : Int) : (a.delete id).2.Ordered := by
  rw [Archive.delete]
  split
  · exact h.withoutOrphans _
  · exact h

/-- New rows are written in order, and come behind the old ones. -/
theorem Ordered.stored {a : Archive} (h : a.Ordered) (hi : a.Intact) (value : VersionRow)
    (tables : List Table) : (a.stored value tables).Ordered where
  columns := by
    refine hi.columns_table.pairwise_before_insertAll hi.tables h.columns (map_id_placed ..) ?_
      fun w => ⟨_, map_order_columnValues w.id 1 w.table.columns⟩
    intro w _ v hv
    obtain ⟨c, -, rfl⟩ := List.mem_map.1 hv
    rfl
  members := hi.members_constraint.pairwise_before_insertAll hi.constraints h.members
    (map_id_placedConstraints ..) (fun _ _ _ hv => (of_mem_members hv).1)
    fun c => ⟨_, map_order_members c⟩
  references := by
    have hids : (a.newConstraints tables).map (·.id) = _ := map_id_placedConstraints ..
    refine hi.references_constraint.pairwise_insertAll hi.constraints (fun _ _ hlt => hlt)
      h.references ?_ fun v hv => ?_
    · have hconstraints : ((a.newReferences tables).map (·.constraint)).Pairwise (· < ·) :=
        List.Pairwise.sublist (map_constraint_placedReferences_sublist ..)
          (hids ▸ List.pairwise_lt_range')
      exact List.pairwise_map.2 (List.pairwise_map.1 hconstraints)
    · obtain ⟨r, hr, rfl⟩ := List.mem_map.1 hv
      obtain ⟨-, c, hc, hid, -⟩ := exists_constraint_of_mem_newReferences hr
      rw [WrittenReference.value, hid]
      exact le_id_of_map_id hids hc
  targets := hi.targets_reference.pairwise_before_insertAll hi.references h.targets
    (map_id_placedReferences ..) (fun _ _ _ hv => (of_mem_targets hv).1)
    fun r => ⟨_, map_order_targets r⟩
  kinds v hv := by
    have hvalues : (a.stored value tables).constraints.values = a.constraints.values ++ _ :=
      Relation.values_insertAll ..
    rw [hvalues, List.mem_append] at hv
    rcases hv with hold | hnew
    · exact h.kinds v hold
    · obtain ⟨c, -, rfl⟩ := List.mem_map.1 hnew
      exact ⟨c.constraint.kind, rfl⟩

end Archive

end SchemaArchive
