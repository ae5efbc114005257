import SchemaArchive.Proofs.Archive.Layout

/-!
# What storing writes

Writing a schema step by step leads, if every step succeeds, to the archive with all of its rows.
That the steps of the second round come to the same rows as the layout says rests on one fact:
constraints, and with them members, references and targets, may be added one by one.

* `Archive.withConstraints_cons` — constraints one by one.
* `Writing.schema_eq_ok` — storing, if it succeeds, leads to `Archive.stored`, and every foreign
  key then refers to a table that has been written.
-/

namespace SchemaArchive

namespace Writing

variable {α β : Type}

/-! ## Steps -/

/-- An outcome and an archive are known if the step is. -/
theorem ok_inj {x y : α} {a a' : Archive}
    (h : ((.ok x : Except StoreError α), a) = (.ok y, a')) : x = y ∧ a = a' := by
  obtain ⟨hx, ha⟩ := Prod.mk.inj h
  exact ⟨Except.ok.inj hx, ha⟩

theorem bind_apply (p : Writing α) (f : α → Writing β) (a : Archive) :
    (p >>= f) a = match p a with
      | (.ok x, a₁) => f x a₁
      | (.error e, a₁) => (.error e, a₁) := by
  show (match p a with | (x, a₁) => ExceptT.bindCont f x a₁) = _
  rcases p a with ⟨x | x, a₁⟩ <;> rfl

theorem bind_eq_ok_iff {p : Writing α} {f : α → Writing β} {a a' : Archive} {b : β} :
    (p >>= f) a = (.ok b, a') ↔ ∃ x a₁, p a = (.ok x, a₁) ∧ f x a₁ = (.ok b, a') := by
  rw [bind_apply]
  rcases p a with ⟨e | x, a₁⟩
  · exact iff_of_false (by rintro ⟨⟩) (by rintro ⟨x, a₁, ⟨⟩, -⟩)
  · constructor
    · exact fun h => ⟨x, a₁, rfl, h⟩
    · rintro ⟨x', a₁', h₁, h₂⟩
      obtain ⟨rfl, rfl⟩ := ok_inj h₁
      exact h₂

theorem pure_eq_ok_iff {x y : α} {a a' : Archive} :
    (pure x : Writing α) a = (.ok y, a') ↔ x = y ∧ a = a' := by
  constructor
  · exact ok_inj
  · rintro ⟨rfl, rfl⟩
    rfl

theorem version_eq_ok {value : VersionRow} {a a' : Archive} {id : Nat}
    (h : version value a = (.ok id, a')) :
    id = a.versions.nextId ∧ a' = { a with versions := a.versions.insert value } := by
  rw [version] at h
  split at h
  · cases h
  · obtain ⟨rfl, rfl⟩ := ok_inj h
    exact ⟨rfl, rfl⟩

theorem tableRow_eq_ok {value : TableRow} {a a' : Archive} {id : Nat}
    (h : tableRow value a = (.ok id, a')) :
    id = a.tables.nextId ∧ a' = { a with tables := a.tables.insert value } := by
  rw [tableRow] at h
  split at h
  · cases h
  · obtain ⟨rfl, rfl⟩ := ok_inj h
    exact ⟨rfl, rfl⟩

theorem columnRow_eq_ok {value : ColumnRow} {a a' : Archive} {id : Nat}
    (h : columnRow value a = (.ok id, a')) :
    id = a.columns.nextId ∧ a' = { a with columns := a.columns.insert value } := by
  rw [columnRow] at h
  split at h
  · cases h
  · obtain ⟨rfl, rfl⟩ := ok_inj h
    exact ⟨rfl, rfl⟩

theorem columns_eq_ok {table order : Nat} {cs : List Column} {a a' : Archive}
    {ids : List (String × Nat)} (h : columns table order cs a = (.ok ids, a')) :
    ids = namedIds a.columns.nextId cs ∧
      a' = { a with columns := a.columns.insertAll (columnValues table order cs) } := by
  induction cs generalizing a order ids with
  | nil =>
    obtain ⟨rfl, rfl⟩ := pure_eq_ok_iff.1 h
    exact ⟨rfl, rfl⟩
  | cons c cs ih =>
    obtain ⟨id, a₁, hrow, h⟩ := bind_eq_ok_iff.1 h
    obtain ⟨more, a₂, hmore, h⟩ := bind_eq_ok_iff.1 h
    obtain ⟨rfl, rfl⟩ := pure_eq_ok_iff.1 h
    obtain ⟨rfl, rfl⟩ := columnRow_eq_ok hrow
    obtain ⟨rfl, rfl⟩ := ih hmore
    exact ⟨rfl, rfl⟩

theorem table_eq_ok {version : Nat} {t : Table} {a a' : Archive} {w : WrittenTable}
    (h : table version t a = (.ok w, a')) :
    w = ⟨t, a.tables.nextId, namedIds a.columns.nextId t.columns⟩ ∧
      a' = { a with
        tables := a.tables.insert { version, name := t.name }
        columns := a.columns.insertAll (columnValues a.tables.nextId 1 t.columns) } := by
  obtain ⟨id, a₁, hrow, h⟩ := bind_eq_ok_iff.1 h
  obtain ⟨ids, a₂, hcolumns, h⟩ := bind_eq_ok_iff.1 h
  obtain ⟨rfl, rfl⟩ := pure_eq_ok_iff.1 h
  obtain ⟨rfl, rfl⟩ := tableRow_eq_ok hrow
  obtain ⟨rfl, rfl⟩ := columns_eq_ok hcolumns
  exact ⟨rfl, rfl⟩

theorem tables_eq_ok {version : Nat} {tables : List Table} {a a' : Archive}
    {written : List WrittenTable} (h : tables.mapM (table version) a = (.ok written, a')) :
    written = placed a.tables.nextId a.columns.nextId tables ∧
      a' = a.withTables version tables := by
  induction tables generalizing a written with
  | nil =>
    rw [List.mapM_nil] at h
    obtain ⟨rfl, rfl⟩ := pure_eq_ok_iff.1 h
    exact ⟨rfl, rfl⟩
  | cons t tables ih =>
    rw [List.mapM_cons] at h
    obtain ⟨w, a₁, ht, h⟩ := bind_eq_ok_iff.1 h
    obtain ⟨more, a₂, hmore, h⟩ := bind_eq_ok_iff.1 h
    obtain ⟨rfl, rfl⟩ := pure_eq_ok_iff.1 h
    obtain ⟨rfl, rfl⟩ := table_eq_ok ht
    obtain ⟨rfl, rfl⟩ := ih hmore
    have hnext : (a.columns.insertAll (columnValues a.tables.nextId 1 t.columns)).nextId =
        a.columns.nextId + t.columns.length := by
      rw [Relation.nextId_insertAll, columnValues, List.length_map, List.length_zipIdx]
    refine ⟨?_, ?_⟩
    · rw [placed, hnext]
      rfl
    · simp only [Archive.withTables, placed, List.flatMap_cons, Relation.insertAll_append,
        List.map_cons, Relation.insertAll_cons, hnext]
      rfl

theorem reference_eq_ok {written : List WrittenTable} {owner : WrittenTable} {id : Nat}
    {name : String} {target : Reference} {a a' : Archive}
    (h : reference written owner id name target a = (.ok (), a')) :
    ∃ table, written.find? (·.table.name == target.table) = some table ∧
      a' = { a with
        references := a.references.insert { constraint := id, table := table.id }
        targets := a.targets.insertAll
          (WrittenReference.targets ⟨id, table, target.columns, a.references.nextId⟩) } := by
  rw [reference] at h
  cases hfind : written.find? (·.table.name == target.table) with
  | none =>
    rw [hfind] at h
    cases h
  | some table =>
    rw [hfind] at h
    obtain ⟨id', a₁, hrow, h⟩ := bind_eq_ok_iff.1 h
    obtain ⟨rfl, rfl⟩ := ok_inj hrow
    obtain ⟨-, rfl⟩ := ok_inj h
    exact ⟨table, rfl, rfl⟩

/-- Writing one constraint.  A foreign key refers to a table that has been written. -/
theorem constraint_eq_ok {written : List WrittenTable} {owner : WrittenTable} {c : Constraint}
    {a a' : Archive} (h : constraint written owner c a = (.ok (), a')) :
    c.Resolved written ∧ a' = a.withConstraints written [(owner, c)] := by
  obtain ⟨id, a₁, hrow, h⟩ := bind_eq_ok_iff.1 h
  obtain ⟨rfl, rfl⟩ := ok_inj hrow
  obtain ⟨⟨⟩, a₂, hmembers, h⟩ := bind_eq_ok_iff.1 h
  obtain ⟨-, rfl⟩ := ok_inj hmembers
  cases htarget : c.reference? with
  | none =>
    rw [htarget] at h
    obtain ⟨-, rfl⟩ := pure_eq_ok_iff.1 h
    have hnone : c.referenced? written = none := by simp [Constraint.referenced?, htarget]
    refine ⟨fun h => by simp [htarget] at h, ?_⟩
    simp [Archive.withConstraints, placedConstraints, placedReferences, hnone,
      WrittenConstraint.value, WrittenConstraint.members]
  | some target =>
    rw [htarget] at h
    obtain ⟨table, hfind, rfl⟩ := reference_eq_ok h
    have hsome : c.referenced? written = some (table, target.columns) := by
      simp [Constraint.referenced?, htarget, hfind]
    refine ⟨fun _ => by simp [hsome], ?_⟩
    simp [Archive.withConstraints, placedConstraints, placedReferences, hsome,
      WrittenConstraint.value, WrittenConstraint.members, WrittenReference.value]

end Writing

/-- References of one constraint more: it has one or none, and the others follow. -/
theorem placedReferences_cons (written : List WrittenTable) (start : Nat) (c : WrittenConstraint)
    (cs : List WrittenConstraint) :
    placedReferences written start (c :: cs) =
      placedReferences written start [c] ++
        placedReferences written (start + (placedReferences written start [c]).length) cs := by
  cases hr : c.constraint.referenced? written with
  | none => simp [placedReferences, hr]
  | some r => simp [placedReferences, hr]

theorem Archive.withConstraints_cons (a : Archive) (written : List WrittenTable)
    (c : WrittenTable × Constraint) (cs : List (WrittenTable × Constraint)) :
    (a.withConstraints written [c]).withConstraints written cs =
      a.withConstraints written (c :: cs) := by
  have hconstraints : ∀ start, placedConstraints start (c :: cs) =
      ⟨c.1, c.2, start⟩ :: placedConstraints (start + 1) cs := fun _ => rfl
  have hsingle : ∀ start, placedConstraints start [c] = [⟨c.1, c.2, start⟩] := fun _ => rfl
  simp only [withConstraints, hconstraints, hsingle]
  rw [placedReferences_cons _ _ _ (placedConstraints (a.constraints.nextId + 1) cs)]
  simp only [List.map_cons, List.map_nil, List.flatMap_cons, List.flatMap_nil, List.append_nil,
    List.map_append, List.flatMap_append, Relation.insertAll_append, Relation.nextId_insertAll,
    Relation.insertAll_cons, Relation.insertAll_nil, List.length_map]
  rfl

namespace Writing

/-- The constraints of all tables are written one after another. -/
theorem constraints_eq_forM (written : List WrittenTable) :
    constraints written = (owned written).forM fun c => constraint written c.1 c.2 := by
  have hforM : ∀ ws : List WrittenTable,
      (ws.forM fun owner => owner.table.constraints.forM (constraint written owner)) =
        (owned ws).forM fun c => constraint written c.1 c.2 := by
    intro ws
    simp only [List.forM_eq_forM]
    induction ws with
    | nil => rfl
    | cons w ws ih =>
      have howned : owned (w :: ws) = w.table.constraints.map (w, ·) ++ owned ws := rfl
      rw [List.forM_cons, ih, howned, List.forM_append, List.forM_map]
  exact hforM written

theorem constraints_eq_ok {written : List WrittenTable} {cs : List (WrittenTable × Constraint)}
    {a a' : Archive} (h : cs.forM (fun c => constraint written c.1 c.2) a = (.ok (), a')) :
    (∀ c ∈ cs, c.2.Resolved written) ∧
      a' = a.withConstraints written cs := by
  induction cs generalizing a with
  | nil =>
    obtain ⟨-, rfl⟩ := pure_eq_ok_iff.1 h
    exact ⟨nofun, rfl⟩
  | cons c cs ih =>
    obtain ⟨⟨⟩, a₁, hc, h⟩ := bind_eq_ok_iff.1 h
    obtain ⟨hresolved, rfl⟩ := constraint_eq_ok hc
    obtain ⟨hmore, rfl⟩ := ih h
    rw [List.forall_mem_cons]
    exact ⟨⟨hresolved, hmore⟩, a.withConstraints_cons written c cs⟩

/-- Storing, if it succeeds, writes the rows of one more version. -/
theorem schema_eq_ok {value : VersionRow} {tables : List Table} {a a' : Archive}
    {id : Nat} (h : schema value tables a = (.ok id, a')) :
    id = a.versions.nextId ∧ a' = a.stored value tables ∧
      ∀ c ∈ owned (a.newTables tables), c.2.Resolved (a.newTables tables) := by
  obtain ⟨id, a₁, hversion, h⟩ := bind_eq_ok_iff.1 h
  obtain ⟨written, a₂, htables, h⟩ := bind_eq_ok_iff.1 h
  obtain ⟨⟨⟩, a₃, hconstraints, h⟩ := bind_eq_ok_iff.1 h
  obtain ⟨rfl, rfl⟩ := pure_eq_ok_iff.1 h
  obtain ⟨rfl, rfl⟩ := version_eq_ok hversion
  obtain ⟨rfl, rfl⟩ := tables_eq_ok htables
  rw [constraints_eq_forM] at hconstraints
  obtain ⟨hresolved, rfl⟩ := constraints_eq_ok hconstraints
  exact ⟨rfl, a.withConstraints_withTables value tables, hresolved⟩

end Writing

end SchemaArchive
