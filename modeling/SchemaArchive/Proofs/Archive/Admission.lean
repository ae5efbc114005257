import SchemaArchive.Proofs.Archive.Intact

/-!
# What an archive admits

An intact archive admits a schema under a name that no version has, if the schema's tables have
names of their own, if so have the columns of each table, and if every foreign key refers to one
of its tables.  Nothing else can go wrong: the rows of older versions are not in the way, since
the new ones are told apart from them by their numbers.

* `Storable` — what a schema has to be like.
* `Archive.exists_store_eq_ok_iff` — an archive admits exactly the storable schemas under free
  names.
-/

namespace SchemaArchive

/-- Names do not clash in the schema, and no foreign key refers to a table outside of it. -/
structure Storable (tables : List Table) : Prop where
  tables_nodup : (tables.map (·.name)).Nodup
  columns_nodup : ∀ t ∈ tables, (t.columns.map (·.name)).Nodup
  references : ∀ t ∈ tables, ∀ c ∈ t.constraints, ∀ target, c.reference? = some target →
    target.table ∈ tables.map (·.name)

namespace Writing

variable {α β : Type}

/-- The step does not fail on this archive. -/
def Succeeds (p : Writing α) (a : Archive) : Prop :=
  ∃ x a', p a = (.ok x, a')

theorem succeeds_bind_iff {p : Writing α} {f : α → Writing β} {a : Archive} :
    (p >>= f).Succeeds a ↔ ∃ x a', p a = (.ok x, a') ∧ (f x).Succeeds a' := by
  constructor
  · rintro ⟨y, a₂, h⟩
    obtain ⟨x, a₁, hp, hf⟩ := bind_eq_ok_iff.1 h
    exact ⟨x, a₁, hp, y, a₂, hf⟩
  · rintro ⟨x, a₁, hp, y, a₂, hf⟩
    exact ⟨y, a₂, bind_eq_ok_iff.2 ⟨x, a₁, hp, hf⟩⟩

theorem succeeds_pure (x : α) (a : Archive) : (pure x : Writing α).Succeeds a :=
  ⟨x, a, rfl⟩

/-- What is made of an outcome does not matter. -/
theorem succeeds_map_iff {p : Writing α} {f : α → β} {a : Archive} :
    (p >>= fun x => pure (f x)).Succeeds a ↔ p.Succeeds a := by
  rw [succeeds_bind_iff]
  constructor
  · rintro ⟨x, a', hp, -⟩
    exact ⟨x, a', hp⟩
  · rintro ⟨x, a', hp⟩
    exact ⟨x, a', hp, succeeds_pure _ _⟩

/-- A step whose outcome is known is followed by what follows that outcome. -/
theorem succeeds_bind_of_eq_ok {p : Writing α} {f : α → Writing β} {a : Archive}
    {outcome : α × Archive} (hp : ∀ x a', p a = (.ok x, a') → (x, a') = outcome) :
    (p >>= f).Succeeds a ↔ p.Succeeds a ∧ (f outcome.1).Succeeds outcome.2 := by
  rw [succeeds_bind_iff]
  constructor
  · rintro ⟨x, a₁, h, hf⟩
    have heq := hp x a₁ h
    subst heq
    exact ⟨⟨x, a₁, h⟩, hf⟩
  · rintro ⟨⟨x, a₁, h⟩, hf⟩
    have heq := hp x a₁ h
    subst heq
    exact ⟨x, a₁, h, hf⟩

/-! ## Rows -/

/-- A step that fails on names which are taken, and has an outcome otherwise. -/
theorem succeeds_iff_of_eq_ite {p : Writing α} {a a' : Archive} {taken : Bool} {e : StoreError}
    {x : α} (hp : p a = if taken then (.error e, a) else (.ok x, a')) :
    p.Succeeds a ↔ taken = false := by
  unfold Succeeds
  rw [hp]
  cases taken with
  | false => exact iff_of_true ⟨x, a', rfl⟩ rfl
  | true => exact iff_of_false (by rintro ⟨x, a', ⟨⟩⟩) (by simp)

theorem version_succeeds_iff {value : VersionRow} {a : Archive} :
    (version value).Succeeds a ↔ ∀ row ∈ a.versions.rows, row.value.name ≠ value.name :=
  (succeeds_iff_of_eq_ite rfl).trans (by simp)

theorem tableRow_succeeds_iff {value : TableRow} {a : Archive} :
    (tableRow value).Succeeds a ↔ ∀ row ∈ a.tables.rows, row.value.version = value.version →
      row.value.name ≠ value.name :=
  (succeeds_iff_of_eq_ite rfl).trans (by simp)

theorem columnRow_succeeds_iff {value : ColumnRow} {a : Archive} :
    (columnRow value).Succeeds a ↔ ∀ row ∈ a.columns.rows, row.value.table = value.table →
      row.value.column.name ≠ value.column.name :=
  (succeeds_iff_of_eq_ite rfl).trans (by simp)

/-! ## First round -/

/-- Columns are written unless the table has their names already, or they share one. -/
theorem columns_succeeds_iff {table order : Nat} {cs : List Column} {a : Archive} :
    (columns table order cs).Succeeds a ↔
      (∀ row ∈ a.columns.rows, row.value.table = table →
          row.value.column.name ∉ cs.map (·.name)) ∧
        (cs.map (·.name)).Nodup := by
  induction cs generalizing a order with
  | nil => exact iff_of_true (succeeds_pure _ _) (by simp)
  | cons c cs ih =>
    have hrow : ∀ id a', columnRow ⟨table, c, order⟩ a = (.ok id, a') →
        (id, a') =
          (a.columns.nextId, { a with columns := a.columns.insert ⟨table, c, order⟩ }) := by
      intro id a' h
      obtain ⟨rfl, rfl⟩ := columnRow_eq_ok h
      rfl
    have hrows : ∀ row, row ∈ (a.columns.insert ⟨table, c, order⟩).rows ↔
        row ∈ a.columns.rows ∨ row = ⟨a.columns.nextId, ⟨table, c, order⟩⟩ := by
      simp [Relation.insert]
    rw [columns, succeeds_bind_of_eq_ok hrow, columnRow_succeeds_iff, succeeds_map_iff, ih,
      List.map_cons, List.nodup_cons]
    simp only [hrows, List.mem_cons, not_or]
    constructor
    · rintro ⟨hc, hcs, hnodup⟩
      exact ⟨fun row hmem htable => ⟨hc row hmem htable, hcs row (.inl hmem) htable⟩,
        hcs _ (.inr rfl) rfl, hnodup⟩
    · rintro ⟨hnames, hc, hnodup⟩
      refine ⟨fun row hmem htable => (hnames row hmem htable).1, ?_, hnodup⟩
      rintro row (hmem | rfl) htable
      · exact (hnames row hmem htable).2
      · exact hc

/-- A table is written unless the version has one of its name already, or columns of it share a
name.  Its number is new, so no column is in the way. -/
theorem table_succeeds_iff {v : Nat} {t : Table} {a : Archive}
    (hcolumns : ∀ row ∈ a.columns.rows, row.value.table < a.tables.nextId) :
    (table v t).Succeeds a ↔
      (∀ row ∈ a.tables.rows, row.value.version = v → row.value.name ≠ t.name) ∧
        (t.columns.map (·.name)).Nodup := by
  have hrow : ∀ id a', tableRow ⟨v, t.name⟩ a = (.ok id, a') →
      (id, a') = (a.tables.nextId, { a with tables := a.tables.insert ⟨v, t.name⟩ }) := by
    intro id a' h
    obtain ⟨rfl, rfl⟩ := tableRow_eq_ok h
    rfl
  have hnew : ∀ row ∈ a.columns.rows, row.value.table = a.tables.nextId →
      row.value.column.name ∉ t.columns.map (·.name) := by
    intro row hmem htable
    have hlt := hcolumns row hmem
    omega
  rw [table, succeeds_bind_of_eq_ok hrow, tableRow_succeeds_iff, succeeds_map_iff,
    columns_succeeds_iff]
  exact and_congr_right fun _ => and_iff_right hnew

/-- Tables are written unless the version has one of their names already, two of them share a
name, or columns of one of them do. -/
theorem tables_succeeds_iff {v : Nat} {ts : List Table} {a : Archive}
    (hcolumns : ∀ row ∈ a.columns.rows, row.value.table < a.tables.nextId) :
    (ts.mapM (table v)).Succeeds a ↔
      (∀ row ∈ a.tables.rows, row.value.version = v → row.value.name ∉ ts.map (·.name)) ∧
        (ts.map (·.name)).Nodup ∧ ∀ t ∈ ts, (t.columns.map (·.name)).Nodup := by
  induction ts generalizing a with
  | nil => exact iff_of_true (by rw [List.mapM_nil]; exact succeeds_pure _ _) (by simp)
  | cons t ts ih =>
    have ht : ∀ w a', table v t a = (.ok w, a') → (w, a') =
        (⟨t, a.tables.nextId, namedIds a.columns.nextId t.columns⟩,
          { a with
            tables := a.tables.insert ⟨v, t.name⟩
            columns := a.columns.insertAll (columnValues a.tables.nextId 1 t.columns) }) := by
      intro w a' h
      obtain ⟨rfl, rfl⟩ := table_eq_ok h
      rfl
    have hrows : ∀ row, row ∈ (a.tables.insert ⟨v, t.name⟩).rows ↔
        row ∈ a.tables.rows ∨ row = ⟨a.tables.nextId, ⟨v, t.name⟩⟩ := by
      simp [Relation.insert]
    have hcolumns' : ∀ row ∈ (a.columns.insertAll (columnValues a.tables.nextId 1 t.columns)).rows,
        row.value.table < (a.tables.insert ⟨v, t.name⟩).nextId := by
      intro row hmem
      have hnext : (a.tables.insert ⟨v, t.name⟩).nextId = a.tables.nextId + 1 := rfl
      rcases Relation.mem_insertAll hmem with hold | ⟨-, hnew⟩
      · have := hcolumns row hold
        omega
      · obtain ⟨c, -, hc⟩ := List.mem_map.1 hnew
        rw [← hc]
        exact Nat.lt_succ_self _
    rw [List.mapM_cons, succeeds_bind_of_eq_ok ht, succeeds_map_iff, table_succeeds_iff hcolumns,
      ih hcolumns', List.map_cons, List.nodup_cons, List.forall_mem_cons]
    simp only [hrows, List.mem_cons, not_or]
    constructor
    · rintro ⟨⟨hname, hown⟩, hnames, hnodup, hmore⟩
      exact ⟨fun row hmem hv => ⟨hname row hmem hv, hnames row (.inl hmem) hv⟩,
        ⟨hnames _ (.inr rfl) rfl, hnodup⟩, hown, hmore⟩
    · rintro ⟨hnames, ⟨hname, hnodup⟩, hown, hmore⟩
      refine ⟨⟨fun row hmem hv => (hnames row hmem hv).1, hown⟩, ?_, hnodup, hmore⟩
      rintro row (hmem | rfl) hv
      · exact (hnames row hmem hv).2
      · exact hname

/-! ## Second round -/

/-- A constraint is written unless it is a foreign key that refers to no table. -/
theorem constraint_succeeds_iff {written : List WrittenTable} {owner : WrittenTable}
    {c : Constraint} {a : Archive} :
    (constraint written owner c).Succeeds a ↔ c.Resolved written := by
  constructor
  · rintro ⟨⟨⟩, a', h⟩
    exact (constraint_eq_ok h).1
  · intro h
    refine succeeds_bind_iff.2 ⟨_, _, rfl, succeeds_bind_iff.2 ⟨(), _, rfl, ?_⟩⟩
    cases htarget : c.reference? with
    | none => exact succeeds_pure _ _
    | some target =>
      obtain ⟨⟨table, columns⟩, hr⟩ := Option.isSome_iff_exists.1 (h (by rw [htarget]; rfl))
      obtain ⟨_, htarget', hfind, -⟩ := Constraint.referenced?_eq_some_iff.1 hr
      cases htarget.symm.trans htarget'
      show (reference written owner _ (c.name?.getD "") target).Succeeds _
      rw [reference, hfind]
      exact succeeds_bind_iff.2 ⟨_, _, rfl, (), _, rfl⟩

theorem constraints_succeeds_iff {written : List WrittenTable}
    {cs : List (WrittenTable × Constraint)} {a : Archive} :
    (cs.forM fun c => constraint written c.1 c.2).Succeeds a ↔ ∀ c ∈ cs, c.2.Resolved written := by
  induction cs generalizing a with
  | nil => exact iff_of_true (succeeds_pure _ _) nofun
  | cons c cs ih =>
    have hcons : ((c :: cs).forM fun c => constraint written c.1 c.2) =
        constraint written c.1 c.2 >>= fun _ => cs.forM fun c => constraint written c.1 c.2 := rfl
    rw [hcons, succeeds_bind_iff, List.forall_mem_cons]
    constructor
    · rintro ⟨⟨⟩, a', hc, hcs⟩
      exact ⟨constraint_succeeds_iff.1 ⟨_, _, hc⟩, ih.1 hcs⟩
    · rintro ⟨hc, hcs⟩
      obtain ⟨⟨⟩, a', hc⟩ := constraint_succeeds_iff.2 hc
      exact ⟨(), a', hc, ih.2 hcs⟩

end Writing

/-! ## Schemas -/

theorem Constraint.resolved_iff {written : List WrittenTable} {c : Constraint} :
    c.Resolved written ↔ ∀ target, c.reference? = some target →
      target.table ∈ written.map (·.table.name) := by
  constructor
  · intro h target htarget
    obtain ⟨⟨table, columns⟩, hr⟩ := Option.isSome_iff_exists.1 (h (by rw [htarget]; rfl))
    obtain ⟨_, htarget', hfind, -⟩ := referenced?_eq_some_iff.1 hr
    cases htarget.symm.trans htarget'
    have hname := List.find?_some hfind
    exact List.mem_map.2 ⟨table, List.mem_of_find?_eq_some hfind, beq_iff_eq.1 hname⟩
  · intro h hsome
    obtain ⟨target, htarget⟩ := Option.isSome_iff_exists.1 hsome
    obtain ⟨w, hw, hname⟩ := List.mem_map.1 (h target htarget)
    have hfound : (written.find? (·.table.name == target.table)).isSome = true :=
      List.find?_isSome.2 ⟨w, hw, beq_iff_eq.2 hname⟩
    obtain ⟨table, hfind⟩ := Option.isSome_iff_exists.1 hfound
    rw [referenced?_eq_some_iff.2 ⟨target, htarget, hfind, rfl⟩]
    rfl

/-- The references of a schema can be resolved if they are to tables of the schema. -/
theorem Archive.forall_resolved_iff (a : Archive) (tables : List Table) :
    (∀ c ∈ owned (a.newTables tables), c.2.Resolved (a.newTables tables)) ↔
      ∀ t ∈ tables, ∀ c ∈ t.constraints, ∀ target, c.reference? = some target →
        target.table ∈ tables.map (·.name) := by
  have htables : (a.newTables tables).map WrittenTable.table = tables := map_table_placed ..
  generalize a.newTables tables = written at htables ⊢
  subst htables
  simp only [owned, List.forall_mem_flatMap, List.forall_mem_map, Constraint.resolved_iff,
    List.map_map, Function.comp_def]

namespace Writing

/-- A schema is written under a free name if it is storable, and otherwise not. -/
theorem schema_succeeds_iff {a : Archive} (h : a.Intact) {value : VersionRow}
    {tables : List Table} :
    (schema value tables).Succeeds a ↔
      (∀ row ∈ a.versions.rows, row.value.name ≠ value.name) ∧ Storable tables := by
  have hversion : ∀ id a', version value a = (.ok id, a') → (id, a') =
      (a.versions.nextId, { a with versions := a.versions.insert value }) := by
    intro id a' hv
    obtain ⟨rfl, rfl⟩ := version_eq_ok hv
    rfl
  have htables : ∀ written a',
      tables.mapM (table a.versions.nextId) { a with versions := a.versions.insert value } =
        (.ok written, a') → (written, a') =
      (a.newTables tables,
        { a with versions := a.versions.insert value }.withTables a.versions.nextId tables) := by
    intro written a' ht
    obtain ⟨rfl, rfl⟩ := tables_eq_ok ht
    rfl
  -- No row that is there already has the number of the new version, or of one of its tables.
  have hnewVersion : ∀ row ∈ a.tables.rows, row.value.version = a.versions.nextId →
      row.value.name ∉ tables.map (·.name) := by
    intro row hrow hid
    have hle := h.versions.le_of_has (h.tables_version row hrow)
    simp only [Relation.nextId] at hid
    omega
  have hnewTables : ∀ row ∈ a.columns.rows, row.value.table < a.tables.nextId := fun row hrow =>
    Nat.lt_succ_of_le (h.tables.le_of_has (h.columns_table row hrow))
  have hfirst : (tables.mapM (table a.versions.nextId)).Succeeds
      { a with versions := a.versions.insert value } ↔
        (tables.map (·.name)).Nodup ∧ ∀ t ∈ tables, (t.columns.map (·.name)).Nodup :=
    (tables_succeeds_iff (a := { a with versions := a.versions.insert value }) hnewTables).trans
      (and_iff_right hnewVersion)
  rw [schema, succeeds_bind_of_eq_ok hversion, version_succeeds_iff,
    succeeds_bind_of_eq_ok htables, hfirst, succeeds_map_iff, constraints_eq_forM,
    constraints_succeeds_iff, Archive.forall_resolved_iff]
  refine and_congr_right fun _ => ⟨?_, ?_⟩
  · rintro ⟨⟨hnames, hcolumns⟩, hreferences⟩
    exact ⟨hnames, hcolumns, hreferences⟩
  · intro hs
    exact ⟨⟨hs.tables_nodup, hs.columns_nodup⟩, hs.references⟩

end Writing

end SchemaArchive
