import SchemaArchive.Proofs.Archive.DistinctNumbers
import SchemaArchive.Proofs.Script.KeysLast

/-!
# Exporting a version and importing it again

The tree of a stored version is well formed, so the schema that it holds can be stored again, and
nothing in it names a column in vain.  Writing this schema as a script puts the foreign keys
behind the other constraints of their table, and gives names to those that have none; this takes
nothing away.  Hence the script can be imported under any free name, and all of the schema is
there again.

* `Table.Keeps` — a table has all that another one has.
* `Version.WellFormed.storable`, `Version.WellFormed.namesExist` — what a stored version says of
  its schema.
* `Archive.importScript_renderScript` — the script of a version can be imported.
-/

namespace SchemaArchive

open Grammar

/-! ## What a table keeps -/

/-- What a constraint is about, whatever its name. -/
def Constraint.content (c : Constraint) : ConstraintKind × List String × Option Reference :=
  (c.kind, c.columns, c.reference?)

/-- The table `t'` has all that `t` has, up to the order of constraints and their names. -/
structure Table.Keeps (t' t : Table) : Prop where
  name : t'.name = t.name
  columns : t'.columns = t.columns
  constraints : (t'.constraints.map Constraint.content).Perm (t.constraints.map Constraint.content)

@[simp] theorem Constraint.content_named (generated : String) (c : Constraint) :
    (c.named generated).content = c.content := by
  cases c <;> rfl

theorem map_content_namedForeignKeys (table : String) (number : Nat)
    (constraints : List Constraint) :
    (namedForeignKeys table number constraints).map Constraint.content =
      (constraints.filter Constraint.isForeignKey).map Constraint.content := by
  have hcontent : (Constraint.content ∘ fun k : Constraint × Nat =>
      k.1.named (Table.generatedName table k.2)) = Constraint.content ∘ Prod.fst :=
    funext fun k => Constraint.content_named _ k.1
  rw [namedForeignKeys, List.map_map, hcontent, ← List.map_map, List.zipIdx_map_fst]

theorem Table.keeps_keysLast (t : Table) : t.keysLast.Keeps t where
  name := rfl
  columns := rfl
  constraints := by
    rw [keysLast, List.map_append, map_content_namedForeignKeys, ← List.map_append]
    have hperm := List.filter_append_perm (fun c : Constraint => !c.isForeignKey) t.constraints
    simp only [Bool.not_not] at hperm
    exact hperm.map Constraint.content

/-- A constraint of a table that keeps another one is about the same as one of the other. -/
theorem Table.Keeps.exists_of_mem {t' t : Table} (h : t'.Keeps t) {c : Constraint}
    (hc : c ∈ t'.constraints) :
    ∃ k ∈ t.constraints, k.columns = c.columns ∧ k.reference? = c.reference? := by
  have hmem := h.constraints.mem_iff.1 (List.mem_map_of_mem hc)
  obtain ⟨k, hk, hcontent⟩ := List.mem_map.1 hmem
  obtain ⟨-, hrest⟩ := Prod.mk.inj hcontent
  obtain ⟨hcolumns, hreference⟩ := Prod.mk.inj hrest
  exact ⟨k, hk, hcolumns, hreference⟩

theorem Storable.keysLast {tables : List Table} (h : Storable tables) :
    Storable (tables.map Table.keysLast) where
  tables_nodup := by
    rw [map_name_keysLast]
    exact h.tables_nodup
  columns_nodup := by
    rw [List.forall_mem_map]
    exact h.columns_nodup
  references := by
    rw [List.forall_mem_map, map_name_keysLast]
    intro t ht c hc target htarget
    obtain ⟨k, hk, -, hreference⟩ := t.keeps_keysLast.exists_of_mem hc
    exact h.references t ht k hk target (hreference.trans htarget)

theorem NamesExist.keysLast {tables : List Table} (h : NamesExist tables) :
    NamesExist (tables.map Table.keysLast) := by
  have hfind : ∀ name column, ((tables.map Table.keysLast).find? (·.name == name)).any
      (·.hasColumn column) = (tables.find? (·.name == name)).any (·.hasColumn column) := by
    intro name column
    rw [List.find?_map, Option.any_map]
    rfl
  unfold NamesExist
  rw [List.forall_mem_map]
  intro t ht c hc
  obtain ⟨k, hk, hcolumns, hreference⟩ := t.keeps_keysLast.exists_of_mem hc
  obtain ⟨hnames, htargets⟩ := h t ht k hk
  rw [← hcolumns, ← hreference]
  refine ⟨hnames, fun target htarget name hname => ?_⟩
  rw [hfind]
  exact htargets target htarget name hname

/-! ## The schema of a stored version -/

/-- What a stored constraint refers to, by names, is what its reference says. -/
theorem StoredConstraint.InPlace.exists_reference {k : StoredConstraint} {v : Version}
    {t : StoredTable} (h : k.InPlace v t) {target : Reference}
    (htarget : k.toConstraint.reference? = some target) :
    ∃ r : StoredReference, r.InPlace v k ∧
      target = ⟨r.tableName, r.targets.map (·.columnName)⟩ := by
  have hkind : k.kind = .foreignKey ∧ k.target = target := by
    cases hkind : k.kind <;> simp_all [toConstraint, Constraint.reference?]
  obtain ⟨r, hr⟩ := Option.isSome_iff_exists.1 (h.reference_iff.2 hkind.1)
  refine ⟨r, h.reference r hr, ?_⟩
  rw [← hkind.2, StoredConstraint.target, hr]

/-- A stored constraint names the columns that it constrains. -/
theorem StoredConstraint.columns_toConstraint (k : StoredConstraint) :
    k.toConstraint.columns = k.members.map (·.columnName) := by
  cases hkind : k.kind <;> simp [toConstraint, Constraint.columns, hkind]

theorem StoredTable.HasColumn.hasColumn_toTable {t : StoredTable} {id : Nat} {name : String}
    (h : t.HasColumn id name) : t.toTable.hasColumn name = true := by
  obtain ⟨c, hc, -, rfl⟩ := h
  rw [Table.hasColumn, List.any_eq_true]
  exact ⟨c.column, List.mem_map_of_mem hc, beq_self_eq_true _⟩

namespace Version.WellFormed

variable {v : Version}

theorem map_name_toTables (v : Version) : v.toTables.map (·.name) = v.tables.map (·.name) := by
  rw [toTables, List.map_map]
  rfl

/-- The schema of a stored version can be stored again. -/
theorem storable (h : v.WellFormed) : Storable v.toTables where
  tables_nodup := by
    rw [map_name_toTables]
    exact h.table_names
  columns_nodup := by
    rw [toTables, List.forall_mem_map]
    intro t ht
    have hnames := (h.tables t ht).column_names
    rw [StoredTable.toTable, List.map_map]
    exact hnames
  references := by
    rw [map_name_toTables, toTables, List.forall_mem_map]
    intro t ht
    rw [StoredTable.toTable, List.forall_mem_map]
    intro k hk target htarget
    obtain ⟨r, hr, rfl⟩ := ((h.tables t ht).constraints k hk).exists_reference htarget
    obtain ⟨t', ht', -, hname, -⟩ := hr.table
    exact hname ▸ List.mem_map_of_mem ht'

/-- The table of a name is found by it. -/
theorem find?_toTables (h : v.WellFormed) {t : StoredTable} (ht : t ∈ v.tables) :
    v.toTables.find? (·.name == t.name) = some t.toTable := by
  have hnodup : (v.toTables.map (·.name)).Nodup := by
    rw [map_name_toTables]
    exact h.table_names
  have hmem : t.toTable ∈ v.toTables := List.mem_map_of_mem ht
  exact find?_of_nodup_map hnodup hmem

/-- The schema of a stored version names no column in vain. -/
theorem namesExist (h : v.WellFormed) : NamesExist v.toTables := by
  unfold NamesExist
  rw [toTables, List.forall_mem_map]
  intro t ht c hc
  obtain ⟨k, hk, rfl⟩ := List.mem_map.1 hc
  have hplace := (h.tables t ht).constraints k hk
  constructor
  · rw [StoredConstraint.columns_toConstraint, List.forall_mem_map]
    exact fun m hm => (hplace.members_column m hm).hasColumn_toTable
  · intro target htarget
    obtain ⟨r, hr, rfl⟩ := hplace.exists_reference htarget
    obtain ⟨t', ht', -, hname, htargets⟩ := hr.table
    rw [List.forall_mem_map]
    intro m hm
    have hfind := h.find?_toTables ht'
    rw [hname] at hfind
    show (v.toTables.find? (·.name == r.tableName)).any _ = true
    rw [hfind]
    exact (htargets m hm).hasColumn_toTable

end Version.WellFormed

/-! ## Importing what was exported -/

namespace Archive

/-- The script of any version that a reachable archive holds can be imported under any free name,
as far as its types are types, and the new version holds the same schema with the foreign keys of
each table last. -/
theorem importScript_renderScript (operations : List (String × Operation)) {v : Version}
    (hv : v ∈ (empty.run operations).2.liveVersions)
    (htypes : ∀ t ∈ v.tables, ∀ c ∈ t.columns, IsTypeText c.column.type.toList)
    {value : VersionRow} (hname : ∀ s ∈ (empty.run operations).2.list, s.name ≠ value.name) :
    ∃ v' a', (empty.run operations).2.importScript value (renderScript v.toTables) =
        (.ok v', a') ∧
      v'.name = value.name ∧ v'.description = value.description ∧
      v'.toTables = v.toTables.map Table.keysLast ∧
      List.Forall₂ Table.Keeps v'.toTables v.toTables := by
  have hsound := sound_run operations
  have hwf : v.WellFormed := wellFormed_of_live operations ((mem_liveVersions_iff hsound).1 hv)
  have hstorable := hwf.storable
  have hread : readScript (renderScript v.toTables) = .ok (v.toTables.map Table.keysLast) := by
    refine readScript_of_nodup hstorable.tables_nodup ?_
    rw [Version.toTables, List.forall_mem_map]
    intro t ht
    rw [StoredTable.toTable, List.forall_mem_map]
    exact htypes t ht
  have hfree : ∀ row ∈ (empty.run operations).2.versions.rows, row.value.name ≠ value.name := by
    intro row hrow
    rw [list_eq hsound.intact] at hname
    exact hname (summary row) (List.mem_map_of_mem (List.mem_reverse.2 hrow))
  obtain ⟨v', a', hs⟩ := (exists_store_eq_ok_iff hsound).2 ⟨hfree, hstorable.keysLast⟩
  have htables : v'.toTables = v.toTables.map Table.keysLast := by
    obtain ⟨rfl, rfl, hresolved⟩ := store_eq_ok hsound hs
    rw [toTables_newVersion hsound.intact value hresolved,
      restricted_eq_self hwf.namesExist.keysLast]
  refine ⟨v', a', ?_, ?_, ?_, htables, ?_⟩
  · rw [importScript, hread]
    exact hs
  · obtain ⟨-, rfl, -⟩ := store_eq_ok hsound hs
    rfl
  · obtain ⟨-, rfl, -⟩ := store_eq_ok hsound hs
    rfl
  · rw [htables, List.forall₂_map_left_iff, List.forall₂_same]
    exact fun t _ => t.keeps_keysLast

/-- A version is imported again under the name of one that has been deleted.  A foreign key
without a name stands before another and before an index; both refer to their own table. -/
theorem importScript_renderScript_unnamedKey :
    let x : Column := ⟨"x", "VARCHAR(20)", false, true, some "it's", false⟩
    let unnamed : Constraint := .foreignKey "" ["x"] ⟨"t`", ["x", "x"]⟩
    let named : Constraint := .foreignKey "f" [] ⟨"t`", []⟩
    let tables : List Table := [⟨"t`", [x], [named, unnamed, .key none ["x"]]⟩]
    let operations : List (String × Operation) :=
      [("1", .store tables "u" none), ("2", .store tables "v" none), ("3", .delete 1)]
    ∃ v v' a', (empty.run operations).2.get? 2 = .ok (some v) ∧ v.toTables = tables ∧
      (empty.run operations).2.importScript ⟨"u", none, "4"⟩ (renderScript v.toTables) =
        (.ok v', a') ∧
      v'.toTables = [⟨"t`", [x],
        [.key none ["x"], named, .foreignKey "t`_ibfk_2" ["x"] ⟨"t`", ["x", "x"]⟩]⟩] := by
  intro x unnamed named tables operations
  have hfound : ((empty.run operations).2.get? 2).toOption.join.map Version.toTables =
      some tables := by decide +kernel
  have hlive : ((empty.run operations).2.get? 2).toOption.join.all
      (· ∈ (empty.run operations).2.liveVersions) = true := by decide +kernel
  have hall : ((empty.run operations).2.get? 2).toOption.join.all (fun v =>
      v.tables.all fun t => t.columns.all (·.column.type == "VARCHAR(20)")) = true := by
    decide +kernel
  have htype : IsTypeText "VARCHAR(20)".toList := by
    have htext : "VARCHAR(20)".toList =
        "VARCHAR".toList ++ '(' :: ([','].intercalate ["20".toList] ++ [')']) := by decide
    have hargument : IsTypeArgument "20".toList := .number (by decide)
    rw [htext]
    exact .arguments (by decide) (by decide) (by simpa using hargument)
  let value : VersionRow := ⟨"u", none, "4"⟩
  have hfree : ∀ s ∈ (empty.run operations).2.list, s.name ≠ value.name := by decide +kernel
  rcases hget : (empty.run operations).2.get? 2 with e | (_ | v)
  · rw [hget] at hfound
    cases hfound
  · rw [hget] at hfound
    cases hfound
  · rw [hget] at hfound hlive hall
    simp only [Except.toOption, Option.join_some, Option.all_some, decide_eq_true_eq,
      List.all_eq_true, beq_iff_eq] at hlive hall
    have htypes : ∀ t ∈ v.tables, ∀ c ∈ t.columns, IsTypeText c.column.type.toList :=
      fun t ht c hc => hall t ht c hc ▸ htype
    have hschema : v.toTables = tables := Option.some.inj hfound
    obtain ⟨v', a', himport, -, -, htables, -⟩ :=
      importScript_renderScript operations hlive htypes hfree
    refine ⟨v, v', a', rfl, hschema, himport, ?_⟩
    rw [htables, hschema]
    decide +kernel

end Archive

end SchemaArchive
