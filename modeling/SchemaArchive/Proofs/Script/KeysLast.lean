import SchemaArchive.Proofs.Archive.Numbering
import SchemaArchive.Proofs.Script.RoundTrip

/-!
# Foreign keys behind the other constraints

A schema whose tables have different names comes back from its script with the foreign keys of
each table behind its other constraints, and with names for those that had none.  Nothing of this
can be seen in the script: foreign keys are written behind all tables anyhow, and a foreign key
without a name is written with the name that it will have.  So the schema that comes back has the
same script, to the character.

* `Table.keysLast` — a table as it comes back.
* `readScript_of_nodup` — the script of a schema reads as the schema with its foreign keys last.
* `renderScript_keysLast` — a schema is written as it is written with its foreign keys last.
-/

namespace SchemaArchive

open Grammar

/-- The table with its foreign keys behind the other constraints.  Those with an empty name are
called after the table and their number in it. -/
def Table.keysLast (t : Table) : Table :=
  { t with constraints := t.indexes ++ namedForeignKeys t.name 1 t.constraints }

theorem map_name_keysLast (tables : List Table) :
    (tables.map Table.keysLast).map (·.name) = tables.map (·.name) := by
  rw [List.map_map]
  rfl

/-! ## Reading the script of a schema whose tables have different names -/

/-- Foreign keys come to the table of their own if no other table has its name. -/
theorem gatheredFrom_of_nodup {keysOf : String → List Constraint} {ts : List Table}
    (h : (ts.map (·.name)).Nodup)
    (hkeys : ∀ t ∈ ts, keysOf t.name = namedForeignKeys t.name 1 t.constraints) :
    gatheredFrom keysOf ts = ts.map Table.keysLast := by
  induction ts with
  | nil => rfl
  | cons t ts ih =>
    rw [List.map_cons, List.nodup_cons] at h
    rw [List.forall_mem_cons] at hkeys
    have hlast : ¬(ts.any (·.name == t.name)) = true := by
      rw [List.any_eq_true]
      rintro ⟨u, hu, hname⟩
      exact h.1 (beq_iff_eq.1 hname ▸ List.mem_map_of_mem hu)
    rw [gatheredFrom, if_neg hlast, hkeys.1, ih h.2 hkeys.2, List.map_cons, Table.keysLast]

theorem gathered_of_nodup {tables : List Table} (h : (tables.map (·.name)).Nodup) :
    gathered tables = tables.map Table.keysLast := by
  refine gatheredFrom_of_nodup h fun t ht => ?_
  rw [foreignKeysOf, filter_of_nodup_map h ht, List.flatMap_singleton]

/-- The script of a schema whose tables have different names reads as the schema with its foreign
keys last, if its types are read as they are written. -/
theorem readScript_of_settled {tables : List Table} (h : (tables.map (·.name)).Nodup)
    (htypes : ∀ t ∈ tables, ∀ c ∈ t.columns, IsSettledType c.type.toList) :
    readScript (renderScript tables) = .ok (tables.map Table.keysLast) := by
  obtain ⟨s, htokens, hstatements⟩ := tokenize_rendered htypes
  have hschema : schemaOf s.statements = tables.map Table.keysLast := by
    rw [schemaOf_eq_declared, hstatements, declared_statements, gathered_of_nodup h]
  rw [readScript, htokens, readTokens, statements_tokens, ← hschema]

theorem readScript_of_nodup {tables : List Table} (h : (tables.map (·.name)).Nodup)
    (htypes : ∀ t ∈ tables, ∀ c ∈ t.columns, IsTypeText c.type.toList) :
    readScript (renderScript tables) = .ok (tables.map Table.keysLast) :=
  readScript_of_settled h fun t ht c hc => (htypes t ht c hc).settled

/-! ## Writing again what was read -/

theorem namedForeignKeys_cons (table : String) (number : Nat) (name : String)
    (columns : List String) (target : Reference) (constraints : List Constraint) :
    namedForeignKeys table number (.foreignKey name columns target :: constraints) =
      .foreignKey (if name.isEmpty then Table.generatedName table number else name) columns
          target ::
        namedForeignKeys table (number + 1) constraints := rfl

theorem namedForeignKeys_cons_of_index (table : String) (number : Nat) {c : Constraint}
    (h : c.isForeignKey = false) (constraints : List Constraint) :
    namedForeignKeys table number (c :: constraints) =
      namedForeignKeys table number constraints := by
  rw [namedForeignKeys, List.filter_cons_of_neg (by simp [h]), ← namedForeignKeys]

theorem foreignKeysFrom_cons (table : String) (number : Nat) (name : String)
    (columns : List String) (target : Reference) (constraints : List Constraint) :
    Render.foreignKeysFrom table number (.foreignKey name columns target :: constraints) =
      Render.foreignKey table number name columns target ++
        Render.foreignKeysFrom table (number + 1) constraints := rfl

theorem foreignKeysFrom_cons_of_index (table : String) (number : Nat) {c : Constraint}
    (h : c.isForeignKey = false) (constraints : List Constraint) :
    Render.foreignKeysFrom table number (c :: constraints) =
      Render.foreignKeysFrom table number constraints := by
  cases c with
  | foreignKey => cases h
  | _ => rfl

/-- A foreign key is written as it is written with the name that it gets for want of one. -/
theorem foreignKeysFrom_namedForeignKeys (table : String) (number : Nat)
    (constraints : List Constraint) :
    Render.foreignKeysFrom table number (namedForeignKeys table number constraints) =
      Render.foreignKeysFrom table number constraints := by
  induction constraints generalizing number with
  | nil => rfl
  | cons c constraints ih =>
    cases hc : c.isForeignKey with
    | false => rw [namedForeignKeys_cons_of_index _ _ hc, foreignKeysFrom_cons_of_index _ _ hc, ih]
    | true =>
      cases c with
      | foreignKey name columns target =>
        rw [namedForeignKeys_cons, foreignKeysFrom_cons, foreignKeysFrom_cons, ih]
        refine congrArg (· ++ _) ?_
        unfold Render.foreignKey
        by_cases hname : name.isEmpty = true
        · simp only [if_pos hname, ite_self]
        · simp only [if_neg hname]
      | _ => cases hc

/-- Indexes are passed over where foreign keys are written, and do not count. -/
theorem foreignKeysFrom_append_of_indexes (table : String) (number : Nat)
    {indexes : List Constraint} (h : ∀ c ∈ indexes, c.isForeignKey = false)
    (keys : List Constraint) :
    Render.foreignKeysFrom table number (indexes ++ keys) =
      Render.foreignKeysFrom table number keys := by
  induction indexes with
  | nil => rfl
  | cons c indexes ih =>
    rw [List.forall_mem_cons] at h
    rw [List.cons_append, foreignKeysFrom_cons_of_index _ _ h.1, ih h.2]

theorem isForeignKey_of_mem_indexes {t : Table} {c : Constraint} (h : c ∈ t.indexes) :
    c.isForeignKey = false := by
  simpa using (List.mem_filter.1 h).2

theorem foreignKeys_keysLast (t : Table) : Render.foreignKeys t.keysLast = Render.foreignKeys t :=
  (foreignKeysFrom_append_of_indexes _ _ (fun _ => isForeignKey_of_mem_indexes) _).trans
    (foreignKeysFrom_namedForeignKeys t.name 1 t.constraints)

/-- A foreign key has no line in the body of its table, and everything else has. -/
theorem constraint?_eq_none_iff {c : Constraint} :
    Render.constraint? c = none ↔ c.isForeignKey = true := by
  cases c <;> simp [Render.constraint?, Constraint.isForeignKey]

theorem filterMap_constraint?_indexes (t : Table) :
    t.indexes.filterMap Render.constraint? = t.constraints.filterMap Render.constraint? := by
  rw [Table.indexes, List.filterMap_filter]
  refine List.filterMap_congr fun c _ => ?_
  cases hc : c.isForeignKey with
  | false => rfl
  | true => exact (constraint?_eq_none_iff.2 hc).symm

theorem isForeignKey_of_mem_namedForeignKeys {table : String} {number : Nat}
    {constraints : List Constraint} {c : Constraint}
    (h : c ∈ namedForeignKeys table number constraints) : c.isForeignKey = true := by
  obtain ⟨k, hk, rfl⟩ := List.mem_map.1 h
  have hmem := (List.mem_filter.1 (List.fst_mem_of_mem_zipIdx hk)).2
  cases hkey : k.1 with
  | foreignKey => rfl
  | _ => rw [hkey] at hmem; cases hmem

theorem table_keysLast (t : Table) : Render.table t.keysLast = Render.table t := by
  have hkeys : (namedForeignKeys t.name 1 t.constraints).filterMap Render.constraint? = [] :=
    List.filterMap_eq_nil_iff.2 fun c hc =>
      constraint?_eq_none_iff.2 (isForeignKey_of_mem_namedForeignKeys hc)
  have hlines : Render.tableLines t.keysLast = Render.tableLines t := by
    rw [Render.tableLines, Render.tableLines, Table.keysLast, List.filterMap_append, hkeys,
      List.append_nil, filterMap_constraint?_indexes]
  have hname : t.keysLast.name = t.name := rfl
  unfold Render.table
  rw [hlines, hname]

/-- A schema is written as it is written with the foreign keys of each table last. -/
theorem renderScript_keysLast (tables : List Table) :
    renderScript (tables.map Table.keysLast) = renderScript tables := by
  have htables : (tables.map Table.keysLast).map Render.table = tables.map Render.table := by
    rw [List.map_map]
    exact List.map_congr_left fun t _ => table_keysLast t
  have hkeys : (tables.map Table.keysLast).flatMap Render.foreignKeys =
      tables.flatMap Render.foreignKeys := by
    rw [List.flatMap_map]
    exact congrArg (List.flatMap · tables) (funext foreignKeys_keysLast)
  rw [renderScript, renderScript, Render.schema, Render.schema, htables, hkeys]

/-- The script of a schema is accepted, and what is read from it has the very same script. -/
theorem renderScript_of_readScript {tables : List Table} (h : (tables.map (·.name)).Nodup)
    (htypes : ∀ t ∈ tables, ∀ c ∈ t.columns, IsTypeText c.type.toList) :
    ∃ again, readScript (renderScript tables) = .ok again ∧
      renderScript again = renderScript tables :=
  ⟨tables.map Table.keysLast, readScript_of_nodup h htypes, renderScript_keysLast tables⟩

/-- A foreign key without a name stands before another one and an index, so the schema that comes
back is not the same.  There is a table without columns, and a default with a quote in it. -/
theorem renderScript_of_readScript_reordered :
    let column : Column := ⟨"x", "DATE", false, true, some "it's", false⟩
    let target : Reference := ⟨"", ["", "x"]⟩
    let tables : List Table :=
      [⟨"t`", [column], [.foreignKey "" ["x"] target, .foreignKey "f" [] target, .key none ["x"]]⟩,
        ⟨"", [], []⟩]
    (tables.map (·.name)).Nodup ∧ tables.map Table.keysLast ≠ tables ∧
      ∃ again, readScript (renderScript tables) = .ok again ∧
        renderScript again = renderScript tables := by
  intro column target tables
  have hnames : (tables.map (·.name)).Nodup := by decide
  have htype : IsTypeText "DATE".toList := .word (by decide)
  exact ⟨hnames, by decide,
    renderScript_of_readScript hnames (by simpa [tables, column] using htype)⟩

end SchemaArchive
