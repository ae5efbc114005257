import Mathlib.Data.List.Nodup
import SchemaArchive.Proofs.Archive.Storing

/-!
# Which error it is

A schema that is not admitted is refused at the first row, in the order of writing, which cannot
be written: the version itself, then every table with its columns behind it, then the foreign
keys of all tables.

* `namedRows` — the rows of a schema whose names have to differ, in the order of writing.
* `Refused` — why a schema is not stored, and with which error.
* `Refused.unique` — there is one error at most.
* `Writing.columns_eq_error`, `Writing.tables_eq_error` — the first name that is taken.
* `Writing.constraints_eq_error` — the first foreign key that refers to no table.
* `Archive.store_eq_error_iff` — what follows for a whole schema.
* `Archive.Sound.store_at` — at another time, the outcome is the same but for the time.
-/

namespace SchemaArchive

/-! ## Rows with names -/

/-- A row that has a name: a table, or a column of the table in the given place. -/
inductive NamedRow where
  | table (name : String)
  | column (place : Nat) (name : String)
  deriving DecidableEq, Repr

/-- Where the name of the row has to be unique. -/
def NamedRow.names : NamedRow → UniqueName
  | table _ => .table
  | column _ _ => .column

/-- The rows of a table in the given place: its own, and behind it those of its columns. -/
def tableRows (place : Nat) (t : Table) : List NamedRow :=
  .table t.name :: t.columns.map fun c => .column place c.name

/-- The rows of tables and columns in the order of writing, when the first table has the given
place. -/
def namedRowsFrom : (place : Nat) → List Table → List NamedRow
  | _, [] => []
  | place, t :: ts => tableRows place t ++ namedRowsFrom (place + 1) ts

/-- The rows of tables and columns in the order of writing. -/
def namedRows (tables : List Table) : List NamedRow :=
  namedRowsFrom 0 tables

/-- The constraints of a schema in the order of writing, each with its table. -/
def declaredConstraints (tables : List Table) : List (Table × Constraint) :=
  tables.flatMap fun t => t.constraints.map (t, ·)

/-- Tables have names of their own, and so have the columns of each table. -/
def NamesDiffer (tables : List Table) : Prop :=
  (tables.map (·.name)).Nodup ∧ ∀ t ∈ tables, (t.columns.map (·.name)).Nodup

/-- If the constraint is a foreign key, it refers to one of the tables. -/
def Constraint.ResolvedIn (tables : List Table) (c : Constraint) : Prop :=
  ∀ target, c.reference? = some target → target.table ∈ tables.map (·.name)

/-- No version has the name. -/
def Archive.Free (a : Archive) (name : String) : Prop :=
  ∀ entry ∈ a.list, entry.name ≠ name

/-- Why a schema is not stored under a name, and which error is reported.  A reason counts only
where those before it do not. -/
inductive Refused (a : Archive) (name : String) (tables : List Table) : StoreError → Prop where
  /-- A version has the name. -/
  | version (taken : ¬a.Free name) : Refused a name tables (.duplicate .version)
  /-- The row of a table or a column stands behind one of the same name, and is the first that
  does. -/
  | name (free : a.Free name) (names : ¬NamesDiffer tables) {before : List NamedRow}
      {row : NamedRow} {after : List NamedRow} (rows : namedRows tables = before ++ row :: after)
      (differ : before.Nodup) (again : row ∈ before) : Refused a name tables (.duplicate row.names)
  /-- A foreign key refers to no table, and is the first that does not. -/
  | reference (free : a.Free name) (names : NamesDiffer tables)
      {before : List (Table × Constraint)} {t : Table} {c : Constraint}
      {after : List (Table × Constraint)}
      (constraints : declaredConstraints tables = before ++ (t, c) :: after)
      (resolved : ∀ p ∈ before, p.2.ResolvedIn tables) {target : Reference}
      (reference : c.reference? = some target)
      (missing : target.table ∉ tables.map (·.name)) :
      Refused a name tables (.unresolvedReference t.name (c.name?.getD "") target.table)

namespace Refused

variable {a : Archive} {name : String} {tables : List Table} {e e' : StoreError}

/-- Two splits of a list at the first place that is bad are the same. -/
theorem eq_of_first_bad {α : Type} (bad : List α → α → Prop) {before before' after after' : List α}
    {x x' : α} (heq : before ++ x :: after = before' ++ x' :: after') (hx : bad before x)
    (hx' : bad before' x') (hbefore : ∀ xs y ys, before = xs ++ y :: ys → ¬bad xs y)
    (hbefore' : ∀ xs y ys, before' = xs ++ y :: ys → ¬bad xs y) : x = x' := by
  rcases List.append_eq_append_iff.1 heq with ⟨between, hlonger, hrest⟩ | ⟨between, hlonger, hrest⟩
  · cases between with
    | nil => exact (List.cons.inj hrest).1
    | cons y ys =>
      obtain ⟨rfl, -⟩ := List.cons.inj hrest
      exact absurd hx (hbefore' before x ys hlonger)
  · cases between with
    | nil => exact (List.cons.inj hrest).1.symm
    | cons y ys =>
      obtain ⟨rfl, -⟩ := List.cons.inj hrest
      exact absurd hx' (hbefore before' x' ys hlonger)

/-- No row of a list without repetitions stands behind one of the same name. -/
theorem not_mem_of_nodup {rows : List NamedRow} (h : rows.Nodup) (before : List NamedRow)
    (row : NamedRow) (after : List NamedRow) (hsplit : rows = before ++ row :: after) :
    row ∉ before := by
  rw [hsplit, List.nodup_middle, List.nodup_cons] at h
  exact fun hmem => h.1 (List.mem_append_left _ hmem)

/-- There is one error at most. -/
theorem unique (h : Refused a name tables e) (h' : Refused a name tables e') : e = e' := by
  cases h with
  | version taken =>
    cases h' with
    | version _ => rfl
    | name free _ _ _ _ => exact absurd free taken
    | reference free _ _ _ _ _ => exact absurd free taken
  | name free names rows differ again =>
    cases h' with
    | version taken => exact absurd free taken
    | name _ _ rows' differ' again' =>
      have hrow := eq_of_first_bad (fun before row => row ∈ before) (rows ▸ rows') again again'
        (not_mem_of_nodup differ) (not_mem_of_nodup differ')
      rw [hrow]
    | reference _ names' _ _ _ _ => exact absurd names' names
  | reference free names constraints resolved reference missing =>
    cases h' with
    | version taken => exact absurd free taken
    | name _ names' _ _ _ => exact absurd names names'
    | reference _ _ constraints' resolved' reference' missing' =>
      have hkey := eq_of_first_bad (fun _ p => ¬p.2.ResolvedIn tables)
        (constraints ▸ constraints') (fun hp => missing (hp _ reference))
        (fun hp => missing' (hp _ reference'))
        (fun xs p ys hsplit => not_not_intro (resolved p (by simp [hsplit])))
        (fun xs p ys hsplit => not_not_intro (resolved' p (by simp [hsplit])))
      obtain ⟨rfl, rfl⟩ := Prod.mk.inj hkey
      rw [Option.some.inj (reference.symm.trans reference')]

/-- A schema that is refused is not one that is admitted. -/
theorem not_admitted (h : Refused a name tables e) :
    ¬(a.Free name ∧ NamesDiffer tables ∧
      ∀ p ∈ declaredConstraints tables, p.2.ResolvedIn tables) := by
  rintro ⟨hfree, hnames, hreferences⟩
  cases h with
  | version taken => exact taken hfree
  | name _ names _ _ _ => exact names hnames
  | @reference _ _ before t c after constraints _ target reference missing =>
    have hmem : (t, c) ∈ declaredConstraints tables := by simp [constraints]
    exact missing (hreferences (t, c) hmem target reference)

end Refused

/-- The names of the columns that a table has already. -/
def Archive.takenColumns (a : Archive) (table : Nat) : List String :=
  (a.columns.rows.filter (·.value.table == table)).map (·.value.column.name)

namespace Writing

variable {α β : Type}

/-! ## Steps that fail -/

theorem bind_eq_error_iff {p : Writing α} {f : α → Writing β} {a : Archive} {e : StoreError} :
    ((p >>= f) a).1 = .error e ↔
      (p a).1 = .error e ∨ ∃ x a', p a = (.ok x, a') ∧ (f x a').1 = .error e := by
  rw [bind_apply]
  rcases p a with ⟨e' | x, a₁⟩
  · constructor
    · exact fun h => .inl (congrArg Except.error (Except.error.inj h))
    · rintro (h | ⟨x, a', h, -⟩)
      · exact congrArg Except.error (Except.error.inj h)
      · cases h
  · constructor
    · exact fun h => .inr ⟨x, a₁, rfl, h⟩
    · rintro (h | ⟨x', a₁', h₁, h₂⟩)
      · cases h
      · obtain ⟨rfl, rfl⟩ := ok_inj h₁
        exact h₂

/-- What is made of an outcome does not matter. -/
theorem map_eq_error_iff {p : Writing α} {f : α → β} {a : Archive} {e : StoreError} :
    ((p >>= fun x => pure (f x)) a).1 = .error e ↔ (p a).1 = .error e := by
  rw [bind_eq_error_iff]
  constructor
  · rintro (h | ⟨x, a', -, h⟩)
    · exact h
    · cases h
  · exact .inl

theorem version_eq_error {value : VersionRow} {a : Archive} {e : StoreError}
    (h : (version value a).1 = .error e) :
    (∃ row ∈ a.versions.rows, row.value.name = value.name) ∧ e = .duplicate .version := by
  unfold version at h
  split at h
  · next htaken =>
    obtain ⟨row, hrow, hname⟩ := List.any_eq_true.1 htaken
    exact ⟨⟨row, hrow, beq_iff_eq.1 hname⟩, (Except.error.inj h).symm⟩
  · cases h

theorem tableRow_eq_error {value : TableRow} {a : Archive} {e : StoreError}
    (h : (tableRow value a).1 = .error e) :
    (∃ row ∈ a.tables.rows, row.value.version = value.version ∧ row.value.name = value.name) ∧
      e = .duplicate .table := by
  unfold tableRow at h
  split at h
  · next htaken =>
    obtain ⟨row, hrow, hname⟩ := List.any_eq_true.1 htaken
    rw [Bool.and_eq_true, beq_iff_eq, beq_iff_eq] at hname
    exact ⟨⟨row, hrow, hname⟩, (Except.error.inj h).symm⟩
  · cases h

theorem columnRow_eq_error {value : ColumnRow} {a : Archive} {e : StoreError}
    (h : (columnRow value a).1 = .error e) :
    (∃ row ∈ a.columns.rows,
        row.value.table = value.table ∧ row.value.column.name = value.column.name) ∧
      e = .duplicate .column := by
  unfold columnRow at h
  split at h
  · next htaken =>
    obtain ⟨row, hrow, hname⟩ := List.any_eq_true.1 htaken
    rw [Bool.and_eq_true, beq_iff_eq, beq_iff_eq] at hname
    exact ⟨⟨row, hrow, hname⟩, (Except.error.inj h).symm⟩
  · cases h

/-! ## The first name that is taken -/

theorem mem_takenColumns {a : Archive} {table : Nat} {name : String} :
    name ∈ a.takenColumns table ↔
      ∃ row ∈ a.columns.rows, row.value.table = table ∧ row.value.column.name = name := by
  simp [Archive.takenColumns, and_assoc]

theorem takenColumns_insert (a : Archive) (table order : Nat) (c : Column) :
    ({ a with columns := a.columns.insert ⟨table, c, order⟩ } : Archive).takenColumns table =
      a.takenColumns table ++ [c.name] := by
  simp [Archive.takenColumns, Relation.insert]

/-- A column that is written has a name that its table did not have. -/
theorem not_mem_takenColumns {value : ColumnRow} {a a' : Archive} {id : Nat}
    (h : columnRow value a = (.ok id, a')) :
    value.column.name ∉ a.takenColumns value.table := by
  intro hmem
  obtain ⟨row, hrow, htable, hname⟩ := mem_takenColumns.1 hmem
  exact columnRow_succeeds_iff.1 ⟨id, a', h⟩ row hrow htable hname

/-- Columns are refused at the first one whose name the table has already. -/
theorem columns_eq_error {table order : Nat} {cs : List Column} {a : Archive} {e : StoreError}
    (h : (columns table order cs a).1 = .error e) (htaken : (a.takenColumns table).Nodup) :
    e = .duplicate .column ∧ ∃ before c after, cs = before ++ c :: after ∧
      (a.takenColumns table ++ before.map (·.name)).Nodup ∧
      c.name ∈ a.takenColumns table ++ before.map (·.name) := by
  induction cs generalizing a order with
  | nil => cases h
  | cons c cs ih =>
    rcases bind_eq_error_iff.1 h with hrow | ⟨id, a', hrow, hmore⟩
    · obtain ⟨hthere, rfl⟩ := columnRow_eq_error hrow
      refine ⟨rfl, [], c, cs, rfl, ?_, ?_⟩
      · rwa [List.map_nil, List.append_nil]
      · rw [List.map_nil, List.append_nil]
        exact mem_takenColumns.2 hthere
    · have hfree := not_mem_takenColumns hrow
      obtain ⟨rfl, rfl⟩ := columnRow_eq_ok hrow
      have htaken' := takenColumns_insert a table order c
      have hnodup : (a.takenColumns table ++ [c.name]).Nodup := by
        rw [List.nodup_append_comm, List.singleton_append, List.nodup_cons]
        exact ⟨hfree, htaken⟩
      obtain ⟨rfl, before, d, after, rfl, hbefore, hd⟩ :=
        ih (map_eq_error_iff.1 hmore) (htaken'.symm ▸ hnodup)
      rw [htaken', List.append_assoc] at hbefore hd
      exact ⟨rfl, c :: before, d, after, rfl, hbefore, hd⟩

/-- The rows with names that have been written for a version, when the next table has the given
place. -/
structure Seen (a : Archive) (version place : Nat) (seen : List NamedRow) : Prop where
  nodup : seen.Nodup
  tables : ∀ name, .table name ∈ seen ↔
    ∃ row ∈ a.tables.rows, row.value.version = version ∧ row.value.name = name
  columns : ∀ i name, .column i name ∈ seen → i < place

theorem table_mem_tableRows {place : Nat} {t : Table} {name : String} :
    .table name ∈ tableRows place t ↔ name = t.name := by
  simp [tableRows]

theorem of_column_mem_tableRows {place i : Nat} {t : Table} {name : String}
    (h : .column i name ∈ tableRows place t) : i = place := by
  rcases List.mem_cons.1 h with h | h
  · cases h
  · obtain ⟨c, -, hc⟩ := List.mem_map.1 h
    exact (NamedRow.column.inj hc).1.symm

/-- Columns that are written have numbers of tables that are there. -/
theorem columns_lt_of_table {a a' : Archive} {v : Nat} {t : Table} {w : WrittenTable}
    (hcolumns : ∀ row ∈ a.columns.rows, row.value.table < a.tables.nextId)
    (h : table v t a = (.ok w, a')) :
    ∀ row ∈ a'.columns.rows, row.value.table < a'.tables.nextId := by
  obtain ⟨-, rfl⟩ := table_eq_ok h
  intro row hrow
  show row.value.table < a.tables.nextId + 1
  rcases Relation.mem_insertAll hrow with hold | ⟨-, hnew⟩
  · exact Nat.lt_succ_of_lt (hcolumns row hold)
  · obtain ⟨c, -, hc⟩ := List.mem_map.1 hnew
    rw [← hc]
    exact Nat.lt_succ_self _

/-- The rows of one table may come before those of others if the table has a new name. -/
theorem Seen.nodup_append {a : Archive} {v place : Nat} {seen : List NamedRow} {t : Table}
    {names : List String} (hseen : Seen a v place seen)
    (hfree : ∀ row ∈ a.tables.rows, row.value.version = v → row.value.name ≠ t.name)
    (hnames : names.Nodup) :
    (seen ++ .table t.name :: names.map (NamedRow.column place)).Nodup := by
  have hnew : .table t.name ∉ seen := by
    intro hmem
    obtain ⟨row, hrow, hversion, hname⟩ := (hseen.tables t.name).1 hmem
    exact hfree row hrow hversion hname
  have hcolumns : (names.map (NamedRow.column place)).Nodup :=
    hnames.map fun _ _ heq => (NamedRow.column.inj heq).2
  refine List.nodup_append.2 ⟨hseen.nodup, List.nodup_cons.2 ⟨by simp, hcolumns⟩, ?_⟩
  rintro row hrow other hother rfl
  rcases List.mem_cons.1 hother with rfl | hother
  · exact hnew hrow
  · obtain ⟨name, -, rfl⟩ := List.mem_map.1 hother
    exact absurd (hseen.columns place name hrow) (Nat.lt_irrefl place)

theorem map_column_names (place : Nat) (cs : List Column) :
    cs.map (fun c => NamedRow.column place c.name) =
      (cs.map (·.name)).map (NamedRow.column place) := by
  rw [List.map_map]
  rfl

/-- The rows of a table that has been written come behind those before it. -/
theorem Seen.table {a a' : Archive} {v place : Nat} {seen : List NamedRow} {t : Table}
    {w : WrittenTable} (hseen : Seen a v place seen)
    (hcolumns : ∀ row ∈ a.columns.rows, row.value.table < a.tables.nextId)
    (h : Writing.table v t a = (.ok w, a')) :
    Seen a' v (place + 1) (seen ++ tableRows place t) where
  nodup := by
    obtain ⟨hfree, hown⟩ := (table_succeeds_iff hcolumns).1 ⟨w, a', h⟩
    rw [tableRows, map_column_names]
    exact hseen.nodup_append hfree hown
  tables name := by
    obtain ⟨-, rfl⟩ := table_eq_ok h
    rw [List.mem_append, hseen.tables, table_mem_tableRows]
    simp only [Relation.insert, List.mem_append, List.mem_singleton]
    constructor
    · rintro (⟨row, hrow, hmeaning⟩ | rfl)
      · exact ⟨row, .inl hrow, hmeaning⟩
      · exact ⟨_, .inr rfl, rfl, rfl⟩
    · rintro ⟨row, hrow | rfl, hversion, hname⟩
      · exact .inl ⟨row, hrow, hversion, hname⟩
      · exact .inr hname.symm
  columns i name hmem := by
    rcases List.mem_append.1 hmem with hmem | hmem
    · exact Nat.lt_succ_of_lt (hseen.columns i name hmem)
    · exact (of_column_mem_tableRows hmem) ▸ Nat.lt_succ_self _

/-- A table is refused for its own name, or at the first of its columns whose name stands before
it. -/
theorem table_eq_error {a : Archive} {v place : Nat} {seen : List NamedRow} {t : Table}
    {e : StoreError} (h : (table v t a).1 = .error e) (hseen : Seen a v place seen)
    (hcolumns : ∀ row ∈ a.columns.rows, row.value.table < a.tables.nextId) :
    ∃ before row after, tableRows place t = before ++ row :: after ∧ (seen ++ before).Nodup ∧
      row ∈ seen ++ before ∧ e = .duplicate row.names := by
  rcases bind_eq_error_iff.1 h with hrow | ⟨id, a', hrow, hmore⟩
  · obtain ⟨hthere, rfl⟩ := tableRow_eq_error hrow
    refine ⟨[], .table t.name, _, rfl, ?_, ?_, rfl⟩
    · rw [List.append_nil]
      exact hseen.nodup
    · rw [List.append_nil]
      exact (hseen.tables t.name).2 hthere
  · have hfree := tableRow_succeeds_iff.1 ⟨id, a', hrow⟩
    have hnone : a'.takenColumns id = [] := by
      -- The number of the table is new, so no column has it yet.
      obtain ⟨rfl, rfl⟩ := tableRow_eq_ok hrow
      rw [List.eq_nil_iff_forall_not_mem]
      intro name hname
      obtain ⟨row, hmem, htable, -⟩ := mem_takenColumns.1 hname
      exact Nat.ne_of_lt (hcolumns row hmem) htable
    obtain ⟨rfl, before, c, after, hsplit, hbefore, hc⟩ :=
      columns_eq_error (map_eq_error_iff.1 hmore) (by rw [hnone]; exact .nil)
    rw [hnone, List.nil_append] at hbefore hc
    refine ⟨.table t.name :: (before.map (·.name)).map (NamedRow.column place),
      .column place c.name, (after.map (·.name)).map (NamedRow.column place), ?_,
      hseen.nodup_append hfree hbefore, ?_, rfl⟩
    · rw [tableRows, hsplit, List.map_append, List.map_cons, map_column_names, map_column_names]
      rfl
    · exact List.mem_append_right _ (List.mem_cons_of_mem _ (List.mem_map_of_mem hc))

/-- Tables are refused at the first row, in the order of writing, whose name stands before it. -/
theorem tables_eq_error {a : Archive} {v place : Nat} {seen : List NamedRow} {ts : List Table}
    {e : StoreError} (h : (ts.mapM (table v) a).1 = .error e) (hseen : Seen a v place seen)
    (hcolumns : ∀ row ∈ a.columns.rows, row.value.table < a.tables.nextId) :
    ∃ before row after, namedRowsFrom place ts = before ++ row :: after ∧
      (seen ++ before).Nodup ∧ row ∈ seen ++ before ∧ e = .duplicate row.names := by
  induction ts generalizing a place seen with
  | nil =>
    rw [List.mapM_nil] at h
    cases h
  | cons t ts ih =>
    rw [List.mapM_cons] at h
    rcases bind_eq_error_iff.1 h with ht | ⟨w, a', ht, hmore⟩
    · obtain ⟨before, row, after, hsplit, hbefore, hrow, he⟩ :=
        table_eq_error ht hseen hcolumns
      refine ⟨before, row, after ++ namedRowsFrom (place + 1) ts, ?_, hbefore, hrow, he⟩
      rw [namedRowsFrom, hsplit, List.append_assoc, List.cons_append]
    · obtain ⟨before, row, after, hsplit, hbefore, hrow, he⟩ := ih (map_eq_error_iff.1 hmore)
        (hseen.table hcolumns ht) (columns_lt_of_table hcolumns ht)
      rw [List.append_assoc] at hbefore hrow
      refine ⟨tableRows place t ++ before, row, after, ?_, hbefore, hrow, he⟩
      rw [namedRowsFrom, hsplit, List.append_assoc]

/-! ## The first foreign key that refers to no table -/

theorem constraint_eq_error {written : List WrittenTable} {owner : WrittenTable} {c : Constraint}
    {a : Archive} {e : StoreError} (h : (constraint written owner c a).1 = .error e) :
    ∃ target, c.reference? = some target ∧ target.table ∉ written.map (·.table.name) ∧
      e = .unresolvedReference owner.table.name (c.name?.getD "") target.table := by
  rcases bind_eq_error_iff.1 h with hrow | ⟨id, a₁, -, h⟩
  · cases hrow
  rcases bind_eq_error_iff.1 h with hmembers | ⟨⟨⟩, a₂, -, h⟩
  · cases hmembers
  cases htarget : c.reference? with
  | none =>
    rw [htarget] at h
    cases h
  | some target =>
    rw [htarget] at h
    change (reference written owner id (c.name?.getD "") target a₂).1 = .error e at h
    unfold reference at h
    cases hfind : written.find? (·.table.name == target.table) with
    | none =>
      rw [hfind] at h
      refine ⟨target, rfl, fun hmem => ?_, (Except.error.inj h).symm⟩
      obtain ⟨w, hw, hname⟩ := List.mem_map.1 hmem
      exact List.find?_eq_none.1 hfind w hw (beq_iff_eq.2 hname)
    | some table =>
      rw [hfind] at h
      rcases bind_eq_error_iff.1 h with hrow | ⟨id', a₃, -, htargets⟩
      · cases hrow
      · cases htargets

/-- Constraints are refused at the first foreign key that refers to no table. -/
theorem constraints_eq_error {written : List WrittenTable} {cs : List (WrittenTable × Constraint)}
    {a : Archive} {e : StoreError}
    (h : (cs.forM (fun c => constraint written c.1 c.2) a).1 = .error e) :
    ∃ before c after target, cs = before ++ c :: after ∧
      (∀ p ∈ before, p.2.Resolved written) ∧ c.2.reference? = some target ∧
      target.table ∉ written.map (·.table.name) ∧
      e = .unresolvedReference c.1.table.name (c.2.name?.getD "") target.table := by
  induction cs generalizing a with
  | nil => cases h
  | cons c cs ih =>
    have hcons : ((c :: cs).forM fun c => constraint written c.1 c.2) =
        constraint written c.1 c.2 >>= fun _ => cs.forM fun c => constraint written c.1 c.2 := rfl
    rw [hcons, bind_eq_error_iff] at h
    rcases h with hc | ⟨⟨⟩, a', hc, hmore⟩
    · obtain ⟨target, htarget, hnot, he⟩ := constraint_eq_error hc
      exact ⟨[], c, cs, target, rfl, nofun, htarget, hnot, he⟩
    · obtain ⟨before, d, after, target, rfl, hbefore, htarget, hnot, he⟩ := ih hmore
      refine ⟨c :: before, d, after, target, rfl, ?_, htarget, hnot, he⟩
      rw [List.forall_mem_cons]
      exact ⟨(constraint_eq_ok hc).1, hbefore⟩

/-! ## Schemas -/

theorem declaredConstraints_eq (a : Archive) (tables : List Table) :
    declaredConstraints tables =
      (owned (a.newTables tables)).map fun p => (p.1.table, p.2) := by
  have htables : (a.newTables tables).map WrittenTable.table = tables := map_table_placed ..
  unfold declaredConstraints owned
  rw [List.map_flatMap, ← congrArg (List.flatMap _) htables, List.flatMap_map]
  refine List.flatMap_congr fun w _ => ?_
  rw [List.map_map]
  rfl

theorem map_name_newTables (a : Archive) (tables : List Table) :
    (a.newTables tables).map (·.table.name) = tables.map (·.name) := by
  have htables : (a.newTables tables).map WrittenTable.table = tables := map_table_placed ..
  rw [← congrArg (List.map (·.name)) htables, List.map_map]
  rfl

theorem resolvedIn_iff (a : Archive) (tables : List Table) (c : Constraint) :
    c.ResolvedIn tables ↔ c.Resolved (a.newTables tables) := by
  rw [Constraint.resolved_iff, map_name_newTables]
  rfl

end Writing

namespace Archive

variable {a : Archive} {tables : List Table}

theorem free_iff (h : a.Intact) {name : String} :
    a.Free name ↔ ∀ row ∈ a.versions.rows, row.value.name ≠ name := by
  unfold Free
  rw [list_eq h]
  simp only [List.forall_mem_map, List.mem_reverse]
  rfl

theorem storable_iff :
    Storable tables ↔
      NamesDiffer tables ∧ ∀ p ∈ declaredConstraints tables, p.2.ResolvedIn tables := by
  unfold declaredConstraints
  simp only [List.forall_mem_flatMap, List.forall_mem_map]
  constructor
  · exact fun h => ⟨⟨h.tables_nodup, h.columns_nodup⟩, h.references⟩
  · exact fun ⟨hnames, hreferences⟩ => ⟨hnames.1, hnames.2, hreferences⟩

/-- No row that is there already has the number of a new version. -/
theorem Intact.version_ne_nextId (h : a.Intact) {row : Row TableRow} (hrow : row ∈ a.tables.rows) :
    row.value.version ≠ a.versions.nextId := by
  have hle := h.versions.le_of_has (h.tables_version row hrow)
  simp only [Relation.nextId]
  omega

/-- No column that is there already has the number of a new table. -/
theorem Intact.table_lt_nextId (h : a.Intact) {row : Row ColumnRow} (hrow : row ∈ a.columns.rows) :
    row.value.table < a.tables.nextId :=
  Nat.lt_succ_of_le (h.tables.le_of_has (h.columns_table row hrow))

/-- Behind the row of a new version, nothing has been written for it yet. -/
theorem Intact.seen_nil (h : a.Intact) (value : VersionRow) :
    Writing.Seen { a with versions := a.versions.insert value } a.versions.nextId 0 [] where
  nodup := .nil
  tables name := by
    refine iff_of_false List.not_mem_nil ?_
    rintro ⟨row, hrow, hversion, -⟩
    exact h.version_ne_nextId hrow hversion
  columns _ _ := nofun

/-- Behind its version, the tables and columns of a schema are written if their names differ. -/
theorem tables_succeeds_iff_namesDiffer (h : a.Intact) (value : VersionRow) :
    (tables.mapM (Writing.table a.versions.nextId)).Succeeds
      { a with versions := a.versions.insert value } ↔ NamesDiffer tables := by
  refine (Writing.tables_succeeds_iff (a := { a with versions := a.versions.insert value })
    fun row hrow => h.table_lt_nextId hrow).trans ?_
  exact and_iff_right fun row hrow hversion => absurd hversion (h.version_ne_nextId hrow)

/-- Nothing but these reasons keeps a schema from being written, and the error is the one of the
reason that comes first. -/
theorem refused_of_schema_eq_error (h : a.Intact) {value : VersionRow} {e : StoreError}
    (he : (Writing.schema value tables a).1 = .error e) : Refused a value.name tables e := by
  rcases Writing.bind_eq_error_iff.1 he with hversion | ⟨id, a₁, hversion, hrest⟩
  · obtain ⟨⟨row, hrow, hname⟩, rfl⟩ := Writing.version_eq_error hversion
    exact .version fun hfree => (free_iff h).1 hfree row hrow hname
  have hfree : a.Free value.name :=
    (free_iff h).2 (Writing.version_succeeds_iff.1 ⟨id, a₁, hversion⟩)
  obtain ⟨rfl, rfl⟩ := Writing.version_eq_ok hversion
  rcases Writing.bind_eq_error_iff.1 hrest with htables | ⟨written, a₂, htables, hrest⟩
  · have hnames : ¬NamesDiffer tables := by
      rw [← tables_succeeds_iff_namesDiffer h value]
      rintro ⟨written, a₂, hok⟩
      rw [hok] at htables
      cases htables
    obtain ⟨before, row, after, hrows, hbefore, hrow, rfl⟩ :=
      Writing.tables_eq_error htables (h.seen_nil value) fun row hrow => h.table_lt_nextId hrow
    exact .name hfree hnames hrows hbefore hrow
  · have hnames := (tables_succeeds_iff_namesDiffer h value).1 ⟨written, a₂, htables⟩
    obtain ⟨rfl, -⟩ := Writing.tables_eq_ok htables
    have hconstraints := Writing.map_eq_error_iff.1 hrest
    rw [Writing.constraints_eq_forM] at hconstraints
    obtain ⟨before, c, after, target, hsplit, hbefore, htarget, hmissing, rfl⟩ :=
      Writing.constraints_eq_error hconstraints
    have hdeclared := Writing.declaredConstraints_eq a tables
    rw [show owned (a.newTables tables) = before ++ c :: after from hsplit, List.map_append,
      List.map_cons] at hdeclared
    refine .reference hfree hnames hdeclared (fun p hp => ?_) htarget ?_
    · obtain ⟨q, hq, rfl⟩ := List.mem_map.1 hp
      exact (Writing.resolvedIn_iff a tables q.2).2 (hbefore q hq)
    · rw [← Writing.map_name_newTables a]
      exact hmissing

/-- A schema is stored if the name is free, names differ, and foreign keys are resolved. -/
theorem store_eq_ok_iff (h : a.Sound) {value : VersionRow} :
    (∃ v a', a.store value tables = (.ok v, a')) ↔
      a.Free value.name ∧ NamesDiffer tables ∧
        ∀ p ∈ declaredConstraints tables, p.2.ResolvedIn tables := by
  rw [exists_store_eq_ok_iff h, free_iff h.intact, storable_iff]

/-- The error is that of the reason that comes first, and the archive is as it was. -/
theorem store_eq_error_iff (h : a.Sound) {value : VersionRow} {e : StoreError} :
    a.store value tables = (.error e, a) ↔ Refused a value.name tables e := by
  constructor
  · exact fun he => refused_of_schema_eq_error h.intact (store_eq_error h he).2
  · intro hrefused
    rcases h.store_cases value tables with ⟨e', he, hwriting⟩ | ⟨hok, -⟩
    · rw [he, (refused_of_schema_eq_error h.intact hwriting).unique hrefused]
    · exact absurd ((store_eq_ok_iff h).1 ⟨_, _, hok⟩) hrefused.not_admitted

/-- When a schema is stored makes no difference but to the time that its version carries. -/
theorem Sound.store_at (h : a.Sound) (value : VersionRow) (time : String) :
    (a.store { value with createdAt := time } tables).1 =
      (a.store value tables).1.map fun v => { v with createdAt := time } := by
  rcases h.store_cases value tables with ⟨e, he, hwriting⟩ | ⟨hok, -⟩
  · have hrefused : Refused a value.name tables e := refused_of_schema_eq_error h.intact hwriting
    have hlater : a.store { value with createdAt := time } tables = (.error e, a) :=
      (store_eq_error_iff h).2 hrefused
    rw [hlater, he]
    rfl
  · have hadmitted := (store_eq_ok_iff h).1 ⟨_, _, hok⟩
    obtain ⟨v, a', hlater⟩ :
        ∃ v a', a.store { value with createdAt := time } tables = (.ok v, a') :=
      (store_eq_ok_iff h).2 hadmitted
    obtain ⟨rfl, rfl, -⟩ := store_eq_ok h hlater
    rw [hlater, hok]
    rfl

end Archive

end SchemaArchive
