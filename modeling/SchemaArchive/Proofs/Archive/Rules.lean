import SchemaArchive.Proofs.Archive.Consecutive
import SchemaArchive.Proofs.Archive.Refusal

/-!
# The rules of the relations

The relations come with more rules than storing ever asks about.  Numbers are unique, not only
names; a constraint has one reference at most, and its kind is one of five texts; and whatever a
row mentions has to be there.  `Guarded.schema` writes a schema as `Writing.schema` does, but row
by row and under all of these rules.  On every archive that can be reached both do the same, so
that only the rules on names ever keep anything from being stored.

* `Rule`, `Rule.admits` — the rules, each as a test on a row that is about to be written.
* `Archive.Intact.insertRow` — rows that mention what is there keep an archive intact.
* `Follows` — a guarded step does what a step does, and leaves an intact archive.
* `Guarded.follows_schema` — writing under all rules is writing.
* `Archive.store_outcome` — when storing succeeds, and with which error it fails otherwise.
-/

namespace SchemaArchive

/-! ## Rows and rules -/

/-- A row that is about to be written. -/
inductive NewRow where
  | version (value : VersionRow)
  | table (value : TableRow)
  | column (value : ColumnRow)
  | constraint (value : ConstraintRow)
  | member (value : MemberRow)
  | reference (value : ReferenceRow)
  | target (value : TargetRow)
  deriving DecidableEq, Repr

/-- Is there a row of this kind with this number? -/
def Archive.hasRow (a : Archive) : NodeKind → Nat → Bool
  | .version => a.versions.has
  | .table => a.tables.has
  | .column => a.columns.has
  | .constraint => a.constraints.has
  | .member => a.members.has
  | .reference => a.references.has
  | .target => a.targets.has

namespace NewRow

/-- The kind of node that the row is about. -/
def kind : NewRow → NodeKind
  | version _ => .version
  | table _ => .table
  | column _ => .column
  | constraint _ => .constraint
  | member _ => .member
  | reference _ => .reference
  | target _ => .target

/-- The archive with the row. -/
def insertInto (a : Archive) : NewRow → Archive
  | version value => { a with versions := a.versions.insert value }
  | table value => { a with tables := a.tables.insert value }
  | column value => { a with columns := a.columns.insert value }
  | constraint value => { a with constraints := a.constraints.insert value }
  | member value => { a with members := a.members.insert value }
  | reference value => { a with references := a.references.insert value }
  | target value => { a with targets := a.targets.insert value }

/-- The rows that the row mentions, by kind and number. -/
def mentions : NewRow → List (NodeKind × Nat)
  | version _ => []
  | table value => [(.version, value.version)]
  | column value => [(.table, value.table)]
  | constraint value => [(.table, value.table)]
  | member value => [(.constraint, value.constraint), (.column, value.column)]
  | reference value => [(.constraint, value.constraint), (.table, value.table)]
  | target value => [(.reference, value.reference), (.column, value.column)]

/-- Is there a row already whose name has to differ from that of the row, and does not? -/
def clashes (a : Archive) : NewRow → UniqueName → Bool
  | version value, .version => a.versions.rows.any (·.value.name == value.name)
  | table value, .table => a.tables.rows.any fun row =>
      row.value.version == value.version && row.value.name == value.name
  | column value, .column => a.columns.rows.any fun row =>
      row.value.table == value.table && row.value.column.name == value.column.name
  | _, _ => false

/-- Is the row a reference, and has its constraint one already? -/
def isSecondReference (a : Archive) : NewRow → Bool
  | reference value => a.references.rows.any (·.value.constraint == value.constraint)
  | _ => false

/-- The text of the kind, if the row is that of a constraint. -/
def kindText? : NewRow → Option String
  | constraint value => some value.kind
  | _ => none

end NewRow

/-- The rules that a row has to keep. -/
inductive Rule where
  /-- The kind of a constraint has a text that is known. -/
  | knownKind
  /-- No other row of its kind has the number of the row. -/
  | number
  /-- These names differ. -/
  | distinct (names : UniqueName)
  /-- A constraint has one reference at most. -/
  | oneReference
  /-- Rows of this kind are there if they are mentioned. -/
  | mentioned (kind : NodeKind)
  deriving DecidableEq, Repr

/-- The texts of kinds that are known. -/
def knownKinds : List String :=
  ["PRIMARY KEY", "UNIQUE", "KEY", "FOREIGN KEY", "INDEX"]

/-- Does the row keep the rule, if it is the next one to be written? -/
def Rule.admits (a : Archive) (row : NewRow) : Rule → Bool
  | knownKind => row.kindText?.all knownKinds.contains
  | number => !a.hasRow row.kind (a.lastId row.kind + 1)
  | distinct names => !row.clashes a names
  | oneReference => !row.isSecondReference a
  | mentioned kind => row.mentions.all fun m => m.1 != kind || a.hasRow m.1 m.2

/-- All rules. -/
def rules : List Rule :=
  [.knownKind, .number, .distinct .version, .distinct .table, .distinct .column, .oneReference,
    .mentioned .version, .mentioned .table, .mentioned .column, .mentioned .constraint,
    .mentioned .reference]

/-! ## Writing under all rules -/

/-- Why a schema is not written: a row breaks a rule, or there is another error. -/
inductive Refusal where
  | rule (rule : Rule)
  | other (error : StoreError)
  deriving DecidableEq, Repr

/-- An error as a refusal.  A name that is taken is a broken rule. -/
def Refusal.ofError : StoreError → Refusal
  | .duplicate names => .rule (.distinct names)
  | e => .other e

/-- A step of writing under all rules.  It leaves the archive as far as it got. -/
abbrev Guarded (α : Type) := ExceptT Refusal (StateM Archive) α

namespace Guarded

/-- Writes a row, unless it breaks a rule. -/
def row (r : NewRow) : Guarded Nat := fun a =>
  match rules.find? fun rule => !rule.admits a r with
  | some rule => (.error (.rule rule), a)
  | none => (.ok (a.lastId r.kind + 1), r.insertInto a)

/-- Writes rows one after another. -/
def rows : List NewRow → Guarded Unit
  | [] => return ()
  | r :: rs => do
    let _ ← row r
    rows rs

/-- Writes columns of a table, the first of which has the place `order`. -/
def columns (table : Nat) : (order : Nat) → List Column → Guarded (List (String × Nat))
  | _, [] => return []
  | order, c :: cs => do
    let id ← row (.column { table, column := c, order })
    let ids ← columns table (order + 1) cs
    return (c.name, id) :: ids

/-- Writes a table with its columns. -/
def table (version : Nat) (t : Table) : Guarded WrittenTable := do
  let id ← row (.table { version, name := t.name })
  let columnIds ← columns id 1 t.columns
  return { table := t, id, columnIds }

/-- Writes what a foreign key refers to. -/
def reference (written : List WrittenTable) (owner : WrittenTable) (constraint : Nat)
    (name : String) (target : Reference) : Guarded Unit := do
  match written.find? (·.table.name == target.table) with
  | none => throw (.other (.unresolvedReference owner.table.name name target.table))
  | some referenced => do
    let id ← row (.reference { constraint, table := referenced.id })
    let targets : List TargetRow := (referenced.idsOf target.columns).mapIdx fun i column =>
      { reference := id, column, order := i + 1 }
    rows (targets.map .target)

/-- Writes a constraint of the table `owner`. -/
def constraint (written : List WrittenTable) (owner : WrittenTable) (c : Constraint) :
    Guarded Unit := do
  let id ← row (.constraint { table := owner.id, name := c.name?, kind := c.kind.text })
  let members : List MemberRow := (owner.idsOf c.columns).mapIdx fun i column =>
    { constraint := id, column, order := i + 1 }
  rows (members.map .member)
  match c.reference? with
  | none => return ()
  | some target => reference written owner id (c.name?.getD "") target

/-- Writes a whole schema as a version, and gives the number of the version. -/
def schema (value : VersionRow) (tables : List Table) : Guarded Nat := do
  let id ← row (.version value)
  let written ← tables.mapM (table id)
  (owned written).forM fun c => constraint written c.1 c.2
  return id

end Guarded

/-- Stores a schema as a new version, under all rules, and reads it back. -/
def Archive.guardedStore (a : Archive) (value : VersionRow) (tables : List Table) :
    Except Refusal Version × Archive :=
  match a.begin.carryOut (Guarded.schema value tables) with
  | (.error e, t) => (.error e, t.rollback)
  | (.ok id, t) => ((t.commit.readBack id).mapError .ofError, t.commit)

/-! ## Rows that keep the rules -/

namespace Relation

variable {α β : Type} {r : Relation α} {mention : α → Nat} {target : Relation β}

theorem Numbered.insert (h : r.Numbered) (value : α) : (r.insert value).Numbered :=
  h.insertAll [value]

theorem Numbered.has_nextId (h : r.Numbered) : r.has r.nextId = false := by
  rw [Bool.eq_false_iff]
  intro hthere
  exact Nat.not_succ_le_self _ (h.le_of_has hthere)

theorem has_insert {id : Nat} (value : α) (h : r.has id = true) : (r.insert value).has id = true :=
  has_insertAll [value] h

theorem has_nextId_insert (r : Relation α) (value : α) : (r.insert value).has r.nextId = true :=
  has_iff.2 ⟨⟨r.nextId, value⟩, List.mem_append_right _ (List.mem_singleton.2 rfl), rfl⟩

theorem Mentions.insert (h : r.Mentions mention target) {value : α}
    (hvalue : target.has (mention value) = true) : (r.insert value).Mentions mention target := by
  intro row hrow
  rcases List.mem_append.1 hrow with hold | hnew
  · exact h row hold
  · rw [List.mem_singleton.1 hnew]
    exact hvalue

theorem Mentions.insert_target (h : r.Mentions mention target) (value : β) :
    r.Mentions mention (target.insert value) :=
  fun row hrow => has_insert value (h row hrow)

end Relation

/-- The kind of the row is known, what it mentions is there, and it is not a second reference of a
constraint. -/
structure NewRow.Fits (row : NewRow) (a : Archive) : Prop where
  known : row.kindText?.all knownKinds.contains = true
  mentioned : ∀ m ∈ row.mentions, a.hasRow m.1 m.2 = true
  first : row.isSecondReference a = false

/-- Neither its kind nor its name nor a reference before it can keep the row from being written. -/
def NewRow.Plain (row : NewRow) : Prop :=
  row.kindText? = none ∧
    ∀ a, row.isSecondReference a = false ∧ ∀ names, row.clashes a names = false

namespace Archive

variable {a : Archive} {row : NewRow}

/-- Rows that mention what is there keep an archive intact. -/
theorem Intact.insertRow (h : a.Intact) (hrow : ∀ m ∈ row.mentions, a.hasRow m.1 m.2 = true) :
    (row.insertInto a).Intact := by
  cases row with
  | version value =>
    exact { h with
      versions := h.versions.insert value
      tables_version := h.tables_version.insert_target value }
  | table value =>
    exact { h with
      tables := h.tables.insert value
      tables_version := h.tables_version.insert (hrow (.version, _) (by simp [NewRow.mentions]))
      columns_table := h.columns_table.insert_target value
      constraints_table := h.constraints_table.insert_target value
      references_table := h.references_table.insert_target value }
  | column value =>
    exact { h with
      columns := h.columns.insert value
      columns_table := h.columns_table.insert (hrow (.table, _) (by simp [NewRow.mentions]))
      members_column := h.members_column.insert_target value
      targets_column := h.targets_column.insert_target value }
  | constraint value =>
    exact { h with
      constraints := h.constraints.insert value
      constraints_table := h.constraints_table.insert (hrow (.table, _) (by simp [NewRow.mentions]))
      members_constraint := h.members_constraint.insert_target value
      references_constraint := h.references_constraint.insert_target value }
  | member value =>
    exact { h with
      members := h.members.insert value
      members_constraint :=
        h.members_constraint.insert (hrow (.constraint, _) (by simp [NewRow.mentions]))
      members_column := h.members_column.insert (hrow (.column, _) (by simp [NewRow.mentions])) }
  | reference value =>
    exact { h with
      references := h.references.insert value
      references_constraint :=
        h.references_constraint.insert (hrow (.constraint, _) (by simp [NewRow.mentions]))
      references_table := h.references_table.insert (hrow (.table, _) (by simp [NewRow.mentions]))
      targets_reference := h.targets_reference.insert_target value }
  | target value =>
    exact { h with
      targets := h.targets.insert value
      targets_reference :=
        h.targets_reference.insert (hrow (.reference, _) (by simp [NewRow.mentions]))
      targets_column := h.targets_column.insert (hrow (.column, _) (by simp [NewRow.mentions])) }

/-- What is there stays there. -/
theorem hasRow_insertInto (r : NewRow) {kind : NodeKind} {id : Nat}
    (h : a.hasRow kind id = true) : (r.insertInto a).hasRow kind id = true := by
  cases r <;> cases kind <;> first | exact h | exact Relation.has_insert _ h

/-- The archive with several more rows. -/
def insertRows (a : Archive) (rs : List NewRow) : Archive :=
  rs.foldl NewRow.insertInto a

theorem insertRows_members (a : Archive) (values : List MemberRow) :
    a.insertRows (values.map .member) = { a with members := a.members.insertAll values } := by
  induction values generalizing a with
  | nil => rfl
  | cons value values ih => exact ih _

theorem insertRows_targets (a : Archive) (values : List TargetRow) :
    a.insertRows (values.map .target) = { a with targets := a.targets.insertAll values } := by
  induction values generalizing a with
  | nil => rfl
  | cons value values ih => exact ih _

/-- The next number is new. -/
theorem Intact.hasRow_next (h : a.Intact) (kind : NodeKind) :
    a.hasRow kind (a.lastId kind + 1) = false := by
  cases kind with
  | version => exact h.versions.has_nextId
  | table => exact h.tables.has_nextId
  | column => exact h.columns.has_nextId
  | constraint => exact h.constraints.has_nextId
  | member => exact h.members.has_nextId
  | reference => exact h.references.has_nextId
  | target => exact h.targets.has_nextId

theorem text_mem_knownKinds (kind : ConstraintKind) : kind.text ∈ knownKinds := by
  cases kind <;> simp [ConstraintKind.text, knownKinds]

/-- A row that fits keeps all rules but those on names. -/
theorem Intact.admits (h : a.Intact) (hrow : row.Fits a) {rule : Rule}
    (hfree : ∀ names, rule = .distinct names → row.clashes a names = false) :
    rule.admits a row = true := by
  cases rule with
  | knownKind => exact hrow.known
  | number =>
    show (!_) = true
    rw [h.hasRow_next]
    rfl
  | distinct names =>
    show (!_) = true
    rw [hfree names rfl]
    rfl
  | oneReference =>
    show (!_) = true
    rw [hrow.first]
    rfl
  | mentioned kind =>
    show (row.mentions.all _) = true
    rw [List.all_eq_true]
    intro m hm
    rw [hrow.mentioned m hm, Bool.or_true]

end Archive

namespace Guarded

variable {α β : Type} {a : Archive}

/-- A row that fits is written if no name is in the way. -/
theorem row_eq_ok (h : a.Intact) {r : NewRow} (hr : r.Fits a)
    (hfree : ∀ names, r.clashes a names = false) :
    row r a = (.ok (a.lastId r.kind + 1), r.insertInto a) := by
  have hnone : rules.find? (fun rule => !rule.admits a r) = none := by
    rw [List.find?_eq_none]
    intro rule _
    rw [h.admits hr fun names _ => hfree names]
    exact Bool.false_ne_true
  unfold row
  rw [hnone]

/-- A row that fits has a name in one relation only. -/
theorem eq_of_clashes {r : NewRow} {names names' : UniqueName} (h : r.clashes a names = true)
    (h' : r.clashes a names' = true) : names = names' := by
  cases r <;> cases names <;> cases names' <;> first | rfl | cases h | cases h'

/-- A row that fits breaks the rule on its name, if it breaks any. -/
theorem row_eq_error (h : a.Intact) {r : NewRow} (hr : r.Fits a) {names : UniqueName}
    (hclash : r.clashes a names = true) : row r a = (.error (.rule (.distinct names)), a) := by
  have hbroken : (!(Rule.distinct names).admits a r) = true := by
    show (!!_) = true
    rw [hclash]
    rfl
  have hsome : (rules.find? fun rule => !rule.admits a r).isSome = true := by
    refine List.find?_isSome.2 ⟨.distinct names, ?_, hbroken⟩
    cases names <;> simp [rules]
  obtain ⟨rule, hfind⟩ := Option.isSome_iff_exists.1 hsome
  have hrule : rule.admits a r = false := by simpa using List.find?_some hfind
  -- All rules but those on names are kept, so it is one of them, and the one on this name.
  have heq : rule = .distinct names := by
    by_cases heq : rule = .distinct names
    · exact heq
    · have hkept : rule.admits a r = true := by
        refine h.admits hr fun other hother => ?_
        rw [Bool.eq_false_iff]
        intro hclash'
        exact heq (eq_of_clashes hclash' hclash ▸ hother)
      rw [hkept] at hrule
      cases hrule
  unfold row
  rw [hfind, heq]

end Guarded

/-! ## Guarded steps -/

/-- On this archive the guarded step does what the step does, also when it fails.  If it succeeds,
it leaves an intact archive. -/
structure Follows {α : Type} (q : Guarded α) (p : Writing α) (a : Archive) : Prop where
  same : q a = ((p a).1.mapError Refusal.ofError, (p a).2)
  intact : ∀ x a', p a = (.ok x, a') → a'.Intact

theorem Guarded.bind_apply {α β : Type} (q : Guarded α) (g : α → Guarded β) (a : Archive) :
    (q >>= g) a = match q a with
      | (.ok x, a₁) => g x a₁
      | (.error e, a₁) => (.error e, a₁) := by
  show (match q a with | (x, a₁) => ExceptT.bindCont g x a₁) = _
  rcases q a with ⟨x | x, a₁⟩ <;> rfl

namespace Follows

variable {α β : Type} {a : Archive}

theorem pure (h : a.Intact) (x : α) : Follows (Pure.pure x) (Pure.pure x) a where
  same := rfl
  intact y a' hok := by
    obtain ⟨-, rfl⟩ := Writing.pure_eq_ok_iff.1 hok
    exact h

theorem bind {p : Writing α} {q : Guarded α} {f : α → Writing β} {g : α → Guarded β}
    (hp : Follows q p a) (hf : ∀ x a', p a = (.ok x, a') → a'.Intact → Follows (g x) (f x) a') :
    Follows (q >>= g) (p >>= f) a where
  same := by
    rw [Guarded.bind_apply, Writing.bind_apply, hp.same]
    rcases hpa : p a with ⟨e | x, a'⟩
    · rfl
    · exact (hf x a' hpa (hp.intact x a' hpa)).same
  intact y a' hok := by
    obtain ⟨x, a₁, hx, hy⟩ := Writing.bind_eq_ok_iff.1 hok
    exact (hf x a₁ hx (hp.intact x a₁ hx)).intact y a' hy

/-- A step that writes a row unless its name is taken, and gives its number. -/
theorem row (h : a.Intact) {r : NewRow} (hr : r.Fits a) {p : Writing Nat}
    (herror : ∀ names, r.clashes a names = true → p a = (.error (.duplicate names), a))
    (hok : (∀ names, r.clashes a names = false) →
      p a = (.ok (a.lastId r.kind + 1), r.insertInto a)) :
    Follows (Guarded.row r) p a := by
  by_cases hclash : ∃ names, r.clashes a names = true
  · obtain ⟨names, hclash⟩ := hclash
    have hp := herror names hclash
    refine ⟨?_, fun x a' hpa => ?_⟩
    · rw [hp, Guarded.row_eq_error h hr hclash]
      rfl
    · rw [hp] at hpa
      cases hpa
  · have hfree : ∀ names, r.clashes a names = false := by simpa using hclash
    have hp := hok hfree
    refine ⟨?_, fun x a' hpa => ?_⟩
    · rw [hp, Guarded.row_eq_ok h hr hfree]
      rfl
    · rw [hp] at hpa
      obtain ⟨-, rfl⟩ := Writing.ok_inj hpa
      exact h.insertRow hr.mentioned

end Follows

namespace Guarded

variable {a : Archive}

/-! ## Versions, tables and columns -/

theorem follows_version (h : a.Intact) (value : VersionRow) :
    Follows (row (.version value)) (Writing.version value) a := by
  have hfits : (NewRow.version value).Fits a := ⟨rfl, nofun, rfl⟩
  refine .row h hfits (fun names hclash => ?_) fun hfree => ?_
  · cases names with
    | version => exact if_pos hclash
    | _ => cases hclash
  · exact if_neg (Bool.eq_false_iff.1 (hfree .version))

theorem follows_tableRow (h : a.Intact) {value : TableRow}
    (hversion : a.versions.has value.version = true) :
    Follows (row (.table value)) (Writing.tableRow value) a := by
  have hfits : (NewRow.table value).Fits a :=
    ⟨rfl, by simpa [NewRow.mentions, Archive.hasRow] using hversion, rfl⟩
  refine .row h hfits (fun names hclash => ?_) fun hfree => ?_
  · cases names with
    | table => exact if_pos hclash
    | _ => cases hclash
  · exact if_neg (Bool.eq_false_iff.1 (hfree .table))

theorem follows_columnRow (h : a.Intact) {value : ColumnRow}
    (htable : a.tables.has value.table = true) :
    Follows (row (.column value)) (Writing.columnRow value) a := by
  have hfits : (NewRow.column value).Fits a :=
    ⟨rfl, by simpa [NewRow.mentions, Archive.hasRow] using htable, rfl⟩
  refine .row h hfits (fun names hclash => ?_) fun hfree => ?_
  · cases names with
    | column => exact if_pos hclash
    | _ => cases hclash
  · exact if_neg (Bool.eq_false_iff.1 (hfree .column))

theorem follows_columns (h : a.Intact) {t order : Nat} {cs : List Column}
    (htable : a.tables.has t = true) :
    Follows (columns t order cs) (Writing.columns t order cs) a := by
  induction cs generalizing a order with
  | nil => exact .pure h _
  | cons c cs ih =>
    refine .bind (follows_columnRow h htable) fun id a' hrow h' => ?_
    obtain ⟨-, rfl⟩ := Writing.columnRow_eq_ok hrow
    exact .bind (ih h' htable) fun ids a'' _ h'' => .pure h'' _

theorem follows_table (h : a.Intact) {v : Nat} {t : Table} (hversion : a.versions.has v = true) :
    Follows (table v t) (Writing.table v t) a := by
  refine .bind (follows_tableRow h hversion) fun id a' hrow h' => ?_
  obtain ⟨rfl, rfl⟩ := Writing.tableRow_eq_ok hrow
  refine .bind (follows_columns h' ?_) fun ids a'' _ h'' => .pure h'' _
  exact Relation.has_nextId_insert a.tables _

theorem follows_tables (h : a.Intact) {v : Nat} {ts : List Table}
    (hversion : a.versions.has v = true) :
    Follows (ts.mapM (table v)) (ts.mapM (Writing.table v)) a := by
  induction ts generalizing a with
  | nil =>
    rw [List.mapM_nil, List.mapM_nil]
    exact .pure h _
  | cons t ts ih =>
    rw [List.mapM_cons, List.mapM_cons]
    refine .bind (follows_table h hversion) fun w a' ht h' => ?_
    obtain ⟨-, rfl⟩ := Writing.table_eq_ok ht
    exact .bind (ih h' hversion) fun ws a'' _ h'' => .pure h'' _

/-! ## Constraints and references -/

/-- Plain rows are written if what they mention is there. -/
theorem rows_eq_ok (h : a.Intact) {rs : List NewRow} (hplain : ∀ r ∈ rs, r.Plain)
    (hrs : ∀ r ∈ rs, ∀ m ∈ r.mentions, a.hasRow m.1 m.2 = true) :
    rows rs a = (.ok (), a.insertRows rs) ∧ (a.insertRows rs).Intact := by
  induction rs generalizing a with
  | nil => exact ⟨rfl, h⟩
  | cons r rs ih =>
    rw [List.forall_mem_cons] at hplain hrs
    have hfits : r.Fits a := ⟨by rw [hplain.1.1]; rfl, hrs.1, (hplain.1.2 a).1⟩
    obtain ⟨hok, hintact⟩ := ih (h.insertRow hrs.1) hplain.2 fun r' hr' m hm =>
      Archive.hasRow_insertInto r (hrs.2 r' hr' m hm)
    refine ⟨?_, hintact⟩
    unfold rows
    rw [bind_apply, row_eq_ok h hfits (hplain.1.2 a).2]
    exact hok

/-- Plain rows are written one by one as they are at once. -/
theorem follows_rows (h : a.Intact) {rs : List NewRow} {p : Writing Unit}
    (hplain : ∀ r ∈ rs, r.Plain)
    (hrs : ∀ r ∈ rs, ∀ m ∈ r.mentions, a.hasRow m.1 m.2 = true)
    (hp : p a = (.ok (), a.insertRows rs)) : Follows (rows rs) p a := by
  obtain ⟨hok, hintact⟩ := rows_eq_ok h hplain hrs
  refine ⟨by rw [hok, hp]; rfl, fun x a' hpa => ?_⟩
  rw [hp] at hpa
  obtain ⟨-, rfl⟩ := Writing.ok_inj hpa
  exact hintact

/-- Plain rows for columns, each with its place. -/
theorem follows_placed {β : Type} (h : a.Intact) {ids : List Nat} {value : Nat → Nat → β}
    {make : β → NewRow} {p : Writing Unit} (hplain : ∀ v, (make v).Plain)
    (hmentions : ∀ i, ∀ id ∈ ids, ∀ m ∈ (make (value i id)).mentions, a.hasRow m.1 m.2 = true)
    (hp : p a = (.ok (), a.insertRows ((ids.mapIdx value).map make))) :
    Follows (rows ((ids.mapIdx value).map make)) p a := by
  refine follows_rows h (fun r hr => ?_) (fun r hr m hm => ?_) hp
  · obtain ⟨v, -, rfl⟩ := List.mem_map.1 hr
    exact hplain v
  · obtain ⟨v, hv, rfl⟩ := List.mem_map.1 hr
    obtain ⟨i, hi, rfl⟩ := List.mem_mapIdx.1 hv
    exact hmentions i _ (List.getElem_mem hi) m hm

theorem follows_members (h : a.Intact) {k : Nat} {ids : List Nat}
    (hconstraint : a.constraints.has k = true) (hcolumns : ∀ id ∈ ids, a.columns.has id = true) :
    let values : List MemberRow :=
      ids.mapIdx fun i column => { constraint := k, column, order := i + 1 }
    Follows (rows (values.map .member)) (Writing.members k ids) a := by
  intro values
  refine follows_placed h (fun _ => ⟨rfl, fun _ => ⟨rfl, fun _ => rfl⟩⟩)
    (fun i id hid m hm => ?_) ?_
  · simp only [NewRow.mentions, List.mem_cons, List.not_mem_nil, or_false] at hm
    rcases hm with rfl | rfl
    · exact hconstraint
    · exact hcolumns id hid
  · rw [Archive.insertRows_members]
    rfl

theorem follows_targets (h : a.Intact) {k : Nat} {ids : List Nat}
    (hreference : a.references.has k = true) (hcolumns : ∀ id ∈ ids, a.columns.has id = true) :
    let values : List TargetRow :=
      ids.mapIdx fun i column => { reference := k, column, order := i + 1 }
    Follows (rows (values.map .target)) (Writing.targets k ids) a := by
  intro values
  refine follows_placed h (fun _ => ⟨rfl, fun _ => ⟨rfl, fun _ => rfl⟩⟩)
    (fun i id hid m hm => ?_) ?_
  · simp only [NewRow.mentions, List.mem_cons, List.not_mem_nil, or_false] at hm
    rcases hm with rfl | rfl
    · exact hreference
    · exact hcolumns id hid
  · rw [Archive.insertRows_targets]
    rfl

/-- The tables that have been written are there with their columns. -/
def Written (a : Archive) (written : List WrittenTable) : Prop :=
  ∀ w ∈ written, a.tables.has w.id = true ∧ ∀ p ∈ w.columnIds, a.columns.has p.2 = true

theorem Written.has_of_mem_idsOf {written : List WrittenTable} (h : Written a written)
    {w : WrittenTable} (hw : w ∈ written) {names : List String} {id : Nat}
    (hid : id ∈ w.idsOf names) : a.columns.has id = true := by
  obtain ⟨name, -, hlookup⟩ := List.mem_filterMap.1 hid
  exact (h w hw).2 _ (mem_columnIds_of_lookup hlookup)

theorem follows_reference (h : a.Intact) {written : List WrittenTable}
    (hwritten : Written a written) {owner : WrittenTable} {k : Nat} {name : String}
    {target : Reference} (hconstraint : a.constraints.has k = true)
    (hnone : ∀ row ∈ a.references.rows, row.value.constraint ≠ k) :
    Follows (reference written owner k name target)
      (Writing.reference written owner k name target) a := by
  unfold reference Writing.reference
  cases hfind : written.find? (·.table.name == target.table) with
  | none => exact ⟨rfl, nofun⟩
  | some w =>
    have hw := List.mem_of_find?_eq_some hfind
    have hfits : (NewRow.reference { constraint := k, table := w.id }).Fits a := by
      refine ⟨rfl, ?_, ?_⟩
      · simpa [NewRow.mentions, Archive.hasRow] using ⟨hconstraint, (hwritten w hw).1⟩
      · simpa [NewRow.isSecondReference] using hnone
    refine .bind (.row h hfits nofun fun _ => rfl) fun id a' hrow h' => ?_
    obtain ⟨rfl, rfl⟩ := Writing.ok_inj hrow
    exact follows_targets h' (Relation.has_nextId_insert a.references _)
      fun id hid => hwritten.has_of_mem_idsOf hw hid

theorem follows_constraint (h : a.Intact) {written : List WrittenTable}
    (hwritten : Written a written) {owner : WrittenTable} (howner : owner ∈ written)
    (c : Constraint) :
    Follows (constraint written owner c) (Writing.constraint written owner c) a := by
  have hfits : (NewRow.constraint ⟨owner.id, c.name?, c.kind.text⟩).Fits a :=
    ⟨List.contains_iff_mem.2 (Archive.text_mem_knownKinds c.kind),
      by simpa [NewRow.mentions, Archive.hasRow] using (hwritten owner howner).1, rfl⟩
  refine .bind (.row h hfits nofun fun _ => rfl) fun id a₁ hrow h₁ => ?_
  obtain ⟨rfl, rfl⟩ := Writing.ok_inj hrow
  have hthere := Relation.has_nextId_insert a.constraints ⟨owner.id, c.name?, c.kind.text⟩
  refine .bind (follows_members h₁ hthere fun id hid => hwritten.has_of_mem_idsOf howner hid)
    fun x a₂ hmembers h₂ => ?_
  obtain ⟨-, rfl⟩ := Writing.ok_inj hmembers
  cases c.reference? with
  | none => exact .pure h₂ _
  | some target =>
    refine follows_reference h₂ hwritten hthere fun row hrow heq => ?_
    -- A reference that is there already is that of a constraint with an earlier number.
    have hold := h.references_constraint row hrow
    rw [heq, h.constraints.has_nextId] at hold
    cases hold

theorem follows_constraints (h : a.Intact) {written : List WrittenTable}
    (hwritten : Written a written) {cs : List (WrittenTable × Constraint)}
    (hcs : ∀ c ∈ cs, c.1 ∈ written) :
    Follows (cs.forM fun c => constraint written c.1 c.2)
      (cs.forM fun c => Writing.constraint written c.1 c.2) a := by
  induction cs generalizing a with
  | nil => exact .pure h _
  | cons c cs ih =>
    rw [List.forall_mem_cons] at hcs
    refine .bind (follows_constraint h hwritten hcs.1 c.2) fun x a' hc h' => ?_
    obtain ⟨-, rfl⟩ := Writing.constraint_eq_ok hc
    exact ih h' hwritten hcs.2

/-- Behind the first round, all tables are there with their columns. -/
theorem written_newTables (a : Archive) (value : VersionRow) (tables : List Table) :
    Written ({ a with versions := a.versions.insert value }.withTables a.versions.nextId tables)
      (a.newTables tables) := by
  -- The second round leaves tables and columns alone.
  have hstored := a.withConstraints_withTables value tables
  have htables := congrArg Archive.tables hstored
  have hcolumns := congrArg Archive.columns hstored
  simp only [Archive.withConstraints] at htables hcolumns
  intro w hw
  rw [htables, hcolumns]
  refine ⟨Archive.has_tables_stored value hw, fun p hp => ?_⟩
  obtain ⟨row, hrow, hid, -⟩ := Archive.exists_column_stored value hw hp
  exact hid ▸ Relation.has_of_mem hrow

/-- Under all rules a schema is written as without them. -/
theorem follows_schema (h : a.Intact) (value : VersionRow) (tables : List Table) :
    Follows (schema value tables) (Writing.schema value tables) a := by
  refine .bind (follows_version h value) fun id a₁ hversion h₁ => ?_
  obtain ⟨rfl, rfl⟩ := Writing.version_eq_ok hversion
  have hthere := Relation.has_nextId_insert a.versions value
  refine .bind (follows_tables h₁ hthere) fun written a₂ htables h₂ => ?_
  obtain ⟨rfl, rfl⟩ := Writing.tables_eq_ok htables
  rw [Writing.constraints_eq_forM]
  refine .bind (follows_constraints h₂ (written_newTables a value tables) fun c hc => ?_)
    fun _ a₃ _ h₃ => .pure h₃ _
  exact (mem_written_of_mem_owned hc).1

end Guarded

namespace Archive

variable {a : Archive}

/-- Under all rules the outcome of storing is the same as without them. -/
theorem Intact.guardedStore_eq (h : a.Intact) (value : VersionRow) (tables : List Table) :
    a.guardedStore value tables =
      ((a.store value tables).1.mapError Refusal.ofError, (a.store value tables).2) := by
  unfold guardedStore Archive.store Transaction.carryOut
  have hsame : Guarded.schema value tables a.begin.within = _ :=
    (Guarded.follows_schema h value tables).same
  have hwithin : Writing.schema value tables a.begin.within = Writing.schema value tables a := rfl
  rw [hsame, hwithin]
  rcases Writing.schema value tables a with ⟨e | id, within⟩ <;> rfl

/-- A rule that is broken is one on names. -/
theorem Intact.rule_of_guardedStore_eq_error (h : a.Intact) {value : VersionRow}
    {tables : List Table} {rule : Rule}
    (hbroken : (a.guardedStore value tables).1 = .error (.rule rule)) :
    ∃ names, rule = .distinct names := by
  rw [h.guardedStore_eq] at hbroken
  rcases hstore : a.store value tables with ⟨e | v, a'⟩
  · rw [hstore] at hbroken
    have he := Except.error.inj hbroken
    cases e with
    | duplicate names => exact ⟨names, (Refusal.rule.inj he).symm⟩
    | _ => cases he
  · rw [hstore] at hbroken
    cases hbroken

/-- A schema is stored under a name if and only if no version has it, tables have names of their
own, so have the columns of each table, and foreign keys refer to tables of the schema.  Otherwise
the error is that of the first row that cannot be written, and the archive is as it was.  All other
rules of the relations are kept by whatever is written. -/
theorem store_outcome (operations : List (String × Operation)) (value : VersionRow)
    (tables : List Table) :
    let a := (empty.run operations).2
    ((∃ v a', a.store value tables = (.ok v, a')) ↔
      a.Free value.name ∧ NamesDiffer tables ∧
        ∀ p ∈ declaredConstraints tables, p.2.ResolvedIn tables) ∧
    (∀ e, (a.store value tables).1 = .error e ↔ Refused a value.name tables e) ∧
    (∀ e, (a.store value tables).1 = .error e → (a.store value tables).2 = a) ∧
    a.guardedStore value tables =
      ((a.store value tables).1.mapError Refusal.ofError, (a.store value tables).2) ∧
    ∀ rule, (a.guardedStore value tables).1 = .error (.rule rule) →
      ∃ names, rule = .distinct names := by
  intro a
  have h : a.Sound := sound_run operations
  have hunchanged : ∀ e, (a.store value tables).1 = .error e →
      a.store value tables = (.error e, a) := by
    intro e he
    have hstore : a.store value tables = (.error e, (a.store value tables).2) := by rw [← he]
    rw [hstore, (store_eq_error h hstore).1]
  refine ⟨store_eq_ok_iff h, fun e => ⟨fun he => ?_, fun hrefused => ?_⟩,
    fun e he => congrArg Prod.snd (hunchanged e he), h.intact.guardedStore_eq value tables,
    fun rule => h.intact.rule_of_guardedStore_eq_error⟩
  · exact (store_eq_error_iff h).1 (hunchanged e he)
  · exact congrArg Prod.fst ((store_eq_error_iff h).2 hrefused)

/-- The columns of a table come before the next table. -/
example :
    let x : Column := ⟨"x", "INT", false, true, none, false⟩
    (empty.store ⟨"v", none, "t"⟩ [⟨"a", [x, x], []⟩, ⟨"a", [], []⟩]).1 =
      .error (.duplicate .column) := rfl

end Archive

end SchemaArchive
