import SchemaArchive.Proofs.Archive.Admission
import SchemaArchive.Proofs.Archive.Transcript
import SchemaArchive.Proofs.Archive.Tree

/-!
# Operations on sound archives

Writing that fails is rolled back, and the archive is the one in which the transaction began,
whatever had been written by then.  Writing that succeeds is committed, and the version is found
when it is read back.  Every operation leaves a sound archive sound, so all of this holds of
every archive that can be reached from the empty one.

* `Archive.Sound.store_cases`, `Archive.store_eq_ok` — what storing does.
* `Archive.exists_store_eq_ok_iff` — a sound archive admits exactly the storable schemas under free
  names.
* `Archive.Sound.perform_cases` — what an operation does.
* `Archive.sound_run` — all archives that can be reached from the empty one are sound.
-/

namespace SchemaArchive

/-- What is answered to an operation that may fail, other than that it has failed, is answered to
its outcome. -/
theorem Answer.of_ne {α : Type} {answer : α → Answer} {given : Answer}
    (result : Except StoreError α) (hfailed : ∀ e, .failed e ≠ given)
    (hanswer : ∀ x, answer x ≠ given) : Answer.of answer result ≠ given := by
  cases result with
  | error e => exact hfailed e
  | ok x => exact hanswer x

namespace Archive

variable {a : Archive} {value : VersionRow} {tables : List Table}

/-! ## Finding versions -/

theorem Sound.loadVersion? (h : a.Sound) (row : Option (Row VersionRow)) :
    a.loadVersion? row = .ok (row.map a.tree) := by
  cases row with
  | none => rfl
  | some row => exact congrArg (Except.map some) (h.loadVersion row)

/-- Numbers of rows are compared with numbers that may be negative. -/
theorem natCast_beq_natCast (m n : Nat) : ((m : Int) == (n : Int)) = (m == n) := by
  by_cases h : m = n
  · simp [h]
  · have hne : (m : Int) ≠ n := by omega
    rw [beq_eq_false_iff_ne.2 h, beq_eq_false_iff_ne.2 hne]

theorem Sound.get?_natCast (h : a.Sound) (id : Nat) :
    a.get? id = .ok ((a.versions.find? id).map a.tree) := by
  rw [get?, h.loadVersion?, Relation.find?]
  simp only [natCast_beq_natCast]

theorem Sound.readBack_of_mem (h : a.Sound) {row : Row VersionRow}
    (hrow : row ∈ a.versions.rows) : a.readBack row.id = .ok (a.tree row) := by
  rw [readBack, h.get?_natCast, h.intact.versions.find?_of_mem hrow]
  rfl

theorem mem_versions_stored (a : Archive) (value : VersionRow) (tables : List Table) :
    ⟨a.versions.nextId, value⟩ ∈ (a.stored value tables).versions.rows := by
  rw [stored, Relation.rows_insertAll]
  exact List.mem_append_right _ (List.mem_singleton.2 rfl)

/-! ## Storing -/

/-- If writing fails, the archive is as it was before, however far writing got. -/
theorem store_of_schema_eq_error {e : StoreError} {within : Archive}
    (h : Writing.schema value tables a = (.error e, within)) :
    a.store value tables = (.error e, a) := by
  have hwithin : a.begin.carryOut (Writing.schema value tables) =
      (.error e, { before := a, within }) := by
    rw [Transaction.carryOut, begin, h]
  rw [store, hwithin]
  rfl

/-- If writing succeeds, what was written is kept, and the version is read back. -/
theorem store_of_schema_eq_ok {id : Nat} {within : Archive}
    (h : Writing.schema value tables a = (.ok id, within)) :
    a.store value tables = (within.readBack id, within) := by
  have hwithin : a.begin.carryOut (Writing.schema value tables) =
      (.ok id, { before := a, within }) := by
    rw [Transaction.carryOut, begin, h]
  rw [store, hwithin]
  rfl

/-- The tree of a version that is stored in the archive. -/
def newVersion (a : Archive) (value : VersionRow) (tables : List Table) : Version :=
  (a.stored value tables).tree ⟨a.versions.nextId, value⟩

/-- A version is stored if its schema can be written, and it is found when it is read back. -/
theorem Sound.store_of_succeeds (h : a.Sound)
    (hs : (Writing.schema value tables).Succeeds a) :
    a.store value tables = (.ok (a.newVersion value tables), a.stored value tables) ∧
      (a.stored value tables).Sound ∧
      ∀ c ∈ owned (a.newTables tables), c.2.Resolved (a.newTables tables) := by
  have hsound := h.stored ((Writing.schema_succeeds_iff h.intact).1 hs).1 tables
  obtain ⟨id, within, hs⟩ := hs
  obtain ⟨rfl, rfl, hresolved⟩ := Writing.schema_eq_ok hs
  refine ⟨?_, hsound, hresolved⟩
  rw [store_of_schema_eq_ok hs]
  exact congrArg (·, a.stored value tables)
    (hsound.readBack_of_mem (mem_versions_stored a value tables))

/-- Storing either fails and leaves the archive as it is, or adds a version and answers its
tree. -/
theorem Sound.store_cases (h : a.Sound) (value : VersionRow) (tables : List Table) :
    (∃ e, a.store value tables = (.error e, a) ∧ (Writing.schema value tables a).1 = .error e) ∨
    (a.store value tables = (.ok (a.newVersion value tables), a.stored value tables) ∧
      (a.stored value tables).Sound ∧
      ∀ c ∈ owned (a.newTables tables), c.2.Resolved (a.newTables tables)) := by
  rcases hs : Writing.schema value tables a with ⟨e | id, within⟩
  · exact .inl ⟨e, store_of_schema_eq_error hs, rfl⟩
  · exact .inr (h.store_of_succeeds ⟨id, within, hs⟩)

/-- Storing gives the rows of one more version, and the version that they make up. -/
theorem store_eq_ok (h : a.Sound) {v : Version} {a' : Archive}
    (hs : a.store value tables = (.ok v, a')) :
    a' = a.stored value tables ∧ v = a.newVersion value tables ∧
      ∀ c ∈ owned (a.newTables tables), c.2.Resolved (a.newTables tables) := by
  rcases h.store_cases value tables with ⟨e, he, -⟩ | ⟨hok, -, hresolved⟩
  · cases he.symm.trans hs
  · obtain ⟨hv, ha⟩ := Prod.mk.inj (hs.symm.trans hok)
    exact ⟨ha, Except.ok.inj hv, hresolved⟩

/-- Storing that fails leaves no trace. -/
theorem store_eq_error (h : a.Sound) {e : StoreError} {a' : Archive}
    (hs : a.store value tables = (.error e, a')) :
    a' = a ∧ (Writing.schema value tables a).1 = .error e := by
  rcases h.store_cases value tables with ⟨e', he, hwriting⟩ | ⟨hok, -⟩
  · obtain ⟨heq, ha⟩ := Prod.mk.inj (hs.symm.trans he)
    cases heq
    exact ⟨ha, hwriting⟩
  · cases hok.symm.trans hs

theorem Sound.store (h : a.Sound) {v : Version} {a' : Archive}
    (hs : a.store value tables = (.ok v, a')) : a'.Sound := by
  rcases h.store_cases value tables with ⟨e, he, -⟩ | ⟨hok, hsound, -⟩
  · cases he.symm.trans hs
  · cases hok.symm.trans hs
    exact hsound

/-- A sound archive admits the storable schemas under free names, and no others. -/
theorem exists_store_eq_ok_iff (h : a.Sound) :
    (∃ v a', a.store value tables = (.ok v, a')) ↔
      (∀ row ∈ a.versions.rows, row.value.name ≠ value.name) ∧ Storable tables := by
  rw [← Writing.schema_succeeds_iff h.intact]
  constructor
  · rintro ⟨v, a', hs⟩
    rcases hwriting : Writing.schema value tables a with ⟨e | id, within⟩
    · cases (store_of_schema_eq_error hwriting).symm.trans hs
    · exact ⟨id, within, hwriting⟩
  · exact fun hs => ⟨_, _, (h.store_of_succeeds hs).1⟩

/-! ## Operations -/

/-- What an operation can do: store a version and answer it, delete one, or leave the archive as
it is. -/
theorem Sound.perform_cases (h : a.Sound) (time : String) (operation : Operation) :
    (∃ value tables v, a.store value tables = (.ok v, (a.perform time operation).2) ∧
      (a.perform time operation).1 = .stored v) ∨
    (∃ id, operation = .delete id) ∨
    ((a.perform time operation).2 = a ∧ ∀ v, (a.perform time operation).1 ≠ .stored v) := by
  have hstoring : ∀ value tables,
      (∃ v, a.store value tables = (.ok v, (a.store value tables).2) ∧
        Answer.of .stored (a.store value tables).1 = .stored v) ∨
      ((a.store value tables).2 = a ∧
        ∀ v, Answer.of .stored (a.store value tables).1 ≠ .stored v) := by
    intro value tables
    rcases h.store_cases value tables with ⟨e, he, -⟩ | ⟨hok, -⟩
    · rw [he]
      exact .inr ⟨rfl, by simp [Answer.of]⟩
    · rw [hok]
      exact .inl ⟨_, rfl, rfl⟩
  cases operation with
  | importScript script name description =>
    let value : VersionRow := { name, description, createdAt := time }
    rw [perform, importScript]
    cases readScript script with
    | error e => exact .inr (.inr ⟨rfl, by simp [Answer.of]⟩)
    | ok tables =>
      rcases hstoring value tables with ⟨v, h⟩ | h
      · exact .inl ⟨value, tables, v, h⟩
      · exact .inr (.inr h)
  | store tables name description =>
    let value : VersionRow := { name, description, createdAt := time }
    rcases hstoring value tables with ⟨v, h⟩ | h
    · exact .inl ⟨value, tables, v, h⟩
    · exact .inr (.inr h)
  | delete id => exact .inr (.inl ⟨id, rfl⟩)
  | get id => exact .inr (.inr ⟨rfl, fun v => Answer.of_ne _ (by simp) (by simp)⟩)
  | getByName name => exact .inr (.inr ⟨rfl, fun v => Answer.of_ne _ (by simp) (by simp)⟩)
  | list => exact .inr (.inr ⟨rfl, by simp [perform]⟩)
  | script id => exact .inr (.inr ⟨rfl, fun v => Answer.of_ne _ (by simp) (by simp)⟩)
  | tables id => exact .inr (.inr ⟨rfl, fun v => Answer.of_ne _ (by simp) (by simp)⟩)

/-! ## Runs -/

theorem Sound.perform (h : a.Sound) (time : String) (operation : Operation) :
    (a.perform time operation).2.Sound := by
  rcases h.perform_cases time operation with ⟨value, tables, v, hs, -⟩ | ⟨id, rfl⟩ | ⟨hsame, -⟩
  · exact h.store hs
  · exact h.delete id
  · rwa [hsame]

theorem Sound.run (h : a.Sound) (operations : List (String × Operation)) :
    (a.run operations).2.Sound :=
  run_induction (fun _ time operation h => h.perform time operation) h operations

/-- Every archive that can be reached from the empty one is sound. -/
theorem sound_run (operations : List (String × Operation)) : (empty.run operations).2.Sound :=
  sound_empty.run operations

theorem intact_run (operations : List (String × Operation)) :
    (empty.run operations).2.Intact :=
  (sound_run operations).intact

end Archive

end SchemaArchive
