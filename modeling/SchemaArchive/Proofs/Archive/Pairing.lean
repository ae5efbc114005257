import SchemaArchive.Proofs.Archive.WellFormed

/-!
# Pairs of columns in foreign keys

A foreign key pairs the columns that it constrains with those that it refers to, by their places.
When it is stored, names of columns that are not there are passed over on either side by itself,
so what is left on the two sides may come from different places of the declaration.  Each stored
column is the one at the place where as many known names stand before it as before the stored
column; a stored pair is a declared one if both sides pass over as many names before it.

* `IsPlace` — where the entries of a filtered list come from, with `exists_place` and
  `IsPlace.unique`.
* `Archive.run_pairs` — where the stored pairs of a foreign key come from.
-/

namespace SchemaArchive

variable {α β : Type}

/-! ## Places in a filtered list -/

/-- The entry at place `j` passes the test, as do `i` of the entries before it. -/
def IsPlace (p : α → Bool) (xs : List α) (i j : Nat) : Prop :=
  (xs[j]?).any p = true ∧ (xs.take j).countP p = i

instance (p : α → Bool) (xs : List α) (i j : Nat) : Decidable (IsPlace p xs i j) :=
  inferInstanceAs (Decidable (_ ∧ _))

theorem IsPlace.cons_of_pos {p : α → Bool} {x : α} {xs : List α} (hx : p x = true) {i j : Nat}
    (h : IsPlace p xs i j) : IsPlace p (x :: xs) (i + 1) (j + 1) :=
  ⟨h.1, by rw [List.take_succ_cons, List.countP_cons_of_pos hx, h.2]⟩

theorem IsPlace.cons_of_neg {p : α → Bool} {x : α} {xs : List α} (hx : p x = false) {i j : Nat}
    (h : IsPlace p xs i j) : IsPlace p (x :: xs) i (j + 1) :=
  ⟨h.1, by rw [List.take_succ_cons, List.countP_cons_of_neg (by simp [hx]), h.2]⟩

/-- Every entry of a filtered list has a place in the whole list. -/
theorem exists_place {p : α → Bool} {xs : List α} {i : Nat} {x : α}
    (h : (xs.filter p)[i]? = some x) : ∃ j, xs[j]? = some x ∧ IsPlace p xs i j := by
  induction xs generalizing i with
  | nil => simp at h
  | cons y xs ih =>
    cases hy : p y with
    | false =>
      rw [List.filter_cons_of_neg (by simp [hy])] at h
      obtain ⟨j, hj, hplace⟩ := ih h
      exact ⟨j + 1, hj, hplace.cons_of_neg hy⟩
    | true =>
      rw [List.filter_cons_of_pos hy] at h
      cases i with
      | zero =>
        obtain rfl := Option.some.inj h
        exact ⟨0, rfl, hy, rfl⟩
      | succ i =>
        obtain ⟨j, hj, hplace⟩ := ih h
        exact ⟨j + 1, hj, hplace.cons_of_pos hy⟩

theorem countP_take_succ (p : α → Bool) (xs : List α) (j : Nat) :
    (xs.take (j + 1)).countP p = (xs.take j).countP p + ((xs[j]?).any p).toNat := by
  rw [List.take_add_one, List.countP_append]
  cases hx : xs[j]? with
  | none => rfl
  | some x => cases hp : p x <;> simp [hp]

/-- Fewer entries pass before an entry that passes than before a later place. -/
theorem countP_take_lt {p : α → Bool} {xs : List α} {j k : Nat} (hj : (xs[j]?).any p = true)
    (hlt : j < k) : (xs.take j).countP p < (xs.take k).countP p := by
  have hsucc := countP_take_succ p xs j
  have hle : (xs.take (j + 1)).countP p ≤ (xs.take k).countP p :=
    (List.take_sublist_take_left hlt).countP_le
  rw [hj, Bool.toNat_true] at hsucc
  omega

theorem IsPlace.unique {p : α → Bool} {xs : List α} {i j k : Nat} (hj : IsPlace p xs i j)
    (hk : IsPlace p xs i k) : j = k := by
  rcases Nat.lt_trichotomy j k with hlt | heq | hlt
  · have := countP_take_lt hj.1 hlt
    rw [hj.2, hk.2] at this
    omega
  · exact heq
  · have := countP_take_lt hk.1 hlt
    rw [hj.2, hk.2] at this
    omega

/-- Where two lists pass their tests at the same places, the places are the same. -/
theorem IsPlace.congr {p : α → Bool} {q : β → Bool} {xs : List α} {ys : List β} {i j : Nat}
    (h : IsPlace p xs i j) (hsame : ∀ n ≤ j, (xs[n]?).any p = (ys[n]?).any q) :
    IsPlace q ys i j := by
  have hcount : ∀ n ≤ j, (xs.take n).countP p = (ys.take n).countP q := by
    intro n hn
    induction n with
    | zero => rfl
    | succ n ih =>
      rw [countP_take_succ, countP_take_succ, ih (by omega), hsame n (by omega)]
  exact ⟨(hsame j (Nat.le_refl j)).symm.trans h.1, (hcount j (Nat.le_refl j)).symm.trans h.2⟩

/-! ## Stored foreign keys -/

/-- The schema that an operation stores, if it is one that stores. -/
def Operation.declared? : Operation → Option (List Table)
  | .importScript text _ _ => (readScript text).toOption
  | .store schema _ _ => some schema
  | _ => none

/-- Does the schema have a column of this name in the table of that name? -/
def hasColumnIn (tables : List Table) (table column : String) : Bool :=
  (tables.find? (·.name == table)).any (·.hasColumn column)

namespace Archive

variable {a a' : Archive}

/-- A version that is answered has been stored, with the schema that the operation declares. -/
theorem exists_store_of_perform {time : String} {operation : Operation} {v : Version}
    (hv : (a.perform time operation).1 = .stored v) :
    ∃ value tables a', operation.declared? = some tables ∧ a.store value tables = (.ok v, a') := by
  have hstoring : ∀ value tables,
      Answer.of .stored (a.store value tables).1 = .stored v →
      ∃ a', a.store value tables = (.ok v, a') := by
    intro value tables hv
    rcases hs : a.store value tables with ⟨e | v', a'⟩
    · rw [hs] at hv
      cases hv
    · rw [hs] at hv
      obtain rfl := Answer.stored.inj hv
      exact ⟨a', rfl⟩
  cases operation with
  | importScript script name description =>
    rw [perform, importScript] at hv
    cases hread : readScript script with
    | error e =>
      rw [hread] at hv
      cases hv
    | ok tables =>
      rw [hread] at hv
      obtain ⟨a', hs⟩ := hstoring _ tables hv
      exact ⟨_, tables, a', by rw [Operation.declared?, hread]; rfl, hs⟩
  | store tables name description =>
    obtain ⟨a', hs⟩ := hstoring _ tables hv
    exact ⟨_, tables, a', rfl, hs⟩
  | list => cases hv
  | delete id => cases hv
  | get id => exact absurd hv (Answer.of_ne _ (by simp) (by simp))
  | getByName name => exact absurd hv (Answer.of_ne _ (by simp) (by simp))
  | script id => exact absurd hv (Answer.of_ne _ (by simp) (by simp))
  | tables id => exact absurd hv (Answer.of_ne _ (by simp) (by simp))

/-- A declared foreign key is stored in its place, with the columns that are there on its two
sides. -/
theorem foreignKey_stored (h : a.Sound) {value : VersionRow} {tables : List Table} {v : Version}
    (hs : a.store value tables = (.ok v, a')) {n m : Nat} {t : Table} {name : String}
    {columns : List String} {target : Reference} (ht : tables[n]? = some t)
    (hc : t.constraints[m]? = some (.foreignKey name columns target)) :
    ∃ t' k r, v.tables[n]? = some t' ∧ t'.constraints[m]? = some k ∧ k.reference = some r ∧
      k.members.map (·.columnName) = columns.filter t.hasColumn ∧
      r.targets.map (·.columnName) = target.columns.filter (hasColumnIn tables target.table) ∧
      k.members.map (·.order) = List.range' 1 k.members.length ∧
      r.targets.map (·.order) = List.range' 1 r.targets.length := by
  have hwf := wellFormed_of_store h hs
  have htables : v.toTables = restricted tables := by
    obtain ⟨rfl, rfl, hresolved⟩ := store_eq_ok h hs
    exact toTables_newVersion h.intact value hresolved
  have htable : (v.tables[n]?).map StoredTable.toTable =
      some { t with constraints := t.constraints.map (.restricted tables t) } := by
    rw [← List.getElem?_map, ← Version.toTables, htables, restricted, List.getElem?_map, ht]
    rfl
  obtain ⟨t', ht', htable'⟩ := Option.map_eq_some_iff.1 htable
  have hconstraint : (t'.constraints[m]?).map StoredConstraint.toConstraint =
      some ((Constraint.foreignKey name columns target).restricted tables t) := by
    have hconstraints : t'.constraints.map StoredConstraint.toConstraint =
        t.constraints.map (.restricted tables t) := congrArg Table.constraints htable'
    rw [← List.getElem?_map, hconstraints, List.getElem?_map, hc]
    rfl
  obtain ⟨k, hk, hrestricted⟩ := Option.map_eq_some_iff.1 hconstraint
  have hplace := (hwf.tables t' (List.mem_of_getElem? ht')).constraints k (List.mem_of_getElem? hk)
  have hkind : k.kind = .foreignKey := by
    cases hkind : k.kind with
    | foreignKey => rfl
    | _ => simp [StoredConstraint.toConstraint, Constraint.restricted, hkind] at hrestricted
  obtain ⟨r, hr⟩ := Option.isSome_iff_exists.1 (hplace.reference_iff.2 hkind)
  simp only [StoredConstraint.toConstraint, hkind, Constraint.restricted, StoredConstraint.target,
    hr, Constraint.foreignKey.injEq, Reference.mk.injEq] at hrestricted
  exact ⟨t', k, r, ht', hk, hr, hrestricted.2.1, hrestricted.2.2.2, hplace.members_order,
    (hplace.reference r hr).targets_order⟩

end Archive

/-- The `i`-th pair of a stored foreign key, of the columns `member` and `target`, comes from the
places `j` and `k` of the declaration, which names `columns` and `targets`.  On either side the
stored places are counted from one. -/
structure PairFrom (known knownTarget : String → Bool) (columns targets : List String) (i : Nat)
    (member : StoredMember) (target : StoredTarget) (j k : Nat) : Prop where
  member_order : member.order = i + 1
  target_order : target.order = i + 1
  column : columns[j]? = some member.columnName
  target : targets[k]? = some target.columnName
  column_place : IsPlace known columns i j
  target_place : IsPlace knownTarget targets i k

/-- The `i`-th of some places that are counted from one. -/
theorem order_eq_of_getElem? {α : Type} {things : List α} {order : α → Nat}
    (h : things.map order = List.range' 1 things.length) {i : Nat} {x : α}
    (hx : things[i]? = some x) : order x = i + 1 := by
  obtain ⟨hi, -⟩ := List.getElem?_eq_some_iff.1 hx
  have hplace : (things.map order)[i]? = some (order x) := by rw [List.getElem?_map, hx]; rfl
  rw [h, List.getElem?_range' hi, Option.some.injEq] at hplace
  omega

theorem exists_pairFrom {known knownTarget : String → Bool} {columns targets : List String}
    {members : List StoredMember} {stored : List StoredTarget}
    (hmembers : members.map (·.columnName) = columns.filter known)
    (hstored : stored.map (·.columnName) = targets.filter knownTarget)
    (hmemberOrder : members.map (·.order) = List.range' 1 members.length)
    (htargetOrder : stored.map (·.order) = List.range' 1 stored.length) {i : Nat}
    {member : StoredMember} {target : StoredTarget} (hmember : members[i]? = some member)
    (htarget : stored[i]? = some target) :
    ∃ j k, PairFrom known knownTarget columns targets i member target j k := by
  have hcolumn : (columns.filter known)[i]? = some member.columnName := by
    rw [← hmembers, List.getElem?_map, hmember]
    rfl
  have hreferenced : (targets.filter knownTarget)[i]? = some target.columnName := by
    rw [← hstored, List.getElem?_map, htarget]
    rfl
  obtain ⟨j, hj, hplace⟩ := exists_place hcolumn
  obtain ⟨k, hk, hplace'⟩ := exists_place hreferenced
  exact ⟨j, k, order_eq_of_getElem? hmemberOrder hmember,
    order_eq_of_getElem? htargetOrder htarget, hj, hk, hplace, hplace'⟩

/-- A stored pair is the declared one at `j` if and only if the referenced column at `j` is there,
and before it as many columns are there on one side as on the other. -/
theorem PairFrom.eq_iff {known knownTarget : String → Bool} {columns targets : List String}
    {i : Nat} {member : StoredMember} {target : StoredTarget} {j k : Nat}
    (h : PairFrom known knownTarget columns targets i member target j k) :
    k = j ↔ IsPlace knownTarget targets i j :=
  ⟨fun heq => heq ▸ h.target_place, fun hplace => h.target_place.unique hplace⟩

/-- The stored pairs of a foreign key come from the declaration: the `i`-th one from columns at two
places before which `i` columns are there.  These are one place if up to there both columns of
each declared pair are there, or neither of them. -/
def PairsFrom (known knownTarget : String → Bool) (columns targets : List String)
    (members : List StoredMember) (stored : List StoredTarget) : Prop :=
  ∀ i member target, members[i]? = some member → stored[i]? = some target →
    ∃ j k, PairFrom known knownTarget columns targets i member target j k ∧
      (k = j ↔ IsPlace knownTarget targets i j) ∧
      ((∀ n ≤ j, (columns[n]?).any known = (targets[n]?).any knownTarget) → k = j)

theorem pairsFrom_of_filter {known knownTarget : String → Bool} {columns targets : List String}
    {members : List StoredMember} {stored : List StoredTarget}
    (hmembers : members.map (·.columnName) = columns.filter known)
    (hstored : stored.map (·.columnName) = targets.filter knownTarget)
    (hmemberOrder : members.map (·.order) = List.range' 1 members.length)
    (htargetOrder : stored.map (·.order) = List.range' 1 stored.length) :
    PairsFrom known knownTarget columns targets members stored := by
  intro i member target hmember htarget
  obtain ⟨j, k, hpair⟩ := exists_pairFrom hmembers hstored hmemberOrder htargetOrder hmember htarget
  exact ⟨j, k, hpair, hpair.eq_iff, fun hsame => hpair.eq_iff.2 (hpair.column_place.congr hsame)⟩

namespace Archive

/-- Whatever a run stores, a declared foreign key is stored in its place, and its pairs come from
the declaration. -/
theorem run_pairs (operations : List (String × Operation)) {time : String} {operation : Operation}
    {v : Version} (h : ((empty.run operations).2.perform time operation).1 = .stored v) :
    ∃ tables, operation.declared? = some tables ∧
      ∀ (n m : Nat) (t : Table) (name : String) (columns : List String) (target : Reference),
        tables[n]? = some t → t.constraints[m]? = some (.foreignKey name columns target) →
        ∃ (t' : StoredTable) (key : StoredConstraint) (r : StoredReference),
          v.tables[n]? = some t' ∧ t'.constraints[m]? = some key ∧ key.reference = some r ∧
          PairsFrom t.hasColumn (hasColumnIn tables target.table) columns target.columns
            key.members r.targets := by
  obtain ⟨value, tables, a', hdeclared, hs⟩ := exists_store_of_perform h
  refine ⟨tables, hdeclared, fun n m t name columns target ht hc => ?_⟩
  obtain ⟨t', key, r, ht', hkey, hr, hmembers, htargets, hmemberOrder, htargetOrder⟩ :=
    foreignKey_stored (sound_run operations) hs ht hc
  exact ⟨t', key, r, ht', hkey, hr,
    pairsFrom_of_filter hmembers htargets hmemberOrder htargetOrder⟩

/-- Each side of the foreign key names a column in vain at the same place, so its two stored pairs
are declared ones. -/
theorem run_pairs_middle :
    let column (name : String) : Column := { name, type := "INT" }
    let operations : List (String × Operation) :=
      [("1", .store [⟨"P", [column "X"], []⟩] "v" none), ("2", .delete 1)]
    let t : Table := ⟨"T", [column "A", column "B"],
      [.foreignKey "F" ["A", "Q", "B"] ⟨"P", ["X", "Z", "Y"]⟩]⟩
    let p : Table := ⟨"P", [column "X", column "Y"], []⟩
    let members : List StoredMember := [⟨1, 1, 2, 1, "A"⟩, ⟨2, 1, 3, 2, "B"⟩]
    let targets : List StoredTarget := [⟨1, 1, 4, 1, "X"⟩, ⟨2, 1, 5, 2, "Y"⟩]
    let key : StoredConstraint :=
      ⟨1, 2, some "F", .foreignKey, members, some ⟨1, 1, 3, "P", targets⟩⟩
    let v : Version := ⟨2, "v", none, "3",
      [⟨2, 2, "T", [⟨2, 2, column "A", 1⟩, ⟨3, 2, column "B", 2⟩], [key]⟩,
        ⟨3, 2, "P", [⟨4, 3, column "X", 1⟩, ⟨5, 3, column "Y", 2⟩], []⟩]⟩
    ((empty.run operations).2.perform "3" (.store [t, p] "v" none)).1 = .stored v ∧
      PairsFrom t.hasColumn (hasColumnIn [t, p] "P") ["A", "Q", "B"] ["X", "Z", "Y"]
        members targets := by
  intro column operations t p members targets key v
  have hstored : ((empty.run operations).2.perform "3" (.store [t, p] "v" none)).1 =
      .stored v := by decide +kernel
  obtain ⟨tables, htables, hpairs⟩ := run_pairs operations hstored
  obtain rfl := Option.some.inj htables
  obtain ⟨t', key', r, ht', hkey, hr, hfrom⟩ := hpairs 0 0 t _ _ _ rfl rfl
  obtain rfl := Option.some.inj ht'
  obtain rfl := Option.some.inj hkey
  obtain rfl := Option.some.inj hr
  exact ⟨hstored, hfrom⟩

end Archive

/-- The pairs of columns are pairs of the declaration. -/
def DeclaredPairs (columns targets : List String) (members : List StoredMember)
    (stored : List StoredTarget) : Prop :=
  ∀ (i : Nat) (member : StoredMember) (target : StoredTarget),
    members[i]? = some member → stored[i]? = some target →
    ∃ j : Nat, columns[j]? = some member.columnName ∧ targets[j]? = some target.columnName

namespace Archive

/-- A stored pair need not be a declared one: the first column that is referred to is not there,
and so the first column of the foreign key is paired with the second one of the other table. -/
theorem run_pairs_shifted :
    ¬ ∀ (operations : List (String × Operation)) (time : String) (operation : Operation)
      (v : Version) (tables : List Table) (n m : Nat) (t : Table) (name : String)
      (columns : List String) (target : Reference) (t' : StoredTable) (key : StoredConstraint)
      (r : StoredReference),
      ((empty.run operations).2.perform time operation).1 = .stored v →
      operation.declared? = some tables → tables[n]? = some t →
      t.constraints[m]? = some (.foreignKey name columns target) →
      columns.length = target.columns.length →
      v.tables[n]? = some t' → t'.constraints[m]? = some key → key.reference = some r →
      DeclaredPairs columns target.columns key.members r.targets := by
  intro hall
  let column (name : String) : Column := { name, type := "INT" }
  let operation : Operation := .importScript "CREATE TABLE p (x INT, y INT);
    CREATE TABLE t (a INT, b INT, CONSTRAINT f FOREIGN KEY (a, b) REFERENCES p (z, y));" "v" none
  let p : Table := ⟨"P", [column "X", column "Y"], []⟩
  let t : Table :=
    ⟨"T", [column "A", column "B"], [.foreignKey "F" ["A", "B"] ⟨"P", ["Z", "Y"]⟩]⟩
  let members : List StoredMember := [⟨1, 1, 3, 1, "A"⟩, ⟨2, 1, 4, 2, "B"⟩]
  let r : StoredReference := ⟨1, 1, 1, "P", [⟨1, 1, 2, 1, "Y"⟩]⟩
  let key : StoredConstraint := ⟨1, 2, some "F", .foreignKey, members, some r⟩
  let v : Version := ⟨1, "v", none, "1",
    [⟨1, 1, "P", [⟨1, 1, column "X", 1⟩, ⟨2, 1, column "Y", 2⟩], []⟩,
      ⟨2, 1, "T", [⟨3, 2, column "A", 1⟩, ⟨4, 2, column "B", 2⟩], [key]⟩]⟩
  have hstored : (empty.perform "1" operation).1 = .stored v := by decide +kernel
  have hdeclared : operation.declared? = some [p, t] := by decide +kernel
  obtain ⟨j, hj, hj'⟩ := hall [] "1" operation v [p, t] 1 0 t "F" ["A", "B"] ⟨"P", ["Z", "Y"]⟩ _
    key r hstored hdeclared rfl rfl rfl rfl rfl rfl 0 _ _ rfl rfl
  match j with
  | 0 => exact absurd hj' (by decide)
  | 1 => exact absurd hj (by decide)
  | j + 2 => cases hj

end Archive

end SchemaArchive
