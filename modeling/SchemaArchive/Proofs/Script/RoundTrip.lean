import SchemaArchive.Proofs.Script.RenderedScript

/-!
# A schema that is written and read again

Writing a schema and reading the script gives the schema back, whatever its names and defaults
hold, up to the place of the foreign keys: they stand in statements of their own, which go by the
name of a table, and so they all come to the last table of that name.  What comes out is the
schema in this form.

* `gathered` — the schema with its foreign keys in their places.
* `readScript_renderScript` — reading a rendered schema gives it back, gathered.
-/

namespace SchemaArchive

open Grammar Text

/-- The foreign keys of all tables of the given name, in order.  Those with an empty name are
called after their table and their number in it. -/
def foreignKeysOf (tables : List Table) (name : String) : List Constraint :=
  (tables.filter (·.name == name)).flatMap fun t => namedForeignKeys t.name 1 t.constraints

/-- The tables `ts` without their foreign keys, except that the last one of each name has those
which `keysOf` gives. -/
def gatheredFrom (keysOf : String → List Constraint) : List Table → List Table
  | [] => []
  | t :: ts =>
    { t with constraints :=
        t.indexes ++ if ts.any (·.name == t.name) then [] else keysOf t.name } ::
      gatheredFrom keysOf ts

/-- The schema in which each table has its indexes in order, and then, if it is the last one of
its name, the foreign keys of all tables of that name. -/
def gathered (tables : List Table) : List Table :=
  gatheredFrom (foreignKeysOf tables) tables

/-! ## What the statements declare -/

/-- Additions of foreign keys to tables, each of which is given by its name. -/
def additions (keys : List (String × Constraint)) : List Statement :=
  keys.map fun k => .addForeignKey k.1 k.2

theorem addedTo_additions (name : String) (keys : List (String × Constraint)) :
    addedTo name (additions keys) = (keys.filter (·.1 == name)).map Prod.snd := by
  induction keys with
  | nil => rfl
  | cons k keys ih =>
    have hcons : additions (k :: keys) = .addForeignKey k.1 k.2 :: additions keys := rfl
    rw [hcons, addedTo, ih]
    by_cases hname : k.1 = name <;> simp [hname]

theorem declared_additions (keys : List (String × Constraint)) :
    declared (additions keys) = [] := by
  induction keys with
  | nil => rfl
  | cons k keys ih => exact ih

/-- Foreign keys that are added behind all declarations pass by the tables that have a namesake
behind them. -/
theorem addedTo_creates (name : String) (ts : List Table) (keys : List (String × Constraint)) :
    addedTo name ((ts.map fun t => .createTable { t with constraints := t.indexes }) ++
        additions keys) =
      if ts.any (·.name == name) then [] else (keys.filter (·.1 == name)).map Prod.snd := by
  induction ts with
  | nil => simpa using addedTo_additions name keys
  | cons t ts ih =>
    rw [List.map_cons, List.cons_append, addedTo, ih]
    by_cases hname : t.name = name <;> simp [hname]

theorem declared_creates (ts : List Table) (keys : List (String × Constraint)) :
    declared ((ts.map fun t => .createTable { t with constraints := t.indexes }) ++
        additions keys) =
      gatheredFrom (fun name => (keys.filter (·.1 == name)).map Prod.snd) ts := by
  induction ts with
  | nil => exact declared_additions keys
  | cons t ts ih =>
    rw [List.map_cons, List.cons_append, declared, ih, gatheredFrom, addedTo_creates]

/-- The foreign keys of all tables, each with the name of its table. -/
def placedForeignKeys (tables : List Table) : List (String × Constraint) :=
  tables.flatMap fun t => (namedForeignKeys t.name 1 t.constraints).map (t.name, ·)

theorem statements_eq (tables : List Table) :
    Render.statements tables =
      (tables.map fun t => .createTable { t with constraints := t.indexes }) ++
        additions (placedForeignKeys tables) := by
  simp [Render.statements, additions, placedForeignKeys, List.map_flatMap, Function.comp_def]

theorem filter_placedForeignKeys (tables : List Table) (name : String) :
    ((placedForeignKeys tables).filter (·.1 == name)).map Prod.snd = foreignKeysOf tables name := by
  induction tables with
  | nil => rfl
  | cons t tables ih =>
    have hplaced : placedForeignKeys (t :: tables) =
        (namedForeignKeys t.name 1 t.constraints).map (t.name, ·) ++ placedForeignKeys tables := rfl
    rw [hplaced, List.filter_append, List.map_append, ih, foreignKeysOf, foreignKeysOf]
    by_cases hname : t.name = name
    · rw [List.filter_cons_of_pos (by simpa using hname), List.flatMap_cons]
      simp [List.filter_map, Function.comp_def, hname]
    · rw [List.filter_cons_of_neg (by simpa using hname)]
      simp [List.filter_map, Function.comp_def, hname]

theorem declared_statements (tables : List Table) :
    declared (Render.statements tables) = gathered tables := by
  rw [statements_eq, declared_creates, gathered]
  simp only [filter_placedForeignKeys]

/-! ## The round trip -/

/-- A rendered schema is accepted and gives itself back, gathered, if its types are types. -/
theorem readScript_renderScript {tables : List Table}
    (h : ∀ t ∈ tables, ∀ c ∈ t.columns, IsTypeText c.type.toList) :
    readScript (renderScript tables) = .ok (gathered tables) := by
  obtain ⟨s, htokens, hstatements⟩ := tokenize_renderScript h
  rw [readScript, htokens, readTokens, statements_tokens]
  show Except.ok (schemaOf s.statements) = _
  rw [schemaOf_eq_declared, hstatements, declared_statements]

/-- Two tables of one name, with a quote in it; a type with arguments of all sorts, one of them
quoted; a default with quotes and a line break; foreign keys without a name in both tables. -/
theorem readScript_renderScript_namesakes :
    let type := "ENUM('it\\'s',B,1.5)"
    let column : Column := ⟨"x\\", type, true, false, some "a'b\\\n", true⟩
    let target : Reference := ⟨"", ["", "x\\"]⟩
    IsTypeText type.toList ∧
      readScript (renderScript
        [⟨"t`", [column], [.foreignKey "" ["x\\"] target, .key none []]⟩,
          ⟨"t`", [], [.unique (some "") ["y"], .foreignKey "f" [] target,
            .foreignKey "" [] target]⟩]) =
        .ok [⟨"t`", [column], [.key none []]⟩,
          ⟨"t`", [], [.unique (some "") ["y"], .foreignKey "t`_ibfk_1" ["x\\"] target,
            .foreignKey "f" [] target, .foreignKey "t`_ibfk_2" [] target]⟩] := by
  intro type column target
  have htype : IsTypeText type.toList := by
    have hargs : ∀ a ∈ [quoted singleQuote "it's".toList, "B".toList, "1.5".toList],
        IsTypeArgument a := by
      simp only [List.forall_mem_cons, List.not_mem_nil, false_implies, implies_true, and_true]
      exact ⟨.literal _, .word (by decide) (by decide), .number (by decide)⟩
    have htext : type.toList = "ENUM".toList ++ '(' ::
        ([','].intercalate [quoted singleQuote "it's".toList, "B".toList, "1.5".toList] ++
          [')']) := by
      decide
    rw [htext]
    exact .arguments (by decide) (by decide) hargs
  refine ⟨htype, ?_⟩
  rw [readScript_renderScript (by simpa [column] using htype)]
  decide

end SchemaArchive
