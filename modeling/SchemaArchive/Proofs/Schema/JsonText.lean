import SchemaArchive.CommandLine.Run
import SchemaArchive.Proofs.Json.RoundTrip
import SchemaArchive.Proofs.Script.Concatenation
import SchemaArchive.Script.Exchange

/-!
# Schemas as JSON texts

The JSON of a schema reads as the very schema: sorts of constraints, names that are missing or
empty, and defaults all come back.  With the texts of JSON values this gives the same for the
texts in which schemas are handed out, whichever layout they have.  So no two schemas have the
same text.

* `Table.listOfJson?_listToJson` — a schema is read back from its JSON, with one lemma for each
  part of a schema.
* `Table.listOfText?_compact`, `Table.listOfText?_printTables` — and from its texts.
* `Table.listOfText?_written` — from whatever is handed out for a schema.
-/

namespace SchemaArchive

/-! ## From JSON -/

namespace Json

/-- A list is read back if its members are. -/
theorem list?_map {α : Type} {write : α → Json} {read : Json → Option α}
    (h : ∀ a, read (write a) = some a) (as : List α) :
    (array (as.map write)).list? read = some as := by
  show (as.map write).mapM read = some as
  induction as with
  | nil => rfl
  | cons a as ih =>
    rw [List.map_cons, List.mapM_cons, h, ih]
    rfl

theorem list?_ofTexts (texts : List String) : (ofTexts texts).list? text? = some texts := by
  have hread : ∀ s : String, (string s).text? = some s := fun _ => rfl
  exact list?_map hread texts

theorem optionalText?_ofText? (s : Option String) : (ofText? s).optionalText? = some s := by
  cases s <;> rfl

end Json

theorem Column.ofJson?_toJson (c : Column) : ofJson? c.toJson = some c := by
  have hmembers : c.toJson.record? jsonKeys = some [.string c.name, .string c.type,
      .bool c.unsigned, .bool c.nullable, .ofText? c.defaultValue, .bool c.autoIncrement] := by
    rfl
  simp [ofJson?, hmembers, Json.text?, Json.bool?, Json.optionalText?_ofText?]

theorem Reference.ofJson?_toJson (r : Reference) : ofJson? r.toJson = some r := by
  have hmembers : r.toJson.record? ["table", "columns"] =
      some [.string r.table, .ofTexts r.columns] := by
    rfl
  simp [ofJson?, hmembers, Json.text?, Json.list?_ofTexts]

/-- The name of an index is read back whether it is missing or not. -/
theorem Constraint.record?_nameMember (sort : String) (name : Option String)
    (columns : List String) :
    (Json.object (("type", .string sort) :: (nameMember name ++ [("columns", .ofTexts columns)]))
        ).record? ["name", "columns"] = some [.ofText? name, .ofTexts columns] := by
  cases name <;> rfl

theorem Constraint.ofJson?_toJson (k : Constraint) : ofJson? k.toJson = some k := by
  cases k with
  | primaryKey columns =>
    have hmembers : (primaryKey columns).toJson.record? ["columns"] =
        some [.ofTexts columns] := by
      rfl
    show ofJsonContent? "PRIMARY KEY" (primaryKey columns).toJson = _
    simp [ofJsonContent?, hmembers, Json.list?_ofTexts]
  | unique name columns =>
    have hmembers : (unique name columns).toJson.record? ["name", "columns"] = _ :=
      record?_nameMember "UNIQUE" name columns
    show ofJsonContent? "UNIQUE" (unique name columns).toJson = _
    simp [ofJsonContent?, hmembers, Json.list?_ofTexts, Json.optionalText?_ofText?]
  | key name columns =>
    have hmembers : (key name columns).toJson.record? ["name", "columns"] = _ :=
      record?_nameMember "KEY" name columns
    show ofJsonContent? "KEY" (key name columns).toJson = _
    simp [ofJsonContent?, hmembers, Json.list?_ofTexts, Json.optionalText?_ofText?]
  | foreignKey name columns target =>
    have hmembers : (foreignKey name columns target).toJson.record?
        ["name", "columns", "references"] =
          some [.string name, .ofTexts columns, target.toJson] := by
      rfl
    show ofJsonContent? "FOREIGN KEY" (foreignKey name columns target).toJson = _
    simp [ofJsonContent?, hmembers, Json.text?, Json.list?_ofTexts, Reference.ofJson?_toJson]

theorem Table.ofJson?_toJson (t : Table) : ofJson? t.toJson = some t := by
  have hmembers : t.toJson.record? ["table_name", "fields", "constraints"] =
      some [.string t.name, .array (t.columns.map Column.toJson),
        .array (t.constraints.map Constraint.toJson)] := by
    rfl
  simp [ofJson?, hmembers, Json.text?, Json.list?_map Column.ofJson?_toJson,
    Json.list?_map Constraint.ofJson?_toJson]

namespace Table

/-- A schema is read back from its JSON. -/
theorem listOfJson?_listToJson (tables : List Table) :
    listOfJson? (listToJson tables) = some tables :=
  Json.list?_map ofJson?_toJson tables

/-! ## From texts -/

/-- The schema that a JSON text holds. -/
def listOfText? (text : String) : Option (List Table) :=
  Json.ofChars? text.toList >>= listOfJson?

theorem listOfText?_of_ofChars? {text : List Char} {tables : List Table}
    (h : Json.ofChars? text = some (listToJson tables)) :
    listOfText? (String.ofList text) = some tables := by
  rw [listOfText?, String.toList_ofList, h]
  exact listOfJson?_listToJson tables

theorem listOfText?_compact (tables : List Table) :
    listOfText? (String.ofList (listToJson tables).compact) = some tables :=
  listOfText?_of_ofChars? (Json.ofChars?_compact _)

theorem listOfText?_printTables (tables : List Table) (pretty : Bool) :
    listOfText? (printTables tables pretty) = some tables := by
  let v := listToJson tables
  have hend : Json.Writes ['\n'] [] := .space (by decide) .nil
  have hwrites : Json.Writes ((if pretty then v.pretty else v.compact) ++ ['\n'])
      (Json.lexemesOf v) := by
    rw [← List.append_nil (Json.lexemesOf v)]
    cases pretty with
    | true => exact (Json.writes_prettyAt 0 v).append hend rfl
    | false => exact (Json.writes_compact v).append hend rfl
  have htext : printTables tables pretty =
      String.ofList ((if pretty then v.pretty else v.compact) ++ ['\n']) := by
    rw [String.ofList_append]
    rfl
  rw [htext]
  exact listOfText?_of_ofChars? (Json.ofChars?_of_writes hwrites)

/-- A schema is read back from each text in which it is written, and from what comes of a script
that has it; other schemas have other texts. -/
theorem listOfText?_written (tables : List Table) :
    listOfText? (String.ofList (listToJson tables).compact) = some tables ∧
      (∀ pretty, listOfText? (printTables tables pretty) = some tables) ∧
      (∀ script, readScript script = .ok tables →
        ∃ text, scriptToJson script = .ok text ∧ listOfText? text = some tables) ∧
      (∀ (w : Workspace) file script pretty, w.readScript file = .ok script →
        readScript script = .ok tables → ∃ text, Command.parseFile w file pretty = .ok text ∧
          listOfText? text = some tables) ∧
      ∀ others, others ≠ tables →
        String.ofList (listToJson others).compact ≠ String.ofList (listToJson tables).compact ∧
          (∀ pretty, String.ofList (listToJson others).compact ≠ printTables tables pretty) ∧
          ∀ pretty pretty', printTables others pretty ≠ printTables tables pretty' := by
  refine ⟨listOfText?_compact tables, listOfText?_printTables tables, ?_, ?_, ?_⟩
  · intro script hscript
    exact ⟨_, by rw [scriptToJson, hscript], listOfText?_compact tables⟩
  · intro w file script pretty hfile hscript
    exact ⟨_, by simp only [Command.parseFile, hfile, hscript],
      listOfText?_printTables tables pretty⟩
  · intro others hne
    -- What is read from a text depends on nothing but the text.
    have hread : ∀ {text text' : String}, listOfText? text = some others →
        listOfText? text' = some tables → text ≠ text' := by
      rintro text text' hothers htables rfl
      rw [hothers] at htables
      exact hne (Option.some.inj htables)
    exact ⟨hread (listOfText?_compact others) (listOfText?_compact tables),
      fun pretty => hread (listOfText?_compact others) (listOfText?_printTables tables pretty),
      fun pretty pretty' => hread (listOfText?_printTables others pretty)
        (listOfText?_printTables tables pretty')⟩

/-- An index has an empty name, another one has none, and a default holds a quote, a backslash and
a control character. -/
theorem listOfText?_written_names :
    let script := "CREATE TABLE `` (A INT DEFAULT '\"\\\\\x01', KEY `` (A), KEY (A))"
    let column : Column := { name := "A", type := "INT", defaultValue := some "\"\\\x01" }
    let table : Option String → List Table := fun name =>
      [⟨"", [column], [.key name ["A"], .key none ["A"]]⟩]
    (∃ text, scriptToJson script = .ok text ∧ listOfText? text = some (table (some ""))) ∧
      printTables (table none) true ≠ printTables (table (some "")) true := by
  intro script column table
  have hscript : readScript script = .ok (table (some "")) := eq_ok_of_toOption (by decide +kernel)
  obtain ⟨-, -, hwritten, -, hother⟩ := listOfText?_written (table (some ""))
  exact ⟨hwritten script hscript, (hother (table none) (by decide)).2.2 true true⟩

end Table

end SchemaArchive
