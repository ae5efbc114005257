import SchemaArchive.Proofs.Text.Decimal
import SchemaArchive.Settings

/-!
# Which settings can be loaded

Of the variables from which the settings come, only the number of connections can be wrong, and
only its own text decides whether it is.

* `load_connections` — the texts that are numbers of connections, what is wrong with all others,
  and that nothing else matters to either.
-/

namespace SchemaArchive.Settings

open Text

variable {env : String → Option String}

/-- There is a number of connections. -/
theorem connectionBound_pos : 0 < connectionBound := by
  decide

/-- Loading goes as far as reading the number of connections does. -/
theorem map_maxConnections_load (env : String → Option String) :
    (load env).map Settings.maxConnections =
      readConnections (env "DDLGRAPH_MAX_CONNECTIONS") := by
  unfold load
  cases readConnections (env "DDLGRAPH_MAX_CONNECTIONS") <;> rfl

theorem exists_load_eq_ok_iff {n : Nat} :
    (∃ s, load env = .ok s ∧ s.maxConnections = n) ↔
      readConnections (env "DDLGRAPH_MAX_CONNECTIONS") = .ok n := by
  rw [← map_maxConnections_load]
  cases load env <;> simp [Except.map]

theorem load_eq_error_iff {e : SettingsError} :
    load env = .error e ↔ readConnections (env "DDLGRAPH_MAX_CONNECTIONS") = .error e := by
  rw [← map_maxConnections_load]
  cases load env <;> simp [Except.map]

theorem readConnections_some_eq_ok_iff {text : String} {n : Nat} :
    readConnections (some text) = .ok n ↔ WritesUnsigned connectionBound text.toList n := by
  rw [← readUnsigned_eq_ok_iff connectionBound_pos, readConnections]
  cases readUnsigned connectionBound text.toList <;> simp

/-- Only a text can be wrong, and it is named with what is wrong about it. -/
theorem readConnections_eq_error_iff {value : Option String} {e : SettingsError} :
    readConnections value = .error e ↔
      value = some e.value ∧ readUnsigned connectionBound e.value.toList = .error e.problem := by
  cases value with
  | none => simp [readConnections]
  | some text =>
    rw [readConnections, Option.some_inj]
    constructor
    · intro h
      cases hread : readUnsigned connectionBound text.toList with
      | ok n =>
        rw [hread] at h
        cases h
      | error problem =>
        rw [hread] at h
        cases h
        exact ⟨rfl, hread⟩
    · rintro ⟨rfl, hread⟩
      rw [hread]

/-- A text that is not read as a number is not one. -/
theorem not_writesUnsigned_iff {text : String} :
    (∀ n, ¬ WritesUnsigned connectionBound text.toList n) ↔
      ∃ problem, readUnsigned connectionBound text.toList = .error problem := by
  simp only [← readUnsigned_eq_ok_iff connectionBound_pos]
  cases readUnsigned connectionBound text.toList <;> simp

/-- If a number of connections is given, the settings can be loaded exactly if it is an unsigned
number below 2³², and then it is the one that counts.  Otherwise the given text is named as the
only thing that is wrong: it is empty, or it has one digit too many behind the longest run of
digits whose value is below 2³², or no digit there.  No other variable has anything to do with
it. -/
theorem load_connections (env : String → Option String) :
    (∀ text n, env "DDLGRAPH_MAX_CONNECTIONS" = some text →
      ((∃ s, load env = .ok s ∧ s.maxConnections = n) ↔
        WritesUnsigned (2 ^ 32) text.toList n)) ∧
    ((∃ e, load env = .error e) ↔ ∃ text, env "DDLGRAPH_MAX_CONNECTIONS" = some text ∧
      ∀ n, ¬ WritesUnsigned (2 ^ 32) text.toList n) ∧
    (∀ e, load env = .error e → env "DDLGRAPH_MAX_CONNECTIONS" = some e.value ∧
      (e.value = "" → e.problem = .empty) ∧
      (e.value ≠ "" → (∃ run, LongestBelow (2 ^ 32) (behindPlus e.value.toList) run) ∧
        ∀ run, LongestBelow (2 ^ 32) (behindPlus e.value.toList) run →
          e.problem = problemBehind run (behindPlus e.value.toList))) ∧
    ∀ env', env' "DDLGRAPH_MAX_CONNECTIONS" = env "DDLGRAPH_MAX_CONNECTIONS" →
      (load env').map (·.maxConnections) = (load env).map (·.maxConnections) := by
  refine ⟨?_, ?_, ?_, ?_⟩
  · intro text n htext
    rw [exists_load_eq_ok_iff, htext]
    exact readConnections_some_eq_ok_iff
  · constructor
    · rintro ⟨e, he⟩
      obtain ⟨hvalue, hread⟩ := readConnections_eq_error_iff.1 (load_eq_error_iff.1 he)
      exact ⟨e.value, hvalue, not_writesUnsigned_iff.2 ⟨e.problem, hread⟩⟩
    · rintro ⟨text, htext, hno⟩
      obtain ⟨problem, hread⟩ := not_writesUnsigned_iff.1 hno
      exact ⟨⟨text, problem⟩, load_eq_error_iff.2 (readConnections_eq_error_iff.2 ⟨htext, hread⟩)⟩
  · intro e he
    obtain ⟨hvalue, hread⟩ := readConnections_eq_error_iff.1 (load_eq_error_iff.1 he)
    obtain ⟨hempty, hother⟩ := problem_of_readUnsigned_eq_error connectionBound_pos hread
    refine ⟨hvalue, fun hnil => hempty (by rw [hnil]; rfl), fun hne => ?_⟩
    obtain ⟨run, hlongest, hproblem⟩ := hother (by simpa using hne)
    refine ⟨⟨run, hlongest⟩, fun other hother => ?_⟩
    rw [hlongest.unique hother] at hproblem
    exact hproblem
  · intro env' hsame
    show (load env').map Settings.maxConnections = (load env).map Settings.maxConnections
    rw [map_maxConnections_load, map_maxConnections_load, hsame]

/-- With `+04294967296x`, the last digit is one too many; the zero in front does not count, and the
letter is not looked at. -/
theorem load_connections_tooLarge :
    let text := "+04294967296x"
    let env := fun name => if name == "DDLGRAPH_MAX_CONNECTIONS" then some text else none
    load env = .error ⟨text, .tooLarge⟩ ∧
      env "DDLGRAPH_MAX_CONNECTIONS" = some text ∧
      ∃ run, LongestBelow (2 ^ 32) (behindPlus text.toList) run ∧
        problemBehind run (behindPlus text.toList) = .tooLarge := by
  intro text env
  have hread : readUnsigned connectionBound text.toList = .error .tooLarge := by decide +kernel
  have hload : load env = .error ⟨text, .tooLarge⟩ :=
    load_eq_error_iff.2 (readConnections_eq_error_iff.2 ⟨rfl, hread⟩)
  obtain ⟨hvalue, -, hproblem⟩ := (load_connections env).2.2.1 _ hload
  obtain ⟨⟨run, hrun⟩, hall⟩ := hproblem (by decide)
  exact ⟨hload, hvalue, run, hrun, (hall run hrun).symm⟩

end SchemaArchive.Settings
