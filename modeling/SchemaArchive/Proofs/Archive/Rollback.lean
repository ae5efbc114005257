import SchemaArchive.Proofs.Archive.Storing

/-!
# Operations that fail

Storing may fail when rows of all kinds have been written and numbers have been given out for them.
All of this is rolled back, so a run goes on as if the operation had never been asked for.

* `Archive.Sound.perform_of_isFailure` — an operation that fails leaves the archive as it is.
* `Archive.run_without_failures` — without the operations that fail, every other operation is
  answered as before.
-/

namespace SchemaArchive

/-- Did the operation fail? -/
def Answer.isFailure : Answer → Bool
  | .failed _ => true
  | _ => false

/-- Is the operation one that stores a version? -/
def Operation.stores : Operation → Bool
  | .importScript _ _ _ => true
  | .store _ _ _ => true
  | _ => false

namespace Archive

variable {a : Archive} {time : String} {operation : Operation}

/-! ## One operation -/

/-- Loading from a sound archive does not fail. -/
theorem Sound.not_isFailure_of_load (h : a.Sound) (row : Option (Row VersionRow))
    {answer : Option Version → Answer} (hanswer : ∀ v, (answer v).isFailure = false) :
    (Answer.of answer (a.loadVersion? row)).isFailure ≠ true := by
  rw [h.loadVersion?]
  exact Bool.eq_false_iff.1 (hanswer _)

/-- Of the operations on a sound archive only those that store a version can fail. -/
theorem Sound.stores_of_isFailure (h : a.Sound)
    (hfailed : (a.perform time operation).1.isFailure = true) : operation.stores = true := by
  cases operation with
  | importScript script name description => rfl
  | store tables name description => rfl
  | list => cases hfailed
  | delete id => cases hfailed
  | get id => exact absurd hfailed (h.not_isFailure_of_load _ fun _ => rfl)
  | getByName name => exact absurd hfailed (h.not_isFailure_of_load _ fun _ => rfl)
  | script id => exact absurd hfailed (h.not_isFailure_of_load _ fun _ => rfl)
  | tables id => exact absurd hfailed (h.not_isFailure_of_load _ fun _ => rfl)

/-- An operation that fails leaves a sound archive as it is: its rows, and the numbers that it gives
out next. -/
theorem Sound.perform_of_isFailure (h : a.Sound)
    (hfailed : (a.perform time operation).1.isFailure = true) :
    (a.perform time operation).2 = a := by
  rcases h.perform_cases time operation with ⟨value, tables, v, -, hv⟩ | ⟨id, rfl⟩ | ⟨hsame, -⟩
  · rw [hv] at hfailed
    cases hfailed
  · cases hfailed
  · exact hsame

/-! ## Runs -/

/-- Operations that fail on the way leave no trace. -/
theorem Sound.run_of_kept (h : a.Sound) (operations : List (String × Operation)) :
    let kept := (a.transcript operations).filter fun step => !step.2.isFailure
    a.run (kept.map Prod.fst) = (kept.map Prod.snd, (a.run operations).2) := by
  intro kept
  induction operations generalizing a with
  | nil => rfl
  | cons operation operations ih =>
    have hrest := ih (h.perform operation.1 operation.2)
    by_cases hfailed : (a.perform operation.1 operation.2).1.isFailure = true
    · -- The first operation is not among those kept, and the others go on from the same archive.
      have hkept : kept = ((a.perform operation.1 operation.2).2.transcript operations).filter
          fun step => !step.2.isFailure := by
        simp [kept, hfailed]
      rw [h.perform_of_isFailure hfailed] at hkept hrest
      rw [hkept, run_cons, h.perform_of_isFailure hfailed]
      exact hrest
    · have hkept : kept = (operation, (a.perform operation.1 operation.2).1) ::
          ((a.perform operation.1 operation.2).2.transcript operations).filter
            fun step => !step.2.isFailure := by
        simp [kept, hfailed]
      rw [hkept, List.map_cons, run_cons, hrest]
      rfl

theorem stores_of_mem_transcript {operations : List (String × Operation)} {step : Step}
    (hstep : step ∈ empty.transcript operations) (hfailed : step.2.isFailure = true) :
    step.1.2.stores = true := by
  obtain ⟨before, hanswer⟩ := exists_of_mem_transcript hstep
  rw [hanswer] at hfailed
  exact (sound_run before).stores_of_isFailure hfailed

/-- Failed operations leave no trace.  Whatever an archive was asked since it was empty, only
storing has failed, and if all that failed is taken out of the run, every other operation is
answered as it was, with the same numbers in all trees, and the archive ends up the same. -/
theorem run_without_failures (operations : List (String × Operation)) :
    let kept := (empty.transcript operations).filter fun step => !step.2.isFailure
    empty.run (kept.map Prod.fst) = (kept.map Prod.snd, (empty.run operations).2) ∧
      ∀ step ∈ empty.transcript operations, step.2.isFailure = true → step.1.2.stores = true :=
  ⟨sound_empty.run_of_kept operations, fun _ => stores_of_mem_transcript⟩

/-- Storing fails three times: for a foreign key that leads nowhere, after all tables and columns
and another constraint have been written; for two columns of one name; and for the name of a
version that is there.  The version in between gets the numbers that it gets without them. -/
theorem run_without_failures_numbers :
    let x : Column := ⟨"x", "INT", false, true, none, false⟩
    let tables : List Table := [⟨"a", [x], [.foreignKey "f" ["x"] ⟨"a", ["x"]⟩]⟩]
    let dangling : List Table :=
      [⟨"a", [x], [.primaryKey ["x"], .foreignKey "f" ["x"] ⟨"b", ["x"]⟩]⟩]
    let twice : List Table := [⟨"a", [], []⟩, ⟨"b", [x, x], []⟩]
    let operations : List (String × Operation) :=
      [("1", .store dangling "v" none), ("2", .store twice "v" none),
        ("3", .store tables "v" none), ("4", .store tables "v" none), ("5", .get 1)]
    (empty.run operations).1.map Answer.isFailure = [true, true, false, true, false] ∧
      (empty.run [("3", .store tables "v" none), ("5", .get 1)]).1 =
        (empty.run operations).1.filter (!·.isFailure) := by
  intro x tables dangling twice operations
  have hkept : ((empty.transcript operations).filter fun step => !step.2.isFailure).map Prod.fst =
      [("3", .store tables "v" none), ("5", .get 1)] := by decide +kernel
  have hrun := congrArg Prod.fst (run_without_failures operations).1
  simp only [hkept] at hrun
  have hanswers : (empty.run operations).1.filter (!·.isFailure) =
      ((empty.transcript operations).filter fun step => !step.2.isFailure).map Prod.snd := by
    simp only [← map_snd_transcript, List.filter_map, Function.comp_def]
  exact ⟨by decide +kernel, hrun.trans hanswers.symm⟩

/-- When writing fails, tables and columns are there already, and numbers have been given out.  It
is the transaction that gives them up. -/
example :
    let x : Column := ⟨"x", "INT", false, true, none, false⟩
    let within := (Writing.schema ⟨"v", none, ""⟩
      [⟨"a", [x], [.foreignKey "f" ["x"] ⟨"b", ["x"]⟩]⟩] empty).2
    within.columns.rows.length = 1 ∧ within.members.lastId = 1 := by
  decide

end Archive

end SchemaArchive
