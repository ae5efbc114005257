import SchemaArchive.Archive.Operation

/-!
# Transcripts of runs

A transcript lists the steps of a run: every operation with its time and the answer that it got.
What holds of an archive and is kept by each operation holds after a whole run, and a step in the
middle of a run is performed on the archive that the steps before it have led to.

* `Archive.run_induction` — from one operation to a whole run.
* `Archive.transcript_eq_append` — a transcript may be cut anywhere.
-/

namespace SchemaArchive

/-- An operation, when it was asked, and what it was answered. -/
abbrev Step := (String × Operation) × Answer

namespace Archive

/-- The steps of a run. -/
def transcript (a : Archive) (operations : List (String × Operation)) : List Step :=
  operations.zip (a.run operations).1

/-! ## Runs -/

theorem run_cons (a : Archive) (operation : String × Operation)
    (operations : List (String × Operation)) :
    a.run (operation :: operations) =
      ((a.perform operation.1 operation.2).1 ::
          ((a.perform operation.1 operation.2).2.run operations).1,
        ((a.perform operation.1 operation.2).2.run operations).2) := rfl

theorem run_append (a : Archive) (operations more : List (String × Operation)) :
    a.run (operations ++ more) =
      ((a.run operations).1 ++ ((a.run operations).2.run more).1,
        ((a.run operations).2.run more).2) := by
  induction operations generalizing a with
  | nil => rfl
  | cons operation operations ih => rw [List.cons_append, run_cons, ih, run_cons]; rfl

theorem length_run (a : Archive) (operations : List (String × Operation)) :
    (a.run operations).1.length = operations.length := by
  induction operations generalizing a with
  | nil => rfl
  | cons operation operations ih => rw [run_cons, List.length_cons, List.length_cons, ih]

/-- What every operation keeps is kept by a run. -/
theorem run_induction {P : Archive → Prop}
    (hstep : ∀ a time operation, P a → P (a.perform time operation).2) {a : Archive} (h : P a)
    (operations : List (String × Operation)) : P (a.run operations).2 := by
  induction operations generalizing a with
  | nil => exact h
  | cons operation operations ih => exact ih (hstep a operation.1 operation.2 h)

/-! ## Transcripts -/

@[simp] theorem transcript_nil (a : Archive) : a.transcript [] = [] := rfl

@[simp] theorem transcript_cons (a : Archive) (operation : String × Operation)
    (operations : List (String × Operation)) :
    a.transcript (operation :: operations) =
      (operation, (a.perform operation.1 operation.2).1) ::
        (a.perform operation.1 operation.2).2.transcript operations := rfl

theorem map_fst_transcript (a : Archive) (operations : List (String × Operation)) :
    (a.transcript operations).map Prod.fst = operations :=
  List.map_fst_zip (Nat.le_of_eq (a.length_run operations).symm)

theorem map_snd_transcript (a : Archive) (operations : List (String × Operation)) :
    (a.transcript operations).map Prod.snd = (a.run operations).1 :=
  List.map_snd_zip (Nat.le_of_eq (a.length_run operations))

theorem transcript_append (a : Archive) (operations more : List (String × Operation)) :
    a.transcript (operations ++ more) =
      a.transcript operations ++ (a.run operations).2.transcript more := by
  rw [transcript, run_append]
  exact List.zip_append (a.length_run operations).symm

/-- A transcript may be cut anywhere: what stands behind the cut is the transcript of the later
operations, from the archive that the earlier ones have led to. -/
theorem transcript_eq_append {a : Archive} {operations : List (String × Operation)}
    {before after : List Step} (h : a.transcript operations = before ++ after) :
    a.transcript (before.map Prod.fst) = before ∧
      (a.run (before.map Prod.fst)).2.transcript (after.map Prod.fst) = after := by
  have hoperations : operations = before.map Prod.fst ++ after.map Prod.fst := by
    rw [← List.map_append, ← h, map_fst_transcript]
  have hlength : (a.transcript (before.map Prod.fst)).length = before.length := by
    simpa using congrArg List.length (map_fst_transcript a (before.map Prod.fst))
  rw [hoperations, transcript_append] at h
  exact List.append_inj h hlength

/-- Every answer of a run is given by the archive that the operations before it have led to. -/
theorem exists_of_mem_transcript {a : Archive} {operations : List (String × Operation)}
    {step : Step} (h : step ∈ a.transcript operations) :
    ∃ before, step.2 = ((a.run before).2.perform step.1.1 step.1.2).1 := by
  obtain ⟨before, after, hsplit⟩ := List.append_of_mem h
  obtain ⟨-, hafter⟩ := transcript_eq_append hsplit
  refine ⟨before.map Prod.fst, ?_⟩
  rw [List.map_cons, transcript_cons, List.cons.injEq] at hafter
  exact congrArg Prod.snd hafter.1.symm

end Archive

end SchemaArchive
