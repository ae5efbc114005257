import SchemaArchive.Proofs.Archive.Isolation
import SchemaArchive.Proofs.Archive.Storing

/-!
# Stored versions do not change

From the step of a run that stores a version until the step that deletes it, whoever asks for the
version, by number or by name, gets the very tree that storing answered.  From then on its number
leads to nothing, for it is not given out a second time.

* `Archive.Live` — a version that is there, with its tree; kept by every step but its deletion.
* `Archive.Gone` — a number that is not in use any more; kept by every step.
* `Archive.answer_of_stored` — what is answered behind a step that stores a version.
-/

namespace SchemaArchive

/-- Did the step delete the version with this number? -/
def Step.Deletes (step : Step) (id : Nat) : Prop :=
  step.1.2 = .delete id ∧ step.2 = .deleted true

instance (step : Step) (id : Nat) : Decidable (step.Deletes id) :=
  inferInstanceAs (Decidable (_ ∧ _))

namespace Archive

variable {a : Archive} {v : Version} {id : Nat}

/-! ## Numbers of versions -/

theorem hasVersion_natCast (a : Archive) (id : Nat) : a.hasVersion id = a.versions.has id := by
  simp only [hasVersion, Relation.has, natCast_beq_natCast]

/-! ## Versions that are there -/

/-- The version is stored, and this is its tree. -/
def Live (a : Archive) (v : Version) : Prop :=
  ∃ row ∈ a.versions.rows, a.tree row = v

theorem live_of_store (h : a.Sound) {value : VersionRow} {tables : List Table} {a' : Archive}
    (hs : a.store value tables = (.ok v, a')) : a'.Live v := by
  obtain ⟨rfl, rfl, -⟩ := store_eq_ok h hs
  exact ⟨_, mem_versions_stored a value tables, rfl⟩

theorem live_of_perform (h : a.Sound) {time : String} {operation : Operation}
    (hstored : (a.perform time operation).1 = .stored v) :
    (a.perform time operation).2.Live v := by
  rcases h.perform_cases time operation with ⟨value, tables, v', hs, hv⟩ | ⟨id, rfl⟩ | ⟨-, hnot⟩
  · cases hv.symm.trans hstored
    exact live_of_store h hs
  · cases hstored
  · exact absurd hstored (hnot v)

theorem Live.get? (hv : a.Live v) (h : a.Sound) : a.get? v.id = .ok (some v) := by
  obtain ⟨row, hrow, rfl⟩ := hv
  have hfind : a.versions.find? row.id = some row := h.intact.versions.find?_of_mem hrow
  exact (h.get?_natCast row.id).trans (by rw [hfind]; rfl)

theorem Live.getByName? (hv : a.Live v) (h : a.Sound) : a.getByName? v.name = .ok (some v) := by
  obtain ⟨row, hrow, rfl⟩ := hv
  have hfind : a.versions.rows.find? (·.value.name == row.value.name) = some row :=
    find?_of_nodup_map h.names hrow
  show a.loadVersion? (a.versions.rows.find? (·.value.name == row.value.name)) = _
  rw [hfind]
  exact h.loadVersion? (some row)

/-- A version stays as it is, unless it is deleted. -/
theorem Live.perform (hv : a.Live v) (h : a.Sound) {time : String} {operation : Operation}
    (hkept : ¬Step.Deletes ((time, operation), (a.perform time operation).1) v.id) :
    (a.perform time operation).2.Live v := by
  obtain ⟨row, hrow, rfl⟩ := hv
  rcases h.perform_cases time operation with ⟨value, tables, v, hs, -⟩ | ⟨id, rfl⟩ | ⟨hsame, -⟩
  · obtain ⟨ha, -⟩ := store_eq_ok h hs
    rw [ha]
    exact ⟨row, Relation.mem_insertAll_of_mem hrow, tree_stored h hrow value tables⟩
  · by_cases hid : (row.id : Int) = id
    · -- Deleting the version itself would have succeeded.
      have hthere : a.hasVersion id = true := by
        rw [← hid, hasVersion_natCast]
        exact Relation.has_of_mem hrow
      refine absurd ⟨congrArg Operation.delete hid.symm, ?_⟩ hkept
      show Answer.deleted (a.delete id).1 = .deleted true
      rw [Archive.delete, if_pos hthere]
    · exact ⟨row, mem_versions_delete_iff.2 ⟨hrow, hid⟩, tree_delete h hrow hid⟩
  · rw [hsame]
    exact ⟨row, hrow, rfl⟩

theorem Live.run {steps : List Step} (hv : a.Live v) (h : a.Sound)
    (hsteps : a.transcript (steps.map Prod.fst) = steps)
    (hkept : ∀ step ∈ steps, ¬step.Deletes v.id) : (a.run (steps.map Prod.fst)).2.Live v := by
  induction steps generalizing a with
  | nil => exact hv
  | cons step steps ih =>
    rw [List.map_cons, transcript_cons, List.cons.injEq] at hsteps
    rw [List.forall_mem_cons] at hkept
    refine ih (hv.perform h ?_) (h.perform _ _) hsteps.2 hkept.2
    rw [hsteps.1]
    exact hkept.1

/-! ## Numbers that are not in use any more -/

/-- The number has been given out, but no version has it. -/
def Gone (a : Archive) (id : Nat) : Prop :=
  (∀ row ∈ a.versions.rows, row.id ≠ id) ∧ id ≤ a.versions.lastId

theorem Gone.get? (hgone : a.Gone id) (h : a.Sound) : a.get? id = .ok none := by
  have hnone : a.versions.find? id = none := by
    rw [Relation.find?, List.find?_eq_none]
    simpa using hgone.1
  rw [h.get?_natCast, hnone]
  rfl

theorem Gone.delete (h : a.Gone id) : a.delete id = (false, a) := by
  have hnone : ¬a.hasVersion id = true := by
    rw [hasVersion_natCast, Relation.has_iff]
    rintro ⟨row, hrow, hid⟩
    exact h.1 row hrow hid
  rw [Archive.delete, if_neg hnone]

theorem lastId_versions_delete (a : Archive) (id : Int) :
    (a.delete id).2.versions.lastId = a.versions.lastId := by
  rw [Archive.delete]
  split <;> rfl

/-- A version that has been deleted is gone. -/
theorem gone_of_delete (h : a.Sound) (hdeleted : (a.delete id).1 = true) :
    (a.delete id).2.Gone id := by
  have hthere : a.versions.has id = true := by
    rw [← hasVersion_natCast]
    rw [Archive.delete] at hdeleted
    split at hdeleted
    · assumption
    · cases hdeleted
  refine ⟨fun row hrow hid => ?_, ?_⟩
  · exact (mem_versions_delete_iff.1 hrow).2 (congrArg Int.ofNat hid)
  · rw [lastId_versions_delete]
    exact h.intact.versions.le_of_has hthere

/-- A number that is not in use any more is never used again: new versions get later ones. -/
theorem Gone.perform (hgone : a.Gone id) (h : a.Sound) (time : String) (operation : Operation) :
    (a.perform time operation).2.Gone id := by
  obtain ⟨hnone, hle⟩ := hgone
  rcases h.perform_cases time operation with ⟨value, tables, v, hs, -⟩ | ⟨id', rfl⟩ | ⟨hsame, -⟩
  · obtain ⟨ha, -⟩ := store_eq_ok h hs
    rw [ha]
    refine ⟨fun row hrow => ?_, ?_⟩
    · rcases Relation.mem_insertAll hrow with hold | ⟨hnew, -⟩
      · exact hnone row hold
      · simp only [Relation.nextId] at hnew
        omega
    · simp only [stored, Relation.lastId_insertAll]
      omega
  · refine ⟨fun row hrow => hnone row (mem_versions_delete_iff.1 hrow).1, ?_⟩
    show id ≤ (a.delete id').2.versions.lastId
    rwa [lastId_versions_delete]
  · rw [hsame]
    exact ⟨hnone, hle⟩

theorem Gone.run (hgone : a.Gone id) (h : a.Sound) (operations : List (String × Operation)) :
    (a.run operations).2.Gone id := by
  have hstep : ∀ (a : Archive) time operation, (a.Sound ∧ a.Gone id) →
      (a.perform time operation).2.Sound ∧ (a.perform time operation).2.Gone id :=
    fun _ time operation ⟨h, hgone⟩ => ⟨h.perform time operation, hgone.perform h time operation⟩
  exact (run_induction hstep ⟨h, hgone⟩ operations).2

/-! ## Runs -/

/-- Behind the deletion of a version its number is gone, whatever happens in between. -/
theorem gone_of_deletes {steps : List Step} (h : a.Sound)
    (hsteps : a.transcript (steps.map Prod.fst) = steps)
    (hdeleted : ∃ step ∈ steps, step.Deletes id) :
    (a.run (steps.map Prod.fst)).2.Gone id := by
  obtain ⟨step, hmem, hoperation, hanswer⟩ := hdeleted
  obtain ⟨before, after, rfl⟩ := List.append_of_mem hmem
  obtain ⟨hbefore, hafter⟩ := transcript_eq_append hsteps
  rw [List.map_cons, transcript_cons, List.cons.injEq] at hafter
  rw [List.map_append, run_append, List.map_cons, run_cons]
  refine Gone.run ?_ ((h.run _).perform _ _) _
  have hdelete := congrArg Prod.snd hafter.1
  rw [hanswer, hoperation] at hdelete
  rw [hoperation]
  exact gone_of_delete (h.run _) (Answer.deleted.inj hdelete)

/-- What a run answers behind a step that stores a version `v`: until `v` is deleted, asking for it
by number or by name gives `v` itself; from then on its number leads to nothing. -/
theorem answer_of_stored {operations : List (String × Operation)} {before between after : List Step}
    {storing query : Step} {v : Version}
    (hrun : empty.transcript operations = before ++ storing :: (between ++ query :: after))
    (hstored : storing.2 = .stored v) :
    ((∀ step ∈ between, ¬step.Deletes v.id) →
      (query.1.2 = .get v.id → query.2 = .found (some v)) ∧
      (query.1.2 = .getByName v.name → query.2 = .found (some v))) ∧
    ((∃ step ∈ between, step.Deletes v.id) →
      (query.1.2 = .get v.id → query.2 = .found none) ∧
      (query.1.2 = .script v.id → query.2 = .script none) ∧
      (query.1.2 = .tables v.id → query.2 = .tables none) ∧
      (query.1.2 = .delete v.id → query.2 = .deleted false)) := by
  obtain ⟨-, hsteps⟩ := transcript_eq_append hrun
  have hsound := sound_run (before.map Prod.fst)
  generalize (empty.run (before.map Prod.fst)).2 = a at hsteps hsound
  -- The archive behind the step that stores, then the one behind the steps in between.
  rw [List.map_cons, transcript_cons, List.cons.injEq] at hsteps
  obtain ⟨hstoring, hlater⟩ := hsteps
  have hlive : (a.perform storing.1.1 storing.1.2).2.Live v :=
    live_of_perform hsound ((congrArg Prod.snd hstoring).trans hstored)
  replace hsound := hsound.perform storing.1.1 storing.1.2
  generalize (a.perform storing.1.1 storing.1.2).2 = a₁ at hlater hlive hsound
  obtain ⟨hbetween, hquery⟩ := transcript_eq_append hlater
  rw [List.map_cons, transcript_cons, List.cons.injEq] at hquery
  have hanswer : query.2 = ((a₁.run (between.map Prod.fst)).2.perform query.1.1 query.1.2).1 :=
    congrArg Prod.snd hquery.1.symm
  rw [hanswer]
  refine ⟨fun hkept => ?_, fun hdeleted => ?_⟩
  · have hthere := hlive.run hsound hbetween hkept
    have hsound' := hsound.run (between.map Prod.fst)
    refine ⟨fun hget => ?_, fun hget => ?_⟩
    · rw [hget]
      exact congrArg (Answer.of .found) (hthere.get? hsound')
    · rw [hget]
      exact congrArg (Answer.of .found) (hthere.getByName? hsound')
  · have hgone := gone_of_deletes hsound hbetween hdeleted
    have hnone := hgone.get? (hsound.run _)
    refine ⟨fun hget => ?_, fun hget => ?_, fun hget => ?_, fun hget => ?_⟩ <;> rw [hget, perform]
    · rw [hnone]; rfl
    · rw [hnone]; rfl
    · rw [hnone]; rfl
    · rw [hgone.delete]

/-- A version between two others: one more of its name is refused and an older one deleted before
it is asked for, then it is deleted itself, and its name is taken again. -/
theorem answer_of_stored_deleted :
    let tables : List Table :=
      [⟨"a", [⟨"x", "INT", false, true, none, false⟩], [.foreignKey "k" ["x"] ⟨"a", ["x"]⟩]⟩]
    let steps := empty.transcript
      [("1", .store tables "v" none), ("2", .store tables "w" (some "")),
        ("3", .store tables "w" none), ("4", .delete 1), ("5", .getByName "w"),
        ("6", .delete 2), ("7", .store tables "w" none), ("8", .get 2)]
    ∃ v, steps[1]?.map Prod.snd = some (.stored v) ∧
      steps[4]?.map Prod.snd = some (.found (some v)) ∧
      steps[7]?.map Prod.snd = some (.found none) := by
  intro tables steps
  let column : StoredColumn := ⟨2, 2, ⟨"x", "INT", false, true, none, false⟩, 1⟩
  let v : Version := ⟨2, "w", some "", "2", [⟨2, 2, "a", [column],
    [⟨2, 2, some "k", .foreignKey, [⟨2, 2, 2, 1, "x"⟩],
      some ⟨2, 2, 2, "a", [⟨2, 2, 2, 1, "x"⟩]⟩⟩]⟩]⟩
  let storing : Step := steps.get ⟨1, by decide +kernel⟩
  let first : Step := steps.get ⟨4, by decide +kernel⟩
  let last : Step := steps.get ⟨7, by decide +kernel⟩
  have hstored : storing.2 = .stored v := by decide +kernel
  have hfirst : steps = steps.take 1 ++ storing ::
      ((steps.take 4).drop 2 ++ first :: steps.drop 5) := by decide +kernel
  have hlast : steps = steps.take 1 ++ storing ::
      ((steps.take 7).drop 2 ++ last :: steps.drop 8) := by decide +kernel
  obtain ⟨-, hname⟩ := (answer_of_stored hfirst hstored).1 (by decide +kernel)
  obtain ⟨hnumber, -⟩ := (answer_of_stored hlast hstored).2 (by decide +kernel)
  refine ⟨v, ?_, ?_, ?_⟩
  · rw [List.getElem?_eq_getElem (by decide +kernel), Option.map_some]
    exact congrArg some hstored
  · rw [List.getElem?_eq_getElem (by decide +kernel), Option.map_some]
    exact congrArg some (hname (by decide +kernel))
  · rw [List.getElem?_eq_getElem (by decide +kernel), Option.map_some]
    exact congrArg some (hnumber (by decide +kernel))

end Archive

end SchemaArchive
