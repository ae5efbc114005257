import SchemaArchive.Proofs.Archive.Consecutive

/-!
# The versions that are there

From the steps of a run alone one can tell what the archive lists behind them: the versions that
have been stored and not been deleted since, the newest first.  Deleting and finding by name go by
this list.  And of the numbers that all stored versions have got, none is given out twice, and
later versions have got later ones.

* `registered` — the list, read off the steps.
* `Archive.list_run` — it is the list that the archive gives.
* `Archive.ids_transcript` — the numbers that a run gives out, kind by kind.
* `Archive.run_registers` — both, for every run.
-/

namespace SchemaArchive

/-! ## What a run has stored -/

/-- The version that the step has stored. -/
def Step.stored? (step : Step) : Option Version :=
  match step.2 with
  | .stored v => some v
  | _ => none

theorem Step.stored?_eq_none {step : Step} (h : ∀ v, step.2 ≠ .stored v) : step.stored? = none := by
  unfold stored?
  split
  · next v hv => exact absurd hv (h v)
  · rfl

/-- The name and the description under which an operation stores. -/
def Operation.label? : Operation → Option (String × Option String)
  | .importScript _ name description => some (name, description)
  | .store _ name description => some (name, description)
  | _ => none

/-- The version that the step has stored, under the name and the description that it was asked
for, and with the time of the step. -/
def Step.summary? (step : Step) : Option VersionSummary := do
  let v ← step.stored?
  let (name, description) ← step.1.2.label?
  return { id := v.id, name, description, createdAt := step.1.1 }

/-- The versions that the steps have stored, the oldest first. -/
def storedVersions (steps : List Step) : List Version :=
  steps.filterMap Step.stored?

/-- Does no step delete the version with this number? -/
def keepsVersion (steps : List Step) (id : Nat) : Bool :=
  steps.all fun step => !decide (step.Deletes id)

/-- The versions that a step has stored and no later step has deleted, the newest first. -/
def registered : List Step → List VersionSummary
  | [] => []
  | step :: steps =>
    registered steps ++ step.summary?.toList.filter fun entry => keepsVersion steps entry.id

namespace Archive

variable {a : Archive}

/-! ## The list behind one step -/

theorem list_stored (h : a.Intact) (value : VersionRow) (tables : List Table) :
    (a.stored value tables).list =
      ⟨a.versions.nextId, value.name, value.description, value.createdAt⟩ :: a.list := by
  rw [list_eq (h.stored value tables), list_eq h, stored, Relation.rows_insertAll,
    List.reverse_append]
  rfl

/-- There is a version with a number if the list has it. -/
theorem hasVersion_eq_any_list (h : a.Intact) (id : Int) :
    a.hasVersion id = a.list.any fun entry => (entry.id : Int) == id := by
  rw [list_eq h, List.any_map, List.any_reverse]
  rfl

theorem delete_fst (a : Archive) (id : Int) : (a.delete id).1 = a.hasVersion id := by
  unfold delete
  split
  · next hthere => exact hthere.symm
  · next hnone => simpa using hnone

theorem list_delete (h : a.Intact) (id : Int) :
    (a.delete id).2.list = a.list.filter fun entry => (entry.id : Int) != id := by
  have hintact := h.delete id
  unfold delete at hintact ⊢
  split at hintact
  · next hthere =>
    rw [if_pos hthere, list_eq hintact, list_eq h]
    show (a.versions.rows.filter _).reverse.map summary = _
    rw [List.filter_map, List.filter_reverse]
    rfl
  · next hnone =>
    -- No version has the number, so nothing is filtered out.
    rw [if_neg hnone]
    rw [hasVersion_eq_any_list h, List.any_eq_true] at hnone
    symm
    rw [List.filter_eq_self]
    intro entry hentry
    rw [bne_iff_ne]
    intro hid
    exact hnone ⟨entry, hentry, beq_iff_eq.2 hid⟩

/-- Storing adds the new version to the list, if it succeeds. -/
theorem list_store (h : a.Sound) {time name : String} {description : Option String}
    {operation : Operation} (hlabel : operation.label? = some (name, description))
    (tables : List Table) :
    (a.store ⟨name, description, time⟩ tables).2.list =
      (Step.summary? ((time, operation),
        .of .stored (a.store ⟨name, description, time⟩ tables).1)).toList ++ a.list := by
  rcases h.store_cases ⟨name, description, time⟩ tables with ⟨e, he, -⟩ | ⟨hok, -⟩
  · rw [he]
    rfl
  · have hsummary : Step.summary? ((time, operation), .stored (a.newVersion
        ⟨name, description, time⟩ tables)) =
          some ⟨a.versions.nextId, name, description, time⟩ := by
      unfold Step.summary?
      rw [hlabel]
      rfl
    rw [hok]
    exact (list_stored h.intact _ tables).trans (congrArg (·.toList ++ a.list) hsummary.symm)

/-- A step that deletes nothing takes nothing out of a list. -/
theorem filter_not_deletes {step : Step} (h : ∀ id, step.1.2 ≠ .delete id)
    (entries : List VersionSummary) :
    entries.filter (fun entry => !decide (step.Deletes entry.id)) = entries := by
  rw [List.filter_eq_self]
  intro entry _
  have hnot : ¬step.Deletes entry.id := fun hdeletes => h entry.id hdeletes.1
  simp [hnot]

/-- An operation that neither stores nor deletes leaves the list as it is. -/
theorem list_perform_of_unchanged {time : String} {operation : Operation}
    (hsame : (a.perform time operation).2 = a)
    (hstored : ∀ v, (a.perform time operation).1 ≠ .stored v)
    (hdelete : ∀ id, operation ≠ .delete id) :
    let step : Step := ((time, operation), (a.perform time operation).1)
    (a.perform time operation).2.list =
      step.summary?.toList ++ a.list.filter fun entry => !decide (step.Deletes entry.id) := by
  intro step
  have hnone : step.summary? = none := by
    rw [Step.summary?, Step.stored?_eq_none hstored]
    rfl
  rw [filter_not_deletes hdelete, hnone, hsame]
  rfl

/-- Deleting takes the entry with this number out of the list, if there is one. -/
theorem list_perform_delete (h : a.Intact) (time : String) (id : Int) :
    let step : Step := ((time, .delete id), (a.perform time (.delete id)).1)
    (a.perform time (.delete id)).2.list =
      a.list.filter fun entry => !decide (step.Deletes entry.id) := by
  intro step
  show (a.delete id).2.list = _
  rw [list_delete h]
  refine List.filter_congr fun entry hentry => ?_
  have hdeletes : step.Deletes entry.id ↔ (entry.id : Int) = id := by
    constructor
    · exact fun h => (Operation.delete.inj h.1).symm
    · intro hid
      have hthere : (a.delete id).1 = true := by
        rw [delete_fst, hasVersion_eq_any_list h, List.any_eq_true]
        exact ⟨entry, hentry, beq_iff_eq.2 hid⟩
      exact ⟨congrArg Operation.delete hid.symm, congrArg Answer.deleted hthere⟩
  by_cases hid : (entry.id : Int) = id
  · simp [hdeletes, hid]
  · simp [hdeletes, hid]

/-- An operation changes the list by what it stores and what it deletes. -/
theorem list_perform (h : a.Sound) (time : String) (operation : Operation) :
    let step : Step := ((time, operation), (a.perform time operation).1)
    (a.perform time operation).2.list =
      step.summary?.toList ++ a.list.filter fun entry => !decide (step.Deletes entry.id) := by
  intro step
  cases operation with
  | importScript script name description =>
    cases hread : readScript script with
    | error e =>
      refine list_perform_of_unchanged ?_ ?_ (by simp)
      · rw [perform, importScript, hread]
      · rw [perform, importScript, hread]
        simp [Answer.of]
    | ok tables =>
      have hlabel : (Operation.importScript script name description).label? =
          some (name, description) := rfl
      rw [filter_not_deletes (by simp [step])]
      simp only [step, perform, importScript, hread]
      exact list_store h hlabel tables
  | store tables name description =>
    rw [filter_not_deletes (by simp [step])]
    exact list_store h rfl tables
  | delete id => exact list_perform_delete h.intact time id
  | list => exact list_perform_of_unchanged rfl (by simp [perform]) (by simp)
  | _ => exact list_perform_of_unchanged rfl (fun v => Answer.of_ne _ (by simp) (by simp)) (by simp)

theorem list_run (h : a.Sound) (operations : List (String × Operation)) :
    (a.run operations).2.list = registered (a.transcript operations) ++
      a.list.filter fun entry => keepsVersion (a.transcript operations) entry.id := by
  induction operations generalizing a with
  | nil => simp [registered, keepsVersion, run]
  | cons operation operations ih =>
    have hstep := list_perform h operation.1 operation.2
    rw [run_cons, ih (h.perform operation.1 operation.2), hstep, transcript_cons, registered,
      List.filter_append, List.append_assoc, List.filter_filter]
    simp only [keepsVersion, List.all_cons, Bool.and_comm]

/-! ## Numbers -/

theorem storedVersions_cons (step : Step) (steps : List Step) :
    storedVersions (step :: steps) = step.stored?.toList ++ storedVersions steps := by
  unfold storedVersions
  rw [List.filterMap_cons]
  cases step.stored? <;> rfl

/-- An operation gives out the next numbers to the version that it stores, if it does, and no
numbers otherwise. -/
theorem ids_perform (h : a.Sound) (time : String) (operation : Operation) (kind : NodeKind) :
    let step : Step := ((time, operation), (a.perform time operation).1)
    ∃ n, (a.perform time operation).2.lastId kind = a.lastId kind + n ∧
      step.stored?.toList.flatMap (·.ids kind) = List.range' (a.lastId kind + 1) n := by
  intro step
  rcases h.perform_cases time operation with ⟨value, tables, v, hs, hv⟩ | ⟨id, rfl⟩ | ⟨hsame, hnot⟩
  · obtain ⟨ha, rfl, -⟩ := store_eq_ok h hs
    have hstored : step.stored? = some (a.newVersion value tables) := by
      unfold Step.stored? step
      rw [hv]
    rw [ha, hstored, Option.toList_some, List.flatMap_singleton]
    exact ids_newVersion h.intact value tables kind
  · exact ⟨0, lastId_delete a id kind, rfl⟩
  · rw [hsame, Step.stored?_eq_none hnot]
    exact ⟨0, rfl, rfl⟩

/-- The numbers of a kind that a run gives out, in the order of storing, follow one another. -/
theorem ids_transcript (h : a.Sound) (operations : List (String × Operation))
    (kind : NodeKind) :
    ∃ n, (a.run operations).2.lastId kind = a.lastId kind + n ∧
      (storedVersions (a.transcript operations)).flatMap (·.ids kind) =
        List.range' (a.lastId kind + 1) n := by
  induction operations generalizing a with
  | nil => exact ⟨0, rfl, rfl⟩
  | cons operation operations ih =>
    obtain ⟨m, hfirst, hids⟩ := ids_perform h operation.1 operation.2 kind
    obtain ⟨n, hlast, hmore⟩ := ih (h.perform operation.1 operation.2)
    refine ⟨m + n, ?_, ?_⟩
    · rw [run_cons, hlast, hfirst, Nat.add_assoc]
    · rw [transcript_cons, storedVersions_cons, List.flatMap_append, hids, hmore, hfirst,
        Nat.add_right_comm, List.range'_append_1]

/-! ## Runs -/

/-- What an archive whose versions are the entries answers about them.  It lists them, by falling
numbers and under names of their own; it deletes the one that has the number it is given, and no
other; and it finds the one that has the name it is given, with the tree that its number leads
to. -/
structure Registers (a : Archive) (entries : List VersionSummary) : Prop where
  listed : ∀ time, (a.perform time .list).1 = .listed entries
  ids : entries.Pairwise fun entry other => other.id < entry.id
  names : (entries.map (·.name)).Nodup
  deleted : ∀ time id, (a.perform time (.delete id)).1 =
    .deleted (entries.any fun entry => (entry.id : Int) == id)
  kept : ∀ time id time', ((a.perform time (.delete id)).2.perform time' .list).1 =
    .listed (entries.filter fun entry => (entry.id : Int) != id)
  found_iff : ∀ time name, (∃ v, (a.perform time (.getByName name)).1 = .found (some v)) ↔
    ∃ entry ∈ entries, entry.name = name
  found : ∀ time, ∀ entry ∈ entries, ∃ v,
    (a.perform time (.getByName entry.name)).1 = .found (some v) ∧
      (a.perform time (.get entry.id)).1 = .found (some v)

theorem Sound.registers (h : a.Sound) : a.Registers a.list where
  listed _ := rfl
  ids := by
    rw [list_eq h.intact, List.pairwise_map, List.pairwise_reverse]
    exact h.intact.versions.increasing
  names := by
    rw [list_eq h.intact, List.map_map, List.map_reverse, List.nodup_reverse]
    exact h.names
  deleted _ id := by
    rw [← hasVersion_eq_any_list h.intact, ← delete_fst]
    rfl
  kept _ id _ := congrArg Answer.listed (list_delete h.intact id)
  found_iff _ name := by
    have hlist : (∃ entry ∈ a.list, entry.name = name) ↔
        ∃ row ∈ a.versions.rows, row.value.name = name := by
      rw [list_eq h.intact]
      simp only [List.mem_map, List.mem_reverse]
      constructor
      · rintro ⟨entry, ⟨row, hrow, rfl⟩, hname⟩
        exact ⟨row, hrow, hname⟩
      · rintro ⟨row, hrow, hname⟩
        exact ⟨summary row, ⟨row, hrow, rfl⟩, hname⟩
    rw [hlist]
    constructor
    · rintro ⟨v, hv⟩
      have hfound : a.getByName? name = _ := h.loadVersion? _
      rw [Archive.perform, hfound] at hv
      obtain ⟨row, hfind, -⟩ := Option.map_eq_some_iff.1 (Answer.found.inj hv)
      exact ⟨row, List.mem_of_find?_eq_some hfind, by simpa using List.find?_some hfind⟩
    · rintro ⟨row, hrow, rfl⟩
      have hlive : a.Live (a.tree row) := ⟨row, hrow, rfl⟩
      exact ⟨a.tree row, congrArg (Answer.of .found) (hlive.getByName? h)⟩
  found _ entry hentry := by
    rw [list_eq h.intact] at hentry
    obtain ⟨row, hrow, rfl⟩ := List.mem_map.1 hentry
    have hlive : a.Live (a.tree row) := ⟨row, List.mem_reverse.1 hrow, rfl⟩
    exact ⟨a.tree row, congrArg (Answer.of .found) (hlive.getByName? h),
      congrArg (Answer.of .found) (hlive.get? h)⟩

/-- Behind every run the archive answers by the versions that the run has stored and not deleted.
And whatever has been deleted in between, every node of a version that is stored later has a
greater number than all nodes of its kind in the versions stored before, and the nodes of a kind
in one version are numbered one after another, in the order of the tree.  This is the order in
which storing writes them, and there are no other rows that it writes. -/
theorem run_registers (operations : List (String × Operation)) :
    let a := (empty.run operations).2
    a.Registers (registered (empty.transcript operations)) ∧
    ∀ kind, (storedVersions (empty.transcript operations)).Pairwise
        (fun v later => ∀ m ∈ v.ids kind, ∀ n ∈ later.ids kind, m < n) ∧
      (∀ v ∈ storedVersions (empty.transcript operations),
        ∃ first n, v.ids kind = List.range' first n) ∧
      ∀ value tables v a', a.store value tables = (.ok v, a') →
        a'.rowIds kind = a.rowIds kind ++ v.ids kind := by
  intro a
  have hlist : (empty.run operations).2.list = registered (empty.transcript operations) :=
    (list_run sound_empty operations).trans (List.append_nil _)
  refine ⟨hlist ▸ (sound_run operations).registers, fun kind => ?_⟩
  obtain ⟨n, -, hids⟩ := ids_transcript sound_empty operations kind
  refine ⟨?_, fun v hv => ?_, fun value tables v a' hs => ?_⟩
  · have hincreasing : ((storedVersions (empty.transcript operations)).flatMap
        (·.ids kind)).Pairwise (· < ·) := hids ▸ List.pairwise_lt_range' 1
    exact (List.pairwise_flatMap.1 hincreasing).2
  · -- The numbers of one version are a stretch of all those that the run gives out.
    obtain ⟨before, after, hsplit⟩ := List.append_of_mem hv
    rw [hsplit, List.flatMap_append, List.flatMap_cons] at hids
    obtain ⟨k, -, -, hrest⟩ := List.range'_eq_append_iff.1 hids.symm
    obtain ⟨m, -, hv, -⟩ := List.range'_eq_append_iff.1 hrest.symm
    exact ⟨_, m, hv⟩
  · obtain ⟨rfl, rfl, -⟩ := store_eq_ok (sound_run operations) hs
    exact rowIds_stored (intact_run operations) value tables kind

/-- A name that is free again is listed with its new number. -/
example : registered (empty.transcript [("1", .store [] "v" none), ("2", .delete 1),
    ("3", .store [] "v" (some "again"))]) = [⟨2, "v", some "again", "3"⟩] := by
  decide

end Archive

end SchemaArchive
