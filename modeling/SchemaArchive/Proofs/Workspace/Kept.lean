import SchemaArchive.Workspace.Opening

/-!
# Archives that files keep

A database file holds an archive; where there is no file yet, or one with at most a byte in it, the
archive is empty.  Opening finds this archive, and leaves it there even if it fails; an archive
that is put back is there for whoever opens the file next.

* `Entry.archive?` — the archive at a place.
* `Workspace.openAt_cases` — when an archive can be opened.
* `Workspace.archive_openAt` — what opening an archive finds, and what it leaves.
* `Workspace.archive_keep` — what putting it back leaves.
-/

namespace SchemaArchive

/-- The archive that a file with this content stands for. -/
def FileContent.archive? : FileContent → Option Archive
  | archive a => some a
  | bytes stored => if stored.size ≤ 1 then some .empty else none

/-- Can a file with this content be opened as an archive?  An empty archive has to be written. -/
def FileContent.canOpen (write : Bool) : FileContent → Bool
  | archive _ => true
  | bytes stored => stored.size ≤ 1 && write

/-- May the archive at this location be changed? -/
def Location.writable : Location → Bool
  | memory write => write
  | file _ write _ => write

/-- The archive that a place stands for. -/
def Entry.archive? : Entry → Option Archive
  | file content => content.archive?
  | directory => none
  | nothing => some .empty

theorem FileContent.archive?_of_held {content : FileContent} {write : Bool} {a : Archive}
    (h : content.held write = .ok a) : content.archive? = some a := by
  cases content with
  | archive b => exact congrArg some (Except.ok.inj h)
  | bytes stored =>
    simp only [held] at h
    split at h
    · cases h
    · rename_i hsize
      split at h
      · rw [archive?, if_pos (by omega), ← Except.ok.inj h]
      · cases h

theorem FileContent.held_cases (content : FileContent) (write : Bool) :
    (content.canOpen write = true ∧ ∃ a, content.held write = .ok a) ∨
      (content.canOpen write = false ∧ ∃ e, content.held write = .error e) := by
  cases content with
  | archive a => exact .inl ⟨rfl, a, rfl⟩
  | bytes stored =>
    by_cases hsize : 1 < stored.size
    · exact .inr ⟨by simp [canOpen]; omega, _, by rw [held, if_pos hsize]⟩
    · cases write with
      | true => exact .inl ⟨by simp [canOpen]; omega, _, by rw [held, if_neg hsize]; rfl⟩
      | false => exact .inr ⟨by simp [canOpen], _, by rw [held, if_neg hsize]; rfl⟩

namespace Workspace

variable {w : Workspace} {p : Path}

/-- Is the database file at this location, if anywhere, at this place? -/
def leadsTo (w : Workspace) (p : Path) : Location → Bool
  | .memory _ => false
  | .file name _ _ => (w.databasePath? (Path.start name) (Path.names name)).all (· == p)

/-- A file that is opened holds the archive of its place. -/
theorem openFile_eq_ok {name : String} {create : Bool} {content : FileContent}
    (h : w.openFile name create = .ok (p, content)) :
    w.databasePath? (Path.start name) (Path.names name) = some p ∧
      content.archive? = (w.entry p).archive? := by
  rw [openFile] at h
  cases hpath : w.databasePath? (Path.start name) (Path.names name) with
  | none => simp [hpath] at h
  | some q =>
    simp only [hpath] at h
    cases hentry : w.entry q with
    | directory => simp [hentry] at h
    | file found =>
      simp only [hentry, Except.ok.injEq, Prod.mk.injEq] at h
      obtain ⟨rfl, rfl⟩ := h
      exact ⟨rfl, by rw [hentry]; rfl⟩
    | nothing =>
      simp only [hentry] at h
      split at h
      · obtain ⟨rfl, rfl⟩ := Prod.mk.inj (Except.ok.inj h)
        exact ⟨rfl, by rw [hentry]; rfl⟩
      · cases h

/-- Whatever is written, the place stands for the archive that is put back. -/
theorem archive_keep {o : OpenArchive} {a : Archive} (hplace : o.place = some p)
    (h : (w.entry p).archive? = some o.archive) (ha : o.write = true ∨ a = o.archive) :
    ((w.keep o a).entry p).archive? = some a := by
  cases hwrite : o.write with
  | true => simp [keep, hplace, hwrite, entry_put, Entry.archive?, FileContent.archive?]
  | false =>
    rw [keep_of_not_write hwrite, h]
    simpa [hwrite, eq_comm] using ha

/-- Opening the file at a place finds the archive there, and leaves it there in any case. -/
theorem archive_openAt {location : Location} {a : Archive} (hleads : w.leadsTo p location = true)
    (ha : (w.entry p).archive? = some a) :
    ((w.openAt location).2.entry p).archive? = some a ∧
      ∀ o, (w.openAt location).1 = .ok o → o.archive = a ∧ o.place = some p := by
  cases location with
  | memory write => cases hleads
  | file name write create =>
    rw [openAt]
    cases hopen : w.openFile name create with
    | error e => exact ⟨ha, nofun⟩
    | ok found =>
      obtain ⟨q, content⟩ := found
      obtain ⟨hpath, hcontent⟩ := openFile_eq_ok hopen
      obtain rfl : q = p := by simpa [leadsTo, hpath] using hleads
      rw [ha] at hcontent
      have hput : (((w.put q content).entry q).archive?) = some a := by
        rw [entry_put]
        exact hcontent
      cases hheld : content.held write with
      | error e => simp [hheld, hput]
      | ok b =>
        obtain rfl : b = a :=
          Option.some.inj ((FileContent.archive?_of_held hheld).symm.trans hcontent)
        simp only [hheld]
        refine ⟨archive_keep rfl hput (.inr rfl), fun o ho => ?_⟩
        obtain rfl := Except.ok.inj ho
        exact ⟨rfl, rfl⟩

/-! ## When an archive can be opened -/

/-- Can the archive at this location be opened?  A file that holds one can be read.  Otherwise an
empty one has to be written, and if there is no file, one has to be made in a directory. -/
def canOpen (w : Workspace) : Location → Bool
  | .memory write => write
  | .file name write create =>
    match w.databasePath? (Path.start name) (Path.names name) with
    | none => false
    | some p =>
      match w.entry p with
      | .file content => content.canOpen write
      | .directory => false
      | .nothing => (create && w.entry p.parent = .directory && hasJournalRoom p) && write

theorem openAt_of_openFile {name : String} {create : Bool} {content : FileContent}
    (h : w.openFile name create = .ok (p, content)) (write : Bool) :
    (content.canOpen write = true ∧ ∃ o, (w.openAt (.file name write create)).1 = .ok o ∧
        o.write = write) ∨
      (content.canOpen write = false ∧ ∃ e, (w.openAt (.file name write create)).1 = .error e) := by
  rw [openAt, h]
  rcases content.held_cases write with ⟨hcan, a, ha⟩ | ⟨hcannot, e, he⟩
  · simp only [ha]
    exact .inl ⟨hcan, _, rfl, rfl⟩
  · simp only [he]
    exact .inr ⟨hcannot, e, rfl⟩

/-- An archive is opened if and only if it can be, with the rights of its location. -/
theorem openAt_cases (w : Workspace) (location : Location) :
    (w.canOpen location = true ∧ ∃ o, (w.openAt location).1 = .ok o ∧
        o.write = location.writable) ∨
      (w.canOpen location = false ∧ ∃ e, (w.openAt location).1 = .error e) := by
  cases location with
  | memory write =>
    cases write with
    | true => exact .inl ⟨rfl, _, rfl, rfl⟩
    | false => exact .inr ⟨rfl, _, rfl⟩
  | file name write create =>
    rw [canOpen, Location.writable]
    cases hpath : w.databasePath? (Path.start name) (Path.names name) with
    | none => exact .inr ⟨rfl, _, by rw [openAt, openFile, hpath]⟩
    | some p =>
      cases hentry : w.entry p with
      | directory =>
        have hopen : w.openFile name create = .error .cannotOpen := by
          simp only [openFile, hpath, hentry]
        exact .inr ⟨by simp only [hentry], _, by rw [openAt, hopen]⟩
      | file content =>
        have hopen : w.openFile name create = .ok (p, content) := by
          simp only [openFile, hpath, hentry]
        simpa only [hentry] using openAt_of_openFile hopen write
      | nothing =>
        cases hmade : create && w.entry p.parent = .directory && hasJournalRoom p with
        | false =>
          have hopen : w.openFile name create = .error .cannotOpen := by
            simp [openFile, hpath, hentry, hmade]
          exact .inr ⟨by simp [hentry, hmade], _, by rw [openAt, hopen]⟩
        | true =>
          have hopen : w.openFile name create = .ok (p, .bytes .empty) := by
            simp [openFile, hpath, hentry, hmade]
          have hempty : (FileContent.bytes .empty).canOpen write = write := rfl
          simpa only [hentry, hmade, Bool.true_and, hempty] using openAt_of_openFile hopen write

end Workspace

end SchemaArchive
