import SchemaArchive.Workspace.Basic
import SchemaArchive.Workspace.Location

/-!
# Opening archives

`Workspace.openArchive` opens the archive at an address.  A file is made where there is none, if
that is allowed, even if the archive cannot be opened in the end.  `Workspace.keep` puts an
archive back.

* `Workspace.keep_of_not_write` — nothing is put back where nothing may be written.
-/

namespace SchemaArchive

/-- An archive that is open: where it has to be put back, if it is kept in a file, and whether it
may be changed. -/
structure OpenArchive where
  archive : Archive
  place : Option Path
  write : Bool
  deriving DecidableEq, Repr

/-- The archive that a file holds.  A file with nothing in it, or with a single byte, holds the
empty archive, once this has been written there. -/
def FileContent.held (content : FileContent) (write : Bool) : Except OpenError Archive :=
  match content with
  | archive a => .ok a
  | bytes held =>
    if 1 < held.size then .error .notAnArchive
    else if write then .ok .empty
    else .error .readOnly

namespace Workspace

/-- Walks on to a database file.  Nothing on the way has to exist, and a step back undoes the
step before it in any case, but no step leads into a file. -/
def databasePath? (w : Workspace) (p : Path) : List String → Option Path
  | [] => some p
  | name :: names =>
    match w.entry p with
    | .file _ =>
      if Path.isIdle name || name = Path.parentName then w.databasePath? (p.step name) names
      else none
    | .directory | .nothing => w.databasePath? (p.step name) names

/-- The longest name of a database file: the name of its journal is longer by a word. -/
def databaseNameLimit : Nat :=
  nameLimit - "-journal".utf8ByteSize

/-- Does the name of the place leave room for a journal beside it? -/
def hasJournalRoom (p : Path) : Bool :=
  (p.inward.headD "").utf8ByteSize ≤ databaseNameLimit

/-- The place of a database file, which is made if there is none, and what it holds. -/
def openFile (w : Workspace) (name : String) (create : Bool) :
    Except OpenError (Path × FileContent) :=
  match w.databasePath? (Path.start name) (Path.names name) with
  | none => .error .cannotOpen
  | some p =>
    match w.entry p with
    | .file content => .ok (p, content)
    | .directory => .error .cannotOpen
    | .nothing =>
      if create && w.entry p.parent = .directory && hasJournalRoom p then
        .ok (p, .bytes .empty)
      else .error .cannotOpen

/-- The workspace with an archive put back where it was opened. -/
def keep (w : Workspace) (o : OpenArchive) (archive : Archive) : Workspace :=
  match o.place with
  | some p => if o.write then w.put p (.archive archive) else w
  | none => w

/-- Opens the archive at a location. -/
def openAt (w : Workspace) : Location → Except OpenError OpenArchive × Workspace
  | .memory write =>
    (if write then .ok ⟨.empty, none, write⟩ else .error .readOnly, w)
  | .file name write create =>
    match w.openFile name create with
    | .error e => (.error e, w)
    | .ok (p, content) =>
      let w := w.put p content
      match content.held write with
      | .error e => (.error e, w)
      | .ok archive =>
        let o : OpenArchive := ⟨archive, some p, write⟩
        (.ok o, w.keep o archive)

/-- Opens the archive at an address. -/
def openArchive (w : Workspace) (url : String) : Except OpenError OpenArchive × Workspace :=
  match Location.ofUrl url with
  | .error e => (.error e, w)
  | .ok location => w.openAt location

/-- Nothing is put back where nothing may be written. -/
theorem keep_of_not_write {w : Workspace} {o : OpenArchive} (h : o.write = false)
    (archive : Archive) : w.keep o archive = w := by
  cases hp : o.place <;> simp [keep, hp, h]

end Workspace

end SchemaArchive
