import SchemaArchive.Archive.Basic
import SchemaArchive.Workspace.Path

/-!
# The files a program works on

A workspace is what the program finds on disk: files that hold bytes, files that hold an archive,
and directories.  `Workspace.readScript` reads a script: it walks along the path, every place on
which has to be a directory, up to a file that holds text.

* `Workspace.entry_put` — a file that is put somewhere is found there.
-/

namespace SchemaArchive

/-- What a file holds. -/
inductive FileContent where
  | bytes (bytes : ByteArray)
  | archive (archive : Archive)

/-- Bytes are compared with bytes, and archives with archives. -/
instance : DecidableEq FileContent
  | .bytes b, .bytes c =>
    decidable_of_decidable_of_iff (p := b.data = c.data) (by cases b; cases c; simp)
  | .archive a, .archive b => decidable_of_decidable_of_iff (p := a = b) (by simp)
  | .bytes _, .archive _ => isFalse nofun
  | .archive _, .bytes _ => isFalse nofun

/-- Files, and directories besides those that hold the files, by place. -/
structure Workspace where
  files : List (Path × FileContent) := []
  directories : List Path := []

/-- What is found at a place. -/
inductive Entry where
  | file (content : FileContent)
  | directory
  | nothing
  deriving DecidableEq

/-- Why a script cannot be read. -/
inductive ReadError where
  | notFound
  /-- There is a file where a directory is needed. -/
  | notDirectory
  /-- There is a directory where a file is needed. -/
  | isDirectory
  | nameTooLong
  | notUtf8
  deriving DecidableEq, Repr

/-- What is said about a script that cannot be read. -/
def ReadError.message : ReadError → String
  | notFound => "No such file or directory (os error 2)"
  | notDirectory => "Not a directory (os error 20)"
  | isDirectory => "Is a directory (os error 21)"
  | nameTooLong => "File name too long (os error 36)"
  | notUtf8 => "stream did not contain valid UTF-8"

namespace Workspace

/-- The longest name of a file, in bytes. -/
def nameLimit : Nat := 255

/-- The longest path, in bytes. -/
def pathLimit : Nat := 4095

/-- What is found at a place. -/
def entry (w : Workspace) (p : Path) : Entry :=
  match w.files.lookup p with
  | some content => .file content
  | none =>
    if p.isOutward || w.directories.contains p || w.files.any (·.1.isInside p) then .directory
    else .nothing

/-- The files with other content at one place. -/
def putFile (p : Path) (content : FileContent) :
    List (Path × FileContent) → List (Path × FileContent)
  | [] => [(p, content)]
  | file :: files =>
    if file.1 = p then (p, content) :: files else file :: putFile p content files

/-- The workspace with other content in the file at one place. -/
def put (w : Workspace) (p : Path) (content : FileContent) : Workspace :=
  { w with files := putFile p content w.files }

theorem lookup_putFile (p : Path) (content : FileContent) (files : List (Path × FileContent)) :
    (putFile p content files).lookup p = some content := by
  induction files with
  | nil => simp [putFile]
  | cons file files ih =>
    obtain ⟨q, old⟩ := file
    by_cases h : q = p
    · simp [putFile, h]
    · have hp : (p == q) = false := by simpa using Ne.symm h
      simp [putFile, h, List.lookup_cons, hp, ih]

/-- A file that is put somewhere is found there. -/
theorem entry_put (w : Workspace) (p : Path) (content : FileContent) :
    (w.put p content).entry p = .file content := by
  simp [put, entry, lookup_putFile]

/-! ## Scripts -/

/-- Walks on from a place. -/
def walk (w : Workspace) (p : Path) : List String → Except ReadError Path
  | [] => .ok p
  | name :: names =>
    match w.entry p with
    | .nothing => .error .notFound
    | .file _ => .error .notDirectory
    | .directory =>
      if nameLimit < name.utf8ByteSize then .error .nameTooLong else w.walk (p.step name) names

/-- What is in the file at the end of a walk. -/
def readFile (w : Workspace) (path : String) : Except ReadError FileContent :=
  if pathLimit < path.utf8ByteSize then .error .nameTooLong
  else
    match w.walk (Path.start path) (Path.names path) with
    | .error e => .error e
    | .ok p =>
      match w.entry p with
      | .nothing => .error .notFound
      | .directory => .error .isDirectory
      | .file content => .ok content

/-- The text of a script.  A file that holds an archive is no text. -/
def readScript (w : Workspace) (path : String) : Except ReadError String :=
  match w.readFile path with
  | .error e => .error e
  | .ok (.archive _) => .error .notUtf8
  | .ok (.bytes bytes) =>
    match String.fromUTF8? bytes with
    | some text => .ok text
    | none => .error .notUtf8

end Workspace

end SchemaArchive
