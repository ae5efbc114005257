/-!
# Paths

A path is a walk through the tree of files that begins in the current directory, or at the root
if it begins with a slash.  `Path` is where a walk has come to: the names of the directories and
of the file that lead there.

* `Path.start` and `Path.names` — where the walk that a text describes begins, and its steps.
* `Path.ofText` — where it ends, when nothing on the way has to exist.
* `Path.step_parent_child` — a step to a file or directory and back leads nowhere.
-/

namespace SchemaArchive

/-- A place in the tree of files. -/
structure Path where
  /-- Does the path begin at the root? -/
  fromRoot : Bool := false
  /-- The names that lead to the place, the last one first.  The first ones may be `..`, where
  the place lies outside the current directory. -/
  inward : List String := []
  deriving DecidableEq, Repr

namespace Path

/-- The name of the directory that holds the present one. -/
def parentName : String := ".."

/-- The file or directory of this name. -/
def child (p : Path) (name : String) : Path :=
  { p with inward := name :: p.inward }

/-- The directory that holds this place.  The root holds itself. -/
def parent (p : Path) : Path :=
  match p.inward with
  | [] => if p.fromRoot then p else p.child parentName
  | name :: names => if name = parentName then p.child parentName else { p with inward := names }

/-- Does the name lead nowhere? -/
def isIdle (name : String) : Bool :=
  name.isEmpty || name == "."

/-- One step of a walk. -/
def step (p : Path) (name : String) : Path :=
  if isIdle name then p
  else if name = parentName then p.parent
  else p.child name

/-- Does the place lie inside the other one, at any depth? -/
def isInside (p q : Path) : Bool :=
  p.fromRoot == q.fromRoot && p.inward != q.inward && q.inward.isSuffixOf p.inward

/-- Does the path lead outwards only, so that there is a directory at its end? -/
def isOutward (p : Path) : Bool :=
  p.inward.all (· == parentName)

/-- Where the walk begins that a text describes. -/
def start (text : String) : Path :=
  { fromRoot := text.toList.head? == some '/' }

/-- The steps of the walk that a text describes. -/
def names (text : String) : List String :=
  (text.toList.splitOn '/').map String.ofList

/-- Where the walk ends that a text describes. -/
def ofText (text : String) : Path :=
  (names text).foldl step (start text)

/-- All places that a walk passes. -/
def passed (p : Path) : List String → List Path
  | [] => [p]
  | name :: names => p :: passed (p.step name) names

/-- The path as a text. -/
def text (p : Path) : String :=
  let inside := "/".intercalate p.inward.reverse
  if p.fromRoot then "/" ++ inside else if inside.isEmpty then "." else inside

@[simp] theorem parent_child {p : Path} {name : String} (h : name ≠ parentName) :
    (p.child name).parent = p := by
  simp [child, parent, h]

theorem step_of_isIdle {p : Path} {name : String} (h : isIdle name = true) : p.step name = p := by
  simp [step, h]

/-- A step to a file or directory and back leads nowhere. -/
theorem step_parent_child {p : Path} {name : String} (h : isIdle name = false)
    (hp : name ≠ parentName) : (p.step name).step parentName = p := by
  have hi : isIdle parentName = false := by decide +kernel
  simp [step, h, hp, hi]

end Path

end SchemaArchive
