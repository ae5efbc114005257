/-!
# Constraints of a table

A constraint names columns of its table: a primary key, a unique or plain index, or a foreign
key, which also names the table and columns that it refers to.  `ConstraintKind` is the kind
alone, with the text under which it is kept.

* `ConstraintKind.ofText_text` — the text of a kind reads back as that kind.
-/

namespace SchemaArchive

/-- What a foreign key refers to: columns of a table, both by name. -/
structure Reference where
  table : String
  columns : List String
  deriving DecidableEq, Repr

/-- A constraint on the rows of a table, in terms of its columns' names.  A primary key has no
name, an index may have one, and a foreign key always does, though it may be empty. -/
inductive Constraint where
  | primaryKey (columns : List String)
  | unique (name : Option String) (columns : List String)
  | key (name : Option String) (columns : List String)
  | foreignKey (name : String) (columns : List String) (target : Reference)
  deriving DecidableEq, Repr

/-- The kinds of constraints that can be kept.  `index` is another word for `key`. -/
inductive ConstraintKind where
  | primaryKey
  | unique
  | key
  | foreignKey
  | index
  deriving DecidableEq, Repr

/-- A text that names no kind of constraint. -/
structure UnknownConstraintKind where
  text : String
  deriving DecidableEq, Repr

/-- What is said about a text that names no kind of constraint. -/
def UnknownConstraintKind.message (e : UnknownConstraintKind) : String :=
  "Unknown constraint type: " ++ e.text

namespace ConstraintKind

/-- The words for a kind. -/
def text : ConstraintKind → String
  | primaryKey => "PRIMARY KEY"
  | unique => "UNIQUE"
  | key => "KEY"
  | foreignKey => "FOREIGN KEY"
  | index => "INDEX"

/-- The kind for which `s` is the exact text. -/
def ofText (s : String) : Except UnknownConstraintKind ConstraintKind :=
  if s = "PRIMARY KEY" then .ok primaryKey
  else if s = "UNIQUE" then .ok unique
  else if s = "KEY" then .ok key
  else if s = "FOREIGN KEY" then .ok foreignKey
  else if s = "INDEX" then .ok index
  else .error ⟨s⟩

@[simp] theorem ofText_text (k : ConstraintKind) : ofText k.text = .ok k := by
  cases k <;> rfl

end ConstraintKind

namespace Constraint

/-- The kind of a constraint. -/
def kind : Constraint → ConstraintKind
  | primaryKey _ => .primaryKey
  | unique _ _ => .unique
  | key _ _ => .key
  | foreignKey _ _ _ => .foreignKey

/-- The name of a constraint, if it has one. -/
def name? : Constraint → Option String
  | primaryKey _ => none
  | unique name _ => name
  | key name _ => name
  | foreignKey name _ _ => some name

/-- The constrained columns, in order. -/
def columns : Constraint → List String
  | primaryKey columns => columns
  | unique _ columns => columns
  | key _ columns => columns
  | foreignKey _ columns _ => columns

/-- What a foreign key refers to. -/
def reference? : Constraint → Option Reference
  | foreignKey _ _ target => some target
  | _ => none

/-- Is the constraint a foreign key? -/
def isForeignKey : Constraint → Bool
  | foreignKey _ _ _ => true
  | _ => false

end Constraint

end SchemaArchive
