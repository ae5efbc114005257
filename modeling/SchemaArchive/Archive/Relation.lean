/-!
# Relations with numbered rows

A relation keeps rows in the order of their insertion.  A row gets the number after the last one
given out, and a number is never given out again, even when its row has been removed.

* `Relation.insertAll_append`, `Relation.lastId_insertAll` — rows are numbered consecutively.
* `Relation.mem_keep_iff` — `keep` removes the rows that fail a test, and nothing else.
-/

namespace SchemaArchive

/-- A row: its number and what it says. -/
structure Row (α : Type) where
  id : Nat
  value : α
  deriving DecidableEq, Repr

/-- A relation: the last number given out, and the rows that are there, oldest first. -/
structure Relation (α : Type) where
  lastId : Nat := 0
  rows : List (Row α) := []
  deriving DecidableEq, Repr

namespace Relation

variable {α : Type}

/-- The number that the next row gets. -/
def nextId (r : Relation α) : Nat :=
  r.lastId + 1

/-- The relation with one more row. -/
def insert (r : Relation α) (value : α) : Relation α :=
  { lastId := r.nextId, rows := r.rows ++ [⟨r.nextId, value⟩] }

/-- The relation with more rows, numbered in the order of the list. -/
def insertAll (r : Relation α) (values : List α) : Relation α :=
  values.foldl insert r

/-- The row with this number. -/
def find? (r : Relation α) (id : Nat) : Option (Row α) :=
  r.rows.find? (·.id == id)

/-- Is there a row with this number? -/
def has (r : Relation α) (id : Nat) : Bool :=
  r.rows.any (·.id == id)

/-- The relation with only those rows that pass the test. -/
def keep (r : Relation α) (test : Row α → Bool) : Relation α :=
  { r with rows := r.rows.filter test }

@[simp] theorem insertAll_nil (r : Relation α) : r.insertAll [] = r := rfl

@[simp] theorem insertAll_cons (r : Relation α) (value : α) (values : List α) :
    r.insertAll (value :: values) = (r.insert value).insertAll values := rfl

theorem insertAll_append (r : Relation α) (values more : List α) :
    r.insertAll (values ++ more) = (r.insertAll values).insertAll more :=
  List.foldl_append

theorem lastId_insertAll (r : Relation α) (values : List α) :
    (r.insertAll values).lastId = r.lastId + values.length := by
  induction values generalizing r with
  | nil => rfl
  | cons value values ih =>
    rw [insertAll_cons, ih]
    simp only [insert, nextId, List.length_cons]
    omega

theorem mem_keep_iff {r : Relation α} {test : Row α → Bool} {row : Row α} :
    row ∈ (r.keep test).rows ↔ row ∈ r.rows ∧ test row = true := by
  simp [keep]

end Relation

end SchemaArchive
