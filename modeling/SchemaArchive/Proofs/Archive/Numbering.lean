import SchemaArchive.Archive.Relation

/-!
# Numbers of rows

The rows of a relation are numbered in the order in which they were written, and no number is
beyond the last one given out.  New rows get the numbers right behind it, so they are told apart
from all old ones by their numbers alone.

* `Relation.rows_insertAll` — the rows that are added, with their numbers.
* `Relation.Numbered` — the invariant, with `Numbered.insertAll` and `Numbered.keep`.
* `find?_of_nodup_map`, `Relation.Numbered.find?_of_mem` — an element is found by a key that no
  other has, and so a row by its number.
* `filter_flatMap_of_nodup` — values that are written in blocks, and carry the number of their
  block, are found again block by block.
-/

namespace SchemaArchive

variable {α β ι : Type}

/-- Rows with these values, numbered from `start` on. -/
def numbered (start : Nat) (values : List α) : List (Row α) :=
  (values.zipIdx start).map fun v => ⟨v.2, v.1⟩

@[simp] theorem numbered_nil (start : Nat) : numbered start ([] : List α) = [] := rfl

@[simp] theorem numbered_cons (start : Nat) (value : α) (values : List α) :
    numbered start (value :: values) = ⟨start, value⟩ :: numbered (start + 1) values := rfl

theorem numbered_append (start : Nat) (values more : List α) :
    numbered start (values ++ more) =
      numbered start values ++ numbered (start + values.length) more := by
  rw [numbered, List.zipIdx_append, List.map_append]
  rfl

/-- Things that have consecutive numbers already are numbered by them. -/
theorem numbered_map {things : List ι} {id : ι → Nat} {start : Nat}
    (h : things.map id = List.range' start things.length) (f : ι → α) :
    numbered start (things.map f) = things.map fun i => ⟨id i, f i⟩ := by
  induction things generalizing start with
  | nil => rfl
  | cons i things ih =>
    rw [List.map_cons, List.length_cons, List.range'_succ, List.cons.injEq] at h
    rw [List.map_cons, numbered_cons, ih h.2, List.map_cons, h.1]

/-- Things with consecutive numbers have none before the first. -/
theorem le_id_of_map_id {things : List ι} {id : ι → Nat} {start n : Nat}
    (h : things.map id = List.range' start n) {i : ι} (hi : i ∈ things) : start ≤ id i := by
  have hmem : id i ∈ List.range' start n := h ▸ List.mem_map_of_mem hi
  exact (List.mem_range'_1.1 hmem).1

/-- Things with consecutive numbers are told apart by them. -/
theorem nodup_of_map_id {things : List ι} {id : ι → Nat} {start n : Nat}
    (h : things.map id = List.range' start n) : (things.map id).Nodup := by
  rw [h]
  exact List.nodup_range' ..

theorem map_value_numbered (start : Nat) (values : List α) :
    (numbered start values).map Row.value = values := by
  induction values generalizing start with
  | nil => rfl
  | cons value values ih => rw [numbered_cons, List.map_cons, ih]

theorem lt_id_of_mem_numbered {start : Nat} {values : List α} {row : Row α}
    (h : row ∈ numbered start values) : start ≤ row.id ∧ row.id < start + values.length := by
  induction values generalizing start with
  | nil => simp at h
  | cons value values ih =>
    rw [numbered_cons, List.mem_cons] at h
    rw [List.length_cons]
    rcases h with rfl | h
    · exact ⟨Nat.le_refl _, Nat.lt_add_of_pos_right (Nat.succ_pos _)⟩
    · have := ih h
      omega

theorem pairwise_numbered (start : Nat) (values : List α) :
    (numbered start values).Pairwise fun x y => x.id < y.id := by
  induction values generalizing start with
  | nil => exact .nil
  | cons value values ih =>
    refine .cons (fun row hrow => ?_) (ih (start + 1))
    have := lt_id_of_mem_numbered hrow
    show start < row.id
    omega

/-! ## Keys -/

section Keys

variable {κ : Type} [BEq κ] [LawfulBEq κ] {key : α → κ} {xs : List α} {x : α}

/-- If no two elements have the same key, one is left of those that have the key of one. -/
theorem filter_of_nodup_map (h : (xs.map key).Nodup) (hx : x ∈ xs) :
    xs.filter (key · == key x) = [x] := by
  induction xs with
  | nil => cases hx
  | cons y ys ih =>
    rw [List.map_cons, List.nodup_cons] at h
    rcases List.mem_cons.1 hx with rfl | hmem
    · have hothers : ys.filter (key · == key x) = [] := by
        rw [List.filter_eq_nil_iff]
        intro y hy hkey
        exact h.1 (beq_iff_eq.1 hkey ▸ List.mem_map_of_mem hy)
      rw [List.filter_cons_of_pos (by simp), hothers]
    · have hne : key y ≠ key x := fun heq => h.1 (heq ▸ List.mem_map_of_mem hmem)
      rw [List.filter_cons_of_neg (by simpa using hne), ih h.2 hmem]

/-- An element is found by a key that no other has. -/
theorem find?_of_nodup_map (h : (xs.map key).Nodup) (hx : x ∈ xs) :
    xs.find? (key · == key x) = some x := by
  rw [← List.head?_filter, filter_of_nodup_map h hx, List.head?_cons]

end Keys

namespace Relation

/-- The values of all rows. -/
def values (r : Relation α) : List α :=
  r.rows.map Row.value

theorem map_value_filter (r : Relation α) (test : α → Bool) :
    (r.rows.filter fun row => test row.value).map Row.value = r.values.filter test := by
  rw [Relation.values, List.filter_map]
  rfl

/-- What is read off the values of rows that pass a test. -/
theorem map_filter_value (r : Relation α) (test : α → Bool) (f : α → β) :
    (r.rows.filter (test ·.value)).map (f ·.value) = (r.values.filter test).map f := by
  rw [← map_value_filter, List.map_map]
  rfl

/-- New rows come last, with the numbers behind the last one given out. -/
theorem rows_insertAll (r : Relation α) (values : List α) :
    (r.insertAll values).rows = r.rows ++ numbered r.nextId values := by
  induction values generalizing r with
  | nil => simp
  | cons value values ih =>
    rw [insertAll_cons, ih]
    simp [insert, nextId]

theorem values_insertAll (r : Relation α) (values : List α) :
    (r.insertAll values).values = r.values ++ values := by
  rw [Relation.values, rows_insertAll, List.map_append, map_value_numbered]
  rfl

theorem nextId_insertAll (r : Relation α) (values : List α) :
    (r.insertAll values).nextId = r.nextId + values.length := by
  simp only [nextId, lastId_insertAll]
  omega

theorem has_iff {r : Relation α} {id : Nat} : r.has id = true ↔ ∃ row ∈ r.rows, row.id = id := by
  simp [has]

theorem has_of_mem {r : Relation α} {row : Row α} (h : row ∈ r.rows) : r.has row.id = true :=
  has_iff.2 ⟨row, h, rfl⟩

theorem mem_insertAll_of_mem {r : Relation α} {values : List α} {row : Row α}
    (h : row ∈ r.rows) : row ∈ (r.insertAll values).rows := by
  rw [rows_insertAll]
  exact List.mem_append_left _ h

/-- A row is an old one, or it is new in number and value. -/
theorem mem_insertAll {r : Relation α} {values : List α} {row : Row α}
    (h : row ∈ (r.insertAll values).rows) :
    row ∈ r.rows ∨ r.nextId ≤ row.id ∧ row.value ∈ values := by
  rw [rows_insertAll, List.mem_append] at h
  refine h.imp_right fun hnew => ⟨(lt_id_of_mem_numbered hnew).1, ?_⟩
  have hvalue : row.value ∈ (numbered r.nextId values).map Row.value := List.mem_map_of_mem hnew
  rwa [map_value_numbered] at hvalue

theorem has_insertAll {r : Relation α} {id : Nat} (values : List α) (h : r.has id = true) :
    (r.insertAll values).has id = true := by
  obtain ⟨row, hrow, rfl⟩ := has_iff.1 h
  exact has_of_mem (mem_insertAll_of_mem hrow)

/-! ## The invariant -/

/-- Rows are numbered in order, up to the last number given out. -/
structure Numbered (r : Relation α) : Prop where
  increasing : r.rows.Pairwise fun x y => x.id < y.id
  le_lastId : ∀ row ∈ r.rows, row.id ≤ r.lastId

theorem numbered_empty : ({} : Relation α).Numbered :=
  ⟨.nil, nofun⟩

theorem Numbered.insertAll {r : Relation α} (h : r.Numbered) (values : List α) :
    (r.insertAll values).Numbered where
  increasing := by
    rw [rows_insertAll, List.pairwise_append]
    refine ⟨h.increasing, pairwise_numbered _ _, fun x hx y hy => ?_⟩
    have hle := h.le_lastId x hx
    have hlt := (lt_id_of_mem_numbered hy).1
    simp only [nextId] at hlt
    omega
  le_lastId row hrow := by
    rw [rows_insertAll, List.mem_append] at hrow
    rw [lastId_insertAll]
    rcases hrow with hrow | hrow
    · have := h.le_lastId row hrow
      omega
    · have := (lt_id_of_mem_numbered hrow).2
      simp only [nextId] at this
      omega

theorem Numbered.keep {r : Relation α} (h : r.Numbered) (test : Row α → Bool) :
    (r.keep test).Numbered where
  increasing := h.increasing.filter test
  le_lastId row hrow := h.le_lastId row (mem_keep_iff.1 hrow).1

theorem Numbered.le_of_has {r : Relation α} (h : r.Numbered) {id : Nat} (hid : r.has id = true) :
    id ≤ r.lastId := by
  obtain ⟨row, hrow, rfl⟩ := has_iff.1 hid
  exact h.le_lastId row hrow

/-- Rows that are added do not have the number of a row which is there. -/
theorem Numbered.mem_of_mem_insertAll {r : Relation α} (h : r.Numbered) {values : List α}
    {row : Row α} (hrow : row ∈ (r.insertAll values).rows) (hid : r.has row.id = true) :
    row ∈ r.rows := by
  rcases mem_insertAll hrow with hold | ⟨hnew, -⟩
  · exact hold
  · have hle := h.le_of_has hid
    simp only [nextId] at hnew
    omega

theorem Numbered.nodup_ids {r : Relation α} (h : r.Numbered) : (r.rows.map Row.id).Nodup :=
  List.pairwise_map.2 (h.increasing.imp Nat.ne_of_lt)

/-- A row is found by its number. -/
theorem Numbered.find?_of_mem {r : Relation α} (h : r.Numbered) {row : Row α}
    (hrow : row ∈ r.rows) : r.find? row.id = some row :=
  find?_of_nodup_map h.nodup_ids hrow

/-- There is one row of each number. -/
theorem Numbered.eq_of_id_eq {r : Relation α} (h : r.Numbered) {x y : Row α} (hx : x ∈ r.rows)
    (hy : y ∈ r.rows) (hid : x.id = y.id) : x = y := by
  have hfind := h.find?_of_mem hx
  rw [hid, h.find?_of_mem hy] at hfind
  exact (Option.some.inj hfind).symm

end Relation

/-! ## Blocks -/

/-- Values that are written in blocks, each of which carries a number of its own, are found again
by the number of their block. -/
theorem filter_flatMap_of_nodup {blocks : List ι} {id : ι → Nat} {block : ι → List β}
    {key : β → Nat} (hkey : ∀ i ∈ blocks, ∀ b ∈ block i, key b = id i)
    (hid : (blocks.map id).Nodup) {i : ι} (hi : i ∈ blocks) :
    (blocks.flatMap block).filter (key · == id i) = block i := by
  induction blocks with
  | nil => cases hi
  | cons j blocks ih =>
    rw [List.map_cons, List.nodup_cons] at hid
    have hrest := fun k hk => hkey k (List.mem_cons_of_mem j hk)
    rw [List.flatMap_cons, List.filter_append]
    rcases List.mem_cons.1 hi with rfl | hmem
    · -- No later block has the number of this one.
      have hself : (block i).filter (key · == id i) = block i := by
        rw [List.filter_eq_self]
        intro b hb
        simpa using hkey i hi b hb
      have hothers : (blocks.flatMap block).filter (key · == id i) = [] := by
        rw [List.filter_eq_nil_iff]
        intro b hb
        obtain ⟨k, hk, hb⟩ := List.mem_flatMap.1 hb
        rw [hrest k hk b hb]
        intro heq
        exact hid.1 (List.mem_map.2 ⟨k, hk, by simpa using heq⟩)
      rw [hself, hothers, List.append_nil]
    · have hother : (block j).filter (key · == id i) = [] := by
        rw [List.filter_eq_nil_iff]
        intro b hb
        rw [hkey j (List.mem_cons_self ..) b hb]
        intro heq
        exact hid.1 (List.mem_map.2 ⟨i, hmem, by simpa using Eq.symm (beq_iff_eq.1 heq)⟩)
      rw [hother, ih hrest hid.2 hmem, List.nil_append]

end SchemaArchive
