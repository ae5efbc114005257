/-!
# Text in lines of a bounded width

Words are put on a line as long as they fit, and the next word then begins a new line.  A word that
is wider than a whole line has a line of its own.

* `wrap` — the lines of some words.
* `flatten_wrap` — no word is lost, and they stay in order.
* `lineWidth_le_or_length_eq_one` — a line fits, or it is a single word.
* `padTo` — text filled up with spaces.
-/

namespace SchemaArchive.Text

/-- The text of a line of words, with a space between any two. -/
def lineText (line : List String) : String :=
  " ".intercalate line

/-- The width of a line of words. -/
def lineWidth (line : List String) : Nat :=
  (lineText line).length

/-- The lines of the words behind those that already stand on a line. -/
def fill (width : Nat) (line : List String) : List String → List (List String)
  | [] => [line]
  | word :: words =>
    if lineWidth (line ++ [word]) ≤ width then fill width (line ++ [word]) words
    else line :: fill width [word] words

/-- The lines of some words. -/
def wrap (width : Nat) : List String → List (List String)
  | [] => []
  | word :: words => fill width [word] words

/-- Text with spaces behind it up to a width. -/
def padTo (width : Nat) (text : String) : String :=
  text ++ String.ofList (List.replicate (width - text.length) ' ')

/-! ## What stands on the lines -/

theorem flatten_fill (width : Nat) (line words : List String) :
    (fill width line words).flatten = line ++ words := by
  induction words generalizing line with
  | nil => simp [fill]
  | cons word words ih =>
    rw [fill]
    split
    · rw [ih, List.append_assoc, List.singleton_append]
    · rw [List.flatten_cons, ih, List.singleton_append]

theorem flatten_wrap (width : Nat) (words : List String) : (wrap width words).flatten = words := by
  cases words with
  | nil => rfl
  | cons word words => exact flatten_fill width [word] words

theorem lineWidth_le_of_mem_fill {width : Nat} {line words l : List String}
    (h : lineWidth line ≤ width ∨ line.length = 1) (hl : l ∈ fill width line words) :
    lineWidth l ≤ width ∨ l.length = 1 := by
  induction words generalizing line with
  | nil =>
    rw [fill, List.mem_singleton] at hl
    exact hl ▸ h
  | cons word words ih =>
    rw [fill] at hl
    split at hl
    · rename_i fits
      exact ih (.inl fits) hl
    · rcases List.mem_cons.mp hl with rfl | hl
      · exact h
      · exact ih (.inr rfl) hl

theorem lineWidth_le_or_length_eq_one {width : Nat} {words l : List String}
    (hl : l ∈ wrap width words) : lineWidth l ≤ width ∨ l.length = 1 := by
  cases words with
  | nil => simp [wrap] at hl
  | cons word words => exact lineWidth_le_of_mem_fill (.inr rfl) hl

end SchemaArchive.Text
