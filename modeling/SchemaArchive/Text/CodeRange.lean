/-!
# Sets of characters as tables of code point ranges

A Unicode property is a list of closed intervals of code points.  `inRanges` asks whether a
character lies in one of them; the other modules of `SchemaArchive.Text` hold one table each.

* `inRanges_eq_true_iff` — membership is "some interval of the list holds the code point".
-/

namespace SchemaArchive.Text

/-- Does the code point of `c` lie in one of the closed intervals `(first, last)`? -/
def inRanges (ranges : List (Nat × Nat)) (c : Char) : Bool :=
  ranges.any fun r => r.1 ≤ c.toNat && c.toNat ≤ r.2

theorem inRanges_eq_true_iff {ranges : List (Nat × Nat)} {c : Char} :
    inRanges ranges c = true ↔ ∃ r ∈ ranges, r.1 ≤ c.toNat ∧ c.toNat ≤ r.2 := by
  simp [inRanges]

/-- Is `c` one of the 128 characters of ASCII? -/
def isAscii (c : Char) : Bool :=
  c.toNat < 128

end SchemaArchive.Text
