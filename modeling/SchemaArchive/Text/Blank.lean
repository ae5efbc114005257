import SchemaArchive.Text.CodeRange

/-!
# Blank characters

The characters with the Unicode property White_Space, which separate words in a script and
mean nothing else: space, tab, the line ends, the no-break space and their relatives, but none
of the invisible format characters such as U+200B.
-/

namespace SchemaArchive.Text

/-- The code points with the property White_Space. -/
def blankRanges : List (Nat × Nat) := [
  (0x9, 0xD), (0x20, 0x20), (0x85, 0x85), (0xA0, 0xA0), (0x1680, 0x1680), (0x2000, 0x200A),
  (0x2028, 0x2029), (0x202F, 0x202F), (0x205F, 0x205F), (0x3000, 0x3000)]

/-- Is `c` white space? -/
def isBlank (c : Char) : Bool :=
  inRanges blankRanges c

end SchemaArchive.Text
