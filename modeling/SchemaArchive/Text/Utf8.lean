/-!
# Bytes as text

UTF-8 read byte by byte.  Bytes fall into pieces: whole characters, and runs of bytes that are
none.  Such a run is as long as it could still have become a character, and a byte that cannot
go on begins a piece of its own.

* `Utf8.decode?` — the text, or the first fault; `Utf8.decodeLossy` — the text with U+FFFD for
  every fault.
* `Utf8.decodeLossy_of_decode?` — bytes without a fault give the same text both ways.
-/

namespace SchemaArchive.Text.Utf8

/-- The bits of a byte that continues a character count from this number. -/
def continuationBase : Nat := 0x80

/-- The largest byte that continues a character. -/
def continuationLast : Nat := 0xBF

/-- A character in the middle of which reading stands: the bits so far, how many bytes have been
taken and how many are missing, and the bounds of the next one. -/
structure Begun where
  bits : Nat
  taken : Nat
  missing : Nat
  low : Nat
  high : Nat
  deriving DecidableEq, Repr

/-- A piece of a byte sequence. -/
inductive Piece where
  | char (c : Char)
  /-- Bytes that neither are a character nor could become one, so many of them. -/
  | invalid (length : Nat)
  /-- The beginning of a character at the end of the bytes. -/
  | incomplete
  deriving DecidableEq, Repr

/-- What the first byte of a character begins.  The bounds of the second byte leave out longer
spellings of a character than needed, the surrogates, and numbers beyond the last character. -/
def begun? (b : Nat) : Option Begun :=
  if b < 0x80 then some ⟨b, 1, 0, continuationBase, continuationLast⟩
  else if 0xC2 ≤ b && b ≤ 0xDF then some ⟨b - 0xC0, 1, 1, continuationBase, continuationLast⟩
  else if b == 0xE0 then some ⟨b - 0xE0, 1, 2, 0xA0, continuationLast⟩
  else if b == 0xED then some ⟨b - 0xE0, 1, 2, continuationBase, 0x9F⟩
  else if 0xE1 ≤ b && b ≤ 0xEF then some ⟨b - 0xE0, 1, 2, continuationBase, continuationLast⟩
  else if b == 0xF0 then some ⟨b - 0xF0, 1, 3, 0x90, continuationLast⟩
  else if b == 0xF4 then some ⟨b - 0xF0, 1, 3, continuationBase, 0x8F⟩
  else if 0xF1 ≤ b && b ≤ 0xF3 then some ⟨b - 0xF0, 1, 3, continuationBase, continuationLast⟩
  else none

/-- The piece that is whole now, if one is, or the character that still misses bytes. -/
def settle (p : Begun) : List Piece × Option Begun :=
  if p.missing = 0 then ([.char (Char.ofNat p.bits)], none) else ([], some p)

/-- Reads a byte between two characters. -/
def start (b : Nat) : List Piece × Option Begun :=
  match begun? b with
  | none => ([.invalid 1], none)
  | some p => settle p

/-- Reads a byte, and gives the pieces that end before or with it. -/
def step (inside : Option Begun) (b : Nat) : List Piece × Option Begun :=
  match inside with
  | none => start b
  | some p =>
    if p.low ≤ b && b ≤ p.high then
      settle ⟨p.bits * 0x40 + (b - continuationBase), p.taken + 1, p.missing - 1,
        continuationBase, continuationLast⟩
    else
      let (pieces, inside) := start b
      (.invalid p.taken :: pieces, inside)

/-- The pieces of bytes, when reading stands inside a character or between two. -/
def piecesFrom : (inside : Option Begun) → List UInt8 → List Piece
  | none, [] => []
  | some _, [] => [.incomplete]
  | inside, b :: bytes =>
    let (pieces, inside) := step inside b.toNat
    pieces ++ piecesFrom inside bytes

/-- The pieces of bytes. -/
def pieces (bytes : List UInt8) : List Piece :=
  piecesFrom none bytes

/-! ## Text -/

/-- The first fault of bytes that are no text, and where it stands. -/
inductive Fault where
  | invalid (length position : Nat)
  | incomplete (position : Nat)
  deriving DecidableEq, Repr

/-- What is said about bytes that are no text. -/
def Fault.message : Fault → String
  | invalid length position =>
    "invalid utf-8 sequence of " ++ toString length ++ " bytes from index " ++ toString position
  | incomplete position =>
    "incomplete utf-8 byte sequence from index " ++ toString position

/-- The text that pieces make up, the first of which stands at `position`, or the first fault. -/
def textOf (position : Nat) : List Piece → Except Fault (List Char)
  | [] => .ok []
  | .char c :: pieces => (textOf (position + c.utf8Size) pieces).map (c :: ·)
  | .invalid length :: _ => .error (.invalid length position)
  | .incomplete :: _ => .error (.incomplete position)

/-- The text that bytes are, or their first fault. -/
def decode? (bytes : List UInt8) : Except Fault (List Char) :=
  textOf 0 (pieces bytes)

/-- The character that stands for a fault. -/
def replacement : Char := '\uFFFD'

/-- A piece as a character. -/
def Piece.shown : Piece → Char
  | char c => c
  | invalid _ | incomplete => replacement

/-- The text that bytes are, with a mark in place of every fault. -/
def decodeLossy (bytes : List UInt8) : List Char :=
  (pieces bytes).map Piece.shown

theorem map_shown_of_textOf {position : Nat} {ps : List Piece} {cs : List Char}
    (h : textOf position ps = .ok cs) : ps.map Piece.shown = cs := by
  induction ps generalizing position cs with
  | nil => simpa [textOf] using h
  | cons p ps ih =>
    cases p with
    | char c =>
      cases ht : textOf (position + c.utf8Size) ps with
      | error e => simp [textOf, ht, Except.map] at h
      | ok ds =>
        have hc : c :: ds = cs := by simpa [textOf, ht, Except.map] using h
        rw [← hc, List.map_cons, ih ht, Piece.shown]
    | invalid length => simp [textOf] at h
    | incomplete => simp [textOf] at h

/-- Bytes without a fault give the same text both ways. -/
theorem decodeLossy_of_decode? {bytes : List UInt8} {cs : List Char}
    (h : decode? bytes = .ok cs) : decodeLossy bytes = cs :=
  map_shown_of_textOf h

end SchemaArchive.Text.Utf8
