import Mathlib.Data.Nat.Digits.Defs
import SchemaArchive.Text.Decimal

/-!
# What decimal numbers within bounds are read as

The value of a run of digits is the sum of the digits, each times its power of ten.  Reading
multiplies and adds from the left instead, and stops as soon as the bound is reached.  It gives
the value of the whole run if that is below the bound, and otherwise it reports the character
behind the longest run whose value is: as too large if it is one more digit, and as no digit in
every other case.

* `digitsBelow_cases` — reading digits behind others, with all three outcomes.
* `longestBelow_of_append` — where the longest run below a bound ends.
* `readUnsigned_eq_ok_iff`, `problem_of_readUnsigned_eq_error` — when a text is a number, and what
  is wrong with it otherwise.
-/

namespace SchemaArchive.Text

/-! ## Values -/

/-- The value of a run of digits in the decimal system. -/
def decimalValue (digits : List Char) : Nat :=
  Nat.ofDigits 10 (digits.reverse.map digitValue)

/-- Are all of these characters ASCII digits? -/
abbrev AllDigits (cs : List Char) : Prop :=
  ∀ c ∈ cs, c.isDigit = true

@[simp] theorem decimalValue_nil : decimalValue [] = 0 := rfl

/-- One more digit makes the value ten times as large, and adds its own. -/
theorem decimalValue_concat (digits : List Char) (c : Char) :
    decimalValue (digits ++ [c]) = 10 * decimalValue digits + digitValue c := by
  simp [decimalValue, Nat.ofDigits_cons, Nat.add_comm]

theorem decimalValue_le_append (digits more : List Char) :
    decimalValue digits ≤ decimalValue (digits ++ more) := by
  induction more generalizing digits with
  | nil => simp
  | cons c more ih =>
    have hone := decimalValue_concat digits c
    have hmore := ih (digits ++ [c])
    rw [List.append_assoc, List.singleton_append] at hmore
    omega

/-! ## The longest run below a bound -/

/-- Of the runs of digits with which `cs` begins, `run` is the longest whose value is below the
bound. -/
structure LongestBelow (bound : Nat) (cs run : List Char) : Prop where
  begins : run <+: cs
  digits : AllDigits run
  below : decimalValue run < bound
  longest : ∀ other, other <+: cs → AllDigits other → decimalValue other < bound →
    other.length ≤ run.length

theorem LongestBelow.unique {bound : Nat} {cs run other : List Char} (h : LongestBelow bound cs run)
    (h' : LongestBelow bound cs other) : run = other := by
  have hle := h.longest other h'.begins h'.digits h'.below
  have hge := h'.longest run h.begins h.digits h.below
  exact (List.prefix_of_prefix_length_le h.begins h'.begins hge).eq_of_length (by omega)

/-- The longest run ends where no digit follows, or one with which the value is no longer below
the bound. -/
theorem longestBelow_of_append {bound : Nat} {run : List Char} {c : Char} (hdigits : AllDigits run)
    (hbelow : decimalValue run < bound)
    (hnext : c.isDigit = true → bound ≤ decimalValue (run ++ [c])) (rest : List Char) :
    LongestBelow bound (run ++ c :: rest) run := by
  refine ⟨List.prefix_append _ _, hdigits, hbelow, fun other hother hall hlt => ?_⟩
  by_contra hlong
  have hlonger : run ++ [c] <+: other := by
    refine List.prefix_of_prefix_length_le ?_ hother ?_
    · exact ⟨rest, by simp⟩
    · simp
      omega
  obtain ⟨more, rfl⟩ := hlonger
  have hc : c.isDigit = true := hall c (by simp)
  have hle := decimalValue_le_append (run ++ [c]) more
  have hreach := hnext hc
  omega

/-- A run below the bound with nothing behind it is the longest. -/
theorem longestBelow_self {bound : Nat} {run : List Char} (hdigits : AllDigits run)
    (hbelow : decimalValue run < bound) : LongestBelow bound run run :=
  ⟨List.prefix_rfl, hdigits, hbelow, fun _ hother _ _ => hother.length_le⟩

/-! ## Reading digits -/

/-- Reading goes on behind the digits `read`.  Either all of `cs` is digits and the value stays
below the bound, or some character follows the longest run for which that holds. -/
theorem digitsBelow_cases {bound : Nat} {read : List Char} (hread : decimalValue read < bound)
    (cs : List Char) :
    (AllDigits cs ∧ decimalValue (read ++ cs) < bound ∧
      digitsBelow bound (decimalValue read) cs = .ok (decimalValue (read ++ cs))) ∨
    ∃ run c rest, cs = run ++ c :: rest ∧ AllDigits run ∧ decimalValue (read ++ run) < bound ∧
      (c.isDigit = true → bound ≤ decimalValue (read ++ (run ++ [c]))) ∧
      digitsBelow bound (decimalValue read) cs =
        .error (if c.isDigit then .tooLarge else .invalidDigit) := by
  induction cs generalizing read with
  | nil => exact .inl ⟨nofun, by simpa using hread, by simp [digitsBelow]⟩
  | cons c cs ih =>
    have hvalue := decimalValue_concat read c
    by_cases hc : c.isDigit = true
    · by_cases hbound : 10 * decimalValue read + digitValue c < bound
      · have hstep : digitsBelow bound (decimalValue read) (c :: cs) =
            digitsBelow bound (decimalValue (read ++ [c])) cs := by
          rw [digitsBelow, if_pos hc, if_pos hbound, hvalue]
        rw [hstep]
        rcases ih (hvalue ▸ hbound) with ⟨hall, hlt, hrun⟩ | ⟨run, d, rest, rfl, hall, hlt, hd, hrun⟩
        · rw [List.append_assoc, List.singleton_append] at hlt hrun
          exact .inl ⟨List.forall_mem_cons.2 ⟨hc, hall⟩, hlt, hrun⟩
        · rw [List.append_assoc, List.singleton_append] at hlt hd
          exact .inr ⟨c :: run, d, rest, rfl, List.forall_mem_cons.2 ⟨hc, hall⟩, hlt, hd, hrun⟩
      · refine .inr ⟨[], c, cs, rfl, nofun, by simpa using hread, fun _ => ?_, ?_⟩
        · rw [List.nil_append]
          omega
        · rw [digitsBelow, if_pos hc, if_neg hbound, if_pos hc]
    · refine .inr ⟨[], c, cs, rfl, nofun, by simpa using hread, fun h => absurd h hc, ?_⟩
      rw [digitsBelow, if_neg hc, if_neg hc]

/-- The problem that the character behind the run makes: it is one digit too many, or no digit.  If
nothing is there, a digit is missing. -/
def problemBehind (run cs : List Char) : NumberError :=
  if cs[run.length]?.any Char.isDigit then .tooLarge else .invalidDigit

/-- At least one digit is read, and all of them as their value if that is below the bound.
Otherwise, the problem is behind the longest run for which it is. -/
theorem signedDigits_cases {bound : Nat} (hbound : 0 < bound) (cs : List Char) :
    ((cs ≠ [] ∧ AllDigits cs ∧ decimalValue cs < bound) ∧
      signedDigits bound cs = .ok (decimalValue cs)) ∨
    ¬ (cs ≠ [] ∧ AllDigits cs ∧ decimalValue cs < bound) ∧
      ∃ run, LongestBelow bound cs run ∧
        signedDigits bound cs = .error (problemBehind run cs) := by
  by_cases hcs : cs = []
  · subst hcs
    exact .inr ⟨fun h => h.1 rfl, [], longestBelow_self nofun hbound, rfl⟩
  have hread : signedDigits bound cs = digitsBelow bound (decimalValue []) cs := by
    simp [signedDigits, hcs]
  rw [hread]
  rcases @digitsBelow_cases bound [] hbound cs with
    ⟨hall, hlt, hrun⟩ | ⟨run, c, rest, rfl, hall, hlt, hnext, hrun⟩
  · exact .inl ⟨⟨hcs, hall, hlt⟩, hrun⟩
  · have hlongest := longestBelow_of_append hall hlt hnext rest
    refine .inr ⟨?_, run, hlongest, ?_⟩
    · rintro ⟨-, hdigits, hbelow⟩
      have hle := hlongest.longest _ List.prefix_rfl hdigits hbelow
      simp at hle
    · rw [hrun, problemBehind]
      simp

/-! ## Unsigned numbers -/

/-- The text is the number `n` below the bound: ASCII digits, of which there is at least one, with
or without a plus sign in front of them. -/
def WritesUnsigned (bound : Nat) (cs : List Char) (n : Nat) : Prop :=
  ∃ digits, (cs = digits ∨ cs = '+' :: digits) ∧ digits ≠ [] ∧ AllDigits digits ∧
    decimalValue digits = n ∧ n < bound

/-- What stands behind a plus sign, or everything if there is none. -/
def behindPlus : List Char → List Char
  | '+' :: cs => cs
  | cs => cs

theorem behindPlus_of_allDigits {cs : List Char} (h : AllDigits cs) : behindPlus cs = cs := by
  unfold behindPlus
  split
  · exact absurd (h '+' (by simp)) (by decide)
  · rfl

theorem readUnsigned_eq {cs : List Char} (h : cs ≠ []) (bound : Nat) :
    readUnsigned bound cs = signedDigits bound (behindPlus cs) := by
  unfold readUnsigned behindPlus
  split
  · exact absurd rfl h
  · rfl
  · next hplus =>
    split
    · exact absurd rfl (hplus _)
    · simp [signedDigits, h]

/-- Digits may stand behind a plus sign or alone. -/
theorem writesUnsigned_iff {bound : Nat} {cs : List Char} {n : Nat} :
    WritesUnsigned bound cs n ↔ (behindPlus cs ≠ [] ∧ AllDigits (behindPlus cs) ∧
      decimalValue (behindPlus cs) < bound) ∧ decimalValue (behindPlus cs) = n := by
  constructor
  · rintro ⟨digits, hcs, hne, hall, rfl, hlt⟩
    have hbehind : behindPlus cs = digits := by
      rcases hcs with rfl | rfl
      · exact behindPlus_of_allDigits hall
      · rfl
    rw [hbehind]
    exact ⟨⟨hne, hall, hlt⟩, rfl⟩
  · rintro ⟨⟨hne, hall, hlt⟩, rfl⟩
    refine ⟨behindPlus cs, ?_, hne, hall, rfl, hlt⟩
    unfold behindPlus
    split
    · exact .inr rfl
    · exact .inl rfl

/-- A text is read as a number exactly if it is that number. -/
theorem readUnsigned_eq_ok_iff {bound : Nat} (hbound : 0 < bound) {cs : List Char} {n : Nat} :
    readUnsigned bound cs = .ok n ↔ WritesUnsigned bound cs n := by
  rw [writesUnsigned_iff]
  by_cases hcs : cs = []
  · subst hcs
    simp [readUnsigned, behindPlus]
  rw [readUnsigned_eq hcs]
  rcases signedDigits_cases hbound (behindPlus cs) with ⟨hdigits, hrun⟩ | ⟨hno, run, -, hrun⟩
  · rw [hrun, and_iff_right hdigits, Except.ok.injEq]
  · rw [hrun]
    exact ⟨nofun, fun h => absurd h.1 hno⟩

/-- What is wrong with a text that is no number: there is nothing in it, or something behind the
longest run of digits whose value is below the bound. -/
theorem problem_of_readUnsigned_eq_error {bound : Nat} (hbound : 0 < bound) {cs : List Char}
    {e : NumberError} (h : readUnsigned bound cs = .error e) :
    (cs = [] → e = .empty) ∧
    (cs ≠ [] → ∃ run, LongestBelow bound (behindPlus cs) run ∧
      e = problemBehind run (behindPlus cs)) := by
  constructor
  · rintro rfl
    cases h
    rfl
  · intro hcs
    rw [readUnsigned_eq hcs] at h
    rcases signedDigits_cases hbound (behindPlus cs) with ⟨-, hrun⟩ | ⟨-, run, hlongest, hrun⟩
    · rw [hrun] at h
      cases h
    · rw [hrun] at h
      cases h
      exact ⟨run, hlongest, rfl⟩

end SchemaArchive.Text
