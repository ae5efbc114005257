import SchemaArchive.Proofs.Script.Lexemes

/-!
# Upper case, once and for all

A text in upper case has no further upper case: what the mapping makes of a character, it leaves
alone from then on.  Most characters are moved in runs, and the characters to which a run goes
belong to no run themselves and are not expanded.  Where the small letters of one run stand
between the capitals of another, both have a stride of two and keep out of each other's way.

* `CaseRun.avoids` — no character to which one run goes is moved by another run.
* `upperCase_upperCase` — upper case of upper case.
-/

namespace SchemaArchive.Text

/-- Does no character to which `r` goes belong to the run `other`? -/
def CaseRun.avoids (r other : CaseRun) : Bool :=
  Nat.blt other.last r.target || Nat.blt (r.target + (r.last - r.first)) other.first ||
    (other.stride == 2 && (r.stride == 2 || r.first == r.last) &&
      (r.target + other.first) % 2 == 1)

/-- Does the run go to characters, and does the mapping leave all of these alone? -/
def CaseRun.isSettled (r : CaseRun) : Bool :=
  (r.target + (r.last - r.first) < 0xD800 ||
      (0xDFFF < r.target && r.target + (r.last - r.first) < 0x110000)) &&
    (128 ≤ r.target ||
      (r.first == r.last && upperChar (Char.ofNat r.target) == [Char.ofNat r.target])) &&
    expandedCases.all (fun e =>
      Nat.blt e.1 r.target || Nat.blt (r.target + (r.last - r.first)) e.1) &&
    caseRuns.all r.avoids

theorem isSettled_of_mem_caseRuns : ∀ r ∈ caseRuns, r.isSettled = true := by decide +kernel

theorem CaseRun.covers_eq_false {r other : CaseRun} (h : r.avoids other = true) {n : Nat}
    (hn : r.covers n = true) : other.covers (r.target + (n - r.first)) = false := by
  simp only [covers, Bool.and_eq_true, decide_eq_true_eq, beq_iff_eq] at hn
  simp only [avoids, Bool.or_eq_true, Bool.and_eq_true, Nat.blt_eq, beq_iff_eq] at h
  obtain ⟨⟨hfirst, hlast⟩, hstride⟩ := hn
  rw [Bool.eq_false_iff]
  intro hother
  simp only [covers, Bool.and_eq_true, decide_eq_true_eq, beq_iff_eq] at hother
  obtain ⟨⟨hfirst', hlast'⟩, hstride'⟩ := hother
  rcases h with (h | h) | ⟨⟨hother, hr⟩, hparity⟩
  · omega
  · omega
  · rw [hother] at hstride'
    rcases hr with hr | hr
    · rw [hr] at hstride
      omega
    · omega

theorem toNat_ofNat {n : Nat} (h : n < 0xD800 ∨ 0xDFFF < n ∧ n < 0x110000) :
    (Char.ofNat n).toNat = n := by
  have hvalid : n.isValidChar := h
  rw [Char.ofNat, dif_pos hvalid]
  rfl

/-- The mapping leaves alone the character to which a run goes. -/
theorem upperChar_of_covers {r : CaseRun} (hr : r ∈ caseRuns) {n : Nat} (hn : r.covers n = true) :
    upperChar (Char.ofNat (r.target + (n - r.first))) =
      [Char.ofNat (r.target + (n - r.first))] := by
  have hsettled := isSettled_of_mem_caseRuns r hr
  simp only [CaseRun.isSettled, Bool.and_eq_true, Bool.or_eq_true, decide_eq_true_eq, beq_iff_eq,
    Nat.blt_eq, List.all_eq_true] at hsettled
  obtain ⟨⟨⟨hvalid, hascii⟩, hexpanded⟩, havoids⟩ := hsettled
  have hcovers := hn
  simp only [CaseRun.covers, Bool.and_eq_true, decide_eq_true_eq, beq_iff_eq] at hcovers
  obtain ⟨⟨hfirst, hlast⟩, -⟩ := hcovers
  rcases hascii with hascii | ⟨hsingle, hupper⟩
  · have htoNat := toNat_ofNat (n := r.target + (n - r.first)) (by omega)
    have hbeyond : isAscii (Char.ofNat (r.target + (n - r.first))) = false := by
      rw [isAscii, htoNat]
      simp
      omega
    have hlookup : expandedCases.lookup (r.target + (n - r.first)) = none := by
      rw [List.lookup_eq_none_iff]
      intro e he
      have := hexpanded e he
      simp
      omega
    have hfind : caseRuns.find? (·.covers (r.target + (n - r.first))) = none := by
      rw [List.find?_eq_none]
      intro other hother
      simp [CaseRun.covers_eq_false (havoids other hother) hn]
    rw [upperChar, hbeyond, if_neg (by decide), htoNat, hlookup, hfind]
  · have hzero : n - r.first = 0 := by omega
    rw [hzero, Nat.add_zero, hupper]

/-- The mapping leaves alone the characters to which a character is expanded. -/
theorem upperCase_of_mem_expandedCases :
    ∀ e ∈ expandedCases, upperCase (e.2.map Char.ofNat) = e.2.map Char.ofNat := by
  decide +kernel

theorem upperCase_upperChar (c : Char) : upperCase (upperChar c) = upperChar c := by
  by_cases hascii : isAscii c = true
  · rw [upperChar_of_isAscii hascii]
    exact forall_isAscii (P := fun c => upperCase [c.toUpper] = [c.toUpper]) (by decide) hascii
  · rw [upperChar, if_neg hascii]
    cases hlookup : expandedCases.lookup c.toNat with
    | some codes =>
      obtain ⟨before, after, hmem, -⟩ := List.lookup_eq_some_iff.1 hlookup
      exact upperCase_of_mem_expandedCases (c.toNat, codes) (hmem ▸ by simp)
    | none =>
      cases hfind : caseRuns.find? (·.covers c.toNat) with
      | some r =>
        have hcovers := List.find?_some hfind
        simp [upperCase, upperChar_of_covers (List.mem_of_find?_eq_some hfind) hcovers]
      | none => simp [upperCase, upperChar, hascii, hlookup, hfind]

/-- A text in upper case has no further upper case. -/
theorem upperCase_upperCase (cs : List Char) : upperCase (upperCase cs) = upperCase cs := by
  induction cs with
  | nil => rfl
  | cons c cs ih => rw [upperCase_cons, upperCase_append, upperCase_upperChar, ih]

end SchemaArchive.Text
