import SchemaArchive.Script.Scanner

/-!
# Scanning lexeme by lexeme

What scanning makes of a text that begins with a gap or with a whole lexeme: it passes over the
gap, or gives the token of the lexeme, and goes on behind it.  A word and a number have to be
followed by a character that cannot belong to them; quotes and punctuation end by themselves.

Words here are plain: upper-case ASCII letters, digits and underscores, without a digit in front.
Scanning leaves such a word as it is.

* `Scanner.lex_mark`, `Scanner.lex_quoted`, `Scanner.lex_plainWord`, `Scanner.lex_number` — one
  lemma for each sort of lexeme.
-/

namespace SchemaArchive

open Text

/-! ## ASCII -/

/-- A decidable fact about the characters of ASCII may be checked on all of them. -/
theorem forall_isAscii {P : Char → Prop} (h : ∀ n < 128, P (Char.ofNat n)) {c : Char}
    (hc : isAscii c = true) : P c := by
  have hlt : c.toNat < 128 := by simpa [isAscii] using hc
  simpa using h c.toNat hlt

/-- Can `c` stand in a plain word? -/
def isPlain (c : Char) : Bool :=
  c.isUpper || c.isDigit || c == '_'

/-- Is the text a plain word? -/
def isPlainWord : List Char → Bool
  | [] => false
  | c :: cs => isPlain c && !c.isDigit && cs.all isPlain

theorem isAscii_of_isDigit {c : Char} (h : c.isDigit = true) : isAscii c = true := by
  simp only [Char.isDigit, Bool.and_eq_true, decide_eq_true_eq, ge_iff_le,
    UInt32.le_iff_toNat_le] at h
  have h' : c.toNat ≤ 57 := h.2
  simp [isAscii]
  omega

theorem isAscii_of_isPlain {c : Char} (h : isPlain c = true) : isAscii c = true := by
  simp only [isPlain, Bool.or_eq_true, beq_iff_eq] at h
  rcases h with (h | h) | rfl
  · have hrange : c.val ≥ 'A'.val ∧ c.val ≤ 'Z'.val := of_decide_eq_true h
    have h' : c.toNat ≤ 90 := UInt32.le_iff_toNat_le.1 hrange.2
    simp [isAscii]
    omega
  · exact isAscii_of_isDigit h
  · rfl

theorem opening?_of_isPlain {c : Char} (h : isPlain c = true) (hd : c.isDigit = false) :
    opening? c = some .word :=
  forall_isAscii (P := fun c => isPlain c = true → c.isDigit = false → opening? c = some .word)
    (by decide) (isAscii_of_isPlain h) h hd

theorem continuesWord_of_isPlain {c : Char} (h : isPlain c = true) : continuesWord c = true :=
  forall_isAscii (P := fun c => isPlain c = true → continuesWord c = true)
    (by decide) (isAscii_of_isPlain h) h

theorem toUpper_of_isPlain {c : Char} (h : isPlain c = true) : c.toUpper = c :=
  forall_isAscii (P := fun c => isPlain c = true → c.toUpper = c)
    (by decide) (isAscii_of_isPlain h) h

theorem opening?_of_isDigit {c : Char} (h : c.isDigit = true) : opening? c = some .number :=
  forall_isAscii (P := fun c => c.isDigit = true → opening? c = some .number)
    (by decide) (isAscii_of_isDigit h) h

/-- Upper case leaves a plain text as it is. -/
theorem upperCase_of_isPlain {cs : List Char} (h : cs.all isPlain = true) : upperCase cs = cs := by
  induction cs with
  | nil => rfl
  | cons c cs ih =>
    simp only [List.all_cons, Bool.and_eq_true] at h
    rw [upperCase_cons, ih h.2, upperChar_of_isAscii (isAscii_of_isPlain h.1),
      toUpper_of_isPlain h.1]
    rfl

/-! ## Prefixes -/

theorem takeWhile_append_of_all {p : Char → Bool} {cs rest : List Char} (h : cs.all p = true)
    (hrest : rest.head?.any p = false) :
    (cs ++ rest).takeWhile p = cs ∧ (cs ++ rest).dropWhile p = rest := by
  induction cs with
  | nil => cases rest <;> simp_all
  | cons c cs ih =>
    simp only [List.all_cons, Bool.and_eq_true] at h
    rw [List.cons_append, List.takeWhile_cons_of_pos h.1, List.dropWhile_cons_of_pos h.1]
    exact ⟨congrArg _ (ih h.2).1, (ih h.2).2⟩

namespace Scanner

/-! ## Gaps and lexemes -/

theorem tokens_eq (s : Scanner) :
    s.tokens = match s.next with
      | (none, _) => []
      | (some t, s') => t :: s'.tokens := by
  rw [tokens]
  split <;> simp [*]

theorem tokens_nil (offset : Nat) : (Scanner.mk offset []).tokens = [] := by
  rw [tokens_eq]
  rfl

theorem tokens_gap {c : Char} (h : opening? c = none) (offset : Nat) (cs : List Char) :
    (Scanner.mk offset (c :: cs)).tokens = (Scanner.mk (offset + c.utf8Size) cs).tokens := by
  have hnext : (Scanner.mk offset (c :: cs)).next =
      (Scanner.mk (offset + c.utf8Size) cs).next := by
    simp [next, nextFrom, h]
  rw [tokens_eq, hnext, ← tokens_eq]

theorem tokens_lexeme {c : Char} {o : Opening} (h : opening? c = some o)
    {cs more rest : List Char} (hs : o.split c cs = (more, rest)) (offset : Nat) :
    (Scanner.mk offset (c :: cs)).tokens =
      o.token offset c more :: (Scanner.mk (offset + byteLength (c :: more)) rest).tokens := by
  have hnext : (Scanner.mk offset (c :: cs)).next =
      (some (o.token offset c more), ⟨offset + byteLength (c :: more), rest⟩) := by
    simp [next, nextFrom, h, hs]
  rw [tokens_eq, hnext]

/-! ## One lemma for each sort of lexeme -/

/-- A punctuation mark. -/
theorem lex_mark {c : Char} {kind : TokenKind} (h : opening? c = some (.mark kind)) (offset : Nat)
    (rest : List Char) :
    ∃ t o', (Scanner.mk offset (c :: rest)).tokens = t :: (Scanner.mk o' rest).tokens ∧
      t.kind = kind :=
  ⟨_, _, tokens_lexeme h rfl offset, rfl⟩

/-- A text between quotes, whatever it holds, is one token, and scanning goes on behind it. -/
theorem tokens_quoted {quote : Char} (h : opening? quote = some .quote) (hb : quote ≠ backslash)
    (cs : List Char) (offset : Nat) (rest : List Char) :
    (Scanner.mk offset (quoted quote cs ++ rest)).tokens =
      ⟨.quotedString, String.ofList cs, offset⟩ ::
        (Scanner.mk (offset + byteLength (quoted quote cs)) rest).tokens := by
  have hs : Opening.quote.split quote (escape quote cs ++ quote :: rest) =
      (escape quote cs ++ [quote], rest) := splitQuoted_escape hb cs rest
  have htext : quoted quote cs ++ rest = quote :: (escape quote cs ++ quote :: rest) := by
    simp [quoted]
  have hvalue : unescape quote false (escape quote cs ++ [quote]) = cs := unescape_escape hb cs []
  rw [htext, tokens_lexeme h hs, Opening.token, hvalue]
  rfl

/-- A text between quotes stands for what it holds. -/
theorem lex_quoted {quote : Char} (h : opening? quote = some .quote) (hb : quote ≠ backslash)
    (cs : List Char) (offset : Nat) (rest : List Char) :
    ∃ t o', (Scanner.mk offset (quoted quote cs ++ rest)).tokens =
        t :: (Scanner.mk o' rest).tokens ∧
      t.kind = .quotedString ∧ t.value = String.ofList cs :=
  ⟨_, _, tokens_quoted h hb cs offset rest, rfl, rfl⟩

/-- A word, up to a character that does not continue it. -/
theorem lex_word {c : Char} (h : opening? c = some .word) {cs : List Char}
    (hcs : cs.all continuesWord = true) {rest : List Char}
    (hrest : rest.head?.any continuesWord = false) (offset : Nat) :
    ∃ t o', (Scanner.mk offset (c :: cs ++ rest)).tokens = t :: (Scanner.mk o' rest).tokens ∧
      t.kind = Opening.wordKind (String.ofList (upperCase (c :: cs))) ∧
      t.value = String.ofList (upperCase (c :: cs)) := by
  obtain ⟨htake, hdrop⟩ := takeWhile_append_of_all hcs hrest
  have hs : Opening.word.split c (cs ++ rest) = (cs, rest) := by
    rw [Opening.split, htake, hdrop]
  rw [List.cons_append, tokens_lexeme h hs]
  exact ⟨_, _, rfl, rfl, rfl⟩

/-- A plain word stands for itself. -/
theorem lex_plainWord {cs : List Char} (h : isPlainWord cs = true) {rest : List Char}
    (hrest : rest.head?.any continuesWord = false) (offset : Nat) :
    ∃ t o', (Scanner.mk offset (cs ++ rest)).tokens = t :: (Scanner.mk o' rest).tokens ∧
      t.kind = Opening.wordKind (String.ofList cs) ∧ t.value = String.ofList cs := by
  cases cs with
  | nil => cases h
  | cons c cs =>
    simp only [isPlainWord, Bool.and_eq_true, Bool.not_eq_true'] at h
    obtain ⟨⟨hc, hd⟩, hcs⟩ := h
    have hall : (c :: cs).all isPlain = true := by simp [hc, hcs]
    have hcontinues : cs.all continuesWord = true :=
      List.all_eq_true.2 fun d hd => continuesWord_of_isPlain (List.all_eq_true.1 hcs d hd)
    have hword := lex_word (opening?_of_isPlain hc hd) hcontinues hrest offset
    rwa [upperCase_of_isPlain hall] at hword

/-- A number, up to a character that does not continue it. -/
theorem lex_number {c : Char} (h : c.isDigit = true) {cs : List Char}
    (hcs : cs.all continuesNumber = true) {rest : List Char}
    (hrest : rest.head?.any continuesNumber = false) (offset : Nat) :
    ∃ t o', (Scanner.mk offset (c :: cs ++ rest)).tokens = t :: (Scanner.mk o' rest).tokens ∧
      t.kind = .number ∧ t.value = String.ofList (c :: cs) := by
  obtain ⟨htake, hdrop⟩ := takeWhile_append_of_all hcs hrest
  have hs : Opening.number.split c (cs ++ rest) = (cs, rest) := by
    rw [Opening.split, htake, hdrop]
  rw [List.cons_append, tokens_lexeme (opening?_of_isDigit h) hs]
  exact ⟨_, _, rfl, rfl, rfl⟩

end Scanner

end SchemaArchive
