import SchemaArchive.Json.Reader
import SchemaArchive.Proofs.Script.Lexemes

/-!
# What is written for a value, cut into lexemes

A value is written as a text, in one line or over several.  Cutting this text gives the lexemes of
the value whichever layout it has: blanks and new lines are passed over, strings end at their own
closing quote and hold what they were made from, and numbers and words end where the next mark
stands.

* `lexemesOf` — the lexemes of a value.
* `Writes` — a text that is cut into given lexemes, wherever it stands; `writes_string`,
  `writes_number` and `writes_word` are single lexemes.
* `writes_compact`, `writes_prettyAt` — both layouts of a value.
-/

namespace SchemaArchive.Json

open Text

/-! ## The lexemes of a value -/

mutual

/-- The lexemes of a value. -/
def lexemesOf : Json → List Lexeme
  | null => [.null]
  | bool b => [.bool b]
  | number n => [.number n]
  | string s => [.string s]
  | array items => .leftBracket :: (itemLexemes items ++ [.rightBracket])
  | object members => .leftBrace :: (memberLexemes members ++ [.rightBrace])

/-- The lexemes of the items of a list, with commas between them. -/
def itemLexemes : List Json → List Lexeme
  | [] => []
  | [item] => lexemesOf item
  | item :: items => lexemesOf item ++ .comma :: itemLexemes items

/-- The lexemes of the members of an object, with commas between them. -/
def memberLexemes : List (String × Json) → List Lexeme
  | [] => []
  | [(key, value)] => .string key :: .colon :: lexemesOf value
  | (key, value) :: members =>
    .string key :: .colon :: (lexemesOf value ++ .comma :: memberLexemes members)

end

/-! ## Strings -/

/-- The ways in which a character is written in a string: as itself, by a letter behind a
backslash, or by its number. -/
inductive SpelledAs (c : Char) : List Char → Prop
  | plain (hquote : c ≠ doubleQuote) (hback : c ≠ backslash) (hcontrol : 0x20 ≤ c.toNat) :
    SpelledAs c [c]
  | letter (letter : Char) (h : escapedChar? letter = some c) (hu : letter ≠ 'u') :
    SpelledAs c [backslash, letter]
  | code (n₁ n₂ n₃ n₄ : Char) (h : hexNumber? n₁ n₂ n₃ n₄ = some c.toNat)
    (hplain : [n₁, n₂, n₃, n₄].all (fun d => d != doubleQuote && d != backslash) = true) :
    SpelledAs c [backslash, 'u', n₁, n₂, n₃, n₄]

theorem hexDigits_of_lt : ∀ n < 0x20,
    hexDigits n = ['0', '0', (n / 16).digitChar, (n % 16).digitChar] ∧
      hexNumber? '0' '0' (n / 16).digitChar (n % 16).digitChar = some n ∧
      ['0', '0', (n / 16).digitChar, (n % 16).digitChar].all
        (fun d => d != doubleQuote && d != backslash) = true := by
  decide

theorem spelledAs_stringChar (c : Char) : SpelledAs c (stringChar c) := by
  unfold stringChar
  split
  · next hc =>
    refine .letter c ?_ ?_
    · simp only [Bool.or_eq_true, beq_iff_eq] at hc
      rcases hc with rfl | rfl <;> rfl
    · rintro rfl
      revert hc
      decide
  split
  · next hc => exact beq_iff_eq.1 hc ▸ .letter 'b' rfl (by decide)
  split
  · next hc => exact beq_iff_eq.1 hc ▸ .letter 't' rfl (by decide)
  split
  · next hc => exact beq_iff_eq.1 hc ▸ .letter 'n' rfl (by decide)
  split
  · next hc => exact beq_iff_eq.1 hc ▸ .letter 'f' rfl (by decide)
  split
  · next hc => exact beq_iff_eq.1 hc ▸ .letter 'r' rfl (by decide)
  split
  · next hc =>
    obtain ⟨hdigits, hnumber, hplain⟩ := hexDigits_of_lt c.toNat hc
    rw [hdigits]
    exact .code _ _ _ _ hnumber hplain
  · next hquote _ _ _ _ _ hcontrol =>
    simp only [Bool.or_eq_true, beq_iff_eq, not_or] at hquote
    exact .plain hquote.1 hquote.2 (by omega)

/-- A string does not end within a character. -/
theorem splitQuoted_of_spelledAs {c : Char} {spelled : List Char} (h : SpelledAs c spelled)
    (rest : List Char) :
    splitQuoted doubleQuote false (spelled ++ rest) =
      (spelled ++ (splitQuoted doubleQuote false rest).1,
        (splitQuoted doubleQuote false rest).2) := by
  have hback : backslash ≠ doubleQuote := by decide
  cases h with
  | plain hquote hback' =>
    have hback'' : (c == backslash) = false := by simpa using hback'
    simp [splitQuoted, hquote, hback'']
  | letter letter => simp [splitQuoted, hback]
  | code n₁ n₂ n₃ n₄ h hplain =>
    simp only [List.all_cons, List.all_nil, Bool.and_true, Bool.and_eq_true, bne_iff_ne] at hplain
    obtain ⟨h₁, h₂, h₃, h₄⟩ := hplain
    have hne : ∀ {d : Char}, d ≠ backslash → (d == backslash) = false := fun hd => by simpa using hd
    simp [splitQuoted, hback, h₁.1, h₂.1, h₃.1, h₄.1, hne h₁.2, hne h₂.2, hne h₃.2, hne h₄.2]

/-- A character in a string stands for its own number. -/
theorem stringUnits?_of_spelledAs {c : Char} {spelled : List Char} (h : SpelledAs c spelled)
    (rest : List Char) :
    stringUnits? (spelled ++ rest) = (stringUnits? rest).map (c.toNat :: ·) := by
  cases h with
  | plain hquote hback hcontrol =>
    have hshown : ¬ c.toNat < 0x20 := by omega
    rw [List.cons_append, List.nil_append, stringUnits?, if_neg hshown]
    · exact hquote
    · exact fun _ _ _ _ _ hc => absurd hc hback
    · exact fun _ _ hc => absurd hc hback
  | letter letter h hu =>
    rw [List.cons_append, List.cons_append, List.nil_append, stringUnits?, h]
    · simp only [Option.bind_eq_bind, Option.bind_some, Option.pure_def]
      cases stringUnits? rest <;> rfl
    · exact fun _ _ _ _ _ hletter => absurd hletter hu
  | code n₁ n₂ n₃ n₄ h hplain =>
    rw [List.cons_append, List.cons_append, List.cons_append, List.cons_append, List.cons_append,
      List.cons_append, List.nil_append, stringUnits?, h]
    cases stringUnits? rest <;> rfl

/-- No character has the number of half a character. -/
theorem charsOfUnits?_toNat (c : Char) (units : List Nat) :
    charsOfUnits? none (c.toNat :: units) = (charsOfUnits? none units).map (c :: ·) := by
  have hvalid : c.toNat < 0xD800 ∨ 0xDFFF < c.toNat ∧ c.toNat < 0x110000 := c.valid
  have hhigh : isHighSurrogate c.toNat = false := by
    simp only [isHighSurrogate, Bool.and_eq_false_iff, decide_eq_false_iff_not]
    omega
  have hlow : isLowSurrogate c.toNat = false := by
    simp only [isLowSurrogate, Bool.and_eq_false_iff, decide_eq_false_iff_not]
    omega
  simp [charsOfUnits?, hhigh, hlow]

/-- What is written for the characters of a string ends at the closing quote behind it. -/
theorem splitQuoted_stringChar (cs rest : List Char) :
    splitQuoted doubleQuote false (cs.flatMap stringChar ++ doubleQuote :: rest) =
      (cs.flatMap stringChar ++ [doubleQuote], rest) := by
  induction cs with
  | nil => rfl
  | cons c cs ih =>
    rw [List.flatMap_cons, List.append_assoc, splitQuoted_of_spelledAs (spelledAs_stringChar c),
      ih, List.append_assoc]

/-- What is written for the characters of a string reads as these characters. -/
theorem stringContent?_stringChar (cs : List Char) :
    stringContent? (cs.flatMap stringChar ++ [doubleQuote]) = some cs := by
  have hunits : stringUnits? (cs.flatMap stringChar ++ [doubleQuote]) =
      some (cs.map Char.toNat) := by
    induction cs with
    | nil => rfl
    | cons c cs ih =>
      rw [List.flatMap_cons, List.append_assoc,
        stringUnits?_of_spelledAs (spelledAs_stringChar c), ih]
      rfl
  have hchars : charsOfUnits? none (cs.map Char.toNat) = some cs := by
    clear hunits
    induction cs with
    | nil => rfl
    | cons c cs ih =>
      rw [List.map_cons, charsOfUnits?_toNat, ih]
      rfl
  rw [stringContent?, hunits]
  exact hchars

/-! ## Texts that write lexemes -/

/-- Does the text begin with a character that goes on neither with a number nor with a word? -/
def endsLexeme (rest : List Char) : Bool :=
  !rest.head?.any fun c => c.isDigit || c.isLower

/-- In front of `rest`, the text is cut into the lexemes `ls`. -/
def Writes (text : List Char) (ls : List Lexeme) : Prop :=
  ∀ rest, endsLexeme rest = true →
    lexemes (text ++ rest) = (lexemes rest).map (ls ++ ·)

/-- A punctuation mark begins no lexeme of another sort. -/
theorem ne_of_markLexeme? {c : Char} {l : Lexeme} (h : markLexeme? c = some l) :
    ¬ isSpace c = true ∧ ¬ (c == doubleQuote) = true ∧ ¬ (c == '-') = true ∧
      ¬ c.isDigit = true ∧ ¬ c.isLower = true := by
  have hmarks : c ∈ ['[', ']', Json.leftBrace, Json.rightBrace, ',', ':'] := by
    unfold markLexeme? at h
    grind
  simp only [List.mem_cons, List.not_mem_nil, or_false] at hmarks
  rcases hmarks with rfl | rfl | rfl | rfl | rfl | rfl <;> decide

namespace Writes

variable {text more : List Char} {ls ls' : List Lexeme}

theorem nil : Writes [] [] := by
  intro rest _
  simp

/-- One text behind another, if numbers and words in the first end there. -/
theorem append (h : Writes text ls) (h' : Writes more ls') (hmore : endsLexeme more = true) :
    Writes (text ++ more) (ls ++ ls') := by
  intro rest hrest
  have hbehind : endsLexeme (more ++ rest) = true := by
    cases more with
    | nil => exact hrest
    | cons c more => exact hmore
  rw [List.append_assoc, h _ hbehind, h' rest hrest, Option.map_map]
  simp [Function.comp_def]

/-- White space in front is passed over. -/
theorem space {c : Char} (hc : isSpace c = true) (h : Writes text ls) : Writes (c :: text) ls := by
  intro rest hrest
  rw [List.cons_append, lexemes, if_pos hc]
  exact h rest hrest

/-- A punctuation mark in front. -/
theorem mark {c : Char} {l : Lexeme} (hc : markLexeme? c = some l) (h : Writes text ls) :
    Writes (c :: text) (l :: ls) := by
  intro rest hrest
  obtain ⟨hspace, hquote, hminus, hdigit, hlower⟩ := ne_of_markLexeme? hc
  rw [List.cons_append, lexemes, if_neg hspace, if_neg hquote, if_neg hminus, if_neg hdigit,
    if_neg hlower, hc, h rest hrest]
  cases lexemes rest <;> rfl

theorem newLine (level : Nat) (h : Writes text ls) : Writes (newLine level ++ text) ls := by
  refine space (by decide) ?_
  induction 2 * level with
  | zero => exact h
  | succ n ih => exact ih.space (by decide)

end Writes

/-! ## Single lexemes -/

theorem writes_string (s : String) : Writes (stringText s) [.string s] := by
  intro rest _
  have hsplit := splitQuoted_stringChar s.toList rest
  have hspace : ¬ isSpace doubleQuote = true := by decide
  have hquote : (doubleQuote == doubleQuote) = true := by decide
  rw [stringText, List.cons_append, List.append_assoc, List.singleton_append, lexemes,
    if_neg hspace, if_pos hquote, hsplit]
  simp only [stringContent?_stringChar]
  cases lexemes rest <;> simp

/-- A run of characters is taken as a whole in front of a text that does not go on with it. -/
theorem run_of_endsLexeme {test : Char → Bool} {cs rest : List Char} (hcs : cs.all test = true)
    (htest : ∀ c, test c = true → (c.isDigit || c.isLower) = true)
    (hrest : endsLexeme rest = true) :
    (cs ++ rest).takeWhile test = cs ∧ (cs ++ rest).dropWhile test = rest := by
  refine takeWhile_append_of_all hcs ?_
  cases rest with
  | nil => rfl
  | cons c rest =>
    have hc : (c.isDigit || c.isLower) = false := by simpa [endsLexeme] using hrest
    have hnot : ¬ test c = true := fun hyes => by simp [htest c hyes] at hc
    simpa using hnot

theorem writes_word {c : Char} {cs : List Char} {l : Lexeme}
    (hc : isSpace c = false ∧ (c == doubleQuote) = false ∧ (c == '-') = false ∧
      c.isDigit = false ∧ c.isLower = true) (hcs : cs.all Char.isLower = true)
    (hl : wordLexeme? (c :: cs) = some l) : Writes (c :: cs) [l] := by
  intro rest hrest
  obtain ⟨hspace, hquote, hminus, hdigit, hlower⟩ := hc
  obtain ⟨htake, hdrop⟩ := run_of_endsLexeme hcs (fun d hd => by simp [hd]) hrest
  rw [List.cons_append, lexemes, hspace, hquote, hminus, hdigit, hlower, htake, hdrop, hl]
  cases lexemes rest <;> rfl

/-- The digits of a number do not begin with a zero. -/
theorem head?_toDigits {n : Nat} (h : 0 < n) : (Nat.toDigits 10 n).head? ≠ some '0' := by
  induction n using Nat.strongRecOn with
  | ind n ih =>
    by_cases hn : n < 10
    · rw [Nat.toDigits_of_lt_base hn, List.head?_cons, ne_eq, Option.some_inj,
        Nat.digitChar_eq_zero]
      omega
    · rw [Nat.toDigits_of_base_le (by omega) (by omega), List.head?_append,
        List.head?_eq_some_head Nat.toDigits_ne_nil, Option.some_or, ← List.head?_eq_some_head]
      exact ih (n / 10) (by omega) (by omega)

/-- The digits of a number read as this number. -/
theorem digitsNumber?_toDigits (n : Nat) : digitsNumber? (Nat.toDigits 10 n) = some n := by
  by_cases hn : n = 0
  · subst hn
    rfl
  · have hread : Nat.ofDigitChars 10 (Nat.toDigits 10 n) 0 = n :=
      Nat.ofDigitChars_toDigits (by omega) (by omega)
    have hhead := head?_toDigits (Nat.pos_of_ne_zero hn)
    cases hdigits : Nat.toDigits 10 n with
    | nil => exact absurd hdigits Nat.toDigits_ne_nil
    | cons c cs =>
      rw [hdigits] at hread hhead
      have hc : c ≠ '0' := fun hzero => hhead (congrArg some hzero)
      rw [digitsNumber?]
      · exact congrArg some hread
      · nofun
      · exact fun hzero => absurd (List.head_eq_of_cons_eq hzero) hc
      · exact fun _ hzero => absurd (List.head_eq_of_cons_eq hzero) hc

theorem all_isDigit_toDigits (n : Nat) : (Nat.toDigits 10 n).all Char.isDigit = true :=
  List.all_eq_true.2 fun _ hc => Nat.isDigit_of_mem_toDigits (by omega) (by omega) hc

/-- A digit is no mark of another sort. -/
theorem ne_of_isDigit {c : Char} (h : c.isDigit = true) :
    isSpace c = false ∧ (c == doubleQuote) = false ∧ (c == '-') = false :=
  forall_isAscii (P := fun c => c.isDigit = true →
      isSpace c = false ∧ (c == doubleQuote) = false ∧ (c == '-') = false)
    (by decide) (isAscii_of_isDigit h) h

theorem writes_digits (n : Nat) : Writes (Nat.toDigits 10 n) [.number n] := by
  intro rest hrest
  have hread := digitsNumber?_toDigits n
  have hall := all_isDigit_toDigits n
  cases hdigits : Nat.toDigits 10 n with
  | nil => exact absurd hdigits Nat.toDigits_ne_nil
  | cons c cs =>
    rw [hdigits] at hread hall
    rw [List.all_cons, Bool.and_eq_true] at hall
    obtain ⟨hspace, hquote, hminus⟩ := ne_of_isDigit hall.1
    obtain ⟨htake, hdrop⟩ := run_of_endsLexeme hall.2 (fun d hd => by simp [hd]) hrest
    rw [List.cons_append, lexemes, hspace, hquote, hminus, hall.1, htake, hdrop, hread]
    cases lexemes rest <;> rfl

theorem writes_number (n : Int) : Writes (toString n).toList [.number n] := by
  cases n with
  | ofNat n =>
    have htext : (toString (Int.ofNat n)).toList = Nat.toDigits 10 n := String.toList_ofList
    rw [htext]
    exact writes_digits n
  | negSucc n =>
    have htext : (toString (Int.negSucc n)).toList = '-' :: Nat.toDigits 10 (n + 1) := by
      show ("-" ++ String.ofList (Nat.toDigits 10 (n + 1))).toList = _
      simp
    intro rest hrest
    obtain ⟨htake, hdrop⟩ := run_of_endsLexeme (all_isDigit_toDigits (n + 1))
      (fun d hd => by simp [hd]) hrest
    have hspace : isSpace '-' = false := by decide
    have hquote : ('-' == doubleQuote) = false := by decide
    rw [htext, List.cons_append, lexemes, hspace, hquote, htake, hdrop, digitsNumber?_toDigits]
    cases lexemes rest <;> rfl

/-! ## Values -/

mutual

/-- The text of a value in one line is cut into the lexemes of the value. -/
theorem writes_compact : ∀ v : Json, Writes (compact v) (lexemesOf v)
  | .null => writes_word (by decide) (by decide) rfl
  | .bool true => writes_word (by decide) (by decide) rfl
  | .bool false => writes_word (by decide) (by decide) rfl
  | .number n => writes_number n
  | .string s => writes_string s
  | .array items => by
    rw [compact, lexemesOf]
    exact .mark rfl ((writes_compactItems items).append (.mark rfl .nil) rfl)
  | .object members => by
    rw [compact, lexemesOf]
    exact .mark rfl ((writes_compactMembers members).append (.mark rfl .nil) rfl)

theorem writes_compactItems : ∀ items : List Json,
    Writes (compactItems items) (itemLexemes items)
  | [] => .nil
  | [item] => writes_compact item
  | item :: item' :: items =>
    (writes_compact item).append (.mark rfl (writes_compactItems (item' :: items))) rfl

theorem writes_compactMembers : ∀ members : List (String × Json),
    Writes (compactMembers members) (memberLexemes members)
  | [] => .nil
  | [(key, value)] => (writes_string key).append (.mark rfl (writes_compact value)) rfl
  | (key, value) :: member :: members =>
    (writes_string key).append (.mark rfl
      ((writes_compact value).append (.mark rfl
        (writes_compactMembers (member :: members))) rfl)) rfl

end

/-- A member of an object on a line of its own. -/
theorem writes_prettyMember (level : Nat) (key : String) {text : List Char} {ls : List Lexeme}
    (h : Writes text ls) :
    Writes (newLine level ++ stringText key ++ ": ".toList ++ text)
      (.string key :: .colon :: ls) := by
  have hcolon : Writes (": ".toList ++ text) (.colon :: ls) := .mark rfl (h.space (by decide))
  rw [List.append_assoc, List.append_assoc]
  exact .newLine level ((writes_string key).append hcolon rfl)

mutual

/-- The text of a value over several lines is cut into the same lexemes. -/
theorem writes_prettyAt : ∀ (level : Nat) (v : Json), Writes (prettyAt level v) (lexemesOf v)
  | _, .null => writes_word (by decide) (by decide) rfl
  | _, .bool true => writes_word (by decide) (by decide) rfl
  | _, .bool false => writes_word (by decide) (by decide) rfl
  | _, .number n => writes_number n
  | _, .string s => writes_string s
  | _, .array [] => .mark rfl (.mark rfl .nil)
  | level, .array (item :: items) => by
    rw [prettyAt, lexemesOf, List.append_assoc]
    exact .mark rfl ((writes_prettyItems (level + 1) (item :: items)).append
      (.newLine level (.mark rfl .nil)) rfl)
  | _, .object [] => .mark rfl (.mark rfl .nil)
  | level, .object (member :: members) => by
    rw [prettyAt, lexemesOf, List.append_assoc]
    exact .mark rfl ((writes_prettyMembers (level + 1) (member :: members)).append
      (.newLine level (.mark rfl .nil)) rfl)

theorem writes_prettyItems : ∀ (level : Nat) (items : List Json),
    Writes (prettyItems level items) (itemLexemes items)
  | _, [] => .nil
  | level, [item] => .newLine level (writes_prettyAt level item)
  | level, item :: item' :: items =>
    (Writes.newLine level (writes_prettyAt level item)).append
      (.mark rfl (writes_prettyItems level (item' :: items))) rfl

theorem writes_prettyMembers : ∀ (level : Nat) (members : List (String × Json)),
    Writes (prettyMembers level members) (memberLexemes members)
  | _, [] => .nil
  | level, [(key, value)] => writes_prettyMember level key (writes_prettyAt level value)
  | level, (key, value) :: member :: members =>
    (writes_prettyMember level key (writes_prettyAt level value)).append
      (.mark rfl (writes_prettyMembers level (member :: members))) rfl

end

end SchemaArchive.Json
