import Mathlib.Data.List.Forall2
import SchemaArchive.Proofs.Archive.Refusal
import SchemaArchive.Proofs.Script.Decomposition
import SchemaArchive.Script.Exchange

/-!
# Upper and lower case

Outside of quoted text, the case of ASCII letters makes no difference.  The scanner asks of a
character what sort of lexeme it opens, whether it goes on with a word or a number, and how it
looks in upper case; the answers are the same for both cases of a letter.  So a text in which the
case of letters is changed here and there can be cut in the same places, and each of its lexemes
stands for the same.

Letters beyond ASCII are left alone: their other case may have another length.

* `SameLetter.apply_eq` — a question about characters that has the same answer for both cases of
  every ASCII letter.
* `Decomposition.Recased` — a text, but for the case of ASCII letters outside its quoted texts.
* `Lexeme.exists_recased`, `Piece.exists_recased`, `exists_recased_pieces` — such a text is cut in
  the same places.
* `tokenize_recased` — its tokens, and what follows for schemas and versions.
-/

namespace SchemaArchive

open Text

/-! ## Letters of either case -/

/-- The same character, or the same ASCII letter in the other case. -/
def SameLetter (c c' : Char) : Prop :=
  c' = c ∨ c' = c.toUpper ∨ c' = c.toLower

instance (c c' : Char) : Decidable (SameLetter c c') :=
  inferInstanceAs (Decidable (_ ∨ _))

theorem toUpper_of_not_isAscii {c : Char} (h : isAscii c = false) : c.toUpper = c := by
  unfold Char.toUpper
  split
  · next hc =>
    have hle : c.toNat ≤ 122 := UInt32.le_iff_toNat_le.1 hc.2
    simp [isAscii] at h
    omega
  · rfl

theorem toLower_of_not_isAscii {c : Char} (h : isAscii c = false) : c.toLower = c := by
  unfold Char.toLower
  split
  · next hc =>
    have hle : c.toNat ≤ 90 := UInt32.le_iff_toNat_le.1 hc.2
    simp [isAscii] at h
    omega
  · rfl

/-- Does `f` make no difference between the cases of a letter? -/
def CaseBlind {α : Type} (f : Char → α) (c : Char) : Prop :=
  f c.toUpper = f c ∧ f c.toLower = f c

instance {α : Type} [DecidableEq α] (f : Char → α) (c : Char) : Decidable (CaseBlind f c) :=
  inferInstanceAs (Decidable (_ ∧ _))

/-- What makes no difference between the cases of the letters of ASCII is the same for both. -/
theorem SameLetter.apply_eq {α : Type} {f : Char → α} (hf : ∀ n < 128, CaseBlind f (Char.ofNat n))
    {c c' : Char} (h : SameLetter c c') : f c' = f c := by
  by_cases hascii : isAscii c = true
  · obtain ⟨hupper, hlower⟩ := forall_isAscii (P := CaseBlind f) hf hascii
    rcases h with rfl | rfl | rfl
    · rfl
    · exact hupper
    · exact hlower
  · have hbeyond : isAscii c = false := by simpa using hascii
    rcases h with rfl | rfl | rfl
    · rfl
    · rw [toUpper_of_not_isAscii hbeyond]
    · rw [toLower_of_not_isAscii hbeyond]

namespace SameLetter

variable {c c' : Char}

theorem isBlank_eq (h : SameLetter c c') : isBlank c' = isBlank c :=
  h.apply_eq (by decide)

theorem startsWord_eq (h : SameLetter c c') : startsWord c' = startsWord c :=
  h.apply_eq (by decide)

theorem continuesWord_eq (h : SameLetter c c') : continuesWord c' = continuesWord c :=
  h.apply_eq (by decide)

theorem continuesNumber_eq (h : SameLetter c c') : continuesNumber c' = continuesNumber c :=
  h.apply_eq (by decide)

theorem opening?_eq (h : SameLetter c c') : opening? c' = opening? c :=
  h.apply_eq (by decide)

theorem upperChar_eq (h : SameLetter c c') : upperChar c' = upperChar c :=
  h.apply_eq (by decide)

theorem utf8Size_eq (h : SameLetter c c') : c'.utf8Size = c.utf8Size :=
  h.apply_eq (by decide)

theorem isWordChar_iff (h : SameLetter c c') : IsWordChar c' ↔ IsWordChar c := by
  rw [← continuesWord_iff, ← continuesWord_iff, h.continuesWord_eq]

theorem isNumberChar_iff (h : SameLetter c c') : IsNumberChar c' ↔ IsNumberChar c := by
  rw [← continuesNumber_iff, ← continuesNumber_iff, h.continuesNumber_eq]

theorem isGapChar_iff (h : SameLetter c c') : IsGapChar c' ↔ IsGapChar c := by
  rw [← opening?_eq_none_iff, ← opening?_eq_none_iff, h.opening?_eq]

end SameLetter

/-! ## Texts in letters of either case -/

/-- The same text, but for the case of ASCII letters. -/
abbrev SameLetters (cs cs' : List Char) : Prop :=
  List.Forall₂ SameLetter cs cs'

namespace SameLetters

variable {cs cs' : List Char}

theorem byteLength_eq (h : SameLetters cs cs') : byteLength cs' = byteLength cs := by
  induction h with
  | nil => rfl
  | cons hc _ ih => rw [byteLength_cons, byteLength_cons, hc.utf8Size_eq, ih]

theorem upperCase_eq (h : SameLetters cs cs') : upperCase cs' = upperCase cs := by
  induction h with
  | nil => rfl
  | cons hc _ ih => rw [upperCase_cons, upperCase_cons, hc.upperChar_eq, ih]

/-- What holds of all characters of a text, in whatever case they are, holds of the other text. -/
theorem forall_mem {P : Char → Prop} (h : SameLetters cs cs')
    (hP : ∀ c c', SameLetter c c' → P c → P c') (hcs : ∀ c ∈ cs, P c) : ∀ c ∈ cs', P c := by
  induction h with
  | nil => exact hcs
  | cons hc _ ih =>
    rw [List.forall_mem_cons] at hcs ⊢
    exact ⟨hP _ _ hc hcs.1, ih hcs.2⟩

/-- The same of the first character. -/
theorem forall_head? {P : Char → Prop} (h : SameLetters cs cs')
    (hP : ∀ c c', SameLetter c c' → P c → P c') (hcs : ∀ c ∈ cs.head?, P c) :
    ∀ c ∈ cs'.head?, P c := by
  cases h with
  | nil => exact hcs
  | cons hc _ =>
    intro c hmem
    obtain rfl := Option.some.inj hmem
    exact hP _ _ hc (hcs _ rfl)

end SameLetters

/-! ## Letters outside quotes -/

/-- Is the lexeme quoted text? -/
def Lexeme.isQuotedText : Lexeme → Bool
  | quoted _ _ _ _ => true
  | _ => false

/-- The characters of a lexeme, each with whether it stands in quotes. -/
def Lexeme.marked (x : Lexeme) : List (Char × Bool) :=
  x.text.map (·, x.isQuotedText)

/-- The characters of a gap, which does not stand in quotes. -/
def markedGap (gap : List Char) : List (Char × Bool) :=
  gap.map (·, false)

/-- The characters of a piece, each with whether it stands in quotes. -/
def Piece.marked (p : Piece) : List (Char × Bool) :=
  p.lexeme.marked ++ markedGap p.gap

/-- The characters of a text that has been cut, each with whether it stands in quotes. -/
def Decomposition.marked {text : List Char} (d : Decomposition text) : List (Char × Bool) :=
  markedGap d.leading ++ d.pieces.flatMap Piece.marked

/-- The character `c'` may take the place of a marked one: it is the same, or outside quotes the
same ASCII letter in either case. -/
def Recases (m : Char × Bool) (c' : Char) : Prop :=
  c' = m.1 ∨ m.2 = false ∧ SameLetter m.1 c'

instance (m : Char × Bool) (c' : Char) : Decidable (Recases m c') :=
  inferInstanceAs (Decidable (_ ∨ _))

/-- The text `text'` is the text that has been cut, but for the case of ASCII letters outside its
quoted texts. -/
def Decomposition.Recased {text : List Char} (d : Decomposition text) (text' : List Char) : Prop :=
  List.Forall₂ Recases d.marked text'

instance {text : List Char} (d : Decomposition text) (text' : List Char) :
    Decidable (d.Recased text') :=
  inferInstanceAs (Decidable (List.Forall₂ _ _ _))

theorem Lexeme.map_fst_marked (x : Lexeme) : x.marked.map Prod.fst = x.text := by
  simp [marked, Function.comp_def]

theorem map_fst_markedGap (gap : List Char) : (markedGap gap).map Prod.fst = gap := by
  simp [markedGap, Function.comp_def]

theorem map_fst_flatMap_marked (ps : List Piece) :
    (ps.flatMap Piece.marked).map Prod.fst = ps.flatMap Piece.text := by
  rw [List.map_flatMap]
  apply List.flatMap_congr
  intro p _
  rw [Piece.marked, List.map_append, p.lexeme.map_fst_marked, map_fst_markedGap, Piece.text]

theorem sameLetters_of_recases {ms : List (Char × Bool)} {cs' : List Char}
    (h : List.Forall₂ Recases ms cs') : SameLetters (ms.map Prod.fst) cs' := by
  rw [SameLetters, List.forall₂_map_left_iff]
  apply h.imp
  intro m c' hm
  rcases hm with heq | ⟨-, hsame⟩
  · exact .inl heq
  · exact hsame

/-- Where nothing has a case or everything stands in quotes, nothing changes. -/
theorem eq_of_recases {ms : List (Char × Bool)} {cs' : List Char}
    (h : List.Forall₂ Recases ms cs') (hms : ∀ m ∈ ms, m.2 = true ∨ CaseBlind id m.1) :
    cs' = ms.map Prod.fst := by
  induction h with
  | nil => rfl
  | cons hm _ ih =>
    rw [List.forall_mem_cons] at hms
    obtain ⟨hfirst, hmore⟩ := hms
    rw [List.map_cons, ih hmore]
    congr 1
    rcases hm with heq | ⟨houtside, hsame⟩
    · exact heq
    · rcases hfirst with hinside | ⟨hupper, hlower⟩
      · rw [houtside] at hinside
        cases hinside
      · rcases hsame with heq | heq | heq
        · exact heq
        · exact heq.trans hupper
        · exact heq.trans hlower

theorem exists_append_of_forall₂ {α β : Type} {R : α → β → Prop} {xs ys : List α} {zs : List β}
    (h : List.Forall₂ R (xs ++ ys) zs) :
    ∃ us vs, zs = us ++ vs ∧ List.Forall₂ R xs us ∧ List.Forall₂ R ys vs := by
  refine ⟨zs.take xs.length, zs.drop xs.length, (List.take_append_drop _ _).symm, ?_, ?_⟩
  · have htake := List.forall₂_take xs.length h
    rwa [List.take_left] at htake
  · have hdrop := List.forall₂_drop xs.length h
    rwa [List.drop_left] at hdrop

theorem caseBlind_of_isMark {c : Char} {kind : TokenKind} (h : IsMark c kind) : CaseBlind id c := by
  cases h <;> decide

theorem caseBlind_of_isNumberChar {c : Char} (h : IsNumberChar c) : CaseBlind id c := by
  rcases h with hdigit | rfl
  · exact forall_isAscii (P := fun c => c.isDigit = true → CaseBlind id c) (by decide)
      (isAscii_of_isDigit hdigit) hdigit
  · decide

/-- What a lexeme may end before does not depend on the case of letters. -/
theorem Lexeme.EndsBefore.sameLetters {x : Lexeme} {after after' : List Char}
    (hx : x.EndsBefore after) (h : SameLetters after after') : x.EndsBefore after' := by
  cases x with
  | mark c kind hc => trivial
  | word c more hc hmore =>
    exact h.forall_head? (fun d d' hd => mt hd.isWordChar_iff.1) hx
  | number c more hc hmore =>
    exact h.forall_head? (fun d d' hd => mt hd.isNumberChar_iff.1) hx
  | quoted quote units ending hquote =>
    rcases hx with hclosed | rfl
    · exact .inl hclosed
    · exact .inr (List.forall₂_nil_left_iff.1 h)

/-- Quoted text does not change, nor does a lexeme without letters. -/
theorem Lexeme.text_eq_of_recases {x : Lexeme} {text' : List Char}
    (h : List.Forall₂ Recases x.marked text')
    (hx : ∀ c ∈ x.text, x.isQuotedText = true ∨ CaseBlind id c) : x.text = text' := by
  have hmarked : ∀ m ∈ x.marked, m.2 = true ∨ CaseBlind id m.1 := by
    rw [marked, List.forall_mem_map]
    exact hx
  rw [eq_of_recases h hmarked, x.map_fst_marked]

/-- A lexeme in letters of either case, quoted text apart, is a lexeme of the same kind that stands
for the same and may end wherever the other may. -/
theorem Lexeme.exists_recased (x : Lexeme) {text' : List Char}
    (h : List.Forall₂ Recases x.marked text') :
    ∃ x' : Lexeme, x'.text = text' ∧ x'.kind = x.kind ∧ x'.value = x.value ∧
      ∀ after, x.EndsBefore after → x'.EndsBefore after := by
  cases x with
  | mark c kind hc =>
    refine ⟨.mark c kind hc, text_eq_of_recases h fun d hd => ?_, rfl, rfl, fun _ hends => hends⟩
    obtain rfl := List.mem_singleton.1 hd
    exact .inr (caseBlind_of_isMark hc)
  | number c more hc hmore =>
    refine ⟨.number c more hc hmore, text_eq_of_recases h fun d hd => ?_, rfl, rfl,
      fun _ hends => hends⟩
    rcases List.mem_cons.1 hd with rfl | hd
    · exact .inr (caseBlind_of_isNumberChar (.inl hc))
    · exact .inr (caseBlind_of_isNumberChar (hmore d hd))
  | quoted quote units ending hquote =>
    exact ⟨.quoted quote units ending hquote, text_eq_of_recases h fun _ _ => .inl rfl, rfl, rfl,
      fun _ hends => hends⟩
  | word c more hc hmore =>
    have hsame := sameLetters_of_recases h
    rw [map_fst_marked, text] at hsame
    obtain ⟨c', more', hfirst, hrest, rfl⟩ := List.forall₂_cons_left_iff.1 hsame
    have hc' : isLetter c' = true ∨ c' = '_' := by
      have hstart : startsWord c' = true := by
        rw [hfirst.startsWord_eq]
        simpa [startsWord] using hc
      simpa [startsWord] using hstart
    have hmore' : ∀ d ∈ more', IsWordChar d :=
      SameLetters.forall_mem hrest (fun d d' hd => hd.isWordChar_iff.2) hmore
    have hupper : upperCase (c' :: more') = upperCase (c :: more) := SameLetters.upperCase_eq hsame
    refine ⟨.word c' more' hc' hmore', rfl, ?_, hupper, fun _ hends => hends⟩
    rw [kind, hupper, kind]

/-- A piece in letters of either case, quoted text apart, is a piece with the same token, in front
of all texts that are the same but for the case of letters. -/
theorem Piece.exists_recased (p : Piece) {text' : List Char}
    (h : List.Forall₂ Recases p.marked text') :
    ∃ p' : Piece, p'.text = text' ∧ p'.lexeme.kind = p.lexeme.kind ∧
      p'.lexeme.value = p.lexeme.value ∧ SameLetters p.lexeme.text p'.lexeme.text ∧
      SameLetters p.gap p'.gap ∧
      ∀ after after', SameLetters after after' →
        p.lexeme.EndsBefore (p.gap ++ after) → p'.lexeme.EndsBefore (p'.gap ++ after') := by
  obtain ⟨lexeme', gap', rfl, hlexeme, hgap⟩ := exists_append_of_forall₂ h
  obtain ⟨x', rfl, hkind, hvalue, hends⟩ := p.lexeme.exists_recased hlexeme
  have hsame : SameLetters p.lexeme.text x'.text := by
    rw [← p.lexeme.map_fst_marked]
    exact sameLetters_of_recases hlexeme
  have hsamegap : SameLetters p.gap gap' := by
    rw [← map_fst_markedGap p.gap]
    exact sameLetters_of_recases hgap
  refine ⟨⟨x', gap'⟩, rfl, hkind, hvalue, hsame, hsamegap, ?_⟩
  intro after after' hafter hp
  exact hends _ (hp.sameLetters (List.rel_append hsamegap hafter))

/-- Pieces in letters of either case, quoted texts apart, are cut in the same places, and their
tokens are the same. -/
theorem exists_recased_pieces {ps : List Piece} (h : WellCut ps) {text' : List Char}
    (hcase : List.Forall₂ Recases (ps.flatMap Piece.marked) text') :
    ∃ ps', text' = ps'.flatMap Piece.text ∧ WellCut ps' ∧
      ∀ before before', byteLength before' = byteLength before →
        tokensBehind before' ps' = tokensBehind before ps := by
  induction ps generalizing text' with
  | nil =>
    obtain rfl := List.forall₂_nil_left_iff.1 hcase
    exact ⟨[], rfl, trivial, fun _ _ _ => rfl⟩
  | cons p ps ih =>
    obtain ⟨hstart, hends, hgap, hmore⟩ := h
    rw [List.flatMap_cons] at hcase
    obtain ⟨piece', more', rfl, hpiece, hmorecase⟩ := exists_append_of_forall₂ hcase
    obtain ⟨p', rfl, hkind, hvalue, hlexeme, hsamegap, hends'⟩ := p.exists_recased hpiece
    obtain ⟨ps', rfl, hwell, htokens⟩ := ih hmore hmorecase
    have hsamemore : SameLetters (ps.flatMap Piece.text) (ps'.flatMap Piece.text) := by
      rw [← map_fst_flatMap_marked ps]
      exact sameLetters_of_recases hmorecase
    have hstart' : ∀ c ∈ p'.lexeme.text.head?, isBlank c = false :=
      hlexeme.forall_head? (fun c c' hc hblank => hc.isBlank_eq.trans hblank) hstart
    have hgap' : ∀ c ∈ p'.gap, IsGapChar c :=
      hsamegap.forall_mem (fun c c' hc => hc.isGapChar_iff.2) hgap
    refine ⟨p' :: ps', rfl, ⟨hstart', hends' _ _ hsamemore hends, hgap', hwell⟩, ?_⟩
    intro before before' hbefore
    have hbehind : byteLength (before' ++ p'.text) = byteLength (before ++ p.text) := by
      simp only [Piece.text, byteLength_append, hbefore, hlexeme.byteLength_eq,
        hsamegap.byteLength_eq]
    have htoken : p'.lexeme.token before' = p.lexeme.token before := by
      rw [Lexeme.token, Lexeme.token, hkind, hvalue, ← byteLength_eq_utf8ByteSize, hbefore,
        byteLength_eq_utf8ByteSize]
    rw [tokensBehind, tokensBehind, htoken, htokens _ _ hbehind]

/-- A text in letters of either case, quoted texts apart, has the same tokens in the same places. -/
theorem Decomposition.tokensOf_recased {text text' : List Char} (d : Decomposition text)
    (h : d.Recased text') : tokensOf text' = tokensOf text := by
  obtain ⟨leading', rest', rfl, hleading, hrest⟩ := exists_append_of_forall₂ h
  obtain ⟨ps', rfl, hwell, htokens⟩ := exists_recased_pieces d.wellCut hrest
  have hsame : SameLetters d.leading leading' := by
    rw [← map_fst_markedGap d.leading]
    exact sameLetters_of_recases hleading
  have hgap : ∀ c ∈ leading', IsGapChar c :=
    hsame.forall_mem (fun c c' hc => hc.isGapChar_iff.2) d.leading_gap
  let d' : Decomposition (leading' ++ ps'.flatMap Piece.text) := ⟨leading', ps', rfl, hgap, hwell⟩
  rw [← d'.tokens_eq, ← d.tokens_eq]
  exact htokens _ _ hsame.byteLength_eq

/-! ## Scripts -/

/-- The case of ASCII letters does not matter outside quoted text: a script in which it is changed
here and there has the same tokens in the same places.  So it has the same schema or the same
error, in JSON as well, and storing it gives the same version, but for the time that it carries. -/
theorem tokenize_recased {script script' : String} (d : Decomposition script.toList)
    (h : d.Recased script'.toList) :
    tokenize script' = tokenize script ∧
      readScript script' = readScript script ∧
      scriptToJson script' = scriptToJson script ∧
      ∀ (operations : List (String × Operation)) (value : VersionRow) (time : String),
        let a := (Archive.empty.run operations).2
        (a.importScript { value with createdAt := time } script').1 =
          (a.importScript value script).1.map fun v => { v with createdAt := time } := by
  have htokens : tokenize script' = tokenize script := d.tokensOf_recased h
  have hread : readScript script' = readScript script := by
    rw [readScript, htokens, readScript]
  refine ⟨htokens, hread, ?_, ?_⟩
  · rw [scriptToJson, hread, scriptToJson]
  · intro operations value time a
    have hsound : a.Sound := Archive.sound_run operations
    rw [Archive.importScript, Archive.importScript, hread]
    cases readScript script with
    | error e => rfl
    | ok tables => exact hsound.store_at value time

/-- A script that declares a table, with quoted text between its words. -/
def tableWithDefault : Decomposition "create table t(k int default \"Me\")".toList where
  leading := []
  pieces :=
    [⟨.word 'c' "reate".toList (by decide) (by decide), [' ']⟩,
      ⟨.word 't' "able".toList (by decide) (by decide), [' ']⟩,
      ⟨.word 't' [] (by decide) (by decide), []⟩,
      ⟨.mark '(' .leftParen .leftParen, []⟩,
      ⟨.word 'k' [] (by decide) (by decide), [' ']⟩,
      ⟨.word 'i' "nt".toList (by decide) (by decide), [' ']⟩,
      ⟨.word 'd' "efault".toList (by decide) (by decide), [' ']⟩,
      ⟨.quoted doubleQuote [.plain 'M' (by decide), .plain 'e' (by decide)] .closed rfl, []⟩,
      ⟨.mark ')' .rightParen .rightParen, []⟩]
  text_eq := by decide
  leading_gap := List.forall_mem_nil _
  wellCut := by decide +kernel

/-- The words may be in upper or lower case, next to quoted text as well, and the version that is
stored is the same but for its time. -/
theorem tokenize_recased_tableWithDefault :
    let script := "create table t(k int default \"Me\")"
    let script' := "CREATE Table T(K INT Default \"Me\")"
    let a := (Archive.empty.run [("1", .importScript script "v" none)]).2
    tableWithDefault.Recased script'.toList ∧
      tokenize script' = tokenize script ∧
      readScript script' = readScript script ∧
      (readScript script).toOption =
        some [⟨"T", [⟨"K", "INT", false, true, some "Me", false⟩], []⟩] ∧
      scriptToJson script' = scriptToJson script ∧
      (a.importScript ⟨"w", none, "3"⟩ script').1 =
        (a.importScript ⟨"w", none, "2"⟩ script).1.map (fun v => { v with createdAt := "3" }) ∧
      (a.importScript ⟨"w", none, "2"⟩ script).1.isOk = true := by
  intro script script' a
  have h : tableWithDefault.Recased script'.toList := by decide +kernel
  obtain ⟨htokens, hread, hjson, himport⟩ := tokenize_recased tableWithDefault h
  exact ⟨h, htokens, hread, by decide +kernel, hjson, himport _ ⟨"w", none, "2"⟩ "3",
    by decide +kernel⟩

end SchemaArchive
