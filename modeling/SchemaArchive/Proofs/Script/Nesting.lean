import SchemaArchive.Proofs.Script.PassingOver
import SchemaArchive.Proofs.Script.Promptness

/-!
# What a column list takes

How deep a token lies between parentheses is a matter of counting: so many were opened before it,
and so many closed.  With that alone it is said here which parenthesis closes the one that a list
of tokens begins with, and which names stand directly between the two.  A column list ends at
that parenthesis and gives those names; if there is none, nothing else can be wrong with it than
that it does not end.

* `dropGroup_cases` — passing over a group ends where as many parentheses are closed as were
  opened, or with the last token.
* `Parser.columnListEntries_cases` — so do the entries of a column list, which are the names that
  stand at no greater depth.
* `columnList_closedAt` — column lists, with the parenthesis that closes them and without one.
-/

namespace SchemaArchive

/-! ## Nesting -/

/-- How deep the nesting is behind the tokens: the parentheses that they open, less those that they
close. -/
def nesting (ts : List Token) : Int :=
  ts.countP (·.kind == .leftParen) - ts.countP (·.kind == .rightParen)

/-- The token number `j` closes the parenthesis with which the tokens begin: it is a closing
parenthesis, and the first token behind which nothing is open. -/
def ClosedAt (ts : List Token) (j : Nat) : Prop :=
  (∃ t, ts[j]? = some t ∧ t.kind = .rightParen) ∧ nesting (ts.take (j + 1)) = 0 ∧
    ∀ i < j, 0 < nesting (ts.take (i + 1))

/-- The names before the token number `j` that stand where one parenthesis is open, in order. -/
def directNames (ts : List Token) (j : Nat) : List String :=
  ((ts.take j).zipIdx.filter fun p => p.1.isName && nesting (ts.take p.2) == 1).map (·.1.value)

/-- What a token adds to the nesting. -/
def Token.turn (t : Token) : Int :=
  match t.kind with
  | .leftParen => 1
  | .rightParen => -1
  | _ => 0

theorem Token.turn_left {t : Token} (h : t.kind = .leftParen) : t.turn = 1 := by
  rw [turn, h]

theorem Token.turn_right {t : Token} (h : t.kind = .rightParen) : t.turn = -1 := by
  rw [turn, h]

theorem Token.turn_other {t : Token} (hl : t.kind ≠ .leftParen) (hr : t.kind ≠ .rightParen) :
    t.turn = 0 := by
  unfold turn
  split <;> simp_all

@[simp] theorem nesting_nil : nesting [] = 0 := rfl

theorem nesting_cons (t : Token) (ts : List Token) : nesting (t :: ts) = t.turn + nesting ts := by
  unfold nesting Token.turn
  rw [List.countP_cons, List.countP_cons]
  cases t.kind <;> simp <;> omega

theorem nesting_append (ts us : List Token) : nesting (ts ++ us) = nesting ts + nesting us := by
  unfold nesting
  rw [List.countP_append, List.countP_append]
  omega

/-! ## Tokens that leave something open -/

/-- With `depth` parentheses open before the tokens, some are open behind each of them. -/
def StaysOpen (depth : Int) (ts : List Token) : Prop :=
  ∀ pre, pre <+: ts → 0 < depth + nesting pre

@[simp] theorem staysOpen_nil {depth : Int} : StaysOpen depth [] ↔ 0 < depth := by
  simp [StaysOpen]

theorem staysOpen_cons {depth : Int} {t : Token} {ts : List Token} :
    StaysOpen depth (t :: ts) ↔ 0 < depth ∧ StaysOpen (depth + t.turn) ts := by
  constructor
  · intro h
    refine ⟨by simpa using h [] List.nil_prefix, fun pre hpre => ?_⟩
    have hcons := h (t :: pre) (List.cons_prefix_cons.2 ⟨rfl, hpre⟩)
    rwa [nesting_cons, ← Int.add_assoc] at hcons
  · rintro ⟨hpos, h⟩ pre hpre
    rcases List.prefix_cons_iff.1 hpre with rfl | ⟨us, rfl, hus⟩
    · simpa using hpos
    · rw [nesting_cons, ← Int.add_assoc]
      exact h us hus

theorem staysOpen_append {depth : Int} {ts us : List Token} :
    StaysOpen depth (ts ++ us) ↔ StaysOpen depth ts ∧ StaysOpen (depth + nesting ts) us := by
  induction ts generalizing depth with
  | nil =>
    have hpos : StaysOpen depth us → 0 < depth := fun h => by simpa using h [] List.nil_prefix
    simpa using hpos
  | cons t ts ih =>
    rw [List.cons_append, staysOpen_cons, staysOpen_cons, ih, nesting_cons, Int.add_assoc, and_assoc]

theorem StaysOpen.mono {depth deeper : Int} {ts : List Token} (h : StaysOpen depth ts)
    (hle : depth ≤ deeper) : StaysOpen deeper ts := by
  intro pre hpre
  have := h pre hpre
  omega

/-! ## Groups -/

/-- Passing over ends behind the parenthesis that closes the last open one, or it takes all tokens
because something is open behind each of them. -/
theorem dropGroup_cases (depth : Nat) (ts : List Token) :
    (∃ inside close rest, ts = inside ++ close :: rest ∧ close.kind = .rightParen ∧
      StaysOpen (depth + 1) inside ∧ depth + nesting inside = 0 ∧
      dropGroup (depth + 1) ts = rest) ∨
    StaysOpen (depth + 1) ts ∧ dropGroup (depth + 1) ts = [] := by
  induction ts generalizing depth with
  | nil => exact .inr ⟨staysOpen_nil.2 (by omega), rfl⟩
  | cons t ts ih =>
    rw [dropGroup_cons]
    by_cases hlast : t.kind = .rightParen ∧ depth = 0
    · obtain ⟨hclose, rfl⟩ := hlast
      have hbehind : depthBehind 0 t = 0 := by simp [depthBehind, hclose]
      rw [hbehind]
      exact .inl ⟨[], t, ts, rfl, hclose, by simp, by simp, dropGroup_zero ts⟩
    · -- Something is open behind `t`, and passing over goes on from there.
      obtain ⟨inner, hbehind, hinner⟩ :
          ∃ inner : Nat, depthBehind depth t = inner + 1 ∧
            (inner : Int) + 1 = depth + 1 + t.turn := by
        unfold depthBehind
        split
        · next hleft =>
          have := Token.turn_left hleft
          exact ⟨depth + 1, rfl, by omega⟩
        · next hright =>
          have := Token.turn_right hright
          have hpos : depth ≠ 0 := fun h => hlast ⟨hright, h⟩
          exact ⟨depth - 1, by omega, by omega⟩
        · next hleft hright =>
          have := Token.turn_other hleft hright
          exact ⟨depth, rfl, by omega⟩
      rw [hbehind]
      rcases ih inner with ⟨inside, close, rest, rfl, hclose, hopen, hzero, hdrop⟩ | ⟨hopen, hdrop⟩
      · refine .inl ⟨t :: inside, close, rest, rfl, hclose, ?_, ?_, hdrop⟩
        · exact staysOpen_cons.2 ⟨by omega, hinner ▸ hopen⟩
        · rw [nesting_cons]
          omega
      · exact .inr ⟨staysOpen_cons.2 ⟨by omega, hinner ▸ hopen⟩, hdrop⟩

/-! ## Names by depth -/

/-- The names among the tokens that stand at depth 0, if the first token stands at `depth`. -/
def namesFrom (depth : Int) : List Token → List String
  | [] => []
  | t :: ts =>
    (if t.isName && depth == 0 then [t.value] else []) ++ namesFrom (depth + t.turn) ts

theorem namesFrom_append (depth : Int) (ts us : List Token) :
    namesFrom depth (ts ++ us) = namesFrom depth ts ++ namesFrom (depth + nesting ts) us := by
  induction ts generalizing depth with
  | nil => simp [namesFrom]
  | cons t ts ih =>
    rw [List.cons_append, namesFrom, namesFrom, ih, nesting_cons, Int.add_assoc, List.append_assoc]

/-- Where something stays open, no token stands at depth 0. -/
theorem namesFrom_of_staysOpen {depth : Int} {ts : List Token} (h : StaysOpen depth ts) :
    namesFrom depth ts = [] := by
  induction ts generalizing depth with
  | nil => rfl
  | cons t ts ih =>
    rw [staysOpen_cons] at h
    have hne : ¬ depth = 0 := by
      have := h.1
      omega
    simp [namesFrom, hne, ih h.2]

/-- Names may also be looked for by counting from the beginning of all tokens. -/
theorem filter_zipIdx_eq_namesFrom (before inside after : List Token) :
    ((inside.zipIdx before.length).filter fun p =>
      p.1.isName && nesting ((before ++ (inside ++ after)).take p.2) == 1).map (·.1.value) =
        namesFrom (nesting before - 1) inside := by
  induction inside generalizing before with
  | nil => rfl
  | cons t inside ih =>
    have hrest := ih (before ++ [t])
    have hdepth : nesting (before ++ [t]) - 1 = nesting before - 1 + t.turn := by
      rw [nesting_append, nesting_cons, nesting_nil]
      omega
    rw [hdepth, List.length_append, List.length_singleton, List.append_assoc,
      List.singleton_append] at hrest
    have htake : (before ++ t :: (inside ++ after)).take before.length = before :=
      List.take_left
    have hlevel : (nesting before == 1) = (nesting before - 1 == 0) := by
      rw [Bool.eq_iff_iff, beq_iff_eq, beq_iff_eq]
      omega
    rw [List.cons_append, List.zipIdx_cons, List.filter_cons, namesFrom, ← hrest, htake, hlevel]
    split <;> rfl

namespace Parser

/-! ## The entries of a column list -/

/-- The entries of a column list, behind its opening parenthesis. -/
abbrev columnListEntries : Parser (List (Option String)) :=
  manyUntil (·.kind == .rightParen) columnListEntry LeavesSuffix.columnListEntry

/-- The entries are the names that stand at no greater depth, and end before the parenthesis that
closes the list; or they take all tokens, because something is open behind each of them. -/
def EntriesEnd (ts : List Token) : Prop :=
  (∃ inside close rest entries, ts = inside ++ close :: rest ∧ close.kind = .rightParen ∧
    StaysOpen 1 inside ∧ nesting inside = 0 ∧
    columnListEntries ts = .ok (entries, close :: rest) ∧
    entries.filterMap id = namesFrom 0 inside) ∨
  StaysOpen 1 ts ∧ ∃ entries, columnListEntries ts = .ok (entries, [])

/-- One more entry, in front of others. -/
theorem EntriesEnd.cons {entry : Option String} {piece mid : List Token}
    (hrun : columnListEntries (piece ++ mid) =
      (columnListEntries >>= fun entries => pure (entry :: entries)) mid)
    (hopen : StaysOpen 1 piece) (hzero : nesting piece = 0)
    (hnames : entry.toList = namesFrom 0 piece) (h : EntriesEnd mid) :
    EntriesEnd (piece ++ mid) := by
  rcases h with ⟨inside, close, rest, entries, rfl, hclose, hinside, hin, hmid, hentries⟩ |
    ⟨hmid, entries, hentries⟩
  · refine .inl ⟨piece ++ inside, close, rest, entry :: entries, by simp, hclose, ?_, ?_, ?_, ?_⟩
    · rw [staysOpen_append, hzero]
      exact ⟨hopen, hinside⟩
    · rw [nesting_append]
      omega
    · rw [hrun, run_bind hmid]
      rfl
    · rw [namesFrom_append, hzero, Int.add_zero, ← hnames, ← hentries]
      cases entry <;> rfl
  · refine .inr ⟨?_, entry :: entries, ?_⟩
    · rw [staysOpen_append, hzero]
      exact ⟨hopen, hmid⟩
    · rw [hrun, run_bind hentries]
      rfl

theorem columnListEntries_cases (ts : List Token) : EntriesEnd ts := by
  -- An entry takes a token, so the tokens behind it are fewer.
  induction hn : ts.length using Nat.strongRecOn generalizing ts with
  | ind n ih =>
    cases ts with
    | nil => exact .inr ⟨by simp, [], run_manyUntil_stop rfl⟩
    | cons t ts =>
      rw [List.length_cons] at hn
      by_cases hright : t.kind = .rightParen
      · exact .inl ⟨[], t, ts, [], rfl, hright, by simp, rfl,
          run_manyUntil_stop (by simp [hright]), rfl⟩
      have hstep : columnListEntries (t :: ts) = (columnListEntry t >>= fun entry =>
          columnListEntries >>= fun entries => pure (entry :: entries)) ts :=
        manyUntil_cons (by simpa using hright) ts
      by_cases hleft : t.kind = .leftParen
      · have hturn := Token.turn_left hleft
        have hname := Token.isName_of_kind hleft rfl
        have hentry : columnListEntry t ts = .ok (none, dropGroup 1 ts) := by
          rw [columnListEntry, if_pos (by simp [hleft])]
          rfl
        rw [run_bind hentry] at hstep
        rcases dropGroup_cases 0 ts with
          ⟨group, close, mid, rfl, hclose, hopen, hzero, hdrop⟩ | ⟨hopen, hdrop⟩
        · -- The whole group is one entry, which is no name.
          have hback := Token.turn_right hclose
          have hother := Token.isName_of_kind hclose rfl
          have hpiece : t :: (group ++ close :: mid) = (t :: (group ++ [close])) ++ mid := by simp
          rw [hdrop, hpiece] at hstep
          rw [List.length_append, List.length_cons] at hn
          rw [hpiece]
          refine .cons hstep ?_ ?_ ?_ (ih mid.length (by omega) mid rfl)
          · rw [staysOpen_cons, staysOpen_append, staysOpen_cons, staysOpen_nil]
            exact ⟨by omega, hopen.mono (by omega), by omega, by omega⟩
          · rw [nesting_cons, nesting_append, nesting_cons, nesting_nil]
            omega
          · have hgroup : namesFrom t.turn group = [] :=
              namesFrom_of_staysOpen (hopen.mono (by omega))
            simp [namesFrom, namesFrom_append, hname, hother, hgroup]
        · rw [hdrop] at hstep
          refine .inr ⟨staysOpen_cons.2 ⟨by omega, hopen.mono (by omega)⟩, [none], ?_⟩
          rw [hstep, run_bind (run_manyUntil_stop rfl)]
          rfl
      · have hturn := Token.turn_other hleft hright
        have hentry : columnListEntry t ts =
            .ok (if t.isName then some t.value else none, ts) := by
          rw [columnListEntry, if_neg (by simpa using hleft)]
          rfl
        rw [run_bind hentry] at hstep
        show EntriesEnd ([t] ++ ts)
        refine .cons hstep ?_ ?_ ?_ (ih ts.length (by omega) ts rfl)
        · rw [staysOpen_cons, staysOpen_nil]
          omega
        · rw [nesting_cons, hturn, nesting_nil]
          rfl
        · cases hname : t.isName <;> simp [namesFrom, hname]

/-! ## Column lists -/

theorem columnList_cons {t : Token} (h : t.kind = .leftParen) (ts : List Token) :
    columnList (t :: ts) = (columnListEntries >>= fun entries =>
      mark .rightParen >>= fun _ => pure (entries.filterMap id)) ts :=
  run_bind (run_mark ⟨t, h⟩ ts)

end Parser

/-- What the tokens begin with is closed where the nesting comes back to nothing. -/
theorem closedAt_of_append {t close : Token} {inside : List Token} (h : t.kind = .leftParen)
    (hclose : close.kind = .rightParen) (hopen : StaysOpen 1 inside) (hzero : nesting inside = 0)
    (rest : List Token) : ClosedAt (t :: (inside ++ close :: rest)) (inside.length + 1) := by
  have hturn := Token.turn_left h
  have hback := Token.turn_right hclose
  refine ⟨⟨close, by simp, hclose⟩, ?_, fun i hi => ?_⟩
  · have htake : (inside ++ close :: rest).take (inside.length + 1) = inside ++ [close] :=
      List.take_length_add_append 1
    rw [List.take_succ_cons, htake, nesting_cons, nesting_append, nesting_cons, nesting_nil]
    omega
  · rw [List.take_succ_cons, nesting_cons, hturn, List.take_append_of_le_length (by omega)]
    exact hopen _ (List.take_prefix _ _)

/-- A parenthesis is closed at one place only. -/
theorem ClosedAt.unique {ts : List Token} {i j : Nat} (hi : ClosedAt ts i) (hj : ClosedAt ts j) :
    i = j := by
  rcases Nat.lt_trichotomy i j with hlt | heq | hlt
  · have hpos := hj.2.2 i hlt
    have hzero := hi.2.1
    omega
  · exact heq
  · have hpos := hi.2.2 j hlt
    have hzero := hj.2.1
    omega

/-- What stays open is closed nowhere. -/
theorem not_closedAt_of_staysOpen {t : Token} {ts : List Token} (h : t.kind = .leftParen)
    (hopen : StaysOpen 1 ts) (j : Nat) : ¬ ClosedAt (t :: ts) j := by
  rintro ⟨-, hzero, -⟩
  have hturn := Token.turn_left h
  have hpos := hopen (ts.take j) (List.take_prefix _ _)
  rw [List.take_succ_cons, nesting_cons] at hzero
  omega

theorem directNames_append {t : Token} (h : t.kind = .leftParen) (inside rest : List Token) :
    directNames (t :: (inside ++ rest)) (inside.length + 1) = namesFrom 0 inside := by
  have hturn := Token.turn_left h
  have hname := Token.isName_of_kind h rfl
  have hinside := filter_zipIdx_eq_namesFrom [t] inside rest
  rw [nesting_cons, nesting_nil, hturn] at hinside
  unfold directNames
  rw [List.take_succ_cons, List.take_left, List.zipIdx_cons, List.filter_cons, hname,
    Bool.false_and, if_neg Bool.false_ne_true]
  exact hinside

/-- Behind an opening parenthesis, a column list can be read exactly if that parenthesis is closed.
Then it gives the names that stand directly between the two, in order, and leaves what comes behind
the second.  Otherwise nothing but the end is missing, whatever the tokens are. -/
theorem columnList_closedAt {t : Token} (h : t.kind = .leftParen) (ts : List Token) :
    ((∃ r, Parser.columnList (t :: ts) = .ok r) ↔ ∃ j, ClosedAt (t :: ts) j) ∧
    (∀ j, ClosedAt (t :: ts) j →
      Parser.columnList (t :: ts) = .ok (directNames (t :: ts) j, (t :: ts).drop (j + 1))) ∧
    ((¬ ∃ j, ClosedAt (t :: ts) j) →
      Parser.columnList (t :: ts) = .error (.unexpectedEnd (.mark .rightParen))) := by
  rcases Parser.columnListEntries_cases ts with
    ⟨inside, close, rest, entries, rfl, hclose, hopen, hzero, hentries, hnames⟩ |
    ⟨hopen, entries, hentries⟩
  · have hclosed := closedAt_of_append h hclose hopen hzero rest
    have hrun : Parser.columnList (t :: (inside ++ close :: rest)) =
        .ok (namesFrom 0 inside, rest) := by
      rw [Parser.columnList_cons h, Parser.run_bind hentries,
        Parser.run_bind (Parser.run_mark ⟨close, hclose⟩ rest), hnames]
      rfl
    refine ⟨⟨fun _ => ⟨_, hclosed⟩, fun _ => ⟨_, hrun⟩⟩, fun j hj => ?_,
      fun hnone => absurd ⟨_, hclosed⟩ hnone⟩
    obtain rfl := hj.unique hclosed
    rw [hrun, directNames_append h]
    simp
  · have hnone := not_closedAt_of_staysOpen h hopen
    have hrun : Parser.columnList (t :: ts) = .error (.unexpectedEnd (.mark .rightParen)) := by
      rw [Parser.columnList_cons h, Parser.run_bind hentries]
      rfl
    refine ⟨⟨?_, ?_⟩, fun j hj => absurd hj (hnone j), fun _ => hrun⟩
    · rintro ⟨r, hr⟩
      rw [hrun] at hr
      cases hr
    · rintro ⟨j, hj⟩
      exact absurd hj (hnone j)

/-- In ``(`A` (10, X), B, 5 A) T``, the first parenthesis is closed by the last one; the names of
the inner group do not count, and `A` counts twice. -/
theorem columnList_closedAt_innerGroup :
    let opening : Token := ⟨.leftParen, "(", 0⟩
    let more : List Token := [⟨.quotedString, "A", 1⟩, ⟨.leftParen, "(", 5⟩, ⟨.number, "10", 6⟩,
      ⟨.comma, ",", 8⟩, ⟨.identifier, "X", 10⟩, ⟨.rightParen, ")", 11⟩, ⟨.comma, ",", 12⟩,
      ⟨.identifier, "B", 14⟩, ⟨.comma, ",", 15⟩, ⟨.number, "5", 17⟩, ⟨.identifier, "A", 19⟩,
      ⟨.rightParen, ")", 20⟩, ⟨.identifier, "T", 22⟩]
    opening.kind = .leftParen ∧ ClosedAt (opening :: more) 12 ∧
      Parser.columnList (opening :: more) = .ok (["A", "B", "A"], [⟨.identifier, "T", 22⟩]) := by
  intro opening more
  have hclosed : ClosedAt (opening :: more) 12 := ⟨⟨_, rfl, rfl⟩, by decide, by decide⟩
  refine ⟨rfl, hclosed, ?_⟩
  rw [(columnList_closedAt rfl more).2.1 12 hclosed]
  rfl

end SchemaArchive
