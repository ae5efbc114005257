import SchemaArchive.Script.Parser

/-!
# Column lists

`Parser.columnList` reads the columns of a constraint: the names that stand directly between the
parentheses.  Whatever else stands there, prefix lengths such as `(10)` for instance, is passed
over.

* `dropGroup_suffix` — passing over a group in parentheses never goes back.
* `Consumes.columnList` — a column list takes at least one token.
-/

namespace SchemaArchive

/-! ## Groups in parentheses -/

/-- Drops tokens until `depth` open parentheses are closed, or all of them if that never
happens. -/
def dropGroup : (depth : Nat) → List Token → List Token
  | 0, ts => ts
  | _ + 1, [] => []
  | depth + 1, t :: ts =>
    match t.kind with
    | .leftParen => dropGroup (depth + 2) ts
    | .rightParen => dropGroup depth ts
    | _ => dropGroup (depth + 1) ts

theorem dropGroup_suffix (depth : Nat) (ts : List Token) : dropGroup depth ts <:+ ts := by
  fun_induction dropGroup depth ts with
  | case1 => exact List.suffix_rfl
  | case2 => exact List.suffix_rfl
  | case3 depth t ts _ ih => exact ih.trans (List.suffix_cons t ts)
  | case4 depth t ts _ ih => exact ih.trans (List.suffix_cons t ts)
  | case5 depth t ts _ _ ih => exact ih.trans (List.suffix_cons t ts)

namespace Parser

/-- What one token of a column list adds to the list: a name adds itself, and a group in
parentheses is passed over as a whole. -/
def columnListEntry (t : Token) : Parser (Option String) := do
  if t.kind == .leftParen then
    passOver (dropGroup 1)
    return none
  else return if t.isName then some t.value else none

theorem LeavesSuffix.columnListEntry (t : Token) : (columnListEntry t).LeavesSuffix := by
  unfold Parser.columnListEntry
  split
  · exact (LeavesSuffix.passOver (dropGroup_suffix 1)).bind fun _ => LeavesSuffix.pure _
  · exact LeavesSuffix.pure _

/-- The names directly between a pair of parentheses. -/
def columnList : Parser (List String) := do
  mark .leftParen
  let entries ← manyUntil (·.kind == .rightParen) columnListEntry LeavesSuffix.columnListEntry
  mark .rightParen
  return entries.filterMap id

theorem Consumes.columnList : Parser.columnList.Consumes :=
  (Consumes.mark _).bind fun _ => (LeavesSuffix.manyUntil _).bind fun _ =>
    (Consumes.mark _).leavesSuffix.bind fun _ => LeavesSuffix.pure _

end Parser

end SchemaArchive
