/-!
# JSON values

The values in which schemas are exchanged.  Numbers are integers, and the members of an object
keep their order.
-/

namespace SchemaArchive

/-- A JSON value. -/
inductive Json where
  | null
  | bool (value : Bool)
  | number (value : Int)
  | string (value : String)
  | array (items : List Json)
  | object (members : List (String × Json))
  deriving Inhabited

namespace Json

/-- A text, or null when there is none. -/
def ofText? : Option String → Json
  | some s => string s
  | none => null

/-- A list of texts. -/
def ofTexts (texts : List String) : Json :=
  array (texts.map string)

/-- A natural number. -/
def ofNat (n : Nat) : Json :=
  number n

/-! ## Reading values -/

/-- The value as a text. -/
def text? : Json → Option String
  | string s => some s
  | _ => none

/-- The value as a truth value. -/
def bool? : Json → Option Bool
  | bool b => some b
  | _ => none

/-- The value as a natural number. -/
def nat? : Json → Option Nat
  | number (.ofNat n) => some n
  | _ => none

/-- The value as a text that may be missing. -/
def optionalText? : Json → Option (Option String)
  | null => some none
  | string s => some (some s)
  | _ => none

/-- The value as a list whose members are all read by `read`. -/
def list? {α : Type} (read : Json → Option α) : Json → Option (List α)
  | array items => items.mapM read
  | _ => none

/-- The value of an object's first member with this key, or null when there is none. -/
def memberOrNull (members : List (String × Json)) (key : String) : Json :=
  (members.lookup key).getD null

/-- The values of a record with these keys, in the order of the keys.  An object may have other
members too and leave out members that are null; a list has to give all the values in order. -/
def record? (keys : List String) : Json → Option (List Json)
  | object members => some (keys.map (memberOrNull members))
  | array items => if items.length = keys.length then some items else none
  | _ => none

end Json

end SchemaArchive
