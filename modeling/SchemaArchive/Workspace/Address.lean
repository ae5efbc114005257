import SchemaArchive.Text.Percent
import SchemaArchive.Workspace.OpenError

/-!
# Addresses of archives

An address is the name of a database file, behind `sqlite:` or `sqlite://` as often as these stand
there, and parameters behind a question mark.  The name `:memory:` and the parameter `mode=memory`
mean an archive in memory, which is empty at first and gone at the end.

* `Address.ofUrl` — reads an address; of several faults the first is reported.
-/

namespace SchemaArchive

/-- What may be done with a database. -/
structure Access where
  inMemory : Bool := false
  write : Bool := true
  /-- May a file be made that is not there? -/
  create : Bool := true
  deriving DecidableEq, Repr

/-- What an address says. -/
structure Address where
  name : String := ""
  access : Access := {}
  /-- Is it promised that the file does not change?  Then nothing is written to it. -/
  immutable : Bool := false
  /-- How files are to be reached, unless in the usual way. -/
  fileSystem : Option String := none
  deriving DecidableEq, Repr

/-- Drops `start` from the front of a text as often as it stands there. -/
def dropRepeated (start : List Char) (cs : List Char) : List Char :=
  if _h : start ≠ [] ∧ start.isPrefixOf cs then dropRepeated start (cs.drop start.length) else cs
termination_by cs.length
decreasing_by
  have hs : 0 < start.length := List.length_pos_iff.2 _h.1
  have := (List.isPrefixOf_iff_prefix.1 _h.2).length_le
  simp only [List.length_drop]
  omega

/-- The two sides of the first `c` in a text; nothing is on the right if there is none. -/
def sides (c : Char) (cs : List Char) : List Char × List Char :=
  (cs.takeWhile (· != c), (cs.dropWhile (· != c)).drop 1)

/-- Names and values as they are written: with equals signs between them, and `&` between one
pair and the next. -/
def rawParameters (cs : List Char) : List (List Char × List Char) :=
  ((cs.splitOn '&').filter (!·.isEmpty)).map (sides '=')

namespace Address

/-- The address with one more parameter. -/
def withParameter (a : Address) : String × String → Except OpenError Address
  | (name, value) =>
    if name = "mode" then
      if value = "ro" then .ok { a with access.write := false, access.create := false }
      else if value = "rw" || value = "rwc" then .ok a
      else if value = "memory" then .ok { a with access.inMemory := true }
      else .error (.unknownValue name value)
    else if name = "cache" then
      if value = "private" || value = "shared" then .ok a else .error (.unknownValue name value)
    else if name = "immutable" then
      if value = "true" || value = "1" then .ok { a with immutable := true }
      else if value = "false" || value = "0" then .ok { a with immutable := false }
      else .error (.unknownValue name value)
    else if name = "vfs" then .ok { a with fileSystem := some value }
    else .error (.unknownParameter name)

/-- The address without its parameters. -/
def ofName (name : List Char) : Except OpenError Address :=
  if name = ":memory:".toList then .ok { access.inMemory := true }
  else
    match Text.percentText? name with
    | .error fault => .error (.notUtf8 fault)
    | .ok cs => .ok { name := String.ofList cs }

/-- The parameters of an address. -/
def parameters (cs : List Char) : List (String × String) :=
  (rawParameters cs).map fun (name, value) =>
    (String.ofList (Text.formText name), String.ofList (Text.formText value))

/-- Reads an address. -/
def ofUrl (url : String) : Except OpenError Address :=
  let (name, rest) :=
    sides '?' (dropRepeated "sqlite:".toList (dropRepeated "sqlite://".toList url.toList))
  match ofName name with
  | .error e => .error e
  | .ok a => (parameters rest).foldlM withParameter a

end Address

end SchemaArchive
