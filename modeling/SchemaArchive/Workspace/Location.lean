import SchemaArchive.Workspace.Address

/-!
# Where an archive is

An address leads to a file or into memory.  The name of the file is taken as it is, unless it
begins with `file:`: then it is a URI, with percent signs and parameters of its own, and what
stands behind a `#` means nothing.  A URI can ask for less than its address allows, not for more.

* `Location.ofUrl` — the location that an address leads to.
-/

namespace SchemaArchive

/-- Where an archive is, and what may be done there. -/
inductive Location where
  /-- In memory, empty at first and gone at the end. -/
  | memory (write : Bool)
  | file (name : String) (write create : Bool)
  deriving DecidableEq, Repr

/-- The ways to reach files. -/
inductive FileSystem where
  | disk
  | memory
  deriving DecidableEq, Repr

/-- The way to reach files that has this name. -/
def FileSystem.ofName (name : String) : Except OpenError FileSystem :=
  if ["unix", "unix-none", "unix-dotfile", "unix-excl"].contains name then .ok disk
  else if name = "memdb" then .ok memory
  else .error (.unknownFileSystem name)

/-- The text up to the first NUL, if there is one. -/
def beforeNul (s : String) : String :=
  String.ofList (s.toList.takeWhile (· != '\x00'))

namespace Access

/-- How much is allowed, as a number: more than one number allows, the next one does too. -/
def rank (a : Access) : Nat :=
  if !a.write then 1 else if !a.create then 2 else 3

/-- The access that a URI asks for by this word, if the address allows it.  In memory everything
is allowed. -/
def restrict (a : Access) (value : String) : Except OpenError Access :=
  let ask (asked : Access) : Except OpenError Access :=
    if a.inMemory || asked.rank ≤ a.rank then .ok asked else .error (.forbiddenMode value)
  if value = "memory" then .ok { inMemory := true, create := false }
  else if value = "ro" then ask { write := false, create := false }
  else if value = "rw" then ask { create := false }
  else if value = "rwc" then ask {}
  else .error (.unknownMode "access" value)

end Access

/-! ## Names of files that are URIs -/

/-- The word that a URI begins with. -/
def uriStart : List Char := "file:".toList

/-- The text that a part of a URI spells. -/
def uriText (cs : List Char) : String :=
  String.ofList (Text.Utf8.decodeLossy ((Text.percentBytes cs).takeWhile (· != 0)))

/-- A URI without the machine that it names.  It may name none but this one. -/
def dropAuthority : List Char → Except OpenError (List Char)
  | '/' :: '/' :: cs =>
    let authority := cs.takeWhile (· != '/')
    if authority.isEmpty || authority = "localhost".toList then .ok (cs.dropWhile (· != '/'))
    else .error (.foreignAuthority (String.ofList authority))
  | cs => .ok cs

/-- Does a value say yes? -/
def saysYes (value : String) : Bool :=
  match value.toList.takeWhile Char.isDigit with
  | [] => ["on", "yes", "true"].contains (value.map Char.toLower)
  | digits => digits.any (· != '0')

/-- The address with one more parameter of its URI. -/
def Address.withUriParameter (a : Address) : String × String → Except OpenError Address
  | (name, value) =>
    if name = "vfs" then .ok { a with fileSystem := some value }
    else if name = "mode" then (a.access.restrict value).map fun access => { a with access }
    else if name = "cache" then
      if value = "private" || value = "shared" then .ok a else .error (.unknownMode "cache" value)
    else .ok a

/-- The address with the name that its URI has, behind `file:`, and with what the URI asks for. -/
def Address.withUri (a : Address) (uri : List Char) : Except OpenError Address :=
  match dropAuthority uri with
  | .error e => .error e
  | .ok cs =>
    let (name, rest) := sides '?' (cs.takeWhile (· != '#'))
    let parameters := ((rawParameters rest).map fun (name, value) =>
      (uriText name, uriText value)).filter (!·.1.isEmpty)
    let immutable := (parameters.lookup "immutable").any saysYes
    parameters.foldlM Address.withUriParameter { a with name := uriText name, immutable }

/-! ## Locations -/

namespace Address

/-- The location of an address whose name is no URI.  Without a name, and under the name
`:memory:`, it is in memory. -/
def plainLocation (a : Address) (system : FileSystem) : Location :=
  if a.access.inMemory || a.name.isEmpty || a.name = ":memory:" || system = .memory then
    .memory a.access.write
  else .file a.name (a.access.write && !a.immutable) a.access.create

/-- The location of an address whose name is no URI, if the files are reached in a known way. -/
def checkedLocation (a : Address) : Except OpenError Location :=
  match a.fileSystem with
  | none => .ok (a.plainLocation .disk)
  | some name => (FileSystem.ofName name).map a.plainLocation

/-- The location of an address.  A promise that the file does not change, or an unusual way to
reach it, means that the name is taken as it is. -/
def location (a : Address) : Except OpenError Location :=
  if a.immutable || a.fileSystem.isSome then { a with name := beforeNul a.name }.checkedLocation
  else if a.name.contains '\x00' then .error .nulInName
  else if uriStart.isPrefixOf a.name.toList then
    a.withUri (a.name.toList.drop uriStart.length) >>= checkedLocation
  else a.checkedLocation

end Address

/-- The location that an address leads to. -/
def Location.ofUrl (url : String) : Except OpenError Location :=
  Address.ofUrl url >>= Address.location

/-- The file at a location. -/
def Location.file? : Location → Option String
  | memory _ => none
  | file name _ _ => some name

end SchemaArchive
