import SchemaArchive.Text.Decimal
import SchemaArchive.Text.Visible

/-!
# Settings

Where the archive is kept, how many connections it may use, and what is logged.  Each setting
comes from a variable of the environment, or has a default when the variable is not set.  Only
the number of connections can be wrong.
-/

namespace SchemaArchive

/-- What can be set from outside. -/
structure Settings where
  /-- Where the archive is kept. -/
  databaseUrl : String := "sqlite://ddlgraph.db?mode=rwc"
  /-- How many connections may be open at once. -/
  maxConnections : Nat := 5
  /-- What is logged. -/
  logFilter : String := "ddlgraph=info"
  deriving DecidableEq, Repr

/-- A number of connections that cannot be used, and what is wrong with it. -/
structure SettingsError where
  value : String
  problem : Text.NumberError
  deriving DecidableEq, Repr

/-- What is said about a number of connections that cannot be used. -/
def SettingsError.message (e : SettingsError) : String :=
  "invalid DDLGRAPH_MAX_CONNECTIONS " ++ Text.visible e.value ++ ": " ++ e.problem.message

namespace Settings

/-- The first number of connections that is too large. -/
def connectionBound : Nat := Nat.pow 2 32

/-- The number of connections that a variable asks for. -/
def readConnections : Option String → Except SettingsError Nat
  | none => .ok ({} : Settings).maxConnections
  | some value =>
    match Text.readUnsigned connectionBound value.toList with
    | .ok n => .ok n
    | .error problem => .error ⟨value, problem⟩

/-- The settings that an environment gives. -/
def load (env : String → Option String) : Except SettingsError Settings :=
  match readConnections (env "DDLGRAPH_MAX_CONNECTIONS") with
  | .error e => .error e
  | .ok maxConnections => .ok {
      databaseUrl := (env "DDLGRAPH_DATABASE_URL").getD ({} : Settings).databaseUrl
      maxConnections
      logFilter := (env "DDLGRAPH_LOG").getD ({} : Settings).logFilter }

end Settings

end SchemaArchive
