import SchemaArchive.Json.Printer
import SchemaArchive.Schema.Exchange
import SchemaArchive.Script.Statement

/-!
# From a script to JSON

`scriptToJson` goes from the text of a script to its schema in JSON, in one line, without keeping
anything.
-/

namespace SchemaArchive

/-- The schema of a script in JSON, or what is wrong with the script. -/
def scriptToJson (script : String) : Except String String :=
  match readScript script with
  | .ok tables => .ok (String.ofList (Table.listToJson tables).compact)
  | .error e => .error e.message

end SchemaArchive
