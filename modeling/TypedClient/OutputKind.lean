import TypedClient.Json.Display
import TypedClient.Text.Case

/-! What declarations are written as. -/
namespace TypedClient

inductive OutputKind where
  /-- Schemas that validate at run time. -/
  | schema
  /-- Plain types. -/
  | type
deriving DecidableEq, Repr, Inhabited

namespace OutputKind

def name : OutputKind → String
  | schema => "Schema"
  | type => "Type"

/-- The kind of a name in any case. -/
def parse (value : Json) : Except Fault OutputKind :=
  match Text.lowerText value.display with
  | "schema" => .ok schema
  | "type" => .ok type
  | _ => .error (.unknownOutputKind value.shown)

end OutputKind

end TypedClient
