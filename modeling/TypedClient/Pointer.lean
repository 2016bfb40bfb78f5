import TypedClient.Json.Basic
import TypedClient.Name
import TypedClient.Text.Digit
import TypedClient.Text.Percent
import TypedClient.Text.Search

/-! References into the same document: `#/` and segments separated by slashes, with percent
escapes, `~1` for a slash and `~0` for a tilde. -/
namespace TypedClient.Pointer

/-- What a reference leads to. -/
structure Target where
  pointer : String
  fragment : Json
  /-- The name of a declaration for the target, after the last segment. -/
  name : String

/-- The text of a reference to the same document, and the part that holds its segments. -/
def local? : Json → Option (String × List Char)
  | .str text =>
    match text.toList with
    | '#' :: '/' :: rest => some (text, rest)
    | _ => none
  | _ => none

/-- Undoes the escapes of one segment. -/
def unescape (segment : List Char) : List Char :=
  Text.replacePair '~' '0' ['~'] (Text.replacePair '~' '1' ['/'] (Text.percentDecode segment))

def segments (rest : List Char) : List String :=
  (Text.splitAt '/' rest).map fun segment => String.ofList (unescape segment)

/-- One step into a value: a member of an object or, by a numeral, an item of a list. -/
def step (value : Json) (segment : String) : Except Fault (Option Json) :=
  match value with
  | .obj members => .ok (Members.get? members segment)
  | .arr items =>
    if segment ≠ "" ∧ segment.toList.all Text.isDigit then
      if Text.digitLimit < segment.length then .error (.numeral segment.length)
      else match Text.numeral? segment.toList with
        | some n => .ok items[n]?
        | none => .error .notDecimal
    else .ok none
  | _ => .ok none

/-- Steps along all segments. -/
def walk (value : Json) : List String → Except Fault (Option Json)
  | [] => .ok (some value)
  | segment :: rest => do
    match ← step value segment with
    | some next => walk next rest
    | none => return none

def targetName (segments : List String) : String :=
  Name.identifier (segments.getLast?.getD "")

/-- Follows a reference in a document. Only an object or a truth value is a schema. -/
def resolve (pointer document : Json) : Except Fault (Option Target) :=
  match local? pointer with
  | none => .ok none
  | some (text, rest) => do
    let path := segments rest
    match ← walk document path with
    | some (.obj ms) => return some ⟨text, .obj ms, targetName path⟩
    | some (.bool b) => return some ⟨text, .bool b, targetName path⟩
    | _ => return none

end TypedClient.Pointer
