import TypedClient.Yaml.Scalar

/-! The structure of a YAML text before its unquoted scalars are given values. -/
namespace TypedClient.Yaml

inductive Node where
  | plain (text : String)
  | quoted (text : String)
  | list (items : List Node)
  | map (members : List (Node × Node))

namespace Node

/-- What is not there. -/
def empty : Node := .plain ""

/-- The key that a node is. A list or a map is none. -/
def key : Node → Except Flaw Key
  | .plain text => do
    match (← scalar text).key? with
    | some key => .ok key
    | none => .error .malformed
  | .quoted text => .ok (.text text)
  | .list _ | .map _ => .error .malformed

mutual

def value : Node → Except Flaw Json
  | .plain text => scalar text
  | .quoted text => .ok (.str text)
  | .list items => do return .arr (← values items)
  | .map members => do return .obj (Members.ofList (← memberValues members))

def values : List Node → Except Flaw (List Json)
  | [] => .ok []
  | item :: rest => do
    let v ← item.value
    return v :: (← values rest)

def memberValues : List (Node × Node) → Except Flaw (List (Key × Json))
  | [] => .ok []
  | (name, item) :: rest => do
    let k ← name.key
    let v ← item.value
    return (k, v) :: (← memberValues rest)

end

end Node

end TypedClient.Yaml
