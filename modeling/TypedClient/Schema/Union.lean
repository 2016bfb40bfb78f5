import TypedClient.Schema.Node

/-! Unions without null: a null member makes the union nullable. -/
namespace TypedClient.Schema

/-- The node of a union. Null members and the flags of the others become one flag: on the only
member that is left, or on the union of several. -/
def unionOf (members : List Node) : Node :=
  let remaining := members.filter (!·.isNull)
  let hadNull := remaining.length < members.length
  match remaining with
  | [] => { shape := .primitive { type := .null } }
  | [member] => member.withNullable (member.nullable || hadNull)
  | _ =>
    { notes := { nullable := hadNull || remaining.any (·.nullable) }
      shape := .anyOf (remaining.map (·.withNullable false)) }

end TypedClient.Schema
