import TypedClient.Json.Basic

/-! Normalised schemas. A node has a shape and notes; a shape holds one layer of the schema over
whatever its parts are. References are not followed. -/
namespace TypedClient.Schema

/-- What a schema says besides its shape. -/
structure Notes where
  /-- Where the schema was found. -/
  path : String := ""
  nullable : Bool := false
  defaultValue : Option Json := none
  title : Option String := none
  description : Option String := none
deriving Repr, Inhabited

inductive PrimitiveType where
  | string
  | integer
  | number
  | boolean
  | null
deriving DecidableEq, Repr, Inhabited

namespace PrimitiveType

def name : PrimitiveType → String
  | string => "string"
  | integer => "integer"
  | number => "number"
  | boolean => "boolean"
  | null => "null"

def ofName? : String → Option PrimitiveType
  | "string" => some string
  | "integer" => some integer
  | "number" => some number
  | "boolean" => some boolean
  | "null" => some null
  | _ => none

def isNumeric : PrimitiveType → Bool
  | integer | number => true
  | _ => false

end PrimitiveType

/-- A primitive type with its constraints, each of which is any value but null. -/
structure Primitive where
  type : PrimitiveType
  format : Option Json := none
  minLength : Option Json := none
  maxLength : Option Json := none
  pattern : Option Json := none
  minimum : Option Json := none
  maximum : Option Json := none
  exclusiveMinimum : Option Json := none
  exclusiveMaximum : Option Json := none
  multipleOf : Option Json := none
deriving Repr, Inhabited

/-- The items that a list may hold: all, none or those of a schema. -/
inductive Items (α : Type) where
  | anything
  | nothing
  | each (item : α)
deriving Repr

/-- An object with named properties, or an open record whose values have one schema. -/
structure Fields (α : Type) where
  properties : List (Key × α) := []
  required : List String := []
  explicit : Bool := false
  additional : Option α := none
deriving Repr

/-- One layer of a schema over its parts. -/
inductive Shape (α : Type) where
  | primitive (type : Primitive)
  | enum (values : List Json)
  | const (value : Json)
  | ref (pointer : Json)
  | allOf (members : List α)
  | anyOf (members : List α)
  | object (fields : Fields α)
  | array (items : Items α) (minItems maxItems : Option Json)
  | tuple (lead : List α) (rest : Items α)
  /-- Accepts every value or none. -/
  | always (accepts : Bool)
deriving Repr

structure Node where
  notes : Notes := {}
  shape : Shape Node
deriving Repr

instance : Inhabited Node := ⟨{ shape := .always true }⟩

namespace Items

def mapM [Monad m] (f : α → m β) : Items α → m (Items β)
  | .anything => pure .anything
  | .nothing => pure .nothing
  | .each item => .each <$> f item

def parts : Items α → List α
  | .each item => [item]
  | .anything | .nothing => []

def map (f : α → β) : Items α → Items β
  | .anything => .anything
  | .nothing => .nothing
  | .each item => .each (f item)

def attach : (items : Items α) → Items { part // part ∈ items.parts }
  | .anything => .anything
  | .nothing => .nothing
  | .each item => .each ⟨item, List.mem_singleton_self item⟩

end Items

namespace Shape

/-- The parts of a layer, in order. -/
def parts : Shape α → List α
  | .allOf members | .anyOf members => members
  | .object o => o.properties.map (·.2) ++ o.additional.toList
  | .array items _ _ => items.parts
  | .tuple lead rest => lead ++ rest.parts
  | .primitive _ | .enum _ | .const _ | .ref _ | .always _ => []

/-- The layer over its parts as such. -/
def attach : (shape : Shape α) → Shape { part // part ∈ shape.parts }
  | .primitive p => .primitive p
  | .enum values => .enum values
  | .const value => .const value
  | .ref pointer => .ref pointer
  | .allOf members => .allOf members.attach
  | .anyOf members => .anyOf members.attach
  | .object fields => .object
      { properties := fields.properties.attach.map fun p =>
          (p.val.1, ⟨p.val.2, List.mem_append_left _ (List.mem_map_of_mem p.property)⟩)
        required := fields.required
        explicit := fields.explicit
        additional := fields.additional.attach.map fun part =>
          ⟨part.val, List.mem_append_right _ (Option.mem_toList.mpr part.property)⟩ }
  | .array items minItems maxItems => .array items.attach minItems maxItems
  | .tuple lead rest => .tuple
      (lead.attach.map fun part => ⟨part.val, List.mem_append_left _ part.property⟩)
      (rest.attach.map fun part => ⟨part.val, List.mem_append_right _ part.property⟩)
  | .always accepts => .always accepts

/-- Replaces the parts of a layer, in order. -/
def mapM [Monad m] (f : α → m β) : Shape α → m (Shape β)
  | .primitive p => pure (.primitive p)
  | .enum values => pure (.enum values)
  | .const value => pure (.const value)
  | .ref pointer => pure (.ref pointer)
  | .allOf members => .allOf <$> members.mapM f
  | .anyOf members => .anyOf <$> members.mapM f
  | .object o => do
    let properties ← o.properties.mapM fun p => return (p.1, ← f p.2)
    let additional ← o.additional.mapM f
    return .object ⟨properties, o.required, o.explicit, additional⟩
  | .array items minItems maxItems => return .array (← items.mapM f) minItems maxItems
  | .tuple lead rest => return .tuple (← lead.mapM f) (← rest.mapM f)
  | .always accepts => pure (.always accepts)

end Shape

namespace Node

theorem sizeOf_part_lt {node part : Node} (h : part ∈ node.shape.parts) :
    sizeOf part < sizeOf node := by
  obtain ⟨notes, shape⟩ := node
  have items (i : Items Node) (h : part ∈ i.parts) : sizeOf part < sizeOf i := by
    cases i with
    | each item =>
      obtain rfl := List.mem_singleton.mp h
      simp
    | anything | nothing => cases h
  cases shape with
  | allOf members | anyOf members =>
    have : sizeOf part < sizeOf members := List.sizeOf_lt_of_mem h
    simp only [mk.sizeOf_spec, Shape.allOf.sizeOf_spec, Shape.anyOf.sizeOf_spec]
    omega
  | object o =>
    obtain ⟨properties, required, explicit, additional⟩ := o
    simp only [mk.sizeOf_spec, Shape.object.sizeOf_spec, Fields.mk.sizeOf_spec]
    rcases List.mem_append.mp h with h | h
    · obtain ⟨⟨key, node⟩, hm, rfl⟩ := List.mem_map.mp h
      have := List.sizeOf_lt_of_mem hm
      simp only [Prod.mk.sizeOf_spec] at this ⊢
      omega
    · cases Option.mem_toList.mp h
      simp only [Option.some.sizeOf_spec]
      omega
  | array i minItems maxItems =>
    have := items i h
    simp only [mk.sizeOf_spec, Shape.array.sizeOf_spec]
    omega
  | tuple lead rest =>
    simp only [mk.sizeOf_spec, Shape.tuple.sizeOf_spec]
    rcases List.mem_append.mp h with h | h
    · have := List.sizeOf_lt_of_mem h
      omega
    · have := items rest h
      omega
  | primitive | enum | const | ref | always => cases h

/-- The node itself and all that its layers hold. -/
def subnodes (node : Node) : List Node :=
  node :: node.shape.parts.attach.flatMap fun part => part.val.subnodes
termination_by sizeOf node
decreasing_by exact sizeOf_part_lt part.property

def nullable (node : Node) : Bool :=
  node.notes.nullable

def withNullable (node : Node) (nullable : Bool) : Node :=
  { node with notes := { node.notes with nullable } }

/-- The node is the null type. -/
def isNull (node : Node) : Bool :=
  match node.shape with
  | .primitive p => p.type == .null
  | _ => false

/-- The reference that an `allOf` wraps alone. -/
def singleRef? (node : Node) : Option Node :=
  match node.shape with
  | .allOf [member] =>
    match member.shape with
    | .ref _ => some member
    | _ => none
  | _ => none

end Node

end TypedClient.Schema
