import TypedClient.Schema.Node

/-! Merging of `allOf`. The members are followed through references and nested `allOf` down to
concrete nodes, which are laid over each other from left to right; what a later member defines
wins. -/
namespace TypedClient.Schema

/-- Lays notes over others: what the upper ones define wins. The place stays. -/
def Notes.overlay (lower upper : Notes) : Notes :=
  { path := lower.path
    nullable := upper.nullable || lower.nullable
    defaultValue := upper.defaultValue <|> lower.defaultValue
    title := upper.title <|> lower.title
    description := upper.description <|> lower.description }

/-- Sets the notes that others define on a node. -/
def Node.annotatedBy (node : Node) (notes : Notes) : Node :=
  { node with notes := node.notes.overlay notes }

/-- Fills the notes that a node lacks from others. -/
def Node.above (node : Node) (notes : Notes) : Node :=
  { node with notes := { notes.overlay node.notes with path := node.notes.path } }

/-- Sets a property: in its place if there is one of that name, else at the end. -/
def setProperty (properties : List (Key × Node)) (p : Key × Node) : List (Key × Node) :=
  if properties.any (·.1.same p.1) then
    properties.map fun q => if q.1.same p.1 then (q.1, p.2) else q
  else properties ++ [p]

/-- The members of a list without repetitions, each at its first place. -/
def distinct [BEq α] (items : List α) : List α :=
  items.foldl (fun acc x => if acc.contains x then acc else acc ++ [x]) []

theorem mem_distinct [BEq α] [LawfulBEq α] {items : List α} {x : α} :
    x ∈ distinct items ↔ x ∈ items := by
  have steps : ∀ acc, x ∈ items.foldl (fun acc x => if acc.contains x then acc else acc ++ [x]) acc ↔
      x ∈ acc ∨ x ∈ items := by
    induction items with
    | nil => simp
    | cons y rest ih =>
      intro acc
      rw [List.foldl_cons, ih]
      split
      · next seen =>
        have := List.contains_iff_mem.mp seen
        grind
      · simp [or_assoc]
  simpa [distinct] using steps []

def Fields.overlay (lower upper : Fields Node) : Fields Node :=
  { properties := upper.properties.foldl setProperty lower.properties
    required := distinct (lower.required ++ upper.required)
    explicit := lower.explicit || upper.explicit
    additional := upper.additional <|> lower.additional }

def Primitive.overlay (lower upper : Primitive) : Primitive :=
  { type := upper.type
    format := upper.format <|> lower.format
    minLength := upper.minLength <|> lower.minLength
    maxLength := upper.maxLength <|> lower.maxLength
    pattern := upper.pattern <|> lower.pattern
    minimum := upper.minimum <|> lower.minimum
    maximum := upper.maximum <|> lower.maximum
    exclusiveMinimum := upper.exclusiveMinimum <|> lower.exclusiveMinimum
    exclusiveMaximum := upper.exclusiveMaximum <|> lower.exclusiveMaximum
    multipleOf := upper.multipleOf <|> lower.multipleOf }

def Items.overlay : Items α → Items α → Items α
  | lower, .anything => lower
  | _, upper => upper

/-- Lays a concrete shape over one of the same kind, part by part; different kinds give none. -/
def Shape.overlay? : Shape Node → Shape Node → Option (Shape Node)
  | .object lower, .object upper => some (.object (lower.overlay upper))
  | .primitive lower, .primitive upper => some (.primitive (lower.overlay upper))
  | .enum lower, .enum upper => some (.enum (if upper.isEmpty then lower else upper))
  | .const lower, .const upper => some (.const (upper.nonNull?.getD lower))
  | .anyOf lower, .anyOf upper => some (.anyOf (if upper.isEmpty then lower else upper))
  | .array lower a b, .array upper c d => some (.array (lower.overlay upper) (c <|> a) (d <|> b))
  | .tuple lower r, .tuple upper s =>
    some (.tuple (if upper.isEmpty then lower else upper) (r.overlay s))
  | .always lower, .always upper => some (.always (lower && upper))
  | _, _ => none

def Node.isUnconstrained (node : Node) : Bool :=
  match node.shape with
  | .always accepts => accepts
  | _ => false

def Node.isAllOf (node : Node) : Bool :=
  match node.shape with
  | .allOf _ => true
  | _ => false

def Node.isObject (node : Node) : Bool :=
  match node.shape with
  | .object _ => true
  | _ => false

/-- Lays a later member over what the earlier ones gave. A member that accepts everything adds its
notes only. Of two different kinds an object stays, else the later one wins. -/
def Node.overlay (acc member : Node) : Node :=
  if member.isUnconstrained then acc.annotatedBy member.notes
  else if acc.isUnconstrained then member.above acc.notes
  else match acc.shape.overlay? member.shape with
    | some shape => { acc.annotatedBy member.notes with shape }
    | none => if acc.isObject then acc.annotatedBy member.notes else member.above acc.notes

/-- Lays what a member leads to over what the earlier ones gave. -/
def mergeMember (flatten : Node → Except Fault (Option Node)) (acc : Option Node) (member : Node) :
    Except Fault (Option Node) := do
  match acc, ← flatten member with
  | acc, none => return acc
  | none, some node => return some node
  | some acc, some node => return some (acc.overlay node)

/-- Folds the members that lead to a node. -/
def mergeWith (flatten : Node → Except Fault (Option Node)) (members : List Node) :
    Except Fault Node := do
  return (← members.foldlM (mergeMember flatten) none).getD { shape := .always true }

/-- Follows references and nested `allOf` down to a concrete node. A reference that does not
resolve, or stands on its own chain, leads nowhere. The fuel bounds the depth. -/
def flatten (lookup : Json → Except Fault (Option Node)) :
    Nat → List Key → Node → Except Fault (Option Node)
  | 0, _, _ => .error .tooDeep
  | fuel + 1, seen, node =>
    match node.shape with
    | .ref pointer => do
      let key ← pointer.toKey
      if seen.any (·.same key) then return none
      match ← lookup pointer with
      | none => return none
      | some target => flatten lookup fuel (key :: seen) target
    | .allOf members => do
      let inner ← mergeWith (flatten lookup fuel seen) members
      return some (inner.annotatedBy node.notes)
    | _ => .ok (some node)

/-- The one node of several `allOf` members. -/
def mergeAllOf (lookup : Json → Except Fault (Option Node)) (fuel : Nat) (members : List Node) :
    Except Fault Node :=
  mergeWith (flatten lookup fuel []) members

/-- Merges the members of an `allOf` under the node's own notes; other nodes have none. -/
def flattenAllOf (lookup : Json → Except Fault (Option Node)) (fuel : Nat) (node : Node) :
    Except Fault Node :=
  match node.shape with
  | .allOf members => do
    let merged ← mergeAllOf lookup fuel members
    return merged.annotatedBy node.notes
  | _ => .error .noMembers

end TypedClient.Schema
