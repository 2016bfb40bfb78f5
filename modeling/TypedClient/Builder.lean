import TypedClient.Pointer
import TypedClient.Schema.Merge
import TypedClient.Schema.Normal
import TypedClient.Session

/-! Declarations of schemas. References are followed as they are met: the target's name is
reserved before its body is built, so that a cycle ends at the reserved name. -/
namespace TypedClient.Builder

open Schema

/-- What stays the same while one schema is added. -/
structure Env where
  /-- Where references lead; null if they lead nowhere. -/
  document : Json
  brandIds : Bool
  /-- Bounds the depth of nested expressions. -/
  fuel : Nat

mutual

/-- The number of references in a value. -/
def refCount : Json → Nat
  | .arr items => refCountItems items
  | .obj members => refCountMembers members
  | _ => 0

def refCountItems : List Json → Nat
  | [] => 0
  | v :: rest => refCount v + refCountItems rest

def refCountMembers : List (Key × Json) → Nat
  | [] => 0
  | (k, v) :: rest => (if k.same "$ref" then 1 else 0) + refCount v + refCountMembers rest

end

/-- A depth that merging the members of a fragment does not exceed: along one path each reference
is followed once, and in between the path goes down one value. -/
def depthBound (fragment document : Json) : Nat :=
  let refs := refCount fragment + refCount document + 2
  let size := fragment.size + document.size + 2
  4 * refs * refs * size

/-- A depth that the expression of a node does not exceed unless `allOf` members of the document
lead back to themselves: along one path each reference is filled once, for every one that is filled
each reference is merged in once, and in between the path goes down one node. -/
def exprBound (node : Node) (document : Json) : Nat :=
  let n := node.subnodes.length + document.size + 2
  n * n * n

/-- The type expression of a node in the scope of a name, or none if it leads nowhere. -/
abbrev Typer := Node → String → Build (Option TypeExpr)

/-- The node that a reference leads to. -/
def lookup (document pointer : Json) : Except Fault (Option Node) := do
  match ← Pointer.resolve pointer document with
  | none => return none
  | some target => return some (← normalize target.fragment target.pointer)

/-- The checks of a primitive type, in their fixed order. -/
def checksOf (p : Primitive) : List Check :=
  let check (kind : CheckKind) (value : Option Json) : List Check :=
    match value with
    | some value => [{ kind, value }]
    | none => []
  if p.type = .string then
    (if p.format.any (·.isText "uuid") then [{ kind := .uuid }] else []) ++
      check .minLength p.minLength ++ check .maxLength p.maxLength ++ check .pattern p.pattern
  else if p.type.isNumeric then
    check .greaterThan p.exclusiveMinimum ++ check .atLeast p.minimum ++
      check .lessThan p.exclusiveMaximum ++ check .atMost p.maximum ++
      check .multipleOf p.multipleOf
  else []

def primitiveExpr (p : Primitive) : TypeExpr :=
  if p.type = .string ∧ p.format.any (·.isText "binary") then .ofKind .binary
  else { head := { kind := .primitive, name := p.type.name, checks := checksOf p } }

/-- Refers to the brand of an identifier-shaped property in place of its text or integer type. -/
def brandExpr (env : Env) (key : String) (node : Node) (type : TypeExpr) (owner : String) :
    Build TypeExpr := do
  match node.shape with
  | .primitive p =>
    if !env.brandIds || !(p.type = .string ∨ p.type = .integer) || type.kind != .primitive then
      return type
    match BrandRegistry.brandFor? key owner with
    | none => return type
    | some brand =>
      let store ← Build.store
      if (store.find? brand).any (·.kind != .brand) then
        Build.debug s!"Not branding {owner}.{key}: {brand} is already declared"
        return type
      let (claimed, brands) := store.brands.claim brand
      if claimed then
        let checks : List Check :=
          if p.format.any (·.isText "uuid") then [{ kind := .uuid }] else []
        let base : TypeExpr := { head := { kind := .primitive, name := p.type.name, checks } }
        Build.modifyStore fun store =>
          { store with brands }.register { name := brand, kind := .brand, type := some base }
      return .ref brand type.nullable
  | _ => return type

/-- Only text names a property. -/
def keyText : Key → Build String
  | .text s => pure s
  | _ => throw .notText

/-- The fields of an object, without the properties that lead nowhere. -/
def fieldsOf (env : Env) (expr : Typer) (object : Fields Node) (owner : String) :
    Build (List Field) := do
  let fields ← object.properties.mapM fun (key, node) => do
    let key ← keyText key
    match ← expr node (owner ++ Name.identifier key) with
    | none =>
      let quoted := Json.showText key
      Build.warn s!"Dropping property {quoted} of {owner}: unresolvable reference"
      return none
    | some type =>
      let type ← brandExpr env key node type owner
      let (wrapper, defaultValue) :=
        Wrapper.choose (object.required.contains key) type.nullable node.notes.defaultValue
      return some
        { name := key, type, wrapper, defaultValue
          description := node.notes.description.bind Text.nonBlank? }
  return fields.filterMap id

/-- The node that a declaration is built from: an `allOf` is merged unless it wraps one reference
alone. -/
def merged (env : Env) (node : Node) : Except Fault Node :=
  if node.isAllOf && node.singleRef?.isNone then
    flattenAllOf (lookup env.document) env.fuel node
  else .ok node

/-- Builds the body of a reserved declaration from a merged node. -/
def fillFrom (env : Env) (expr : Typer) (name : String) (node : Node) (preferStruct : Bool) :
    Build Unit := do
  let description := node.notes.description.bind Text.nonBlank?
  Build.modifyStore (·.update name fun d => { d with description })
  match node.shape, node.nullable with
  | .object { properties, required, explicit := true, additional }, false =>
    let kind := if preferStruct then .struct else .classStruct
    Build.modifyStore (·.update name fun d => { d with kind })
    let fields ← fieldsOf env expr { properties, required, explicit := true, additional } name
    Build.modifyStore (·.update name fun d => { d with type := some (.struct fields) })
  | _, _ =>
    Build.modifyStore (·.update name fun d => { d with kind := .schema })
    let type ← match ← expr node name with
      | some type => pure type
      | none => do
        Build.warn s!"Unresolvable schema for {name}, declaring it as any JSON value"
        pure .json
    Build.modifyStore (·.update name fun d => { d with type := some type })

/-- Builds the body of a reserved declaration. -/
def fill (env : Env) (expr : Typer) (name : String) (node : Node) (preferStruct : Bool) :
    Build Unit := do
  Build.noteFill name
  fillFrom env expr name (← Build.lift (merged env node)) preferStruct

/-- The declaration that a reference has been given. -/
def known? (store : Store) : Key → Option String
  | .text pointer => store.refNames.lookup pointer
  | _ => none

/-- Declares the target of a reference: its name is reserved and known before its body is built. -/
def declareTarget (env : Env) (expr : Typer) (target : Pointer.Target) : Build String := do
  let name := (← Build.store).uniqueName target.name
  Build.modifyStore fun store =>
    { store.reserve name with refNames := store.refNames ++ [(target.pointer, name)] }
  Build.debug s!"Registering {name} for {target.pointer}"
  let node ← Build.lift (normalize target.fragment target.pointer)
  fill env expr name node false
  return name

/-- The declaration of a reference, built when the reference is met first. -/
def refName (env : Env) (expr : Typer) (pointer : Json) : Build (Option String) := do
  let key ← Build.lift pointer.toKey
  match known? (← Build.store) key with
  | some name => return some name
  | none =>
    match ← Build.lift (Pointer.resolve pointer env.document) with
    | none => return none
    | some target => return some (← declareTarget env expr target)

/-- A bound on the number of items that makes a list non-empty. -/
def atLeastOne (bound : Json) : Except Fault Bool :=
  match bound.key?.bind Key.quantity? with
  | some n => .ok (Quantity.le (.ofInt 1) n)
  | none => .error .incomparable

def itemsExpr (expr : Typer) (scope : String) : Items Node → Build (Option TypeExpr)
  | .anything => pure (some .json)
  | .nothing => pure (some (.ofKind .never))
  | .each item => expr item scope

/-- Alternatives that have an expression; one alone is no union. -/
def unionExpr (expr : Typer) (scope : String) (members : List Node) : Build (Option TypeExpr) := do
  match (← members.mapM (expr · scope)).filterMap id with
  | [] => return none
  | [only] => return some only
  | args => return some { head := { kind := .union }, args }

/-- A record of values of one kind. -/
def recordExpr (expr : Typer) (scope : String) (additional : Option Node) :
    Build (Option TypeExpr) := do
  let value ← match additional with
    | some item => expr item scope
    | none => pure none
  return some { head := { kind := .record }, args := [value.getD .json] }

/-- A list of one item each, which the bounds may rule to be non-empty. -/
def listExpr (item : TypeExpr) (minItems maxItems : Option Json) : Build (Option TypeExpr) := do
  let nonEmpty ← match minItems with
    | some bound => Build.lift (atLeastOne bound)
    | none => pure false
  let checks : List Check := match maxItems with
    | some value => [{ kind := .maxLength, value }]
    | none => []
  return some { head := { kind := .array, checks, nonEmpty }, args := [item] }

def tupleExpr (expr : Typer) (scope : String) (lead : List Node) (rest : Items Node) :
    Build (Option TypeExpr) := do
  let args ← lead.mapM fun item => return (← expr item scope).getD .json
  let rest ← match rest with
    | .nothing => pure none
    | rest => do pure (some ((← itemsExpr expr scope rest).getD .json))
  return some { head := { kind := .tuple }, args, rest }

/-- The expression of a shape, with a typer for its parts. -/
def shapeExpr (env : Env) (expr : Typer) (node : Node) (scope : String) :
    Build (Option TypeExpr) := do
  match node.shape with
  | .always accepts => return some (.ofKind (if accepts then .json else .never))
  | .ref pointer => return (← refName env expr pointer).map (TypeExpr.ref ·)
  | .primitive p => return some (primitiveExpr p)
  | .enum values => return some { head := { kind := .literals, values } }
  | .const value => return some { head := { kind := .literal, values := [value] } }
  | .allOf _ =>
    match node.singleRef? with
    | some member => expr member scope
    | none => expr (← Build.lift (flattenAllOf (lookup env.document) env.fuel node)) scope
  | .anyOf members => unionExpr expr scope members
  | .object fields =>
    if fields.explicit then return some (.struct (← fieldsOf env expr fields scope))
    else recordExpr expr scope fields.additional
  | .array items minItems maxItems =>
    match ← itemsExpr expr scope items with
    | none => return none
    | some item => listExpr item minItems maxItems
  | .tuple lead rest => tupleExpr expr scope lead rest

/-- The expression of a node: that of its shape, or null. -/
def expr (env : Env) : Nat → Typer
  | 0, _, _ => throw .tooDeep
  | fuel + 1, node, scope => do
    let type ← shapeExpr env (expr env fuel) node scope
    return if node.nullable then type.map TypeExpr.orNull else type

/-- The reference that a node is or wraps alone. -/
def asRef? (node : Node) : Option Json :=
  match (node.singleRef?.getD node).shape with
  | .ref pointer => some pointer
  | _ => none

/-- Registers a node under a name and gives the name to refer to it by. A reference that cannot be
null stands for its target. -/
def add (env : Env) (name : String) (node : Node) (preferStruct : Bool) : Build String := do
  let typer := expr env env.fuel
  match asRef? node, node.nullable with
  | some pointer, false =>
    match ← refName env typer pointer with
    | some target => return target
    | none =>
      let shown := pointer.display
      Build.warn s!"Unresolvable reference {shown} for {name}, declaring it as any JSON value"
      let declared := (← Build.store).uniqueName name
      Build.modifyStore (·.reserve declared)
      return declared
  | _, _ =>
    let declared := (← Build.store).uniqueName name
    Build.modifyStore (·.reserve declared)
    fill env typer declared node preferStruct
    return declared

/-- Adds a schema whose references lead into a document. -/
def addSchema (brandIds : Bool) (name : String) (fragment document : Json)
    (preferStruct : Bool := false) : Build String := do
  let node ← Build.lift (normalize fragment ("#/" ++ name))
  add ⟨document, brandIds, exprBound node document⟩ name node preferStruct

end TypedClient.Builder
