import TypedClient.Declaration
import TypedClient.Json.Printer
import TypedClient.Render.Layout

/-! Declarations as runtime schemas. A type expression becomes the tree of a schema expression, in
which every name of a declaration is a leaf of its own; text is made of trees only. -/
namespace TypedClient.Render

/-- Expressions that build a schema. -/
inductive SchemaCode where
  /-- A fixed word of the schema library. -/
  | word (text : String)
  /-- A declaration that is used at once. -/
  | reference (name : String)
  /-- A declaration that is used when the schema is. -/
  | suspended (name : String)
  | literal (value : Json)
  | call (function : String) (args : List SchemaCode)
  | list (items : List SchemaCode)
  | object (members : List (String × SchemaCode))
  /-- A function without parameters. -/
  | thunk (body : SchemaCode)
  | pipe (receiver : SchemaCode) (steps : List SchemaCode)
deriving Repr

namespace SchemaCode

mutual

/-- The text of an expression, if all its literals have one. -/
def text : SchemaCode → Except Fault String
  | .word s => return s
  | .reference name => return name
  | .suspended name => return "Schema.suspend(() => " ++ name ++ ")"
  | .literal value => value.literalText
  | .call function args => return function ++ "(" ++ ", ".intercalate (← texts args) ++ ")"
  | .list items => return "[" ++ ", ".intercalate (← texts items) ++ "]"
  | .object [] => return "\x7b\x7d"
  | .object members => return "\x7b " ++ ", ".intercalate (← memberTexts members) ++ " \x7d"
  | .thunk body => return "() => " ++ (← body.text)
  | .pipe receiver steps => do
    let receiver ← receiver.text
    return receiver ++ ".pipe(" ++ ", ".intercalate (← texts steps) ++ ")"

def texts : List SchemaCode → Except Fault (List String)
  | [] => return []
  | code :: rest => do
    let text ← code.text
    return text :: (← texts rest)

def memberTexts : List (String × SchemaCode) → Except Fault (List String)
  | [] => return []
  | (key, code) :: rest => do
    let text ← code.text
    return (Json.quoted key ++ ": " ++ text) :: (← memberTexts rest)

end

mutual

/-- The declarations that an expression uses at once. -/
def bare : SchemaCode → List String
  | .reference name => [name]
  | .word _ | .suspended _ | .literal _ => []
  | .call _ codes | .list codes => bareAll codes
  | .object members => bareMembers members
  | .thunk body => body.bare
  | .pipe receiver steps => receiver.bare ++ bareAll steps

def bareAll : List SchemaCode → List String
  | [] => []
  | code :: rest => code.bare ++ bareAll rest

def bareMembers : List (String × SchemaCode) → List String
  | [] => []
  | (_, code) :: rest => code.bare ++ bareMembers rest

end

mutual

/-- The declarations that an expression uses later. -/
def delayed : SchemaCode → List String
  | .suspended name => [name]
  | .word _ | .reference _ | .literal _ => []
  | .call _ codes | .list codes => delayedAll codes
  | .object members => delayedMembers members
  | .thunk body => body.delayed
  | .pipe receiver steps => receiver.delayed ++ delayedAll steps

def delayedAll : List SchemaCode → List String
  | [] => []
  | code :: rest => code.delayed ++ delayedAll rest

def delayedMembers : List (String × SchemaCode) → List String
  | [] => []
  | (_, code) :: rest => code.delayed ++ delayedMembers rest

end

end SchemaCode

def primitiveSchema : String → String
  | "string" => "Schema.String"
  | "number" => "Schema.Number"
  | "integer" => "Schema.Int"
  | "boolean" => "Schema.Boolean"
  | "null" => "Schema.Null"
  | _ => "Schema.Json"

def checkCode (check : Check) : SchemaCode :=
  let test (name : String) := SchemaCode.call name [.literal check.value]
  .call "Schema.check" [match check.kind with
    | .uuid => .call "Schema.isUUID" [.word "undefined"]
    | .pattern => .call "Schema.isPattern" [test "new RegExp"]
    | .minLength => test "Schema.isMinLength"
    | .maxLength => test "Schema.isMaxLength"
    | .greaterThan => test "Schema.isGreaterThan"
    | .atLeast => test "Schema.isGreaterThanOrEqualTo"
    | .lessThan => test "Schema.isLessThan"
    | .atMost => test "Schema.isLessThanOrEqualTo"
    | .multipleOf => test "Schema.isMultipleOf"]

/-- Refers to a declaration, at once if it is already there. -/
def referenceCode (scope : Scope) (name : String) : SchemaCode :=
  let target := scope.target name
  if scope.deferred.contains target then .suspended target else .reference target

/-- Checks are applied first, null is allowed last. -/
def refine (head : TypeHead) (code : SchemaCode) : SchemaCode :=
  let code := if head.checks.isEmpty then code else .pipe code (head.checks.map checkCode)
  if head.nullable then .call "Schema.NullOr" [code] else code

/-- Nullability is part of the type; presence and default go around it. -/
def wrap (wrapper : Wrapper) (defaultValue : Json) (code : SchemaCode) : SchemaCode :=
  match wrapper with
  | .none => code
  | .optional => .call "Schema.optionalKey" [code]
  | .decodingDefault =>
    .pipe code [.call "Schema.withDecodingDefault" [.thunk (.literal defaultValue)]]
  | .constructorDefault =>
    .pipe code [.call "Schema.withConstructorDefault"
      [.thunk (.call "Option.some" [.literal defaultValue])]]

mutual

/-- The schema expression of a type. -/
def schemaCode (scope : Scope) : TypeExpr → Except Fault SchemaCode
  | ⟨head, args, rest, fields⟩ => do
    let code ← match head.kind with
      | .primitive => pure (.word (primitiveSchema head.name))
      | .binary => pure (.call "Schema.instanceOf" [.word "globalThis.Blob"])
      | .json => pure (.word "Schema.Json")
      | .never => pure (.word "Schema.Never")
      | .literal =>
        match head.values with
        | value :: _ => pure (.call "Schema.Literal" [.literal value])
        | [] => throw .missingElement
      | .literals => pure (.call "Schema.Literals" [.list (head.values.map .literal)])
      | .array => do
        let item ← schemaCodeOfFirst scope args
        pure (.call (if head.nonEmpty then "Schema.NonEmptyArray" else "Schema.Array") [item])
      | .tuple => do
        let items := SchemaCode.call "Schema.Tuple" [.list (← schemaCodes scope args)]
        match ← schemaCodeOfOption scope rest with
        | none => pure items
        | some rest => pure (.call "Schema.TupleWithRest" [items, .list [rest]])
      | .record => do
        let value ← schemaCodeOfFirst scope args
        pure (.call "Schema.Record" [.word "Schema.String", value])
      | .struct => do pure (.call "Schema.Struct" [.object (← schemaFields scope fields)])
      | .union => do pure (.call "Schema.Union" [.list (← schemaCodes scope args)])
      | .ref => pure (referenceCode scope head.name)
    return refine head code

def schemaCodeOfFirst (scope : Scope) : List TypeExpr → Except Fault SchemaCode
  | [] => throw .missingElement
  | type :: _ => schemaCode scope type

def schemaCodes (scope : Scope) : List TypeExpr → Except Fault (List SchemaCode)
  | [] => pure []
  | type :: rest => do
    let code ← schemaCode scope type
    return code :: (← schemaCodes scope rest)

def schemaCodeOfOption (scope : Scope) : Option TypeExpr → Except Fault (Option SchemaCode)
  | none => pure none
  | some type => do return some (← schemaCode scope type)

/-- Every field needs a type. -/
def schemaFields (scope : Scope) :
    List (FieldOf TypeExpr) → Except Fault (List (String × SchemaCode))
  | [] => pure []
  | ⟨name, type, wrapper, defaultValue, _⟩ :: rest => do
    match ← schemaCodeOfOption scope type with
    | none => throw .noMembers
    | some code => return (name, wrap wrapper defaultValue code) :: (← schemaFields scope rest)

end

/-- A member of a struct with its description. -/
structure SchemaMember where
  name : String
  code : SchemaCode
  description : Option String

/-- What a declaration says, without its name and comment. -/
inductive SchemaItem where
  | classStruct (members : List SchemaMember)
  | struct (members : List SchemaMember)
  /-- Without a body the name of nothing stands there. -/
  | taggedError (body : Option String)
  | brand (code : Option SchemaCode)
  | schema (code : Option SchemaCode)

def schemaMembers (scope : Scope) (fields : List Field) : Except Fault (List SchemaMember) := do
  let codes ← schemaFields scope fields
  return List.zipWith (fun m f => ⟨m.1, m.2, f.description⟩) codes fields

def schemaItem (scope : Scope) (declaration : Declaration) : Except Fault SchemaItem := do
  match declaration.kind with
  | .classStruct => return .classStruct (← schemaMembers scope declaration.fields)
  | .struct => return .struct (← schemaMembers scope declaration.fields)
  | .taggedError => return .taggedError declaration.body
  | .brand => return .brand (← schemaCodeOfOption scope declaration.type)
  | .schema => return .schema (← schemaCodeOfOption scope declaration.type)

/-- The name of something that is not there. -/
def absentName : String := "None"

def SchemaMember.text (member : SchemaMember) : Except Fault String := do
  let code ← member.code.text
  return documented member.description (Json.quoted member.name ++ ": " ++ code ++ ",")

def SchemaItem.text (name : String) : SchemaItem → Except Fault String
  | .classStruct members => do
    let members ← members.mapM (·.text)
    return s!"export class {name} extends Schema.Class<{name}>(\"{name}\")(\x7b\n" ++
      String.join members ++ "\x7d) \x7b\x7d"
  | .struct members => do
    let members ← members.mapM (·.text)
    return s!"export const {name} = Schema.Struct(\x7b\n" ++ String.join members ++
      s!"\x7d)\nexport type {name} = typeof {name}.Type"
  | .taggedError body =>
    let body := body.getD absentName
    pure
      s!"export class {name} extends Schema.TaggedError<{name}>()(\"{name}\", {body}.fields) \x7b\x7d"
  | .brand code => do
    let code := (← code.mapM (·.text)).getD ""
    return s!"export const {name} = {code}.pipe(Schema.brand(\"{name}\"))\n" ++
      s!"export type {name} = typeof {name}.Type"
  | .schema code => do
    let code := (← code.mapM (·.text)).getD ""
    return s!"export const {name} = {code}\nexport type {name} = typeof {name}.Type"

/-- What a declaration says, after its comment. -/
def SchemaItem.block (item : SchemaItem) (declaration : Declaration) : Except Fault String := do
  let text ← item.text declaration.name
  return Text.chomped (Comment.ofOption declaration.description ++ text)

/-- A declaration as text. -/
def schemaDeclaration (scope : Scope) (declaration : Declaration) : Except Fault String := do
  let item ← schemaItem scope declaration
  item.block declaration

/-- Declarations in the given order. A name is deferred until its declaration is complete. -/
def schemaBlocks (aliases : List (String × String)) :
    List Declaration → List String → Except Fault (List String)
  | [], _ => pure []
  | declaration :: rest, deferred => do
    let block ← schemaDeclaration ⟨aliases, deferred⟩ declaration
    return block :: (← schemaBlocks aliases rest (deferred.filter (· != declaration.name)))

def schemaText (aliases : List (String × String)) (declarations : List Declaration) :
    Except Fault String := do
  return joinBlocks (← schemaBlocks aliases declarations (declarations.map (·.name)))

end TypedClient.Render
