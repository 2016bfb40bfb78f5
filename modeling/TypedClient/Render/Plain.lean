import TypedClient.Declaration
import TypedClient.Json.Printer
import TypedClient.Render.Layout
import TypedClient.Text.Search

/-! Declarations as plain types: interfaces and type aliases without code that runs. -/
namespace TypedClient.Render

/-- Types of the target language. -/
inductive PlainType where
  | word (text : String)
  | reference (name : String)
  | literal (value : Json)
  /-- Alternatives. -/
  | union (members : List PlainType)
  /-- Between parentheses. -/
  | group (type : PlainType)
  | tuple (elements : List PlainType)
  /-- Further elements of a tuple. -/
  | spread (type : PlainType)
  | generic (name : String) (args : List PlainType)
  /-- Members, each of which may be absent. -/
  | object (members : List (String × Bool × PlainType))
deriving Repr

def memberText (name : String) (optional : Bool) (type : String) : String :=
  "readonly " ++ Json.quoted name ++ (if optional then "?" else "") ++ ": " ++ type

namespace PlainType

mutual

/-- The text of a type, if all its literals have one. -/
def text : PlainType → Except Fault String
  | .word s => return s
  | .reference name => return name
  | .literal value => value.literalText
  | .union members => return " | ".intercalate (← texts members)
  | .group type => return "(" ++ (← type.text) ++ ")"
  | .tuple elements => return "readonly [" ++ ", ".intercalate (← texts elements) ++ "]"
  | .spread type => return "...Array<" ++ (← type.text) ++ ">"
  | .generic name args => return name ++ "<" ++ ", ".intercalate (← texts args) ++ ">"
  | .object [] => return "\x7b\x7d"
  | .object members => return "\x7b " ++ "; ".intercalate (← memberTexts members) ++ " \x7d"

def texts : List PlainType → Except Fault (List String)
  | [] => return []
  | type :: rest => do
    let text ← type.text
    return text :: (← texts rest)

def memberTexts : List (String × Bool × PlainType) → Except Fault (List String)
  | [] => return []
  | (name, optional, type) :: rest => do
    let text ← type.text
    return memberText name optional text :: (← memberTexts rest)

end

mutual

/-- The declarations that a type mentions. -/
def mentions : PlainType → List String
  | .reference name => [name]
  | .word _ | .literal _ => []
  | .union types | .tuple types | .generic _ types => mentionsAll types
  | .group type | .spread type => type.mentions
  | .object members => mentionsMembers members

def mentionsAll : List PlainType → List String
  | [] => []
  | type :: rest => type.mentions ++ mentionsAll rest

def mentionsMembers : List (String × Bool × PlainType) → List String
  | [] => []
  | (_, _, type) :: rest => type.mentions ++ mentionsMembers rest

end

def hasOperator (type : PlainType) : Bool :=
  match type.text with
  | .ok text => Text.contains text " | " || Text.contains text " & "
  | .error _ => false

/-- A member of a union stands in parentheses if its text has an operator. -/
def grouped (type : PlainType) : PlainType :=
  if type.hasOperator then .group type else type

end PlainType

def primitivePlain : String → String
  | "string" => "string"
  | "number" => "number"
  | "integer" => "number"
  | "boolean" => "boolean"
  | "null" => "null"
  | _ => "unknown"

mutual

/-- The plain type of a type expression. Checks have no counterpart. -/
def plainType (scope : Scope) : TypeExpr → Except Fault PlainType
  | ⟨head, args, rest, fields⟩ => do
    let type ← match head.kind with
      | .primitive => pure (.word (primitivePlain head.name))
      | .binary => pure (.word "Blob")
      | .json => pure (.word "unknown")
      | .never => pure (.word "never")
      | .literal | .literals =>
        match head.values with
        | [] => pure (.word "never")
        | values => pure (.union (values.map .literal))
      | .array => do
        let item ← plainTypeOfFirst scope args
        pure <|
          if head.nonEmpty then .tuple [item, .spread item] else .generic "ReadonlyArray" [item]
      | .tuple => do
        let elements ← plainTypes scope args
        let rest ← plainTypeOfOption scope rest
        pure (.tuple (elements ++ rest.toList.map .spread))
      | .record => do
        let value ← plainTypeOfFirst scope args
        pure (.generic "Record" [.word "string", value])
      | .struct => do pure (.object (← plainFields scope fields))
      | .union => do pure (.union ((← plainTypes scope args).map (·.grouped)))
      | .ref => pure (.reference (scope.target head.name))
    return if head.nullable then .union [type, .word "null"] else type

def plainTypeOfFirst (scope : Scope) : List TypeExpr → Except Fault PlainType
  | [] => throw .missingElement
  | type :: _ => plainType scope type

def plainTypes (scope : Scope) : List TypeExpr → Except Fault (List PlainType)
  | [] => pure []
  | expr :: rest => do
    let type ← plainType scope expr
    return type :: (← plainTypes scope rest)

def plainTypeOfOption (scope : Scope) : Option TypeExpr → Except Fault (Option PlainType)
  | none => pure none
  | some type => do return some (← plainType scope type)

def plainFields (scope : Scope) :
    List (FieldOf TypeExpr) → Except Fault (List (String × Bool × PlainType))
  | [] => pure []
  | ⟨name, type, wrapper, _, _⟩ :: rest => do
    match ← plainTypeOfOption scope type with
    | none => throw .noMembers
    | some type => return (name, wrapper == .optional, type) :: (← plainFields scope rest)

end

/-- A member of an interface with its description. -/
structure PlainMember where
  name : String
  optional : Bool
  type : PlainType
  description : Option String

inductive PlainItem where
  | interface (members : List PlainMember)
  /-- An interface over that of the body; without a body the name of nothing stands there. -/
  | taggedError (body : Option String)
  | brand (type : Option PlainType)
  | named (type : Option PlainType)

def plainMembers (scope : Scope) (fields : List Field) : Except Fault (List PlainMember) := do
  let types ← plainFields scope fields
  return List.zipWith (fun m f => ⟨m.1, m.2.1, m.2.2, f.description⟩) types fields

def plainItem (scope : Scope) (declaration : Declaration) : Except Fault PlainItem := do
  match declaration.kind with
  | .classStruct | .struct => return .interface (← plainMembers scope declaration.fields)
  | .taggedError => return .taggedError declaration.body
  | .brand => return .brand (← plainTypeOfOption scope declaration.type)
  | .schema => return .named (← plainTypeOfOption scope declaration.type)

def PlainMember.text (member : PlainMember) : Except Fault String := do
  let type ← member.type.text
  return documented member.description (memberText member.name member.optional type)

def PlainItem.text (name : String) : PlainItem → Except Fault String
  | .interface members => do
    let members ← members.mapM (·.text)
    return s!"export interface {name} \x7b\n" ++ String.join members ++ "\x7d"
  | .taggedError body =>
    let body := body.getD "None"
    return s!"export interface {name} extends {body} \x7b\n  readonly _tag: \"{name}\"\n\x7d"
  | .brand type => do
    let type := (← type.mapM (·.text)).getD ""
    return s!"export type {name} = {type} & \x7b readonly __brand: \"{name}\" \x7d"
  | .named type => do
    let type := (← type.mapM (·.text)).getD ""
    return s!"export type {name} = {type}"

/-- What a declaration says, after its comment. -/
def PlainItem.block (item : PlainItem) (declaration : Declaration) : Except Fault String := do
  let text ← item.text declaration.name
  return Text.chomped (Comment.ofOption declaration.description ++ text)

/-- A declaration as text. -/
def plainDeclaration (scope : Scope) (declaration : Declaration) : Except Fault String := do
  let item ← plainItem scope declaration
  item.block declaration

def plainText (aliases : List (String × String)) (declarations : List Declaration) :
    Except Fault String := do
  return joinBlocks (← declarations.mapM (plainDeclaration ⟨aliases, []⟩))

end TypedClient.Render
