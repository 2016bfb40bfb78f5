import TypedClient.Json.Basic

/-! Type expressions, the language between schemas and the text of declarations. An expression is
a head with children; which children count depends on the kind of the head. -/
namespace TypedClient

inductive TypeKind where
  | primitive
  /-- An opaque binary blob. -/
  | binary
  /-- Any JSON value. -/
  | json
  /-- No value. -/
  | never
  | literal
  | literals
  | array
  | tuple
  /-- A dictionary with text keys. -/
  | record
  | struct
  | union
  /-- A named declaration. -/
  | ref
deriving DecidableEq, Repr, Inhabited

namespace TypeKind

def all : List TypeKind :=
  [primitive, binary, json, never, literal, literals, array, tuple, record, struct, union, ref]

def name : TypeKind → String
  | primitive => "primitive"
  | binary => "binary"
  | json => "json"
  | never => "never"
  | literal => "literal"
  | literals => "literals"
  | array => "array"
  | tuple => "tuple"
  | record => "record"
  | struct => "struct"
  | union => "union"
  | ref => "ref"

def ofName? (name : String) : Option TypeKind :=
  all.find? (·.name == name)

end TypeKind

/-- Refinements of a type. -/
inductive CheckKind where
  | uuid
  | minLength
  | maxLength
  | pattern
  | greaterThan
  | atLeast
  | lessThan
  | atMost
  | multipleOf
deriving DecidableEq, Repr, Inhabited

namespace CheckKind

def all : List CheckKind :=
  [uuid, minLength, maxLength, pattern, greaterThan, atLeast, lessThan, atMost, multipleOf]

def name : CheckKind → String
  | uuid => "uuid"
  | minLength => "min_length"
  | maxLength => "max_length"
  | pattern => "pattern"
  | greaterThan => "greater_than"
  | atLeast => "greater_than_or_equal_to"
  | lessThan => "less_than"
  | atMost => "less_than_or_equal_to"
  | multipleOf => "multiple_of"

def ofName? (name : String) : Option CheckKind :=
  all.find? (·.name == name)

end CheckKind

structure Check where
  kind : CheckKind
  value : Json := .null
deriving Repr, Inhabited

/-- Presence of a property and the default that stands in for it. -/
inductive Wrapper where
  | none
  /-- A missing value decodes to the default. -/
  | decodingDefault
  /-- The default applies on construction. -/
  | constructorDefault
  /-- The key may be absent. -/
  | optional
deriving DecidableEq, Repr, Inhabited

namespace Wrapper

def all : List Wrapper :=
  [none, decodingDefault, constructorDefault, optional]

def name : Wrapper → String
  | none => "none"
  | decodingDefault => "decoding_default"
  | constructorDefault => "constructor_default"
  | optional => "optional"

def ofName? (name : String) : Option Wrapper :=
  all.find? (·.name == name)

/-- The wrapper of a property, and the default that it applies. -/
def choose (required nullable : Bool) (defaultValue : Option Json) : Wrapper × Json :=
  if !required then (optional, .null)
  else match nullable, defaultValue with
    | true, some .null => (decodingDefault, .null)
    | true, some value => (constructorDefault, value)
    | false, some .null => (none, .null)
    | false, some value => (constructorDefault, value)
    | _, Option.none => (none, .null)

end Wrapper

/-- The head of a type expression. -/
structure TypeHead where
  kind : TypeKind := .primitive
  /-- The name of a primitive or of a declaration. -/
  name : String := ""
  values : List Json := []
  /-- In order of application. -/
  checks : List Check := []
  nonEmpty : Bool := false
  nullable : Bool := false
deriving Repr, Inhabited

/-- A property whose type is of whatever sort. -/
structure FieldOf (α : Type) where
  name : String
  type : Option α := none
  wrapper : Wrapper := .none
  defaultValue : Json := .null
  description : Option String := none
deriving Repr

structure TypeExpr where
  head : TypeHead
  /-- The item of an array, the value of a record, the elements of a tuple, the members of a
  union. -/
  args : List TypeExpr := []
  /-- The further elements of a tuple. -/
  rest : Option TypeExpr := none
  fields : List (FieldOf TypeExpr) := []
deriving Repr

abbrev Field := FieldOf TypeExpr

namespace TypeExpr

instance : Inhabited TypeExpr := ⟨{ head := {} }⟩

def ofKind (kind : TypeKind) : TypeExpr :=
  { head := { kind } }

/-- Any JSON value. -/
def json : TypeExpr :=
  ofKind .json

def ref (name : String) (nullable : Bool := false) : TypeExpr :=
  { head := { kind := .ref, name, nullable } }

def struct (fields : List Field) : TypeExpr :=
  { head := { kind := .struct }, fields }

def kind (type : TypeExpr) : TypeKind :=
  type.head.kind

def nullable (type : TypeExpr) : Bool :=
  type.head.nullable

/-- The type or null. -/
def orNull (type : TypeExpr) : TypeExpr :=
  { type with head := { type.head with nullable := true } }

/-- The children of an expression, whatever its kind. -/
def children (type : TypeExpr) : List TypeExpr :=
  type.args ++ type.rest.toList ++ type.fields.filterMap (·.type)

mutual

/-- How many expressions an expression is made of. -/
def size : TypeExpr → Nat
  | ⟨_, args, rest, fields⟩ => sizeOfAll args + sizeOfOption rest + sizeOfFields fields + 1

def sizeOfAll : List TypeExpr → Nat
  | [] => 0
  | type :: rest => type.size + sizeOfAll rest

def sizeOfOption : Option TypeExpr → Nat
  | none => 0
  | some type => type.size

def sizeOfFields : List (FieldOf TypeExpr) → Nat
  | [] => 0
  | ⟨_, type, _, _, _⟩ :: rest => sizeOfOption type + sizeOfFields rest

end

theorem sizeOfAll_append (types others : List TypeExpr) :
    sizeOfAll (types ++ others) = sizeOfAll types + sizeOfAll others := by
  induction types with
  | nil => simp [sizeOfAll]
  | cons type rest ih => simp [sizeOfAll, ih, Nat.add_assoc]

theorem sizeOfAll_reverse (types : List TypeExpr) : sizeOfAll types.reverse = sizeOfAll types := by
  induction types with
  | nil => rfl
  | cons type rest ih => simp [sizeOfAll_append, sizeOfAll, ih, Nat.add_comm]

theorem sizeOfAll_toList (type : Option TypeExpr) : sizeOfAll type.toList = sizeOfOption type := by
  cases type <;> simp [sizeOfAll, sizeOfOption]

theorem sizeOfAll_types (fields : List Field) :
    sizeOfAll (fields.filterMap (·.type)) = sizeOfFields fields := by
  induction fields with
  | nil => rfl
  | cons field rest ih =>
    obtain ⟨name, type, wrapper, defaultValue, description⟩ := field
    cases type <;> simp [sizeOfFields, sizeOfOption, sizeOfAll, ih]

theorem size_eq (type : TypeExpr) : type.size = sizeOfAll type.children + 1 := by
  obtain ⟨head, args, rest, fields⟩ := type
  simp [size, children, sizeOfAll_append, sizeOfAll_toList, sizeOfAll_types, Nat.add_assoc]

/-- The names found so far, with that of the expression if it is a reference. -/
def noteRef (names : List String) (type : TypeExpr) : List String :=
  if type.kind = .ref then names.insert type.head.name else names

/-- The names found so far, with those that the expressions on a stack refer to. The last child of
an expression comes next. -/
def refsFrom (names : List String) : List TypeExpr → List String
  | [] => names
  | type :: stack => refsFrom (noteRef names type) (type.children.reverse ++ stack)
termination_by stack => sizeOfAll stack
decreasing_by
  rw [sizeOfAll_append, sizeOfAll_reverse, sizeOfAll, size_eq]
  omega

/-- The names of the declarations that an expression refers to, each once. -/
def refs (type : TypeExpr) : List String :=
  refsFrom [] [type]

end TypeExpr

end TypedClient
