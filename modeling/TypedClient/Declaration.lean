import TypedClient.Name
import TypedClient.TypeExpr

/-! Named declarations and the store that a generation run fills. Declarations stay in the order
of registration; a name that is taken gets a number. -/
namespace TypedClient

inductive DeclarationKind where
  /-- A name for any type expression. -/
  | schema
  | struct
  /-- A struct that is also a class. -/
  | classStruct
  /-- A nominal type over a primitive. -/
  | brand
  /-- An error with a tag, over the struct that holds its fields. -/
  | taggedError
deriving DecidableEq, Repr, Inhabited

namespace DeclarationKind

def all : List DeclarationKind :=
  [schema, struct, classStruct, brand, taggedError]

def name : DeclarationKind → String
  | schema => "schema"
  | struct => "struct"
  | classStruct => "class"
  | brand => "brand"
  | taggedError => "tagged_error"

def ofName? (name : String) : Option DeclarationKind :=
  all.find? (·.name == name)

/-- The kind holds named fields, its own or those of its body. -/
def isStruct : DeclarationKind → Bool
  | struct | classStruct | taggedError => true
  | schema | brand => false

end DeclarationKind

structure Declaration where
  name : String
  kind : DeclarationKind := .schema
  /-- A struct or class holds its fields here; a tagged error has none of its own. -/
  type : Option TypeExpr := none
  description : Option String := none
  /-- The number of registrations before this one. -/
  order : Nat := 0
  shared : Bool := false
  errorVariant : Bool := false
  /-- The struct that holds the fields of a tagged error. -/
  body : Option String := none
deriving Repr, Inhabited

namespace Declaration

/-- The fields of its type. -/
def fields (declaration : Declaration) : List Field :=
  match declaration.type with
  | some type => type.fields
  | none => []

/-- The references in its type. -/
def refs (declaration : Declaration) : List String :=
  match declaration.type with
  | some type => type.refs
  | none => []

end Declaration

/-- The brands that a run has declared, each once. -/
structure BrandRegistry where
  names : List String := []
deriving Repr

namespace BrandRegistry

def contains (registry : BrandRegistry) (name : String) : Bool :=
  registry.names.contains name

/-- Takes a brand; it is new the first time only. -/
def claim (registry : BrandRegistry) (name : String) : Bool × BrandRegistry :=
  if registry.contains name then (false, registry) else (true, ⟨registry.names ++ [name]⟩)

/-- The brand of a property, if its key looks like an identifier. -/
def brandFor? (key owner : String) : Option String :=
  if Name.isIdShaped key then some (Name.brandOf key owner) else none

end BrandRegistry

structure Store where
  declarations : List Declaration := []
  /-- The number of registrations. -/
  counter : Nat := 0
  brands : BrandRegistry := {}
  /-- The declarations of the references met so far. -/
  refNames : List (String × String) := []
deriving Repr

namespace Store

def find? (store : Store) (name : String) : Option Declaration :=
  store.declarations.find? (·.name == name)

def contains (store : Store) (name : String) : Bool :=
  store.declarations.any (·.name == name)

def names (store : Store) : List String :=
  store.declarations.map (·.name)

/-- The name, or the name with the least number from 2 on that makes it free. Among one number
more than there are declarations one is free. -/
def uniqueName (store : Store) (name : String) : String :=
  let base := if name = "" then "Schema" else name
  if store.contains base then
    let candidate (i : Nat) := s!"{base}{i}"
    let numbers := List.range' 2 (store.declarations.length + 1)
    ((numbers.map candidate).find? fun c => !store.contains c).getD base
  else base

/-- Changes the declaration of a name. -/
def update (store : Store) (name : String) (f : Declaration → Declaration) : Store :=
  { store with
    declarations := store.declarations.map fun d => if d.name == name then f d else d }

/-- Adds a declaration and numbers it. One of the same name is replaced in its place. -/
def register (store : Store) (declaration : Declaration) : Store :=
  let declaration := { declaration with order := store.counter }
  { store with
    counter := store.counter + 1
    declarations :=
      if store.contains declaration.name then
        store.declarations.map fun d => if d.name == declaration.name then declaration else d
      else store.declarations ++ [declaration] }

/-- Registers a name before its body is known; until then it stands for any JSON value. -/
def reserve (store : Store) (name : String) : Store :=
  store.register { name, type := some .json }

/-- Marks declarations that several modules use. -/
def markShared (store : Store) (names : List String) : Store :=
  names.foldl (fun store name => store.update name fun d => { d with shared := true }) store

end Store

end TypedClient
