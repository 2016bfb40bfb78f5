import TypedClient.Client
import TypedClient.Generator

/-! Modules: the operations of each tag with the declarations that only they need, and one module
for the declarations that several tags share. -/
namespace TypedClient

/-- One output module. -/
structure Module where
  tag : Json
  source : String
  /-- The declarations that the module uses, whether it emits or imports them. -/
  schemaNames : List String := []
  operations : List Operation := []
  /-- Shared names that are imported and exported again. -/
  imports : List String := []

namespace Module

/-- The file of a tag: kebab case, unless it starts with an underscore or nothing is left. -/
def fileName (tag : Json) : Except Fault String :=
  match tag with
  | .str s =>
    if s.toList.head? = some '_' then .ok s
    else
      let kebab := Name.kebab s
      .ok (if kebab = "" then s else kebab)
  | _ => .error .noMembers

/-- Adds an operation to the group of its first tag. -/
def addToGroup (groups : List (Key × List Operation)) (op : Operation) :
    Except Fault (List (Key × List Operation)) := do
  match op.tags with
  | [] => throw .missingElement
  | tag :: _ =>
    let key ← tag.toKey
    if groups.any (·.1.same key) then
      return groups.map fun g => if g.1.same key then (g.1, g.2 ++ [op]) else g
    return groups ++ [(key, [op])]

/-- Operations by their first tag, in the order in which the tags are met. -/
def groupByTag (operations : List Operation) : Except Fault (List (Key × List Operation)) :=
  operations.foldlM addToGroup []

/-- The names that two or more groups use, in the order in which they are met. -/
def sharedNames (groups : List (List String)) : List String :=
  let groups := groups.map Schema.distinct
  let used (name : String) := groups.countP (·.contains name)
  (Schema.distinct groups.flatten).filter fun name => 1 < used name

/-- Parts with an empty line between them; empty parts are left out. -/
def joinParts (parts : List String) : String :=
  "\n\n".intercalate (parts.filter (· != "")) ++ "\n"

/-- Names by registration. -/
def inOrder (store : Store) (names : List String) : List String :=
  let order (name : String) : Nat := ((store.find? name).map (·.order)).getD 0
  names.mergeSort fun a b => order a < order b || (order a == order b && a ≤ b)

/-- What stays the same while modules are made. -/
structure Env where
  name : Json
  ext : Json
  commonModule : Json

def importLine (env : Env) (names : List String) : List String :=
  if names.isEmpty then []
  else
    let list := ", ".intercalate names
    let (file, ext) := (env.commonModule.display, env.ext.display)
    [s!"import \x7b {list} \x7d from \"./{file}{ext}\"\nexport \x7b {list} \x7d"]

/-- The module of what the groups share, if they share anything. -/
def commonOf (env : Env) (common : List String) : Build (Option (Key × Module)) := do
  if common.isEmpty then return none
  let (count, file) := (common.length, env.commonModule.display)
  Build.info s!"Extracting {count} shared declarations into {file}"
  let schemas ← Generator.generate "Schema" (some common)
  let key ← Build.lift env.commonModule.toKey
  let source := joinParts [Client.schemaImports, schemas]
  return some (key, { tag := env.commonModule, source, schemaNames := common })

/-- The module of one tag. -/
def tagOf (env : Env) (common : List String) (tag : Key) (operations : List Operation)
    (names : List String) : Build Module := do
  let store ← Build.store
  let imports := inOrder store (names.filter common.contains)
  let own := names.filter fun n => !common.contains n
  let schemas ← Generator.generate "Schema" (some own) common
  let streaming := operations.any fun op => (named op.streamSchema).isSome
  let client := env.name.display
  let implementation ← Build.lift (Client.implementation client operations)
  let source := joinParts <|
    [Client.imports streaming] ++ importLine env imports ++
      [schemas, implementation, Client.interfaceText client operations]
  let (shown, ops, count) := (tag.display, operations.length, names.length)
  Build.debug s!"Module {shown}: {ops} operations, {count} declarations"
  return { tag := tag.toJson, source, schemaNames := names, operations, imports }

/-- Sets the module of a key: in its place if there is one, else at the end. -/
def put (modules : List (Key × Module)) (key : Key) (module : Module) : List (Key × Module) :=
  if modules.any (·.1.same key) then
    modules.map fun m => if m.1.same key then (m.1, module) else m
  else modules ++ [(key, module)]

/-- The names that a group of operations needs. -/
def groupNames (store : Store) (group : Key × List Operation) : List String :=
  store.closure (group.2.flatMap (·.schemaNames)) []

/-- Adds the module of a group with its names. -/
def addModule (env : Env) (common : List String) (modules : List (Key × Module))
    (entry : (Key × List Operation) × List String) : Build (List (Key × Module)) := do
  return put modules entry.1.1 (← tagOf env common entry.1.1 entry.1.2 entry.2)

/-- The modules of some operations, the shared one first. -/
def partition (env : Env) (operations : List Operation) : Build (List (Key × Module)) := do
  let groups ← Build.lift (groupByTag operations)
  let store ← Build.store
  let closures := groups.map (groupNames store)
  let common := sharedNames closures
  Build.modifyStore (·.markShared common)
  (groups.zip closures).foldlM (addModule env common) (← commonOf env common).toList

end Module

end TypedClient
