import TypedClient.Builder
import TypedClient.NameGraph.Schedule
import TypedClient.OutputKind
import TypedClient.Render.Plain
import TypedClient.Render.Schema

/-! Selection, order and text of registered declarations, and their use as errors. -/
namespace TypedClient

/-- The error with this name as tag over a body that holds its fields. -/
def Declaration.over (declaration : Declaration) (body : String) : Declaration :=
  { declaration with kind := .taggedError, body := some body, type := none }

namespace Store

/-- References to a tagged error go to its body. -/
def aliases (store : Store) : List (String × String) :=
  store.declarations.filterMap fun d =>
    match d.kind, d.body with
    | .taggedError, some body => some (d.name, body)
    | _, _ => none

/-- The names that a declaration depends on, each once. -/
def dependsOn (store : Store) (declaration : Declaration) : List String :=
  let aliases := store.aliases
  Schema.distinct
    (declaration.refs.map (fun n => (aliases.lookup n).getD n) ++ declaration.body.toList)

def graph (store : Store) : NameGraph :=
  store.declarations.foldl (fun g d => g.add d.name (store.dependsOn d) (some d.order)) {}

/-- The names that some names need, themselves included. -/
def closure (store : Store) (names excluded : List String) : List String :=
  store.graph.closure names excluded

/-- The declarations that are written for some names, in order. -/
def selection (store : Store) (names : Option (List String)) (excluded : List String) :
    List Declaration :=
  let graph := store.graph
  let selected := graph.closure (names.getD store.names) excluded
  (graph.topologicalOrder selected).filterMap store.find?

/-- The text of declarations in the given order. -/
def renderAs (kind : OutputKind) (aliases : List (String × String))
    (declarations : List Declaration) : Except Fault String :=
  match kind with
  | .schema => Render.schemaText aliases declarations
  | .type => Render.plainText aliases declarations

/-- Counts a declaration as an error. -/
def flagError (store : Store) (name : String) : Store :=
  store.update name fun d => { d with errorVariant := true }

/-- The struct that takes over the fields of an error. -/
def bodyFor (store : Store) (declaration : Declaration) : Declaration :=
  { name := store.uniqueName (declaration.name ++ "Body"), kind := .struct
    type := declaration.type, description := declaration.description }

/-- Moves the fields of a struct to a body of their own, which the struct then wraps. -/
def wrapBody (store : Store) (declaration : Declaration) : Store :=
  let body := store.bodyFor declaration
  (store.register body).update declaration.name (·.over body.name)

/-- Makes a declaration an error. Only what has fields of its own gets a body. -/
def asError (store : Store) (declaration : Declaration) : Store :=
  if declaration.kind = .struct ∨ declaration.kind = .classStruct then
    (store.flagError declaration.name).wrapBody declaration
  else store.flagError declaration.name

end Store

namespace Generator

/-- Writes the declarations that some names need, or all, without those that are excluded. -/
def generate (kind : Json) (names : Option (List String) := none) (excluded : List String := []) :
    Build String := do
  let store ← Build.store
  let declarations := store.selection names excluded
  let (emitted, total) := (declarations.length, store.declarations.length)
  Build.debug s!"Emitting {emitted} of {total} declarations"
  let kind ← Build.lift (OutputKind.parse kind)
  Build.lift (Store.renderAs kind store.aliases declarations)

/-- Makes a declaration an error, if there is one of this name. -/
def markAsError (name : String) : Build Unit := do
  match (← Build.store).find? name with
  | none => Build.warn s!"Cannot mark unknown declaration {name} as error"
  | some declaration => Build.modifyStore (·.asError declaration)

def isStruct (store : Store) (name : String) : Bool :=
  (store.find? name).any (·.kind.isStruct)

def bodyOf? (store : Store) (name : String) : Option String :=
  (store.find? name).bind (·.body)

end Generator

end TypedClient
