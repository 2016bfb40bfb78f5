import TypedClient.Config
import TypedClient.Module
import TypedClient.Path
import TypedClient.Swagger
import TypedClient.Walk

/-! From the description of an API to its modules and files. -/
namespace TypedClient

structure Generated where
  /-- The shared module first. -/
  modules : List (Key × Module)
  operations : List Operation

namespace Document

/-- Checks the format of a description; a Swagger description is converted. -/
def prepare (document : Json) : Build Json := do
  match document with
  | .obj members =>
    if Swagger.isSwagger document then return ← Swagger.convert document
    match Members.get? members "openapi" with
    | none => throw (.unsupported .unknownFormat)
    | some version =>
      let version := version.display
      if version.toList.head? = some '3' then return document
      else throw (.unsupported (.openApiVersion (Json.showText version)))
  | _ => throw (.unsupported .notAnObject)

/-- Generates the modules of a description. A name or an extension that is given goes before that
of the configuration. -/
def generate (config : Config) (document : Json) (name : Json := .null) (ext : Json := .null) :
    Build Generated := do
  let document ← prepare document
  let name := name.orElse config.name
  let ext := ext.nonNull?.getD config.ext
  let operations ← Walk.walk ⟨document, config.brandIds.truthy, config.untagged⟩
  let (count, declared) := (operations.length, (← Build.store).declarations.length)
  Build.info s!"Parsed {count} operations, {declared} declarations"
  let modules ← Module.partition ⟨name, ext, config.commonModule⟩ operations
  return ⟨modules, operations⟩

/-- A module that exports every tag module under a name of its own. -/
def barrel (fileNames : List String) (ext : String) : String :=
  let line (file : String) :=
    let id := Name.identifier file
    s!"export * as Generated{id}Api from \"./{file}{ext}\""
  "\n".intercalate (fileNames.map line) ++ "\n"

/-- The files of the modules and of the barrel, in order. A path that occurs again keeps its place
and takes the last content. -/
def files (generated : Generated) (outdir : Path) (ext commonModule : Json) (header : String) :
    Except Fault (List (Path × String)) := do
  let named ← generated.modules.mapM fun m => do return (m.1, ← Module.fileName m.2.tag, m.2)
  let add (acc : List (Path × String)) (file content : String) :=
    assign acc (outdir.join (.ofText file)) (header ++ content)
  let all := named.foldl (fun acc m => add acc (m.2.1 ++ ".ts") m.2.2.source) []
  let tags := named.filter fun m => !commonModule.sameKey m.1
  return add all "index.ts" (barrel (tags.map (·.2.1)) ext.display)

end Document

end TypedClient
