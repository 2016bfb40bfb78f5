import TypedClient.Json.Display
import TypedClient.Session
import TypedClient.Text.Search

/-! Swagger 2.0 documents as OpenAPI 3 documents. Definitions, parameters and responses move under
the components, body and form parameters become request bodies; all else is carried over. -/
namespace TypedClient.Swagger

def isSwagger : Json → Bool
  | .obj members => Members.has members "swagger"
  | _ => false

/-- Where references into a Swagger document lead, and where they lead after conversion. -/
def refMoves : List (String × String) :=
  [("#/definitions/", "#/components/schemas/"),
   ("#/parameters/", "#/components/parameters/"),
   ("#/responses/", "#/components/responses/")]

/-- The reference under its new place. -/
def moveRef (pointer : String) : String :=
  match refMoves.find? fun move => move.1.toList.isPrefixOf pointer.toList with
  | some (old, new) => new ++ String.ofList (pointer.toList.drop old.length)
  | none => pointer

mutual

/-- Moves every reference in a value. -/
def moveRefs : Json → Json
  | .arr items => .arr (moveRefsItems items)
  | .obj members => .obj (moveRefsMembers members)
  | v => v

def moveRefsItems : List Json → List Json
  | [] => []
  | v :: rest => moveRefs v :: moveRefsItems rest

def moveRefsMembers : List (Key × Json) → List (Key × Json)
  | [] => []
  | (k, v) :: rest =>
    let v := match k, v with
      | .text "$ref", .str pointer => .str (moveRef pointer)
      | _, v => moveRefs v
    (k, v) :: moveRefsMembers rest

end

mutual

/-- A file is binary text. -/
def convertSchema : Json → Json
  | .arr items => .arr (convertItems items)
  | .obj members =>
    let converted := convertMembers members
    .obj <|
      if (Members.get converted "type").isText "file" then
        Members.set (Members.set converted "type" "string") "format" "binary"
      else converted
  | v => v

def convertItems : List Json → List Json
  | [] => []
  | v :: rest => convertSchema v :: convertItems rest

def convertMembers : List (Key × Json) → List (Key × Json)
  | [] => []
  | (k, v) :: rest => (k, convertSchema v) :: convertMembers rest

end

/-- Keywords of a parameter that describe its value. -/
def schemaKeywords : List String :=
  ["type", "format", "items", "enum", "default", "minimum", "maximum", "exclusiveMinimum",
   "exclusiveMaximum", "minLength", "maxLength", "pattern", "minItems", "maxItems", "multipleOf",
   "x-nullable"]

/-- The named members that are there, in the order of the names. -/
def pick (members : Members) (names : List String) : Members :=
  names.filterMap fun (name : String) => (members.get? name).map fun v => (.text name, v)

def parameterSchema (parameter : Members) : Json :=
  convertSchema (.obj (pick parameter schemaKeywords))

def convertParameter (parameter : Members) : Json :=
  .obj (pick parameter ["name", "in", "description", "required"] ++
    [(.text "schema", parameterSchema parameter)])

/-- The same value under every media type. -/
def contentOf (mediaTypes : List Json) (schema : Json) : Except Fault Json := do
  let entry := Json.ofMembers [("schema", schema)]
  let keys ← mediaTypes.mapM (·.toKey)
  return .obj (Members.ofList (keys.map fun k => (k, entry)))

/-- A value has a member of this name; text has it as a part and a list as an item. -/
def mentions (value : Json) (name : String) : Except Fault Bool :=
  match value with
  | .obj members => .ok (Members.has members name)
  | .arr items => .ok (items.any (·.isText name))
  | .str text => .ok (Text.contains text name)
  | _ => .error .notSequence

def convertResponse (produces : Json) (response : Json) : Except Fault Json := do
  if ← mentions response "$ref" then return response
  let members ← response.members
  let description := (members.get? "description").getD ""
  match members.get? "schema" with
  | none => return .ofMembers [("description", description)]
  | some schema =>
    let content ← contentOf (← produces.elements) (convertSchema schema)
    return .ofMembers [("description", description), ("content", content)]

/-- What an operation takes from the document around it. -/
structure Surroundings where
  consumes : Json
  produces : Json
  /-- Global body parameters, by reference. -/
  bodies : List (String × Members)

/-- The parts of an operation that its parameters become. -/
structure Parts where
  parameters : List Json := []
  body : Option Json := none
  formFields : Members := []
  formRequired : List Json := []

/-- The named member, which must be there. -/
def need (members : Members) (name : String) : Except Fault Json :=
  match members.get? name with
  | some v => .ok v
  | none => .error .missingMember

/-- The members of a parameter, or those of the global body parameter that it refers to. -/
def Surroundings.source (around : Surroundings) (members : Members) : Key → Members
  | .text pointer => (around.bodies.lookup pointer).getD members
  | _ => members

/-- Adds one parameter to the parts. -/
def addParameter (around : Surroundings) (consumes : Json) (parts : Parts) (parameter : Json) :
    Except Fault Parts := do
  let members ← parameter.members
  let ref ← (members.get "$ref").toKey
  let members := around.source members ref
  let place := members.get "in"
  if place.isText "body" then
    let schema := convertSchema ((members.get? "schema").getD (.obj []))
    let content ← contentOf (← consumes.elements) schema
    let required := (members.get? "required").getD (.bool false)
    return { parts with body := some (.ofMembers [("content", content), ("required", required)]) }
  else if place.isText "formData" then
    let name ← need members "name"
    let required := if (members.get "required").truthy then [name] else []
    return { parts with
      formFields := parts.formFields.set (← name.toKey) (parameterSchema members)
      formRequired := parts.formRequired ++ required }
  else
    let parameter := if members.has "$ref" then .obj members else convertParameter members
    return { parts with parameters := parts.parameters ++ [parameter] }

/-- The body that form fields make. -/
def formBody (consumes : Json) (parts : Parts) : Except Fault Json := do
  let mediaType :=
    if ← mentions consumes "multipart/form-data" then "multipart/form-data"
    else "application/x-www-form-urlencoded"
  let fields : List (String × Json) := [("type", "object"), ("properties", .obj parts.formFields)]
  let required : List (String × Json) :=
    if parts.formRequired.isEmpty then [] else [("required", .arr parts.formRequired)]
  let schema := Json.ofMembers (fields ++ required)
  return .ofMembers [("content", .ofMembers [(mediaType, .ofMembers [("schema", schema)])])]

/-- The body that the parts make; form fields come before a body of its own. -/
def Parts.requestBody? (consumes : Json) (parts : Parts) : Except Fault (Option Json) :=
  if parts.formFields.isEmpty then .ok parts.body else some <$> formBody consumes parts

/-- Sets a member if there is a value for it. -/
def setSome (members : Members) (name : String) : Option Json → Members
  | some v => members.set name v
  | none => members

/-- The responses of an operation, by the display form of their statuses. -/
def convertResponses (produces : Json) (operation : Members) : Except Fault Members := do
  let responses ← ((operation.get? "responses").getD (.obj [])).members
  let converted ← responses.mapM fun m => do
    return (Key.text m.1.display, ← convertResponse produces m.2)
  return Members.ofList converted

def convertOperation (around : Surroundings) (shared operation : Json) : Except Fault Json := do
  let members ← operation.members
  let consumes := (members.get "consumes").orElse around.consumes
  let produces := (members.get "produces").orElse around.produces
  let dropped := ["parameters", "responses", "consumes", "produces"]
  let kept : Members := members.filter fun m => !dropped.any fun name => m.1.same name
  let shared ← shared.elements
  let own ← ((members.get? "parameters").getD (.arr [])).elements
  let parts ← (shared ++ own).foldlM (addParameter around consumes) {}
  let body ← parts.requestBody? consumes
  let parameters := if parts.parameters.isEmpty then none else some (.arr parts.parameters)
  let responses ← convertResponses produces members
  return .obj (Members.set (setSome (setSome kept "requestBody" body) "parameters" parameters)
    "responses" (.obj responses))

/-- Methods whose operations are converted. -/
def methods : List String :=
  ["get", "put", "post", "delete", "options", "head", "patch"]

def convertPath (around : Surroundings) (item : Json) : Except Fault Json := do
  let members ← item.members
  let shared := (members.get? "parameters").getD (.arr [])
  let converted ← members.mapM fun m => do
    if methods.any fun name => m.1.same name then
      return some (m.1, ← convertOperation around shared m.2)
    else if m.1.same "parameters" then return none
    else return some m
  return .obj (converted.filterMap id)

def servers (document : Members) : Except Fault (List Json) := do
  let host := document.get "host"
  let basePath := (document.get? "basePath").getD ""
  let server (url : Json) := Json.ofMembers [("url", url)]
  if !host.truthy then return if basePath.truthy then [server basePath] else []
  let schemes ← ((document.get "schemes").orElse (.arr ["https"])).elements
  return schemes.map fun scheme =>
    let (scheme, host, basePath) := (scheme.display, host.display, basePath.display)
    server s!"{scheme}://{host}{basePath}"

/-- Converts each member of a named object; a missing one is empty. -/
def convertEach (document : Members) (name : String) (convert : Key → Json → Except Fault Json) :
    Except Fault Members := do
  let members ← ((document.get? name).getD (.obj [])).members
  members.mapM fun m => do return (m.1, ← convert m.1 m.2)

/-- Global parameters: those of the body apart, by reference, the last first, and the others
converted. -/
def globalParameters (document : Members) :
    Except Fault (List (String × Members) × Members) := do
  let members ← ((document.get? "parameters").getD (.obj [])).members
  let parameters ← members.mapM fun m => do return (m.1, ← m.2.members)
  let (bodies, others) := parameters.partition fun p => (p.2.get "in").isText "body"
  return (bodies.reverse.map fun p => ("#/components/parameters/" ++ p.1.display, p.2),
    others.map fun p => (p.1, convertParameter p.2))

/-- A member of the document under its new name, if it is there. -/
def carry (document : Members) (name newName : String) : Members :=
  ((document.get? name).map fun v => (Key.text newName, v)).toList

/-- An object as a member, unless it is empty. -/
def part (name : String) (members : Members) : Members :=
  if members.isEmpty then [] else [(.text name, .obj members)]

def components (document definitions parameters responses : Members) : Members :=
  [(.text "schemas", .obj definitions)] ++ part "parameters" parameters ++
    part "responses" responses ++ carry document "securityDefinitions" "securitySchemes"

/-- Converts a document whose references are moved. -/
def convertMoved (document : Members) : Except Fault Json := do
  let consumes := (document.get "consumes").orElse (.arr ["application/json"])
  let produces := (document.get "produces").orElse (.arr ["application/json"])
  let info := (document.get? "info").getD (.ofMembers [("title", ""), ("version", "")])
  let servers ← servers document
  let definitions ← convertEach document "definitions" fun _ v => .ok (convertSchema v)
  let (bodies, parameters) ← globalParameters document
  let responses ← convertEach document "responses" fun _ v => convertResponse produces v
  let paths ← convertEach document "paths" fun _ v => convertPath ⟨consumes, produces, bodies⟩ v
  return .obj <|
    [(.text "openapi", .str "3.0.3"), (.text "info", info)] ++
      (if servers.isEmpty then [] else [(.text "servers", .arr servers)]) ++
      carry document "tags" "tags" ++ carry document "security" "security" ++
      [(.text "components", .obj (components document definitions parameters responses)),
       (.text "paths", .obj paths)]

/-- Converts the members of a document that has passed the checks. -/
def convertChecked (version : String) (members : Members) : Build Json := do
  Build.info s!"Converting Swagger {version} document to OpenAPI 3"
  match convertMoved (moveRefsMembers members) with
  | .ok converted => return converted
  | .error fault => throw (if fault.isMismatch then .unsupported .swaggerConversion else fault)

/-- The OpenAPI 3 document of a Swagger 2.0 document. -/
def convert (document : Json) : Build Json := do
  let members ← Build.lift document.members
  let version := ((members.get? "swagger").getD "").display
  if version.toList.head? ≠ some '2' then
    throw (.unsupported (.swaggerVersion (Json.showText version)))
  match members.get? "paths" with
  | none | some (.obj _) => pure ()
  | some _ => throw (.unsupported .swaggerPaths)
  convertChecked version members

end TypedClient.Swagger
