import TypedClient.Generator
import TypedClient.Operation

/-! Walking the paths of a document: every method of every path becomes an operation, and the
schemas of its parameters, body and responses are registered. -/
namespace TypedClient.Walk

open Json (null)

/-- What stays the same during a walk. -/
structure Env where
  document : Json
  brandIds : Bool := true
  untagged : Json := .str "_untagged"

def emptyObject : Json := .obj []

/-- Follows a chain of references to the first value that is none. A reference that does not
resolve or is met again ends at null. The fuel bounds the length of the chain. -/
def followFrom (document : Json) : Nat → List Key → Json → Build Json
  | 0, _, _ => throw .tooDeep
  | fuel + 1, seen, value =>
    match value with
    | .obj members =>
      match Members.get? members "$ref" with
      | none => return value
      | some pointer => do
        let key ← Build.lift pointer.toKey
        if seen.any (·.same key) then return .null
        match ← Build.lift (Pointer.resolve pointer document) with
        | some target => followFrom document fuel (key :: seen) target.fragment
        | none =>
          let shown := pointer.display
          Build.warn s!"Unresolvable reference {shown}"
          return .null
    | _ => return value

/-- Follows references; no chain has more links than there are references. -/
def follow (document value : Json) : Build Json :=
  followFrom document (Builder.refCount document + Builder.refCount value + 2) [] value

/-- A member of a value that may be missing. -/
def member (value : Json) (name : String) : Except Fault Json :=
  (value.orElse emptyObject).get name

/-- The schema of a media type in a content object. -/
def mediaSchema (content : Json) (mediaType : String) : Except Fault Json := do
  member (← member content mediaType) "schema"

/-- The schema of a parameter, which may stand under a media type. -/
def parameterSchema (parameter : Members) : Except Fault Json := do
  match parameter.get? "schema" with
  | some schema => return schema
  | none =>
    let content ← ((parameter.get "content").orElse emptyObject).members
    let schemas := content.filterMap fun m =>
      match m.2 with
      | .obj media => Members.get? media "schema"
      | _ => none
    return schemas.head?.getD emptyObject

/-- A collection holds a key: as an item, as a key or, for text, as a part. -/
def holds (collection : Json) (key : Key) : Except Fault Bool :=
  match collection, key with
  | .arr items, _ => .ok (items.any (·.sameKey key))
  | .obj members, _ => .ok (Members.has members key)
  | .str text, .text part => .ok (Text.contains text part)
  | .str _, _ => .error .notText
  | _, _ => .error .notSequence

/-- Parameters that are neither in the path nor cookies, by place and name. A later one takes the
place of an earlier one of the same place and name. -/
def collect (env : Env) (parameters : List Json) : Build (List Members) := do
  let add (acc : List ((Key × Key) × Members)) (parameter : Json) :
      Build (List ((Key × Key) × Members)) := do
    match ← follow env.document parameter with
    | .obj members =>
      let place := Members.get members "in"
      if place.isText "path" || place.isText "cookie" || place.sameKey .null then return acc
      let place ← Build.lift place.toKey
      let name ← Build.lift ((Members.get? members "name").getD "").toKey
      let same (k : Key × Key) := k.1.same place && k.2.same name
      if acc.any (same ·.1) then return acc.map fun p => if same p.1 then (p.1, members) else p
      return acc ++ [((place, name), members)]
    | _ => return acc
  return (← parameters.foldlM add []).map (·.2)

/-- The properties that parameters have together. -/
structure Params where
  properties : Members := []
  required : List Json := []
  urlParams : List String := []
  headers : List String := []

/-- The properties of one parameter with their schemas, and those that are required. A parameter
that is an object is spread over one property for each of its own. -/
def spread (parameter : Members) (schema : Json) : Except Fault (Members × List Json) := do
  let name : Except Fault Json := match parameter.get? "name" with
    | some name => .ok name
    | none => .error .missingMember
  let properties : Option Members := match schema with
    | .obj members =>
      match Members.get members "properties" with
      | .obj properties => some properties
      | _ => none
    | _ => none
  match properties with
  | some properties =>
    let required := (Members.get (← schema.members) "required").orElse (.arr [])
    let add (acc : Members × List Json) (p : Key × Json) : Except Fault (Members × List Json) := do
      let (owner, inner) := ((← name).display, p.1.display)
      let key := s!"{owner}[{inner}]"
      let needed := if ← holds required p.1 then [.str key] else []
      return (acc.1 ++ [(.text key, p.2)], acc.2 ++ needed)
    properties.foldlM add ([], [])
  | none =>
    let name ← name
    let required := if (parameter.get "required").truthy then [name] else []
    return ([(← name.toKey, schema)], required)

def addParameter (params : Params) (parameter : Members) : Except Fault Params := do
  let schema ← parameterSchema parameter
  let (properties, required) ← spread parameter schema
  let names := properties.map (·.1.display)
  let place := parameter.get "in"
  return {
    properties := properties.foldl (fun acc p => acc.set p.1 p.2) params.properties
    required := params.required ++ required
    urlParams := params.urlParams ++ if place.isText "query" then names else []
    headers := params.headers ++ if place.isText "header" then names else [] }

/-- Registers the query and header parameters as one struct. -/
def parseParameters (env : Env) (op : Operation) (schemaId : String) (parameters : List Json) :
    Build Operation := do
  let params ← Build.lift ((← collect env parameters).foldlM addParameter {})
  let op := { op with
    urlParams := op.urlParams ++ params.urlParams, headers := op.headers ++ params.headers }
  if params.properties.isEmpty then return op
  let schema := Json.ofMembers
    [("type", "object"), ("properties", .obj params.properties), ("required", .arr params.required)]
  let name ← Builder.addSchema env.brandIds (schemaId ++ "Params") schema env.document true
  return { op with params := some name, paramsOptional := params.required.isEmpty }

/-- Registers the body: JSON if there is any, else form data. -/
def parseBody (env : Env) (op : Operation) (schemaId : String) (body : Json) : Build Operation := do
  let body ← follow env.document body
  let content ← Build.lift (member body "content")
  let add (schema : Json) :=
    Builder.addSchema env.brandIds (schemaId ++ "Request") schema env.document
  match ← Build.lift (mediaSchema content "application/json") with
  | .null =>
    let content ← Build.lift (content.orElse emptyObject).members
    match content.get? "multipart/form-data" with
    | none => return op
    | some form =>
      let form ← Build.lift (form.orElse emptyObject).members
      let name ← add ((form.get? "schema").getD emptyObject)
      return { op with payload := some name, payloadFormData := true }
  | schema => return { op with payload := some (← add schema) }

/-- Records a declaration as the error of a status. -/
def registerError (op : Operation) (status name : String) : Build Operation := do
  Generator.markAsError name
  let op := { op with errors := assign op.errors (Text.lowerText status) name }
  let store ← Build.store
  if Generator.isStruct store name then
    let body := (named (Generator.bodyOf? store name)).getD (name ++ "Body")
    return { op with
      errorBodies := assign op.errorBodies name body
      classes := assign op.classes status .errorTagged }
  else return { op with classes := assign op.classes status .errorPlain }

/-- Records the declaration of a status by its leading digit. -/
def registerResponse (op : Operation) (status : String) (major : Option Nat) (name : String) :
    Build Operation := do
  if status = "default" then return { op with defaultSchema := some name }
  match major with
  | none => return op
  | some n =>
    if n < 4 then
      return { op with
        successes := assign op.successes (Text.lowerText status) name
        classes := assign op.classes status .success }
    else registerError op status name

/-- Registers the JSON schema of a response, if it has one. -/
def parseContent (env : Env) (schemaId : String) (op : Operation) (status : String)
    (major : Option Nat) (schema : Json) : Build Operation :=
  match schema with
  | .null => return op
  | schema => do
    let name ← Builder.addSchema env.brandIds (schemaId ++ status) schema env.document true
    registerResponse op status major name

/-- Registers the schema of the events of a stream. Only the first stream counts. -/
def parseStream (env : Env) (schemaId : String) (op : Operation) (stream : Json) :
    Build Operation :=
  match op.streamSchema, stream with
  | none, .null => return op
  | none, stream => do
    let name := schemaId ++ "StreamEvent"
    let name ← Builder.addSchema env.brandIds name stream env.document true
    return { op with streamSchema := some name }
  | some _, _ => return op

/-- Records a status without content. -/
def noteEmpty (op : Operation) (status : String) (major : Option Nat) (content : Json) :
    Operation :=
  match content.truthy, major with
  | false, some n =>
    if n < 4 then
      { op with
        voidStatuses := op.voidStatuses ++ [Text.lowerText status]
        classes := assign op.classes status .void }
    else
      { op with
        ignoredStatuses := op.ignoredStatuses ++ [Text.lowerText status]
        classes := assign op.classes status .ignored }
  | _, _ => op

/-- Registers the schemas of one response and classifies its status. -/
def parseResponse (env : Env) (schemaId : String) (op : Operation) (entry : Key × Json) :
    Build Operation := do
  let status := entry.1.display
  match ← follow env.document entry.2 with
  | .obj response =>
    let content := Members.get response "content"
    let schema ← Build.lift (mediaSchema content "application/json")
    let major ← Build.lift (statusMajor status)
    let op ← parseContent env schemaId op status major schema
    let stream ← Build.lift (mediaSchema content "text/event-stream")
    let op ← parseStream env schemaId op stream
    return noteEmpty op status major content
  | _ => return op

/-- Without a success the default response is one. -/
def adoptDefault (op : Operation) : Operation :=
  match op.successes, named op.defaultSchema with
  | [], some name =>
    { op with
      successes := [("2xx", name)]
      classes := assign op.classes "default" .success }
  | _, _ => op

/-- A single success of the two-hundreds stands for all of them. -/
def widenSuccess (op : Operation) : Operation :=
  match op.successes with
  | [(status, name)] =>
    if status.toList.head? = some '2' ∧ status ≠ "2xx" then { op with successes := [("2xx", name)] }
    else op
  | _ => op

def parseResponses (env : Env) (op : Operation) (schemaId : String) (responses : Json) :
    Build Operation := do
  let entries ← Build.lift (responses.orElse emptyObject).members
  return widenSuccess (adoptDefault (← entries.foldlM (parseResponse env schemaId) op))

/-- The description of an operation, or else its summary. -/
def describe (operation : Members) : Option String :=
  let text (name : String) := match operation.get name with
    | .str s => Text.nonBlank? s
    | _ => none
  text "description" <|> text "summary"

/-- The name of an operation: its id, or else its method and path. -/
def operationName (operationId : Json) (method path : String) : Except Fault String :=
  if operationId.truthy then Name.camelizeValue operationId
  else .ok (Text.upperText method ++ path)

/-- Parses one operation and registers its schemas. -/
def parseOperation (env : Env) (path : Key) (method : String) (operation : Members)
    (shared : Json) : Build Operation := do
  let path ← Builder.keyText path
  let (pathTemplate, pathIds) := processPath path
  let operationId := operation.get "operationId"
  let id ← Build.lift (operationName operationId method path)
  let tags ← Build.lift ((operation.get "tags").orElse (.arr [env.untagged])).elements
  let schemaId := Name.capitalize
    (← Build.lift (Name.camelizeValue (operationId.orElse (.str path))))
  let op : Operation :=
    { id, method, path, pathTemplate, pathIds, tags, description := describe operation }
  let shared ← Build.lift (shared.orElse (.arr [])).elements
  let own ← Build.lift ((operation.get? "parameters").getD (.arr [])).elements
  let op ← parseParameters env op schemaId (shared ++ own)
  let op ← parseBody env op schemaId (operation.get "requestBody")
  let op ← parseResponses env op schemaId (operation.get "responses")
  let upper := Text.upperText method
  Build.debug s!"Parsed {upper} {path} as {id}"
  return op

/-- The methods of a path, in the order in which they are walked. -/
def methodNames : List String :=
  ["get", "put", "post", "delete", "options", "head", "patch", "trace"]

/-- The operations of one path. -/
def walkPath (env : Env) (path : Key) (item : Json) : Build (List Operation) :=
  match item with
  | .obj members => do
    let operations ← methodNames.mapM fun (method : String) => do
      match Members.get members method with
      | .obj operation =>
        let shared := (Members.get? members "parameters").getD (.arr [])
        return some (← parseOperation env path method operation shared)
      | _ => return none
    return operations.filterMap id
  | _ => return []

/-- Walks all paths of a document. -/
def walk (env : Env) : Build (List Operation) := do
  let document ← Build.lift env.document.members
  let paths ← Build.lift ((document.get "paths").orElse emptyObject).members
  let operations ← paths.mapM fun entry => walkPath env entry.1 entry.2
  return operations.flatten

end TypedClient.Walk
