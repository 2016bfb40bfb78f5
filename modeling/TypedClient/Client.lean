import TypedClient.Operation
import TypedClient.Render.Code
import TypedClient.Render.Layout

/-! The client of a group of operations: an object that makes the requests, and the interface that
describes its methods. -/
namespace TypedClient.Client

open Render (Code)
open Render.Code (plain naming joined)

/-- The imports of a module with declarations only. -/
def schemaImports : String :=
  "import * as Option from \"effect/Option\"\nimport * as Schema from \"effect/Schema\""

/-- The imports of a module with client code. -/
def imports (streaming : Bool) : String :=
  "\n".intercalate <|
    ["import type * as HttpClient from \"@effect/platform/HttpClient\"",
     "import * as HttpClientError from \"@effect/platform/HttpClientError\"",
     "import type * as HttpBody from \"@effect/platform/HttpBody\"",
     "import type * as Headers from \"@effect/platform/Headers\"",
     "import * as HttpClientRequest from \"@effect/platform/HttpClientRequest\"",
     "import * as HttpClientResponse from \"@effect/platform/HttpClientResponse\"",
     "import * as Effect from \"effect/Effect\"",
     "import * as Option from \"effect/Option\"",
     "import type \x7b ParseError \x7d from \"effect/ParseResult\"",
     "import * as Schema from \"effect/Schema\""] ++
    if streaming then
      ["import * as Sse from \"@effect/experimental/Sse\"",
       "import * as Stream from \"effect/Stream\""]
    else []

/-- The function that makes a request of a method. -/
def requestFunction : String → Except Fault String
  | "get" => .ok "get"
  | "put" => .ok "put"
  | "post" => .ok "post"
  | "delete" => .ok "del"
  | "options" => .ok "options"
  | "head" => .ok "head"
  | "patch" => .ok "patch"
  | "trace" => .ok "make(\"TRACE\")"
  | _ => .error .missingMember

/-- What a status of a response is decoded to. -/
inductive Decode where
  | success (status schema : String)
  /-- Fails with the decoded value. -/
  | failure (status schema : String)
  /-- Fails with a tagged error over the decoded body. -/
  | taggedFailure (status schema body : String)
  | void (status : String)
deriving DecidableEq, Repr

namespace Decode

def status : Decode → String
  | success s _ | failure s _ | taggedFailure s _ _ | void s => s

def body (status schema : String) : Code :=
  naming s!"\"{status}\": (response) => HttpClientResponse.schemaBodyJson(" schema ")(response)"

def code : Decode → Code
  | success status schema => body status schema
  | failure status schema => body status schema ++ plain ".pipe(Effect.flatMap(Effect.fail))"
  | taggedFailure status schema inner =>
    body status inner ++
      naming ".pipe(Effect.map((body) => new " schema "(body)), Effect.flatMap(Effect.fail))"
  | void status => plain s!"\"{status}\": () => Effect.void"

end Decode

/-- The table by which responses are decoded. -/
def decodes (op : Operation) : List Decode :=
  let failure (e : String × String) : Decode :=
    match named (op.errorBodies.lookup e.2) with
    | some body => .taggedFailure e.1 e.2 body
    | none => .failure e.1 e.2
  op.successes.map (fun s => .success s.1 s.2) ++ op.errors.map failure ++
    op.voidStatuses.map .void

/-- The steps that complete a request. -/
def pipeline (op : Operation) (withHeaders : Bool) : List Code :=
  let url (p : String) := s!"\"{p}\": options?.params?.[\"{p}\"] as any"
  let header (p : String) := s!"\"{p}\": options?.params?.[\"{p}\"] ?? undefined"
  let set (function : String) (members : List String) : Code :=
    plain (function ++ "(\x7b " ++ ", ".intercalate members ++ " \x7d)")
  let params :=
    if (named op.params).isNone then []
    else
      (if op.urlParams.isEmpty then []
        else [set "HttpClientRequest.setUrlParams" (op.urlParams.map url)]) ++
      (if op.headers.isEmpty || !withHeaders then []
        else [set "HttpClientRequest.setHeaders" (op.headers.map header)])
  let body : List Code := match named op.payload, op.payloadFormData with
    | none, _ => []
    | some _, true => [plain "HttpClientRequest.bodyFormDataRecord(options.payload as any)"]
    | some payload, false =>
      [naming "HttpClientRequest.schemaBodyJson(" payload ")(options.payload)"]
  params ++ [plain "HttpClientRequest.setHeaders(options?.headers ?? \x7b\x7d)"] ++ body

/-- A JSON body is encoded by an effect, so that the request itself is one. -/
def hasBodyEffect (op : Operation) : Bool :=
  (named op.payload).isSome && !op.payloadFormData

def indentLines (indent : String) (lines : List Code) : List Code :=
  lines.map (plain indent ++ ·)

/-- Lines that end in a comma. -/
def listed (lines : List Code) : List Code :=
  lines.map (· ++ plain ",")

/-- A method of the client: its request, completed by steps, and what is done with the response. -/
def methodCode (op : Operation) (function suffix : String) (steps response : List Code) : Code :=
  let args := ", ".intercalate (op.pathIds ++ ["options"])
  let (key, template) := (op.id ++ suffix, op.pathTemplate)
  let head := s!"  \"{key}\": ({args}) =>"
  let request := s!"HttpClientRequest.{function}({template}).pipe("
  joined "\n" <|
    if hasBodyEffect op then
      [plain head, plain ("    " ++ request)] ++ indentLines "      " (listed steps) ++
        [plain "      Effect.flatMap((request) => httpClient.execute(request)),"] ++
        indentLines "      " response ++ [plain "    )"]
    else
      [plain head, plain "    httpClient.execute(", plain ("      " ++ request)] ++
        indentLines "        " (listed steps) ++ [plain "      )", plain "    ).pipe("] ++
        indentLines "      " response ++ [plain "    )"]

/-- Decodes a response by its status. -/
def matchStatus (op : Operation) : List Code :=
  [plain "Effect.flatMap(HttpClientResponse.matchStatus(\x7b"] ++
    indentLines "  " (listed ((decodes op).map (·.code))) ++
    [plain "  orElse: unexpectedStatus,", plain "\x7d)),", plain "Effect.scoped,"]

/-- Decodes a response as a stream of events. -/
def decodeEvents (event : String) : List Code :=
  [plain "Effect.map((response) => response.stream),",
   plain "Stream.unwrapScoped,",
   plain "Stream.decodeText(),",
   plain "Stream.pipeThroughChannel(Sse.makeChannel()),",
   naming "Stream.mapEffect((event) => Schema.decode(Schema.parseJson(" event "))(event.data)),"]

/-- The methods of an operation: one, and another if it streams. -/
def methods (op : Operation) : Except Fault (List Code) := do
  let function ← requestFunction op.method
  let effect := methodCode op function "" (pipeline op true) (matchStatus op)
  let stream := match named op.streamSchema with
    | none => []
    | some event => [methodCode op function "Stream" (pipeline op false) (decodeEvents event)]
  return effect :: stream

/-- What happens to a status that no entry of a table names. -/
def unexpectedStatus : String :=
  "\n".intercalate
    ["const unexpectedStatus = (response: HttpClientResponse.HttpClientResponse) =>",
     "  Effect.flatMap(",
     "    Effect.orElseSucceed(response.json, () => \"Unexpected status code\"),",
     "    (description) =>",
     "      Effect.fail(",
     "        new HttpClientError.ResponseError(\x7b",
     "          request: response.request,",
     "          response,",
     "          reason: \"StatusCode\",",
     "          description: typeof description === \"string\" ? description : JSON.stringify(description),",
     "        \x7d),",
     "      ),",
     "  )"]

/-- The object that makes the requests. -/
def implementationCode (name : String) (operations : List Operation) : Except Fault Code := do
  let methods ← operations.mapM methods
  return plain (unexpectedStatus ++ "\n\n" ++
      s!"export const make = (httpClient: HttpClient.HttpClient): {name} => (\x7b\n") ++
    joined ",\n" methods.flatten ++ plain "\n\x7d)"

def implementation (name : String) (operations : List Operation) : Except Fault String :=
  return (← implementationCode name operations).text

/-- The parameters of a method. -/
def signature (op : Operation) : List Code :=
  let (params, payload) := (named op.params, named op.payload)
  let optional := if op.paramsOptional then "?" else ""
  let fields : List Code :=
    (params.map fun p => naming s!"readonly params{optional}: typeof " p ".Encoded").toList ++
      (payload.map fun p => naming "readonly payload: typeof " p ".Type").toList ++
      [plain "readonly headers?: Headers.Input"]
  let required := payload.isSome || (params.isSome && !op.paramsOptional)
  op.pathIds.map (fun id => plain (id ++ ": string")) ++
    [plain ("options" ++ (if required then "" else "?") ++ ": \x7b ") ++ joined "; " fields ++
      plain " \x7d"]

/-- The declarations that a method may fail with, each once. -/
def errorNames (op : Operation) : List String :=
  op.errors.foldl (fun acc e => if acc.contains e.2 then acc else acc ++ [e.2]) []

def errorTypes (op : Operation) : List Code :=
  [plain "HttpClientError.HttpClientError", plain "ParseError"] ++
    (if (named op.payload).isSome then [plain "HttpBody.HttpBodyError"] else []) ++
    (errorNames op).map fun error => naming "" error ""

/-- The alternatives of a success. -/
def successTypes (op : Operation) : List Code :=
  if op.successes.isEmpty then [plain "void"]
  else op.successes.map fun s => naming "typeof " s.2 ".Type"

/-- A method of the interface. -/
structure Method where
  id : String
  args : Code
  returns : Code
  description : Option String

def Method.code (m : Method) : Code :=
  plain (Render.commentLines m.description ++ "  readonly \"" ++ m.id ++ "\": (") ++ m.args ++
    plain ") => " ++ m.returns ++ plain "\n"

/-- The methods of an operation in the interface. -/
def interfaceMethods (op : Operation) : List Method :=
  let args := joined ", " (signature op)
  let (success, errors) := (joined " | " (successTypes op), joined " | " (errorTypes op))
  let effect : Method :=
    ⟨op.id, args, plain "Effect.Effect<" ++ success ++ plain ", " ++ errors ++ plain ">",
      op.description⟩
  let stream := (named op.streamSchema).map fun event : String =>
    (⟨op.id ++ "Stream", args, naming "Stream.Stream<typeof " event ".Type, " ++ errors ++ plain ">",
      none⟩ : Method)
  effect :: stream.toList

/-- The interface of the client. -/
def interfaceCode (name : String) (operations : List Operation) : Code :=
  plain s!"export interface {name} \x7b\n" ++
    (operations.flatMap interfaceMethods).flatMap (·.code) ++ plain "\x7d"

def interfaceText (name : String) (operations : List Operation) : String :=
  (interfaceCode name operations).text

end TypedClient.Client
