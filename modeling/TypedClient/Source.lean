import TypedClient.Config
import TypedClient.FileTree
import TypedClient.Json.Reader
import TypedClient.Message
import TypedClient.Session
import TypedClient.Yaml.Reader

/-! Where descriptions and configurations come from: files and web addresses. -/
namespace TypedClient

/-- What a web address answers. -/
inductive WebAnswer where
  /-- The connection fails. -/
  | failure (reason : String)
  | response (status : Int) (reason text : String)

namespace WebAnswer

/-- The text of an answer. The statuses of client and server errors fail. -/
def content (answer : WebAnswer) (url : String) : Except String String :=
  match answer with
  | .failure reason => .error reason
  | .response status reason text =>
    if 400 ≤ status ∧ status < 500 then .error s!"{status} Client Error: {reason} for url: {url}"
    else if 500 ≤ status ∧ status < 600 then
      .error s!"{status} Server Error: {reason} for url: {url}"
    else .ok text

end WebAnswer

namespace Source

/-- The fault of a text that cannot be read. -/
def flawed (cause : LoadFailure) : Flaw → Fault
  | .malformed => .load cause
  | .numeral digits => .numeral digits

/-- The description in a file. -/
def loadFile (tree : FileTree) (directory : List String) (path : Path) : Build Json := do
  let name := path.text
  match tree.read directory path with
  | .error .notAPath => throw .notAPath
  | .error cause => throw (.load (.unreadable name cause))
  | .ok text =>
    match Yaml.parse text with
    | .error flaw => throw (flawed (.unparsable name) flaw)
    | .ok document =>
      Build.debug s!"Loaded spec from {name}"
      return document

/-- The description at a web address. -/
def loadUrl (url : String) (answer : WebAnswer) : Build Json := do
  match answer.content url with
  | .error reason => throw (.load (.fetch url reason))
  | .ok text =>
    match Yaml.parse text with
    | .error flaw => throw (flawed (.unparsableAt url) flaw)
    | .ok document =>
      Build.debug s!"Fetched spec from {url}"
      return document

/-- The configuration in a file. An output kind that does not exist and a numeral that is too long
are reported with the file. -/
def loadConfig (tree : FileTree) (directory : List String) (path : String) :
    Except Fault Config := do
  match tree.read directory (.ofText path) with
  | .error _ => throw (.load (.config path none))
  | .ok text =>
    match Json.parse text with
    | .error .malformed => throw (.load (.config path none))
    | .error (.numeral digits) =>
      throw (.load (.config path (Fault.numeral digits).explanation?))
    | .ok value =>
      match Config.ofJson value with
      | .error (.unknownOutputKind quoted) =>
        throw (.load (.config path (Fault.unknownOutputKind quoted).explanation?))
      | result => result

end Source

end TypedClient
