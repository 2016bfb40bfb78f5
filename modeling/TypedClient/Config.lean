import TypedClient.Json.Inherent
import TypedClient.OutputKind

/-! Configuration of a run. A member may hold any value; what is wrong with it shows where it is
used. Besides its own members, a configuration has the fixed ones of every record: its class, its
references, and all its members together, which may be replaced at once. -/
namespace TypedClient

/-- Options for writing files. -/
structure WriteOptions where
  /-- Refuse modules that are empty or broken. -/
  validate : Json := .bool true
  /-- Write through a temporary file. -/
  atomic : Json := .bool true
deriving Repr

/-- What stands in the place of the options for writing files. -/
inductive OutputSetting where
  | options (options : WriteOptions)
  /-- A plain value. -/
  | other (value : Json)
  | absent
deriving Repr

/-- What stands in the place of the output kind. -/
inductive KindSetting where
  | kind (kind : OutputKind)
  /-- A value that was never read as a kind. -/
  | other (value : Json)
deriving Repr

structure Config where
  /-- The name of the client interface. -/
  name : Json := .str "Client"
  /-- The extension of imported files. -/
  ext : Json := .str ".js"
  outputKind : KindSetting := .kind .schema
  /-- Give identifier-shaped properties nominal types. -/
  brandIds : Json := .bool true
  /-- The module of what several tags share. -/
  commonModule : Json := .str "_common"
  /-- The tag of operations without tags. -/
  untagged : Json := .str "_untagged"
  /-- Start each file with a comment on its origin. -/
  addComment : Json := .bool true
  output : OutputSetting := .options {}
  /-- A member with the name of the export itself leaves nothing to export with. -/
  exportable : Bool := true
deriving Repr

namespace KindSetting

def isSchema : KindSetting → Bool
  | .kind k => k == .schema
  | .other _ => false

/-- The value by which declarations are asked for. -/
def toJson : KindSetting → Json
  | .kind k => .str k.name
  | .other value => value

end KindSetting

/-- Sets a fixed member of a record. Its members together must be an object; the class and the
references cannot be set at all. -/
def setFixed (replace : Members → α) (record : α) : Key × Json → Except Fault α
  | (.text "__dict__", .obj members) => .ok (replace members)
  | (.text "__dict__", _) | (.text "__class__", _) => .error .unfitMember
  | (.text "__weakref__", _) => .error .fixedMember
  | _ => .ok record

namespace WriteOptions

def set (options : WriteOptions) : Key × Json → WriteOptions
  | (.text "validate_before_write", value) => { options with validate := value }
  | (.text "atomic_write", value) => { options with atomic := value }
  | _ => options

/-- Options with the members of an object and no others. -/
def replaced (members : Members) : WriteOptions :=
  members.foldl set {}

def assign (options : WriteOptions) (member : Key × Json) : Except Fault WriteOptions :=
  setFixed replaced (options.set member) member

end WriteOptions

namespace OutputSetting

/-- Sets options one by one. A plain value has no options, and refuses to have its own members
set. -/
def assign (setting : OutputSetting) (members : Members) : Except Fault OutputSetting :=
  match setting with
  | .options o => do return .options (← members.foldlM WriteOptions.assign o)
  | .other value => do
    members.forM fun m => value.setMember m.1
    return .other value
  | .absent => if members.isEmpty then .ok .absent else .error .noMembers

end OutputSetting

namespace Config

/-- Sets one member to a value as it is; unknown members are ignored. -/
def set (config : Config) : Key × Json → Config
  | (.text "name", value) => { config with name := value }
  | (.text "ext", value) => { config with ext := value }
  | (.text "output_kind", value) => { config with outputKind := .other value }
  | (.text "brand_ids", value) => { config with brandIds := value }
  | (.text "common_module_name", value) => { config with commonModule := value }
  | (.text "untagged_name", value) => { config with untagged := value }
  | (.text "add_generation_comment", value) => { config with addComment := value }
  | (.text "output", value) => { config with output := .other value }
  | (.text "to_dict", _) => { config with exportable := false }
  | _ => config

/-- A configuration with the members of an object and no others. There are no options for writing
files unless they are among them. -/
def replaced (members : Members) : Config :=
  members.foldl set { output := .absent }

/-- Sets one member. An output kind is read, and options for writing files are set one by one. -/
def assign (config : Config) (member : Key × Json) : Except Fault Config :=
  match member with
  | (.text "output", .obj members) => do
    return { config with output := ← config.output.assign members }
  | (.text "output_kind", value) => do
    return { config with outputKind := .kind (← OutputKind.parse value) }
  | _ => setFixed replaced (config.set member) member

/-- The configuration that an object describes. -/
def ofJson (value : Json) : Except Fault Config := do
  (← value.members).foldlM assign {}

def writeOptions (config : Config) : Except Fault WriteOptions :=
  match config.output with
  | .options options => .ok options
  | .other _ | .absent => .error .noMembers

def kindName (config : Config) : Except Fault String :=
  match config.outputKind with
  | .kind kind => .ok kind.name
  | .other _ => .error .noMembers

def toJson (config : Config) : Except Fault Json := do
  if !config.exportable then throw .notOperation
  let kind ← config.kindName
  let options ← config.writeOptions
  return .ofMembers
    [("name", config.name), ("ext", config.ext), ("output_kind", .str kind),
     ("brand_ids", config.brandIds), ("common_module_name", config.commonModule),
     ("untagged_name", config.untagged), ("add_generation_comment", config.addComment),
     ("output", .ofMembers
       [("validate_before_write", options.validate), ("atomic_write", options.atomic)])]

end Config

end TypedClient
