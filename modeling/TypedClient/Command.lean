import TypedClient.CommandLine
import TypedClient.Document
import TypedClient.Source
import TypedClient.Writer

/-! The commands: one writes the client of an API, the other the declarations of one schema. A run
maps the files before it to the files after it and to what is printed. -/
namespace TypedClient

/-- How a run ends. -/
inductive Ending where
  | done
  /-- The command line is refused. -/
  | misused (fault : UsageFault)
  /-- The input is refused. -/
  | refused (fault : Fault)
  /-- A value of the wrong kind was met, or a file operation failed. -/
  | failed (fault : Fault)

structure Outcome where
  tree : FileTree
  /-- What is printed as the result. -/
  printed : String := ""
  log : List LogLine := []
  ending : Ending := .done

namespace Ending

def ofFault (fault : Fault) : Ending :=
  if fault.isRefusal then .refused fault else .failed fault

def exitCode : Ending → Nat
  | .done => 0
  | .misused _ => 2
  | .refused _ | .failed _ => 1

/-- The text of the error for the user. -/
def message? : Ending → Option String
  | .misused fault => some fault.message
  | .refused fault => fault.message?
  | .done | .failed _ => none

end Ending

namespace Outcome

/-- What is written beside the result: reports, then the error. -/
def notes (outcome : Outcome) : String :=
  let line (l : LogLine) : String := "[" ++ CommandLine.program ++ "] " ++ l.print ++ "\n"
  let error := match outcome.ending.message? with
    | some message => "Error: " ++ message ++ "\n"
    | none => ""
  String.join (outcome.log.map line) ++ error

end Outcome

/-- What a run can see. -/
structure World where
  tree : FileTree
  directory : List String
  web : String → WebAnswer

namespace Command

def verbose : OptionRule :=
  { name := "verbose", short := 'v', rule := none, absent := .bool false }

def configFile : OptionRule :=
  { name := "config", short := 'c', rule := some .source }

/-- Writes the client of an API. -/
def syncRule : CommandRule :=
  { name := "sync"
    options :=
      [{ name := "spec", short := 's', rule := some .source },
       { name := "url", short := 'u', rule := some .text },
       { name := "name", short := 'n', rule := some .text },
       { name := "outdir", short := 'o', rule := some .directory, absent := "." },
       { name := "ext", short := 'e', rule := some .text },
       configFile, verbose] }

/-- Writes the declarations of one schema. -/
def schemaRule : CommandRule :=
  { name := "schema"
    options :=
      [{ name := "name", short := 'n', rule := some .text },
       { name := "kind", short := 'k', rule := some (.oneOf ["Schema", "Type"]) },
       configFile, verbose]
    arguments :=
      [{ name := "path", required := true, rule := .source },
       { name := "output", required := false, rule := .target }] }

/-- The comment on the origin of a file. -/
def originComment (command : String) : String :=
  "// This file was generated by " ++ CommandLine.program ++ ". Do not edit it by hand.\n// " ++
    command ++ "\n"

/-- The text of a parameter that is given. -/
def text? (params : Members) (name : String) : Option String :=
  match Members.get params name with
  | .str s => some s
  | _ => none

def loadConfig (world : World) (params : Members) : Except Fault Config :=
  match text? params "config" with
  | some path => Source.loadConfig world.tree world.directory path
  | none => .ok {}

/-- The comment on the origin of a file, if there is to be one. -/
def comment (world : World) (config : Config) (rule : CommandRule) (params : Members) :
    Except Fault (List String) := do
  if !config.addComment.truthy then return []
  return [originComment (← CommandLine.shown world.tree world.directory rule params)]

/-- Files to write, and how. -/
structure Plan where
  files : List (Path × String)
  options : WriteOptions
  modules : Nat
  operations : Nat

/-- Generates the files of a client. A name and an extension that are given go before those of
the configuration. -/
def planSync (world : World) (params : Members) : Build Plan := do
  let config ← Build.lift (loadConfig world params)
  let config := { config with
    name := (Members.get params "name").nonNull?.getD config.name
    ext := (Members.get params "ext").nonNull?.getD config.ext }
  let document ← match text? params "spec", text? params "url" with
    | some path, _ => Source.loadFile world.tree world.directory (.ofText path)
    | none, url => Source.loadUrl (url.getD "") (world.web (url.getD ""))
  let generated ← Document.generate config document
  let comment ← Build.lift (comment world config syncRule params)
  let header := String.join (comment.map (· ++ "\n"))
  let outdir := Path.ofText ((text? params "outdir").getD "")
  let files ← Build.lift (Document.files generated outdir config.ext config.commonModule header)
  let options ← Build.lift config.writeOptions
  return ⟨files, options, generated.modules.length, generated.operations.length⟩

/-- Writes the files of a client. -/
def writeSync (plan : Plan) : Writing String := do
  Writing.writeAll plan.options.atomic.truthy plan.options.validate.truthy plan.files
  let (modules, operations) := (plan.modules, plan.operations)
  Writing.report .info s!"Generated {modules} modules for {operations} operations"
  return String.join (plan.files.map fun f => "[generated] " ++ f.1.name ++ "\n")

/-- The text of one schema, and how it is to be written if it is not printed. -/
def planSchema (world : World) (params : Members) : Build (String × Option WriteOptions) := do
  let config ← Build.lift (loadConfig world params)
  let kind ← match Members.get params "kind" with
    | .null => pure config.outputKind
    | kind => do pure (.kind (← Build.lift (OutputKind.parse kind)))
  let path := Path.ofText ((text? params "path").getD "")
  let document ← Source.loadFile world.tree world.directory path
  let stem := Name.identifier path.stem
  let name := (text? params "name").getD (if stem = "" then "Schema" else stem)
  let _ ← Builder.addSchema config.brandIds.truthy name document document false
  let comment ← Build.lift (comment world config schemaRule params)
  let imports := if kind.isSchema then [Client.schemaImports] else []
  let declarations ← Generator.generate kind.toJson
  let source := "\n".intercalate (comment ++ imports ++ [declarations]) ++ "\n"
  if (text? params "output").isNone then return (source, none)
  return (source, some (← Build.lift config.writeOptions))

/-- Writes the text of one schema, or prints it. -/
def writeSchema (params : Members) (plan : String × Option WriteOptions) : Writing String := do
  match plan.2, text? params "output" with
  | some options, some output =>
    Writing.write options.atomic.truthy options.validate.truthy (.ofText output) plan.1
    Writing.report .info s!"Wrote {output}"
    return ""
  | _, _ => return plan.1

/-- Runs the two halves of a command. Reports below the level that is asked for are left out. -/
def execute (world : World) (params : Members) (plan : Build α) (write : α → Writing String) :
    Outcome :=
  let least (l : LogLine) : Bool := (Members.get params "verbose").truthy || l.level != .debug
  match plan.run {} with
  | .error fault session =>
    { tree := world.tree, log := session.log.toList.filter least, ending := .ofFault fault }
  | .ok a session =>
    match (write a).run { tree := world.tree, directory := world.directory } with
    | .error fault disk =>
      { tree := disk.tree, log := (session.log.toList ++ disk.log.toList).filter least
        ending := .ofFault fault }
    | .ok printed disk =>
      { tree := disk.tree, printed, log := (session.log.toList ++ disk.log.toList).filter least }

/-- How the program is used. -/
def usage : String :=
  "Usage: " ++ CommandLine.program ++ " [OPTIONS] COMMAND [ARGS]...\n"

def misused (world : World) (fault : UsageFault) : Outcome :=
  match fault with
  | .broken fault => { tree := world.tree, ending := .failed fault }
  | .helpAsked => { tree := world.tree, printed := usage }
  | fault => { tree := world.tree, ending := .misused fault }

def sync (world : World) (params : Members) : Outcome :=
  if (text? params "spec").isSome = (text? params "url").isSome then misused world .notOneSource
  else execute world params (planSync world params) writeSync

def schema (world : World) (params : Members) : Outcome :=
  execute world params (planSchema world params) (writeSchema params)

/-- The options that may stand before a command. -/
def programOptions : List String := ["--version", CommandLine.help]

/-- An argument where a command is expected. -/
def refuseName (name : String) : UsageFault :=
  let unknown := UsageFault.unknownCommand name
    (Text.suggestions [syncRule.name, schemaRule.name] name)
  match name.toList with
  | ['-', '-'] => unknown
  | '-' :: '-' :: _ =>
    let (option, value) := CommandLine.splitOption name
    CommandLine.refuseOption programOptions option value
  | '-' :: c :: _ => .unknownOption (String.ofList ['-', c]) []
  | _ => unknown

/-- Runs a command line. Two dashes may stand before the command. -/
def run (world : World) (arguments : List String) : Outcome :=
  let start (rule : CommandRule) (run : World → Members → Outcome) (rest : List String) : Outcome :=
    match CommandLine.parse world.tree world.directory rule rest with
    | .ok params => run world params
    | .error fault => misused world fault
  match if arguments.head? = some "--" then arguments.drop 1 else arguments with
  | [] => misused world .noCommand
  | name :: rest =>
    if name = syncRule.name then start syncRule sync rest
    else if name = schemaRule.name then start schemaRule schema rest
    else misused world (refuseName name)

end Command

end TypedClient
