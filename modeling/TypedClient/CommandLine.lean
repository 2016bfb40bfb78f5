import TypedClient.FileTree
import TypedClient.Json.Display
import TypedClient.Text.Case
import TypedClient.Text.Similar

/-! Command lines: the rules of a command, the reading of arguments by these rules, and a command
line as it is shown to a reader. -/
namespace TypedClient

/-- What the value of a parameter must be. -/
inductive ValueRule where
  | text
  /-- One of some words, in any letter case. -/
  | oneOf (words : List String)
  /-- A file that is there. -/
  | source
  /-- A file, which may be missing. -/
  | target
  /-- A directory, which may be missing. -/
  | directory
deriving Repr

structure OptionRule where
  name : String
  short : Char
  /-- None for a flag. -/
  rule : Option ValueRule
  /-- The value where the option is not given. -/
  absent : Json := .null
deriving Repr

structure ArgumentRule where
  name : String
  required : Bool
  rule : ValueRule
deriving Repr

structure CommandRule where
  name : String
  options : List OptionRule
  arguments : List ArgumentRule := []
deriving Repr

/-- Why a command line is refused. -/
inductive UsageFault where
  | noCommand
  /-- Known names that are like it go along. -/
  | unknownCommand (name : String) (similar : List String)
  | unknownOption (name : String) (similar : List String)
  | noValue (name : String)
  | needlessValue (name : String)
  | missingArgument (label : String)
  | invalid (label reason : String)
  | extra (arguments : List String)
  | notOneSource
  /-- A value on which the reading itself fails. -/
  | broken (fault : Fault)
  /-- No fault: the user asks how the program is used. -/
  | helpAsked
deriving Repr

namespace UsageFault

/-- Asks whether one of some names was meant. -/
def question (names : List String) : String :=
  match names.map Json.showText with
  | [] => ""
  | [name] => s!" Did you mean {name}?"
  | names =>
    let list := ", ".intercalate names
    s!" (Did you mean one of: {list}?)"

def message : UsageFault → String
  | .noCommand => "Missing command."
  | .unknownCommand name similar =>
    let (name, question) := (Json.showText name, question similar)
    s!"No such command {name}.{question}"
  | .unknownOption name similar =>
    let (name, question) := (Json.showText name, question similar)
    s!"No such option {name}.{question}"
  | .noValue name =>
    let name := Json.showText name
    s!"Option {name} requires an argument."
  | .needlessValue name =>
    let name := Json.showText name
    s!"Option {name} does not take a value."
  | .missingArgument label => s!"Missing argument '{label}'."
  | .invalid label reason => s!"Invalid value for {label}: {reason}"
  | .extra arguments =>
    let noun := if arguments.length = 1 then "argument" else "arguments"
    let list := " ".intercalate arguments
    s!"Got unexpected extra {noun} ({list})"
  | .notOneSource => "Exactly one of --spec or --url must be given"
  | .broken _ | .helpAsked => ""

end UsageFault

namespace OptionRule

def long (option : OptionRule) : String :=
  "--" ++ option.name

def isFlag (option : OptionRule) : Bool :=
  option.rule.isNone

def label (option : OptionRule) : String :=
  let (long, short) := (option.long, option.short)
  s!"'{long}' / '-{short}'"

end OptionRule

namespace ArgumentRule

/-- The name in capitals; brackets around that of an argument that may be left out. -/
def label (argument : ArgumentRule) : String :=
  let name := Text.upperText argument.name
  if argument.required then name else "[" ++ name ++ "]"

end ArgumentRule

namespace CommandLine

/-- The options in the order in which they are given, and the other arguments. -/
structure Given where
  options : List (String × Option String) := []
  arguments : List String := []
deriving Repr

/-- Options that one argument gives, and one whose value is the next argument. -/
structure Step where
  given : List (String × Option String) := []
  pending? : Option (String × String) := none

/-- Reads letters after a dash: flags, then an option with what follows it as its value. -/
def readLetters (command : CommandRule) : List Char → Except UsageFault Step
  | [] => .ok {}
  | c :: rest =>
    match command.options.find? (·.short == c) with
    | none => .error (.unknownOption (String.ofList ['-', c]) [])
    | some option =>
      if option.isFlag then do
        let step ← readLetters command rest
        return { step with given := (option.name, none) :: step.given }
      else if rest.isEmpty then .ok { pending? := some (option.name, String.ofList ['-', c]) }
      else .ok { given := [(option.name, some (String.ofList rest))] }

/-- The option that every command has. -/
def help : String := "--help"

def longNames (command : CommandRule) : List String :=
  command.options.map (·.long) ++ [help]

/-- An option that asks for help, or one that is not known to start with two dashes. -/
def refuseOption (known : List String) (name : String) (value : Option String) : UsageFault :=
  if !known.contains name then .unknownOption name (Text.suggestions known name)
  else if value.isSome then .needlessValue name
  else .helpAsked

/-- The name of an option, and the value that may follow it after an equals sign. -/
def splitOption (argument : String) : String × Option String :=
  let cs := argument.toList
  let after := String.ofList ((cs.dropWhile (· != '=')).drop 1)
  (String.ofList (cs.takeWhile (· != '=')), if cs.contains '=' then some after else none)

/-- Reads an argument that starts with a dash. -/
def readOption (command : CommandRule) (argument : String) : Except UsageFault Step :=
  let (name, value) := splitOption argument
  match command.options.find? (·.long == name), value with
  | some option, some value =>
    if option.isFlag then .error (.needlessValue name)
    else .ok { given := [(option.name, some value)] }
  | some option, none =>
    if option.isFlag then .ok { given := [(option.name, none)] }
    else .ok { pending? := some (option.name, name) }
  | none, _ =>
    if "--".toList.isPrefixOf argument.toList then
      .error (refuseOption (longNames command) name value)
    else readLetters command (argument.toList.drop 1)

/-- Reads all arguments. After two dashes, no argument is an option. -/
def read (command : CommandRule) (given : Given) : List String → Except UsageFault Given
  | [] => .ok given
  | argument :: rest =>
    if argument = "--" then .ok { given with arguments := given.arguments ++ rest }
    else if argument.toList.head? = some '-' ∧ argument ≠ "-" then
      match readOption command argument with
      | .error fault => .error fault
      | .ok step =>
        let given := { given with options := given.options ++ step.given }
        match step.pending?, rest with
        | none, rest => read command given rest
        | some (_, shown), [] => .error (.noValue shown)
        | some (name, _), value :: rest =>
          read command { given with options := given.options ++ [(name, some value)] } rest
    else read command { given with arguments := given.arguments ++ [argument] } rest

/-- Letters without their case; the long s is an s. -/
def folded (text : String) : String :=
  Text.lowerText (text.map fun c => if c = 'ſ' then 's' else c)

/-- What a path leads to, if it can be followed at all. -/
def entryAt (tree : FileTree) (directory : List String) (path : Path) :
    Except UsageFault (Option FileEntry) :=
  match tree.find directory path with
  | .ok entry => .ok (some entry)
  | .error .notAPath => .error (.broken .notAPath)
  | .error _ => .ok none

/-- The value of a parameter by its rule. Paths become absolute. -/
def convert (tree : FileTree) (directory : List String) (rule : ValueRule) (label value : String) :
    Except UsageFault Json :=
  let quoted := Json.showText value
  let path := Path.absolute directory value
  let fail (reason : String) : Except UsageFault Json := .error (.invalid label reason)
  match rule with
  | .text => .ok (.str value)
  | .oneOf words =>
    match words.find? fun w => folded w == folded value with
    | some w => .ok (.str w)
    | none =>
      let list := ", ".intercalate (words.map fun w => Json.showText (folded w))
      fail s!"{quoted} is not one of {list}."
  | .source => do
    match ← entryAt tree directory path with
    | none => fail s!"File {quoted} does not exist."
    | some .directory => fail s!"File {quoted} is a directory."
    | some (.file _) => .ok (.str path.text)
  | .target => do
    match ← entryAt tree directory path with
    | some .directory => fail s!"File {quoted} is a directory."
    | _ => .ok (.str path.text)
  | .directory => do
    match ← entryAt tree directory path with
    | some (.file _) => fail s!"Directory {quoted} is a file."
    | _ => .ok (.str path.text)

/-- The value of an option: the last one given, or that of an absent option. -/
def optionValue (tree : FileTree) (directory : List String) (given : Given) (option : OptionRule) :
    Except UsageFault Json :=
  match option.rule, (given.options.filter (·.1 == option.name)).getLast? with
  | none, some _ => .ok (.bool true)
  | none, none => .ok option.absent
  | some rule, some (_, value) => convert tree directory rule option.label (value.getD "")
  | some rule, none =>
    match option.absent with
    | .str value => convert tree directory rule option.label value
    | value => .ok value

def argumentValue (tree : FileTree) (directory : List String) (argument : ArgumentRule) :
    Option String → Except UsageFault Json
  | some value => convert tree directory argument.rule ("'" ++ argument.label ++ "'") value
  | none => if argument.required then .error (.missingArgument argument.label) else .ok .null

/-- The options that are given, in the order in which they are first given. -/
def givenOptions (command : CommandRule) (given : Given) : List OptionRule :=
  let names := given.options.foldl (fun acc o => if acc.contains o.1 then acc else acc ++ [o.1]) []
  names.filterMap fun name => command.options.find? (·.name == name)

/-- The values of all parameters. Options that are given are checked first, in their order, then
the arguments, then the options that are absent. -/
def parse (tree : FileTree) (directory : List String) (command : CommandRule)
    (arguments : List String) : Except UsageFault Members := do
  let given ← read command {} arguments
  let first := givenOptions command given
  let last := command.options.filter fun o => !(first.any fun other => other.name == o.name)
  let option (o : OptionRule) : Except UsageFault (Key × Json) := do
    return (.text o.name, ← optionValue tree directory given o)
  let argument (a : ArgumentRule × Nat) : Except UsageFault (Key × Json) := do
    return (.text a.1.name, ← argumentValue tree directory a.1 given.arguments[a.2]?)
  let options ← first.mapM option
  let values ← command.arguments.zipIdx.mapM argument
  let others ← last.mapM option
  match given.arguments.drop command.arguments.length with
  | [] => return options ++ values ++ others
  | extra => throw (.extra extra)

def program : String := "openapigen"

/-- The value of an option as it is shown: that of a path by its last component. -/
def shownValue (tree : FileTree) (directory : List String) : Json → Except Fault String
  | .str text => do
    let path := Path.ofText text
    return if ← tree.contains directory path then path.name else text
  | value => .ok value.display

/-- An option as it is shown, unless it is absent. -/
def shownOption (tree : FileTree) (directory : List String) (params : Members)
    (option : OptionRule) : Except Fault (List String) :=
  match Members.get? params option.name with
  | none | some .null | some (.bool false) => .ok []
  | some value =>
    if option.absent.key?.any value.sameKey then .ok []
    else if option.isFlag then .ok [option.long]
    else do return [option.long, ← shownValue tree directory value]

/-- A command line with the values of its parameters. Without any, it is the program alone. -/
def shown (tree : FileTree) (directory : List String) (command : CommandRule) (params : Members) :
    Except Fault String :=
  if params.isEmpty then .ok program
  else do
    let options ← command.options.mapM (shownOption tree directory params)
    return " ".intercalate ([program, command.name] ++ options.flatten)

end CommandLine

end TypedClient
