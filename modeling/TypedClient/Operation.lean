import TypedClient.Json.Basic
import TypedClient.Name
import TypedClient.Text.Digit

/-! Operations of an API: which declarations back which parts of the request and the responses. -/
namespace TypedClient

/-- What a status of an operation means to its caller. -/
inductive ResponseClass where
  | success
  | errorTagged
  | errorPlain
  | void
  | ignored
deriving DecidableEq, Repr

def ResponseClass.name : ResponseClass → String
  | .success => "success"
  | .errorTagged => "error_tagged"
  | .errorPlain => "error_plain"
  | .void => "void"
  | .ignored => "ignored"

structure Operation where
  id : String := ""
  method : String := "get"
  path : String := ""
  /-- The path as a template literal. -/
  pathTemplate : String := ""
  pathIds : List String := []
  tags : List Json := []
  description : Option String := none
  params : Option String := none
  paramsOptional : Bool := true
  urlParams : List String := []
  headers : List String := []
  payload : Option String := none
  payloadFormData : Bool := false
  /-- The declarations of statuses. -/
  successes : List (String × String) := []
  errors : List (String × String) := []
  /-- The bodies that tagged errors are decoded through. -/
  errorBodies : List (String × String) := []
  voidStatuses : List String := []
  ignoredStatuses : List String := []
  defaultSchema : Option String := none
  streamSchema : Option String := none
  /-- Statuses as they are written. -/
  classes : List (String × ResponseClass) := []

/-- Sets the value of a key: in its place if it is there, else at the end. -/
def assign [BEq α] (pairs : List (α × β)) (key : α) (value : β) : List (α × β) :=
  if pairs.any (·.1 == key) then pairs.map fun p => if p.1 == key then (p.1, value) else p
  else pairs ++ [(key, value)]

/-- An empty name counts as none. -/
def named (name : Option String) : Option String :=
  name.filter (· != "")

namespace Operation

/-- The declarations that an operation mentions, each once. -/
def schemaNames (op : Operation) : List String :=
  let all := [op.params, op.payload] ++ op.successes.map (some ·.2) ++ op.errors.map (some ·.2) ++
    [op.defaultSchema, op.streamSchema]
  (all.filterMap named).foldl (fun acc n => if acc.contains n then acc else acc ++ [n]) []

end Operation

/-- A path in pieces: plain characters and the names of parameters. -/
inductive PathPiece where
  | char (c : Char)
  | param (name : String)

namespace PathPiece

/-- A parameter is a name between braces; other braces are plain. -/
def ofPath : List Char → List PathPiece
  | [] => []
  | c :: rest =>
    let inside := rest.takeWhile (· != '\x7d')
    let after := rest.dropWhile (· != '\x7d')
    if c = '\x7b' ∧ inside ≠ [] ∧ after ≠ [] then
      .param (Name.camelize (String.ofList inside)) :: ofPath (after.drop 1)
    else .char c :: ofPath rest
termination_by path => path.length
decreasing_by
  · have := (List.dropWhile_sublist (l := rest) (· != '\x7d')).length_le
    simp only [List.length_drop, List.length_cons]
    omega
  · simp

def text : PathPiece → String
  | .char c => String.singleton c
  | .param name => "$\x7b" ++ name ++ "\x7d"

def param? : PathPiece → Option String
  | .char _ => none
  | .param name => some name

end PathPiece

/-- A path as a template literal, and the names of its parameters. -/
def processPath (path : String) : String × List String :=
  let pieces := PathPiece.ofPath path.toList
  ("\x60" ++ String.join (pieces.map (·.text)) ++ "\x60", pieces.filterMap (·.param?))

/-- The leading digit of a status. -/
def statusMajor (status : String) : Except Fault (Option Nat) :=
  match status.toList with
  | [] => .ok none
  | c :: _ =>
    if Text.isDigit c then
      match Text.decimalValue? c with
      | some n => .ok (some n)
      | none => .error .notDecimal
    else .ok none

end TypedClient
