import TypedClient.Json.Printer
import TypedClient.Text.Printable

/-! The display form of a value, used in messages and wherever a value stands inside other text:
text is shown as it is, and inside lists and objects it is quoted. -/
namespace TypedClient.Json

/-- Escapes of the display form inside a given quote. -/
def showChar (quote c : Char) : List Char :=
  let n := c.toNat
  if c = quote ∨ c = '\\' then ['\\', c]
  else if c = '\n' then ['\\', 'n']
  else if c = '\r' then ['\\', 'r']
  else if c = '\t' then ['\\', 't']
  else if Text.isPrintable c then [c]
  else if n < 0x100 then '\\' :: 'x' :: hexDigits 2 n
  else if n < 0x10000 then '\\' :: 'u' :: hexDigits 4 n
  else '\\' :: 'U' :: hexDigits 8 n

/-- A text between single quotes, or double ones if it has a single quote and no double one. -/
def showText (text : String) : String :=
  let cs := text.toList
  let quote := if cs.contains '\x27' && !cs.contains '"' then '"' else '\x27'
  String.ofList (quote :: (cs.flatMap (showChar quote) ++ [quote]))

def showFloat (x : Double) : String :=
  Decimal.text Decimal.plainLayout "inf" "nan" x

def showBool (b : Bool) : String :=
  if b then "True" else "False"

def showKey : Key → String
  | .text s => showText s
  | .int n => toString n
  | .float x => showFloat x
  | .bool b => showBool b
  | .null => "None"

mutual

/-- The quoted form. -/
def shown : Json → String
  | .null => "None"
  | .bool b => showBool b
  | .int n => toString n
  | .float x => showFloat x
  | .str s => showText s
  | .arr items => "[" ++ ", ".intercalate (shownItems items) ++ "]"
  | .obj members => "\x7b" ++ ", ".intercalate (shownMembers members) ++ "\x7d"

def shownItems : List Json → List String
  | [] => []
  | v :: rest => v.shown :: shownItems rest

def shownMembers : List (Key × Json) → List String
  | [] => []
  | (k, v) :: rest => (showKey k ++ ": " ++ v.shown) :: shownMembers rest

end

/-- The display form: a text alone stands without quotes. -/
def display : Json → String
  | .str s => s
  | v => v.shown

end TypedClient.Json

/-- The display form of a key. -/
def TypedClient.Key.display (k : Key) : String :=
  k.toJson.display
