import TypedClient.Decimal.Shortest
import TypedClient.Json.Basic
import TypedClient.Text.Digit

/-! JSON text of a value, on one line, with a blank after commas and colons. Only quotes,
backslashes and control characters are escaped. As a literal of generated code a value has a text
only if none of its integers has more digits than a numeral may have. -/
namespace TypedClient

/-- Positional between 10^-4 and 10^16, else with an exponent of at least two digits. -/
def Decimal.plainLayout : Layout := ⟨-3, 16, 2⟩

namespace Json

def hexDigits (places n : Nat) : List Char :=
  let ds := Nat.toDigits 16 n
  List.replicate (places - ds.length) '0' ++ ds

def escapeChar (c : Char) : List Char :=
  if c = '"' then ['\\', '"']
  else if c = '\\' then ['\\', '\\']
  else if c = '\n' then ['\\', 'n']
  else if c = '\r' then ['\\', 'r']
  else if c = '\t' then ['\\', 't']
  else if c.toNat = 8 then ['\\', 'b']
  else if c.toNat = 12 then ['\\', 'f']
  else if c.toNat < 0x20 then '\\' :: 'u' :: hexDigits 4 c.toNat
  else [c]

/-- A text between double quotes. -/
def quoted (text : String) : String :=
  String.ofList ('"' :: (text.toList.flatMap escapeChar ++ ['"']))

def floatText (x : Double) : String :=
  Decimal.text Decimal.plainLayout "Infinity" "NaN" x

/-- A key as text; a key that is not text takes its JSON spelling. -/
def keyText : Key → String
  | .text s => s
  | .int n => toString n
  | .float x => floatText x
  | .bool b => if b then "true" else "false"
  | .null => "null"

mutual

def print : Json → String
  | .null => "null"
  | .bool b => if b then "true" else "false"
  | .int n => toString n
  | .float x => floatText x
  | .str s => quoted s
  | .arr items => "[" ++ ", ".intercalate (printItems items) ++ "]"
  | .obj members => "\x7b" ++ ", ".intercalate (printMembers members) ++ "\x7d"

def printItems : List Json → List String
  | [] => []
  | v :: rest => v.print :: printItems rest

def printMembers : List (Key × Json) → List String
  | [] => []
  | (k, v) :: rest => (quoted (keyText k) ++ ": " ++ v.print) :: printMembers rest

end

mutual

/-- The integers in a value in the order of its text, keys among them. -/
def integers : Json → List Int
  | .int n => [n]
  | .arr items => integersOfItems items
  | .obj members => integersOfMembers members
  | .null | .bool _ | .float _ | .str _ => []

def integersOfItems : List Json → List Int
  | [] => []
  | v :: rest => v.integers ++ integersOfItems rest

def integersOfMembers : List (Key × Json) → List Int
  | [] => []
  | (.int n, v) :: rest => n :: (v.integers ++ integersOfMembers rest)
  | (_, v) :: rest => v.integers ++ integersOfMembers rest

end

/-- An integer with more digits than a numeral may have. -/
def overlong (n : Int) : Bool :=
  Nat.pow 10 Text.digitLimit ≤ n.natAbs

/-- The text of a value in generated code. -/
def literalText (value : Json) : Except Fault String :=
  match value.integers.find? overlong with
  | some n => .error (.numeral (toString n.natAbs).length)
  | none => .ok value.print

end Json

end TypedClient
