import TypedClient.Json.Reader
import TypedClient.Text.Search

/-! The values of unquoted YAML scalars: null, truth values, integers in five notations and
decimals; everything else is text. -/
namespace TypedClient.Yaml

def nullWords : List String :=
  ["", "~", "null", "Null", "NULL"]

def trueWords : List String :=
  ["true", "True", "TRUE", "yes", "Yes", "YES", "on", "On", "ON"]

def falseWords : List String :=
  ["false", "False", "FALSE", "no", "No", "NO", "off", "Off", "OFF"]

/-- Marks for merging and for a default, which have no value of their own. -/
def markWords : List String :=
  ["<<", "="]

/-- A leading sign: whether it is a minus, and what follows it. -/
def signed : List Char → Bool × List Char
  | '-' :: rest => (true, rest)
  | '+' :: rest => (false, rest)
  | text => (false, text)

def isDecimalDigit (c : Char) : Bool :=
  '0' ≤ c && c ≤ '9'

/-- Digits of a base, with underscores between them: their value and their number. -/
def digits? (base : Nat) (text : List Char) : Option (Nat × Nat) :=
  let add (acc : Nat × Nat) (c : Char) : Option (Nat × Nat) :=
    if c = '_' then some acc
    else match Text.hexValue? c with
      | some d => if d < base then some (base * acc.1 + d, acc.2 + 1) else none
      | none => none
  if text.isEmpty then none else text.foldlM add (0, 0)

/-- The value of digits. Some must be there, and in base ten there is a limit to them. -/
def valueOf (base : Nat) (digits : Nat × Nat) : Except Flaw Nat :=
  if digits.2 = 0 ∨ (base = 10 ∧ Text.digitLimit < digits.2) then .error (.numeral digits.2)
  else .ok digits.1

/-- A place of a sexagesimal numeral after the first: at most 59, in one digit or two. -/
def sixtieth? : List Char → Option Nat
  | [d] => if isDecimalDigit d then some (d.toNat - '0'.toNat) else none
  | [t, d] =>
    if '0' ≤ t && t ≤ '5' && isDecimalDigit d then
      some (10 * (t.toNat - '0'.toNat) + (d.toNat - '0'.toNat))
    else none
  | _ => none

/-- Digits of base ten that start with neither a zero nor an underscore. -/
def leading? (text : List Char) : Option (Except Flaw Nat) :=
  if text.head?.any ['0', '_'].contains then none else (digits? 10 text).map (valueOf 10)

/-- A numeral without its sign. Its notation shows at the start, or in the colons between the
places of a sexagesimal one; a zero before more digits is that of base eight. -/
def natural? : List Char → Option (Except Flaw Nat)
  | ['0'] => some (.ok 0)
  | '0' :: 'b' :: rest => (digits? 2 rest).map (valueOf 2)
  | '0' :: 'x' :: rest => (digits? 16 rest).map (valueOf 16)
  | '0' :: rest => (digits? 8 rest).map fun digits => .ok digits.1
  | text =>
    match Text.splitAt ':' text with
    | [] => none
    | first :: places => do
      let first ← leading? first
      let places ← places.mapM sixtieth?
      some (first.map fun n => places.foldl (fun n place => 60 * n + place) n)

def integer? (text : List Char) : Option (Except Flaw Int) :=
  let (negative, rest) := signed text
  (natural? rest).map fun n => n.map fun n => if negative then -(n : Int) else n

/-- An exponent must have a sign. -/
def exponent? : List Char → Option Int
  | [] => some 0
  | e :: sign :: rest =>
    if (e == 'e' || e == 'E') && (sign == '-' || sign == '+') && !rest.contains '_' then
      (digits? 10 rest).map fun digits => if sign == '-' then -(digits.1 : Int) else digits.1
    else none
  | _ => none

/-- A decimal has a point and digits before it, or after it if it starts with the point. -/
def decimal? (text : List Char) : Option Double := do
  let (negative, rest) := signed text
  let run (text : List Char) := text.span fun c => isDecimalDigit c || c == '_'
  let (whole, rest) := run rest
  match rest with
  | '.' :: rest =>
    let (places, rest) := run rest
    let first := if text.head? = some '.' then places.head? else whole.head?
    if !first.any isDecimalDigit then none
    let e ← exponent? rest
    let places := places.filter (· != '_')
    let digits ← digits? 10 (whole ++ places)
    some (.ofDecimal negative digits.1 (e - places.length))
  | _ => none

/-- Words for numbers that have no digits. -/
def unbounded? (text : List Char) : Option Double :=
  let (negative, rest) := signed text
  if [".inf", ".Inf", ".INF"].contains (String.ofList rest) then some (.infinite negative)
  else if [".nan", ".NaN", ".NAN"].contains (String.ofList text) then some .nan
  else none

/-- The value of an unquoted scalar. -/
def scalar (text : String) : Except Flaw Json :=
  if nullWords.contains text then .ok .null
  else if trueWords.contains text then .ok (.bool true)
  else if falseWords.contains text then .ok (.bool false)
  else if markWords.contains text then .error .malformed
  else
    let cs := text.toList
    match integer? cs, decimal? cs, unbounded? cs with
    | some n, _, _ => n.map .int
    | _, some x, _ => .ok (.float x)
    | _, _, some x => .ok (.float x)
    | _, _, _ => .ok (.str text)

end TypedClient.Yaml
