import TypedClient.Json.Basic
import TypedClient.Text.Digit
import TypedClient.Text.Percent

/-! JSON text. A number with a point or an exponent is binary64, any other an integer; words stand
for the binary64 values that have no digits. A repeated member keeps its first place and takes the
last value. -/
namespace TypedClient

/-- Why a text has no value. -/
inductive Flaw where
  | malformed
  /-- An integer is written with so many digits: none, or more than there may be. -/
  | numeral (digits : Nat)
deriving DecidableEq, Repr

namespace Json

def skipBlanks (text : List Char) : List Char :=
  text.dropWhile fun c => c == ' ' || c == '\t' || c == '\n' || c == '\r'

/-- Digits, with the digits read before as a number and a count. -/
def readDigits (n count : Nat) : List Char → Nat × Nat × List Char
  | c :: rest =>
    if '0' ≤ c ∧ c ≤ '9' then readDigits (10 * n + (c.toNat - '0'.toNat)) (count + 1) rest
    else (n, count, c :: rest)
  | [] => (n, count, [])

/-- The digits after a point: the number with them appended, and how many they are. -/
def readFraction (n : Nat) : List Char → Nat × Nat × List Char
  | '.' :: rest =>
    match readDigits n 0 rest with
    | (_, 0, _) => (n, 0, '.' :: rest)
    | result => result
  | text => (n, 0, text)

/-- The exponent, if one is written. -/
def readExponent (text : List Char) : Option (Int × List Char) :=
  let digits (negative : Bool) (rest : List Char) : Option (Int × List Char) :=
    match readDigits 0 0 rest with
    | (_, 0, _) => none
    | (n, _, rest) => some (if negative then -(n : Int) else n, rest)
  match text with
  | e :: '-' :: rest => if e == 'e' || e == 'E' then digits true rest else none
  | e :: '+' :: rest => if e == 'e' || e == 'E' then digits false rest else none
  | e :: rest => if e == 'e' || e == 'E' then digits false rest else none
  | [] => none

def readNumber (text : List Char) : Except Flaw (Json × List Char) :=
  let (negative, text) := match text with
    | '-' :: rest => (true, rest)
    | _ => (false, text)
  let (n, count, rest) := match text with
    | '0' :: rest => (0, 1, rest)
    | _ => readDigits 0 0 text
  if count = 0 then .error .malformed
  else
    let (digits, places, rest) := readFraction n rest
    match readExponent rest with
    | some (e, rest) => .ok (.float (.ofDecimal negative digits (e - places)), rest)
    | none =>
      if 0 < places then .ok (.float (.ofDecimal negative digits (-places)), rest)
      else if Text.digitLimit < count then .error (.numeral count)
      else .ok (.int (if negative then -(n : Int) else n), rest)

/-- Four hexadecimal digits. -/
def readUnit : List Char → Option (Nat × List Char)
  | a :: b :: c :: d :: rest => do
    let ns ← [a, b, c, d].mapM Text.hexValue?
    pure (ns.foldl (fun n x => 16 * n + x) 0, rest)
  | _ => none

/-- The character of an escape that follows a backslash. Two units of a surrogate pair make one
character; a unit that is left alone is replaced. -/
def readEscape : List Char → Option (Char × List Char)
  | 'u' :: rest => do
    let (high, rest) ← readUnit rest
    if 0xD800 ≤ high ∧ high < 0xDC00 then
      match rest with
      | '\\' :: 'u' :: more =>
        let (low, more) ← readUnit more
        if 0xDC00 ≤ low ∧ low < 0xE000 then
          pure (Char.ofNat (0x10000 + (high - 0xD800) * 0x400 + (low - 0xDC00)), more)
        else pure (Text.replacement, rest)
      | _ => pure (Text.replacement, rest)
    else if 0xDC00 ≤ high ∧ high < 0xE000 then pure (Text.replacement, rest)
    else pure (Char.ofNat high, rest)
  | c :: rest =>
    match c with
    | '"' => some ('"', rest)
    | '\\' => some ('\\', rest)
    | '/' => some ('/', rest)
    | 'b' => some (Char.ofNat 8, rest)
    | 'f' => some (Char.ofNat 12, rest)
    | 'n' => some ('\n', rest)
    | 'r' => some ('\r', rest)
    | 't' => some ('\t', rest)
    | _ => none
  | [] => none

/-- The rest of a text after its opening quote; the characters read are kept last first. -/
def readText (fuel : Nat) (read : List Char) (text : List Char) :
    Except Flaw (String × List Char) :=
  match fuel, text with
  | _, '"' :: rest => .ok (String.ofList read.reverse, rest)
  | fuel + 1, '\\' :: rest =>
    match readEscape rest with
    | some (c, rest) => readText fuel (c :: read) rest
    | none => .error .malformed
  | fuel + 1, c :: rest =>
    if c.toNat < 0x20 then .error .malformed else readText fuel (c :: read) rest
  | _, _ => .error .malformed

/-- Words that stand for a value. -/
def words : List (String × Json) :=
  [("null", .null), ("true", .bool true), ("false", .bool false), ("NaN", .float .nan),
   ("Infinity", .float (.infinite false)), ("-Infinity", .float (.infinite true))]

/-- A word or a number. -/
def readScalar (text : List Char) : Except Flaw (Json × List Char) :=
  match words.find? fun w => w.1.toList.isPrefixOf text with
  | some (word, value) => .ok (value, text.drop word.length)
  | none => readNumber text

/-- The values of a list after its opening bracket, or after a comma. -/
def readItems (value : List Char → Except Flaw (Json × List Char)) :
    Nat → List Json → List Char → Except Flaw (List Json × List Char)
  | 0, _, _ => .error .malformed
  | fuel + 1, read, text => do
    let (v, rest) ← value (skipBlanks text)
    match skipBlanks rest with
    | ',' :: rest => readItems value fuel (v :: read) rest
    | ']' :: rest => pure ((v :: read).reverse, rest)
    | _ => .error .malformed

def readMembers (budget : Nat) (value : List Char → Except Flaw (Json × List Char)) :
    Nat → List (Key × Json) → List Char → Except Flaw (List (Key × Json) × List Char)
  | 0, _, _ => .error .malformed
  | fuel + 1, read, text =>
    match skipBlanks text with
    | '"' :: rest => do
      let (name, rest) ← readText budget [] rest
      match skipBlanks rest with
      | ':' :: rest =>
        let (v, rest) ← value (skipBlanks rest)
        match skipBlanks rest with
        | ',' :: rest => readMembers budget value fuel ((.text name, v) :: read) rest
        | '\x7d' :: rest => pure (((.text name, v) :: read).reverse, rest)
        | _ => .error .malformed
      | _ => .error .malformed
    | _ => .error .malformed

/-- A value at the start of a text. The budget bounds the length of what is read, the fuel its
nesting. -/
def readValue (budget : Nat) : Nat → List Char → Except Flaw (Json × List Char)
  | 0, _ => .error .malformed
  | fuel + 1, text =>
    match text with
    | '"' :: rest => (readText budget [] rest).map fun (s, rest) => (.str s, rest)
    | '[' :: rest =>
      match skipBlanks rest with
      | ']' :: rest => .ok (.arr [], rest)
      | rest => (readItems (readValue budget fuel) budget [] rest).map fun (vs, rest) =>
        (.arr vs, rest)
    | '\x7b' :: rest =>
      match skipBlanks rest with
      | '\x7d' :: rest => .ok (.obj [], rest)
      | rest => (readMembers budget (readValue budget fuel) budget [] rest).map fun (ms, rest) =>
        (.obj (Members.ofList ms), rest)
    | _ => readScalar text

/-- Reads one value and nothing after it but blanks. -/
def parse (text : String) : Except Flaw Json := do
  let cs := text.toList
  let budget := cs.length + 1
  let (v, rest) ← readValue budget budget (skipBlanks cs)
  if (skipBlanks rest).isEmpty then .ok v else .error .malformed

end Json

end TypedClient
