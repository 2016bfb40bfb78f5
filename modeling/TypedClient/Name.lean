import TypedClient.Text.Blank
import TypedClient.Text.Case
import TypedClient.Json.Basic

/-! Names: camel case for methods, capitalised identifiers for declarations, kebab case for
files, and the brands of identifier-shaped properties. -/
namespace TypedClient.Name

/-- How a piece of text takes part in a name. -/
inductive Role where
  | letter
  | digit
  | symbol
deriving DecidableEq, Repr

/-- Joins the pieces that are letters or digits. A letter is raised after a symbol or a digit, and
nothing is kept before the first letter. The name so far is kept last piece first. -/
def assemble (role : α → Role) (raise keep : α → List Char) :
    List (List Char) → Bool → List α → List Char
  | acc, _, [] => acc.reverse.flatten
  | acc, pending, x :: rest =>
    match role x with
    | .letter => assemble role raise keep ((if pending then raise x else keep x) :: acc) false rest
    | .digit =>
      if acc.isEmpty then assemble role raise keep acc pending rest
      else assemble role raise keep (keep x :: acc) true rest
    | .symbol => assemble role raise keep acc (if acc.isEmpty then pending else true) rest

/-- Only ASCII letters and digits take part in a name. -/
def roleOf (c : Char) : Role :=
  if ('a' ≤ c ∧ c ≤ 'z') ∨ ('A' ≤ c ∧ c ≤ 'Z') then .letter
  else if '0' ≤ c ∧ c ≤ '9' then .digit
  else .symbol

/-- Camel case of a text: symbols and leading digits are dropped. -/
def camelize (text : String) : String :=
  String.ofList (assemble roleOf (fun c => [c.toUpper]) (fun c => [c]) [] false text.toList)

/-- A word takes part by its place in the order of texts, like a character. -/
def roleOfWord (word : String) : Role :=
  if ("a" ≤ word ∧ word ≤ "z") ∨ ("A" ≤ word ∧ word ≤ "Z") then .letter
  else if "0" ≤ word ∧ word ≤ "9" then .digit
  else .symbol

/-- Camel case of a sequence of words, each one piece. -/
def camelizeWords (words : List String) : String :=
  String.ofList
    (assemble roleOfWord (fun w => Text.upper w.toList) String.toList [] false words)

/-- Camel case of a text or of a sequence of words. -/
def camelizeValue : Json → Except Fault String
  | .str s => .ok (camelize s)
  | v => do
    let words ← (← v.elements).mapM fun
      | .str s => .ok s
      | _ => .error .incomparable
    return camelizeWords words

/-- Raises the first character only. -/
def capitalize (text : String) : String :=
  match text.toList with
  | [] => ""
  | c :: rest => String.ofList (Text.upperChar c ++ rest)

/-- Camel case that starts with a capital. -/
def identifier (text : String) : String :=
  capitalize (camelize text)

def isLower (c : Char) : Bool := 'a' ≤ c ∧ c ≤ 'z'

def isUpper (c : Char) : Bool := 'A' ≤ c ∧ c ≤ 'Z'

def isDecimal (c : Char) : Bool := '0' ≤ c ∧ c ≤ '9'

/-- Sets a dash between a small letter or digit and a capital. -/
def splitHumps : List Char → List Char
  | a :: b :: rest =>
    if (isLower a || isDecimal a) && isUpper b then a :: '-' :: splitHumps (b :: rest)
    else a :: splitHumps (b :: rest)
  | rest => rest

/-- Sets a dash before the last capital of a run that a small letter follows. -/
def splitAcronyms : List Char → List Char
  | a :: b :: c :: rest =>
    if isUpper a && isUpper b && isLower c then a :: '-' :: splitAcronyms (b :: c :: rest)
    else a :: splitAcronyms (b :: c :: rest)
  | rest => rest

/-- Replaces every run of other characters by one dash. -/
def dashRuns : Bool → List Char → List Char
  | _, [] => []
  | dashed, c :: rest =>
    if isLower c || isDecimal c then c :: dashRuns false rest
    else if dashed then dashRuns true rest
    else '-' :: dashRuns true rest

/-- Kebab case, for file names. -/
def kebab (text : String) : String :=
  let humps := splitAcronyms (splitHumps text.toList)
  String.ofList (Text.trim (· == '-') (dashRuns false (Text.lower humps)))

/-- A text ends in a word that one of the given characters comes before. -/
def endsAfter (before : Char → Bool) (word : String) (reversed : List Char) : Bool :=
  let w := word.toList.reverse
  w.isPrefixOf reversed &&
    match reversed.drop w.length with
    | c :: _ => before c
    | [] => false

/-- The shape of an identifier, on the characters of a key in reverse. -/
def idShapedReversed (reversed : List Char) : Bool :=
  let smallOrDigit (c : Char) := isLower c || isDecimal c
  reversed == "id".toList.reverse || reversed == "uuid".toList.reverse ||
    endsAfter smallOrDigit "Id" reversed || endsAfter (· == '_') "id" reversed ||
    endsAfter smallOrDigit "Uuid" reversed || endsAfter (· == '_') "uuid" reversed

/-- A key looks like an identifier: `id`, `userId`, `user_id`, `uuid`, … One line feed at the end
does not count. -/
def isIdShaped (key : String) : Bool :=
  match key.toList.reverse with
  | '\n' :: rest => idShapedReversed rest || idShapedReversed ('\n' :: rest)
  | reversed => idShapedReversed reversed

/-- The brand of an identifier-shaped key; a bare `id` or `uuid` takes the name of its owner. -/
def brandOf (key owner : String) : String :=
  if key = "id" ∨ key = "uuid" then owner ++ capitalize key else identifier key

end TypedClient.Name

namespace TypedClient.Text

/-- The text without white space at its ends, unless nothing is left. -/
def nonBlank? (text : String) : Option String :=
  let s := stripped text
  if s = "" then none else some s

end TypedClient.Text
