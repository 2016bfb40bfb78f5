import TypedClient.Yaml.Node
import TypedClient.Yaml.Quoted

/-! Unquoted scalars of YAML, and collections between brackets. -/
namespace TypedClient.Yaml

def isFlowMark (c : Char) : Bool :=
  c == ',' || c == '[' || c == ']' || c == '\x7b' || c == '\x7d'

/-- A colon that ends a key. -/
def endsKey (flow : Bool) : List Char → Bool
  | ':' :: rest => endsWord rest || (flow && rest.head?.any isFlowMark)
  | _ => false

/-- An unquoted scalar can start here. -/
def startsPlain (flow : Bool) : List Char → Bool
  | [] => false
  | c :: rest =>
    if isBlank c || isFlowMark c ||
        ['#', '&', '*', '!', '|', '>', '\x27', '"', '%', '@', '\x60'].contains c then false
    else if c = '-' then !endsWord rest
    else if c = '?' || c = ':' then !flow && !endsWord rest
    else true

/-- The characters of an unquoted scalar up to a blank, a mark or the end of a key, after those
that were read, last first. -/
def word (flow : Bool) (read : List Char) : List Char → List Char
  | [] => read.reverse
  | c :: rest =>
    if isBlank c || endsKey flow (c :: rest) || (flow && (isFlowMark c || c == '?')) then
      read.reverse
    else word flow (c :: read) rest

/-- Reads the words of an unquoted scalar and the blanks between them, and gives the place where
it ends. Outside brackets a line goes on with a scalar only if it is indented so far. -/
def plainFrom (flow : Bool) (indent : Nat) : Nat → List (List Char) → Cursor → Node × Cursor
  | 0, read, c => (.plain (String.ofList read.reverse.flatten), c)
  | fuel + 1, read, c =>
    let next := word flow [] c.text
    let read := next :: read
    let stop := c.advance next.length
    let gap := stop.text.takeWhile fun c => c == ' ' || isBreak c
    let after := stop.advance gap.length
    if gap.isEmpty || after.text.head? = some '#' || (!flow && after.column < indent) ||
        (word flow [] after.text).isEmpty then
      (.plain (String.ofList read.reverse.flatten), stop)
    else plainFrom flow indent fuel (blanks gap :: read) after

/-- A key may start so many characters before its colon. -/
def keyLimit : Nat := 1024

/-- What starts at one place is a key up to another: both are on one line, and near. -/
def isKey (start here : Cursor) : Bool :=
  start.line == here.line && here.index ≤ start.index + keyLimit

mutual

/-- A value between brackets, and the place where it ends. -/
def flowValue : Nat → Cursor → Option (Node × Cursor)
  | 0, _ => none
  | fuel + 1, c =>
    match c.text with
    | '[' :: _ => flowItems fuel [] c.next.skip
    | '\x7b' :: _ => flowMembers fuel [] c.next.skip
    | '"' :: _ | '\x27' :: _ => (quoted? c).map fun (text, stop) => (.quoted text, stop)
    | text =>
      if startsPlain true text then some (plainFrom true 0 fuel [] c) else none

/-- The value after the colon of a key, unless the member ends there. -/
def flowMember : Nat → Cursor → Option (Node × Cursor)
  | 0, _ => none
  | fuel + 1, c =>
    match c.text with
    | ',' :: _ | '\x7d' :: _ | ']' :: _ => some (.empty, c)
    | _ => flowValue fuel c

/-- The items of a list after its opening bracket or a comma. A member alone is an object. -/
def flowItems : Nat → List Node → Cursor → Option (Node × Cursor)
  | 0, _, _ => none
  | fuel + 1, read, c =>
    match c.text with
    | ']' :: _ => some (.list read.reverse, c.next)
    | _ => do
      let (node, stop) ← flowValue fuel c
      let here := stop.skip
      let (node, here) ← match here.text with
        | ':' :: _ =>
          if isKey c here then
            (flowMember fuel here.next.skip).map fun (v, stop) => (.map [(node, v)], stop.skip)
          else none
        | _ => some (node, here)
      match here.text with
      | ',' :: _ => flowItems fuel (node :: read) here.next.skip
      | ']' :: _ => some (.list (node :: read).reverse, here.next)
      | _ => none

/-- The members of an object after its opening brace or a comma. A key may stand alone. -/
def flowMembers : Nat → List (Node × Node) → Cursor → Option (Node × Cursor)
  | 0, _, _ => none
  | fuel + 1, read, c =>
    match c.text with
    | '\x7d' :: _ => some (.map read.reverse, c.next)
    | _ => do
      let (key, stop) ← flowValue fuel c
      let here := stop.skip
      let (value, stop) ← match here.text with
        | ':' :: _ => if isKey c here then flowMember fuel here.next.skip else none
        | _ => some (.empty, here)
      let here := stop.skip
      match here.text with
      | ',' :: _ => flowMembers fuel ((key, value) :: read) here.next.skip
      | '\x7d' :: _ => some (.map ((key, value) :: read).reverse, here.next)
      | _ => none

end

end TypedClient.Yaml
