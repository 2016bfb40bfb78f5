/-! A place in a YAML text: what follows it, with its line and its column. -/
namespace TypedClient.Yaml

def isBreak (c : Char) : Bool :=
  c == '\n' || c == '\r' || c == '\x85' || c == '\u2028' || c == '\u2029'

def isSpace (c : Char) : Bool :=
  c == ' ' || c == '\t'

/-- The end of the text, a blank or a line break. -/
def endsWord (text : List Char) : Bool :=
  match text.head? with
  | none => true
  | some c => isSpace c || isBreak c

/-- The line breaks of a run of blanks, each as one character. -/
def breaksIn : List Char → List Char
  | '\r' :: '\n' :: rest => '\n' :: breaksIn rest
  | c :: rest =>
    if c == '\n' || c == '\r' || c == '\x85' then '\n' :: breaksIn rest
    else if c == '\u2028' || c == '\u2029' then c :: breaksIn rest
    else breaksIn rest
  | [] => []

/-- What line breaks inside a scalar count as: a single one is a space, and of several the first
vanishes. -/
def folded : List Char → List Char
  | [] => []
  | first :: more => (if first != '\n' then [first] else if more.isEmpty then [' '] else []) ++ more

structure Cursor where
  text : List Char
  index : Nat := 0
  line : Nat := 0
  column : Nat := 0

namespace Cursor

/-- Goes over a character that stands before a given rest. A carriage return before a line feed
ends no line, and a byte order mark takes no column. -/
def past (c : Cursor) (char : Char) (rest : List Char) : Cursor :=
  if isBreak char && !(char == '\r' && rest.head? == some '\n') then
    ⟨rest, c.index + 1, c.line + 1, 0⟩
  else ⟨rest, c.index + 1, c.line, c.column + (if char == '\ufeff' then 0 else 1)⟩

def next (c : Cursor) : Cursor :=
  match c.text with
  | [] => c
  | char :: rest => c.past char rest

def advance (c : Cursor) : Nat → Cursor
  | 0 => c
  | count + 1 => c.next.advance count

def skipFrom (c : Cursor) (comment : Bool) : List Char → Cursor
  | [] => c
  | char :: rest =>
    if isBreak char then (c.past char rest).skipFrom false rest
    else if comment || char == ' ' || char == '#' then
      (c.past char rest).skipFrom (comment || char == '#') rest
    else c

/-- Skips spaces, comments and line breaks. -/
def skip (c : Cursor) : Cursor :=
  c.skipFrom false c.text

end Cursor

end TypedClient.Yaml
