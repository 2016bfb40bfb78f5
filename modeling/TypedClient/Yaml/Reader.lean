import TypedClient.Yaml.Flow

/-! YAML text: block mappings and sequences by indentation, collections between brackets, quoted
and unquoted scalars. JSON text is read as the part of YAML that it is, up to what YAML refuses:
tabs between values, characters that cannot be printed and keys that are long. -/
namespace TypedClient.Yaml

/-- Characters that may stand in a text. -/
def isAllowed (c : Char) : Bool :=
  c == '\t' || c == '\n' || c == '\r' || (' ' ≤ c && c ≤ '~') || c == '\x85' ||
    ('\xa0' ≤ c && c ≤ '\ufffd') || 0x10000 ≤ c.toNat

def startsItem : List Char → Bool
  | '-' :: rest => endsWord rest
  | _ => false

/-- What starts here other than a block collection, and the place where it ends. -/
def unit? (indent fuel : Nat) (c : Cursor) : Option (Node × Cursor) :=
  match c.text with
  | '"' :: _ | '\x27' :: _ | '[' :: _ | '\x7b' :: _ => flowValue fuel c
  | text =>
    if startsPlain false text then some (plainFrom false indent fuel [] c) else none

/-- The place after the colon, if what starts at one place and ends at another is a key. -/
def afterKey? (start stop : Cursor) : Option Cursor :=
  let here := stop.skip
  if endsKey false here.text && isKey start here then some here.next else none

mutual

/-- A value that starts here, inside a collection of the given indentation, and the place where
the next line with content starts. On the line of its key, a value is neither a block mapping nor
a block sequence. -/
def blockValue (indent : Nat) (inline : Bool) : Nat → Cursor → Option (Node × Cursor)
  | 0, _ => none
  | fuel + 1, c =>
    if startsItem c.text then
      if inline then none else blockItems c.column fuel [] c
    else do
      let (node, stop) ← unit? indent fuel c
      match afterKey? c stop with
      | some value => if inline then none else blockMembers c.column fuel [] node value
      | none =>
        let next := stop.skip
        if next.text.isEmpty || stop.line < next.line then some (node, next) else none

/-- The items of a sequence whose dashes stand in one column. -/
def blockItems (column : Nat) : Nat → List Node → Cursor → Option (Node × Cursor)
  | 0, _, _ => none
  | fuel + 1, read, c => do
    let start := c.next.skip
    let (item, next) ←
      if start.text.isEmpty || (c.line < start.line && start.column ≤ column) then
        some (.empty, start)
      else blockValue (column + 1) false fuel start
    if next.text.isEmpty || next.column < column then some (.list (item :: read).reverse, next)
    else if column < next.column then none
    else if startsItem next.text then blockItems column fuel (item :: read) next
    else some (.list (item :: read).reverse, next)

/-- The members of a mapping whose keys stand in one column, from the value of a key on. A
sequence that is a value may stand in that column too. -/
def blockMembers (column : Nat) :
    Nat → List (Node × Node) → Node → Cursor → Option (Node × Cursor)
  | 0, _, _, _ => none
  | fuel + 1, read, key, c => do
    let start := c.skip
    let (value, next) ←
      if start.text.isEmpty then some (.empty, start)
      else if c.line == start.line then blockValue (column + 1) true fuel start
      else if column < start.column then blockValue (column + 1) false fuel start
      else if start.column = column && startsItem start.text then blockItems column fuel [] start
      else some (.empty, start)
    let read := (key, value) :: read
    if next.text.isEmpty || next.column < column then some (.map read.reverse, next)
    else if column < next.column then none
    else
      let (key, stop) ← unit? (column + 1) fuel next
      let value ← afterKey? next stop
      blockMembers column fuel read key value

end

/-- The structure of one document. Nothing at all is an empty node. -/
def node? (text : List Char) : Option Node := do
  if !text.all isAllowed then none
  let start : Cursor := ⟨text, 0, 0, 0⟩
  let start := (if text.head? = some '\ufeff' then start.next else start).skip
  if start.text.isEmpty then return .empty
  let (node, rest) ← blockValue 0 false (2 * text.length + 2) start
  if rest.text.isEmpty then some node else none

/-- Reads one document. Its structure goes before the values of its scalars. -/
def parse (text : String) : Except Flaw Json :=
  match node? text.toList with
  | some node => node.value
  | none => .error .malformed

end TypedClient.Yaml
