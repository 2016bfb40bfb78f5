import TypedClient.Text.Percent
import TypedClient.Yaml.Cursor

/-! Quoted scalars of YAML. A line break inside quotes becomes one space, and the blanks around it
vanish; empty lines that follow it stay as breaks. -/
namespace TypedClient.Yaml

/-- Hexadecimal digits of a given number. -/
def hexDigits? (count : Nat) (text : List Char) : Option (Char × List Char) := do
  let digits := text.take count
  if digits.length < count then none
  let n ← digits.foldlM (fun n c => (Text.hexValue? c).map (16 * n + ·)) 0
  some (Char.ofNat n, text.drop count)

/-- The character of an escape that follows a backslash. -/
def escape? : List Char → Option (Char × List Char)
  | 'x' :: rest => hexDigits? 2 rest
  | 'u' :: rest => hexDigits? 4 rest
  | 'U' :: rest => hexDigits? 8 rest
  | c :: rest =>
    match c with
    | '0' => some ('\x00', rest)
    | 'a' => some ('\x07', rest)
    | 'b' => some ('\x08', rest)
    | 't' => some ('\t', rest)
    | '\t' => some ('\t', rest)
    | 'n' => some ('\n', rest)
    | 'v' => some ('\x0b', rest)
    | 'f' => some ('\x0c', rest)
    | 'r' => some ('\r', rest)
    | 'e' => some ('\x1b', rest)
    | ' ' => some (' ', rest)
    | '"' => some ('"', rest)
    | '\\' => some ('\\', rest)
    | '/' => some ('/', rest)
    | 'N' => some ('\x85', rest)
    | '_' => some ('\xa0', rest)
    | 'L' => some ('\u2028', rest)
    | 'P' => some ('\u2029', rest)
    | _ => none
  | [] => none

def isBlank (c : Char) : Bool :=
  isSpace c || isBreak c

/-- A run of blanks: a line break in it takes the blanks around it along. -/
def blanks (run : List Char) : List Char :=
  if run.any isBreak then folded (breaksIn run) else run

/-- A line break that is escaped: it vanishes, and those after it stay. -/
def escapedBreaks (run : List Char) : List Char :=
  (breaksIn run).drop 1

/-- What stands between double quotes, with what was read last first. -/
def doubleQuoted : Nat → List Char → List Char → Option String
  | _, read, [] => some (String.ofList read.reverse)
  | 0, _, _ => none
  | fuel + 1, read, '\\' :: rest =>
    if rest.head?.any isBreak then
      doubleQuoted fuel ((escapedBreaks (rest.takeWhile isBlank)).reverse ++ read)
        (rest.dropWhile isBlank)
    else match escape? rest with
      | some (c, rest) => doubleQuoted fuel (c :: read) rest
      | none => none
  | fuel + 1, read, c :: rest =>
    if isBlank c then
      doubleQuoted fuel ((blanks (c :: rest.takeWhile isBlank)).reverse ++ read)
        (rest.dropWhile isBlank)
    else doubleQuoted fuel (c :: read) rest

/-- What stands between single quotes. A quote in it is written twice. -/
def singleQuoted : Nat → List Char → List Char → String
  | fuel + 1, read, '\x27' :: '\x27' :: rest => singleQuoted fuel ('\x27' :: read) rest
  | fuel + 1, read, c :: rest =>
    if isBlank c then
      singleQuoted fuel ((blanks (c :: rest.takeWhile isBlank)).reverse ++ read)
        (rest.dropWhile isBlank)
    else singleQuoted fuel (c :: read) rest
  | _, read, _ => String.ofList read.reverse

/-- The characters up to the closing double quote, last first. -/
def untilDouble : List Char → List Char → Option (List Char)
  | _, [] => none
  | read, '"' :: _ => some read
  | read, '\\' :: c :: rest => untilDouble (c :: '\\' :: read) rest
  | read, c :: rest => untilDouble (c :: read) rest

/-- The characters up to the closing single quote, last first. -/
def untilSingle : List Char → List Char → Option (List Char)
  | _, [] => none
  | read, '\x27' :: '\x27' :: rest => untilSingle ('\x27' :: '\x27' :: read) rest
  | read, '\x27' :: _ => some read
  | read, c :: rest => untilSingle (c :: read) rest

/-- A quoted scalar that starts here; a text that starts with no quote holds none. -/
def quoted? (c : Cursor) : Option (String × Cursor) := do
  match c.text with
  | '"' :: rest =>
    let inside ← untilDouble [] rest
    let text ← doubleQuoted inside.length [] inside.reverse
    some (text, c.advance (inside.length + 2))
  | '\x27' :: rest =>
    let inside ← untilSingle [] rest
    some (singleQuoted inside.length [] inside.reverse, c.advance (inside.length + 2))
  | _ => none

end TypedClient.Yaml
