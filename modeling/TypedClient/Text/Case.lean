import TypedClient.Text.CaseTable
import TypedClient.Text.Range

/-! Full case mappings: one letter may become several, and a capital sigma at the end of a word
becomes the final small sigma. -/
namespace TypedClient.Text

/-- Applies the row that covers the code point, if there is one. -/
def shiftBy (rows : List (Nat × Nat × Nat × Int)) (n : Nat) : Nat :=
  let covers (row : Nat × Nat × Nat × Int) : Bool :=
    let (first, last, step, _) := row
    first ≤ n && n ≤ last && (n - first) % step == 0
  match rows.find? covers with
  | some (_, _, _, shift) => (Int.ofNat n + shift).toNat
  | none => n

def mapCase (rows : List (Nat × Nat × Nat × Int)) (expansions : List (Nat × List Nat))
    (c : Char) : List Char :=
  match expansions.lookup c.toNat with
  | some ns => ns.map Char.ofNat
  | none => [Char.ofNat (shiftBy rows c.toNat)]

def upperChar (c : Char) : List Char :=
  if c.toNat < 0x80 then [c.toUpper] else mapCase upperRows upperExpansions c

def lowerChar (c : Char) : List Char :=
  if c.toNat < 0x80 then [c.toLower] else mapCase lowerRows lowerExpansions c

def upper (text : List Char) : List Char :=
  text.flatMap upperChar

/-- The next character that is not skipped has case. -/
def meetsCased (text : List Char) : Bool :=
  match text.dropWhile (inRanges caseIgnorableRanges) with
  | c :: _ => inRanges casedRanges c
  | [] => false

/-- Lower case of a text whose preceding characters are given, nearest first. -/
def lowerAfter (before : List Char) : List Char → List Char
  | [] => []
  | c :: rest =>
    let mapped :=
      if c = 'Σ' ∧ meetsCased before ∧ ¬ meetsCased rest then ['ς'] else lowerChar c
    mapped ++ lowerAfter (c :: before) rest

def lower (text : List Char) : List Char :=
  lowerAfter [] text

end TypedClient.Text

/-- Upper case, letter by letter. -/
def TypedClient.Text.upperText (text : String) : String :=
  String.ofList (upper text.toList)

/-- Lower case, with the final form of sigma where a word ends. -/
def TypedClient.Text.lowerText (text : String) : String :=
  String.ofList (lower text.toList)
