import TypedClient.Text.Range

/-! White space of all scripts, and its removal from the ends of a text. -/
namespace TypedClient.Text

def blankRanges : List (Nat × Nat) :=
  [(0x9, 0xD), (0x1C, 0x20), (0x85, 0x85), (0xA0, 0xA0), (0x1680, 0x1680), (0x2000, 0x200A),
   (0x2028, 0x2029), (0x202F, 0x202F), (0x205F, 0x205F), (0x3000, 0x3000)]

def isBlank (c : Char) : Bool :=
  inRanges blankRanges c

/-- Removes characters of a class from both ends. -/
def trim (drop : Char → Bool) (text : List Char) : List Char :=
  ((text.dropWhile drop).reverse.dropWhile drop).reverse

/-- The text without white space at its ends. -/
def stripped (text : String) : String :=
  String.ofList (trim isBlank text.toList)

/-- The text without line feeds at its ends. -/
def chomped (text : String) : String :=
  String.ofList (trim (· == '\n') text.toList)

end TypedClient.Text
