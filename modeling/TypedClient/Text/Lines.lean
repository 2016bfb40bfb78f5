/-! Lines of a text under every line separator of Unicode, and block indentation. -/
namespace TypedClient.Text

/-- Characters that end a line; a carriage return and the line feed after it end one line. -/
def isLineBreak (c : Char) : Bool :=
  [0xA, 0xB, 0xC, 0xD, 0x1C, 0x1D, 0x1E, 0x85, 0x2028, 0x2029].contains c.toNat

/-- The lines that follow, of which the first starts with the characters read so far, last
first. A separator at the end opens no further line. -/
def linesFrom (line : List Char) : List Char → List (List Char)
  | [] => if line.isEmpty then [] else [line.reverse]
  | '\r' :: '\n' :: rest => line.reverse :: linesFrom [] rest
  | c :: rest =>
    if isLineBreak c then line.reverse :: linesFrom [] rest else linesFrom (c :: line) rest

def lines (text : List Char) : List (List Char) :=
  linesFrom [] text

/-- Indents every line by two blanks; an empty line stays empty unless it is the first. The text
keeps one line feed at its end if it had any line separator there. -/
def indented (text : String) : String :=
  let pad (line : List Char) := if line.isEmpty then line else ' ' :: ' ' :: line
  match lines (text.toList ++ ['\n']) with
  | [] => "  "
  | first :: rest =>
    String.ofList (['\n'].intercalate ((' ' :: ' ' :: first) :: rest.map pad))

end TypedClient.Text
