import TypedClient.Text.Lines
import TypedClient.Text.Search

/-! Documentation comments. The end mark of a comment is broken up inside the text, so that the
comment ends where it should. -/
namespace TypedClient.Comment

/-- The body of a comment: every line of the text after a star. -/
def body (text : List Char) : List Char :=
  let safe := Text.replacePair '*' '/' [' ', '*', ' ', '/'] text
  ['\n', '*', ' '].intercalate (Text.splitAt '\n' safe)

/-- A description as a block comment that ends its line. -/
def block (description : String) : String :=
  "/**\n* " ++ String.ofList (body description.toList) ++ "\n*/\n"

/-- The comment of an optional description; nothing without one. -/
def ofOption : Option String → String
  | some description => block description
  | none => ""

end TypedClient.Comment
