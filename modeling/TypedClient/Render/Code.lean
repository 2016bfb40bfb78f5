/-! Code in pieces, in which the names of declarations are pieces of their own. -/
namespace TypedClient.Render

inductive Piece where
  | text (content : String)
  /-- The name of a declaration. -/
  | name (content : String)
deriving Repr

namespace Piece

def content : Piece → String
  | .text s | .name s => s

def name? : Piece → Option String
  | .text _ => none
  | .name s => some s

end Piece

abbrev Code := List Piece

namespace Code

def plain (text : String) : Code :=
  [.text text]

/-- A name between two texts. -/
def naming (before name after : String) : Code :=
  [.text before, .name name, .text after]

def text (code : Code) : String :=
  String.join (code.map (·.content))

/-- The declarations that code mentions. -/
def names (code : Code) : List String :=
  code.filterMap (·.name?)

/-- Parts with a text between them. -/
def joined (separator : String) (parts : List Code) : Code :=
  List.intercalate (plain separator) parts

end Code

end TypedClient.Render
