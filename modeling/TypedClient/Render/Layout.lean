import TypedClient.Comment
import TypedClient.Text.Blank

/-! What the two kinds of output share: the names in force where a declaration is written, and the
layout of documented members. -/
namespace TypedClient.Render

/-- The names in force where a declaration is written. -/
structure Scope where
  /-- References to these names go to other declarations. -/
  aliases : List (String × String) := []
  /-- Names that are declared later, or just now. -/
  deferred : List String := []

/-- The declaration that a reference goes to. -/
def Scope.target (scope : Scope) (name : String) : String :=
  (scope.aliases.lookup name).getD name

/-- The comment before a line inside a block. -/
def commentLines (description : Option String) : String :=
  match description with
  | some text => Text.indented (Comment.block text)
  | none => ""

/-- A line inside a block, after its comment if it has one. -/
def documented (description : Option String) (line : String) : String :=
  commentLines description ++ "  " ++ line ++ "\n"

/-- Blocks with an empty line between them. -/
def joinBlocks (blocks : List String) : String :=
  "\n\n".intercalate blocks

end TypedClient.Render
