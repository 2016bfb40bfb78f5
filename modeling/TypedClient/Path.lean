import TypedClient.Text.Search

/-! File paths as text: a root and components. Empty and dot components vanish; a component that
goes up stays. -/
namespace TypedClient

structure Path where
  /-- Slashes before the first component: none, one or two. -/
  root : String := ""
  parts : List String := []
deriving DecidableEq, Repr

namespace Path

def partsOf (text : String) : List String :=
  ((Text.splitAt '/' text.toList).map String.ofList).filter fun p => p != "" && p != "."

/-- Two slashes at the start are a root of their own, any other number is one slash. -/
def rootOf (text : String) : String :=
  match (text.toList.takeWhile (· == '/')).length with
  | 0 => ""
  | 2 => "//"
  | _ => "/"

def ofText (text : String) : Path :=
  ⟨rootOf text, partsOf text⟩

def text (path : Path) : String :=
  let text := path.root ++ "/".intercalate path.parts
  if text = "" then "." else text

/-- A path seen from another; one with a root stays as it is. -/
def join (base : Path) (other : Path) : Path :=
  if other.root = "" then ⟨base.root, base.parts ++ other.parts⟩ else other

def name (path : Path) : String :=
  path.parts.getLast?.getD ""

def parent (path : Path) : Path :=
  { path with parts := path.parts.dropLast }

/-- The name without its last extension. A dot at the start or the end begins none. -/
def stem (path : Path) : String :=
  let name := path.name.toList
  let ext := name.reverse.takeWhile (· != '.')
  let base := name.take (name.length - ext.length - 1)
  if ext.isEmpty || ext.length = name.length || base.isEmpty then path.name
  else String.ofList base

/-- Components with the steps up carried out. -/
def normalizeFrom : List String → List String → List String
  | acc, [] => acc.reverse
  | acc, ".." :: rest => normalizeFrom acc.tail rest
  | acc, part :: rest => normalizeFrom (part :: acc) rest

/-- The absolute path of a text, seen from a directory. -/
def absolute (directory : List String) (text : String) : Path :=
  let path := ofText text
  let parts := if path.root = "" then directory ++ path.parts else path.parts
  ⟨"/", normalizeFrom [] parts⟩

end Path

end TypedClient
