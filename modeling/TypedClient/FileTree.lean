import TypedClient.Fault
import TypedClient.Path

/-! A file tree: files and directories by path. -/
namespace TypedClient

inductive FileEntry where
  | directory
  | file (text : String)
deriving DecidableEq, Repr

/-- Entries by the components of their paths from the root, which is always a directory. -/
structure FileTree where
  entries : List (List String × FileEntry) := []
deriving DecidableEq, Repr

namespace FileTree

def get? (tree : FileTree) (place : List String) : Option FileEntry :=
  if place.isEmpty then some .directory else tree.entries.lookup place

/-- Sets an entry: in its place if there is one, else at the end. -/
def set (tree : FileTree) (place : List String) (entry : FileEntry) : FileTree :=
  if tree.entries.any (·.1 == place) then
    ⟨tree.entries.map fun e => if e.1 == place then (e.1, entry) else e⟩
  else ⟨tree.entries ++ [(place, entry)]⟩

def erase (tree : FileTree) (place : List String) : FileTree :=
  ⟨tree.entries.filter (·.1 != place)⟩

/-- Adds an entry and the directories above it that are missing. -/
def plant (tree : FileTree) (place : List String) (entry : FileEntry) : FileTree :=
  let above := (List.range' 1 (place.length - 1)).map place.take
  let grow (tree : FileTree) (place : List String) : FileTree :=
    if (tree.get? place).isSome then tree else tree.set place .directory
  (above.foldl grow tree).set place entry

/-- The most octets of a name. -/
def nameLimit : Nat := 255

/-- The most octets of a path. -/
def pathLimit : Nat := 4095

/-- Where components lead from a place. All that they lead through must be directories; the end
need not be there. -/
def locate (tree : FileTree) : List String → List String → Except Unreadable (List String)
  | here, [] => .ok here
  | here, part :: rest =>
    match tree.get? here with
    | some .directory =>
      if nameLimit < part.utf8ByteSize then .error .tooLong
      else locate tree (if part = ".." then here.dropLast else here ++ [part]) rest
    | some (.file _) => .error .notInDirectory
    | none => .error .missing

/-- Where a path leads, seen from a directory. -/
def placeOf (tree : FileTree) (directory : List String) (path : Path) :
    Except Unreadable (List String) :=
  if path.text.toList.contains '\x00' then .error .notAPath
  else if pathLimit < path.text.utf8ByteSize then .error .tooLong
  else tree.locate (if path.root = "" then directory else []) path.parts

/-- The entry of a path, seen from a directory. -/
def find (tree : FileTree) (directory : List String) (path : Path) :
    Except Unreadable FileEntry := do
  match tree.get? (← tree.placeOf directory path) with
  | some entry => return entry
  | none => throw .missing

/-- The text of a file. -/
def read (tree : FileTree) (directory : List String) (path : Path) : Except Unreadable String := do
  match ← tree.find directory path with
  | .file text => return text
  | .directory => throw .directory

/-- A path leads to a file or a directory. For one that is too long there is no answer. -/
def contains (tree : FileTree) (directory : List String) (path : Path) : Except Fault Bool :=
  match tree.find directory path with
  | .ok _ => .ok true
  | .error .tooLong => .error .pathTooLong
  | .error _ => .ok false

/-- A place is strictly below another. -/
def isBelow (above place : List String) : Bool :=
  above.isPrefixOf place && above.length < place.length

/-- The files and the empty directories below a directory, by path. -/
def listing (tree : FileTree) (directory : List String) : List (String × Option String) :=
  let below := tree.entries.filter fun e => isBelow directory e.1
  let shown (e : List String × FileEntry) : Option (String × Option String) :=
    let name := "/".intercalate (e.1.drop directory.length)
    match e.2 with
    | .file text => some (name, some text)
    | .directory => if below.any fun other => isBelow e.1 other.1 then none else some (name, none)
  (below.filterMap shown).mergeSort fun a b => a.1 ≤ b.1

end FileTree

end TypedClient
