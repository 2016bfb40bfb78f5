import TypedClient.Braces
import TypedClient.FileTree
import TypedClient.Log

/-! Writing generated files. Text is checked before it is written, and a file reaches its place
whole: it is written beside its place and then moved there. -/
namespace TypedClient

/-- A file tree with the directory from which paths are seen, and what was reported. -/
structure Disk where
  tree : FileTree := {}
  directory : List String := []
  log : Array LogLine := #[]

/-- A step on a disk. A fault leaves the disk as the step left it. -/
abbrev Writing := EStateM Fault Disk

namespace Writing

def tree : Writing FileTree :=
  return (← get).tree

def modifyTree (f : FileTree → FileTree) : Writing Unit :=
  modify fun disk => { disk with tree := f disk.tree }

def report (level : Level) (text : String) : Writing Unit :=
  modify fun disk => { disk with log := disk.log.push ⟨level, text⟩ }

/-- Where a path leads; none if a directory on the way is missing. -/
def placeOf? (path : Path) : Writing (Option (List String)) := do
  match (← tree).placeOf (← get).directory path with
  | .ok place => return some place
  | .error .tooLong => throw .pathTooLong
  | .error .notAPath => throw .notAPath
  | .error .notInDirectory => throw .throughFile
  | .error _ => return none

/-- Makes one directory, which may be there already. False if the one above it is missing. -/
def makeDirectory (path : Path) : Writing Bool := do
  match ← placeOf? path with
  | some place =>
    match (← tree).get? place with
    | some .directory => return true
    | some (.file _) => throw .fileExists
    | none =>
      modifyTree (·.set place .directory)
      return true
  | none => return false

/-- Makes a directory and those above it; the components are given last first. -/
def makeDirectoriesFrom (root : String) : List String → Writing Unit
  | [] => return
  | part :: above => do
    let path : Path := ⟨root, (part :: above).reverse⟩
    if !(← makeDirectory path) then
      makeDirectoriesFrom root above
      let _ ← makeDirectory path

def makeDirectories (path : Path) : Writing Unit :=
  makeDirectoriesFrom path.root path.parts.reverse

/-- A name hidden beside another, with a number in eight places. -/
def hiddenName (name : String) (k : Nat) : String :=
  let digits := toString k
  "." ++ name ++ "." ++ String.ofList (List.replicate (8 - digits.length) '0') ++ digits ++ ".tmp"

/-- A hidden place in a directory that is not taken. -/
def freePlace? (tree : FileTree) (directory : List String) (name : String) :
    Option (List String) :=
  let candidates := (List.range (tree.entries.length + 1)).map fun k =>
    directory ++ [hiddenName name k]
  candidates.find? fun candidate => (tree.get? candidate).isNone

/-- Moves a file over whatever file is in a place. If a directory is there, the file is removed;
a path that ends with a step up, or nowhere, is that of a directory in use. -/
def moveFile (source : List String) (path : Path) (target : List String) (content : String) :
    Writing Unit := do
  match (← tree).get? target with
  | some .directory =>
    modifyTree (·.erase source)
    throw (if path.name = "" ∨ path.name = ".." then .occupied else .isDirectory)
  | _ => modifyTree fun tree => (tree.erase source).set target (.file content)

/-- Puts a text in the place of a path, through a temporary file if the write is to be atomic. -/
def put (atomic : Bool) (path : Path) (place : List String) (content : String) : Writing Unit := do
  if atomic then
    let beside : Path := { path.parent with parts := path.parent.parts ++ [hiddenName path.name 0] }
    match ← placeOf? beside with
    | none => throw .throughFile
    | some hidden =>
      match freePlace? (← tree) hidden.dropLast path.name with
      | none => throw .fileExists
      | some temporary =>
        modifyTree (·.set temporary (.file content))
        moveFile temporary path place content
  else
    match (← tree).get? place with
    | some .directory => throw .isDirectory
    | _ => modifyTree (·.set place (.file content))

def check (content label : String) : Writing Unit :=
  match Braces.validate content label with
  | .ok _ => return
  | .error fault => throw fault

/-- Writes one file, after making the directories above it. -/
def write (atomic validate : Bool) (path : Path) (content : String) : Writing Unit := do
  makeDirectories path.parent
  if validate then check content path.name
  match ← placeOf? path with
  | some place => put atomic path place content
  | none => throw .throughFile

/-- Writes files in order, after a check of all of them. -/
def writeAll (atomic validate : Bool) (files : List (Path × String)) : Writing Unit := do
  if validate then files.forM fun (path, content) => check content path.name
  files.forM fun (path, content) => do
    write atomic false path content
    let name := path.text
    report .info s!"Wrote {name}"

end Writing

end TypedClient
