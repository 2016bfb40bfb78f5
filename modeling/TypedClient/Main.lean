import TypedClient.Command

/-! The program: shows a command the files that its arguments name, runs it, and carries out what
it wrote. Web addresses cannot be reached from here. -/
namespace TypedClient.Main

/-- The texts in an argument that may be paths: the argument itself and the value it may hold. -/
def pathsIn (argument : String) : List String :=
  let cs := argument.toList
  [argument, String.ofList ((cs.dropWhile (· != '=')).drop 1), String.ofList (cs.drop 2)]

/-- Adds what is found in a place to a tree. -/
def observe (tree : FileTree) (place : List String) : IO FileTree := do
  let path := (← IO.currentDir) / ("/" ++ "/".intercalate place)
  if ← path.isDir then return tree.set place .directory
  try
    return tree.set place (.file (← IO.FS.readFile path))
  catch _ => return tree

/-- Adds a path, the directories above it and the entries below it. -/
def observePath (directory : List String) (tree : FileTree) (text : String) : IO FileTree := do
  let place := (Path.absolute directory text).parts
  let mut tree := tree
  for length in List.range' 1 place.length do
    tree ← observe tree (place.take length)
  if tree.get? place = some .directory then
    for entry in ← ((← IO.currentDir) / ("/" ++ "/".intercalate place)).readDir do
      tree ← observe tree (place ++ [entry.fileName])
  return tree

/-- Carries out one change. A file is written beside its place and then moved there. -/
def carryOut (change : List String × FileEntry) : IO Unit := do
  let path := "/" ++ "/".intercalate change.1
  match change.2 with
  | .directory => IO.FS.createDirAll path
  | .file text =>
    let temporary := path ++ ".tmp"
    IO.FS.writeFile temporary text
    IO.FS.rename temporary path

end TypedClient.Main

open TypedClient in
/-- Runs a command line and gives its exit code. -/
def main (arguments : List String) : IO UInt32 := do
  let directory := Path.partsOf (← IO.currentDir).toString
  let mut tree : FileTree := {}
  for text in "." :: arguments.flatMap Main.pathsIn do
    tree ← Main.observePath directory tree text
  let outcome := Command.run ⟨tree, directory, fun _ => .failure "no network"⟩ arguments
  let known := tree.entries
  for change in outcome.tree.entries.filter fun e => !known.contains e do
    Main.carryOut change
  IO.print outcome.printed
  IO.eprint outcome.notes
  return UInt32.ofNat outcome.ending.exitCode
