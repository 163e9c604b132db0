import TsBuild.Command.Run

/-!
# The program

The files that a command may look at are read first: all below the working directory, and in the
directories above it the plain files and the installed packages. The command itself is a
function of them.
-/

namespace TsBuild.Disk

def readFile (entry : IO.FS.DirEntry) : IO FileTree := do
  try return .file (String.fromUTF8? (← IO.FS.readBinFile entry.path))
  catch _ => return .file none

/-- An entry of a directory on disk. A link to a directory is an empty directory. -/
partial def readEntry (entry : IO.FS.DirEntry) : IO FileTree := do
  match (← entry.path.symlinkMetadata).type with
  | .dir =>
    let entries ← (← entry.path.readDir).toList.mapM fun inner => do
      return (inner.fileName, ← readEntry inner)
    return .dir entries
  | .file => readFile entry
  | .symlink => if ← entry.path.isDir then return .dir [] else readFile entry
  | .other => return .file none

def segments (path : String) : List String :=
  (Path.components path).filterMap fun
    | .name segment => some (String.ofList segment)
    | _ => none

def addEntries (tree : FileTree) (path : String) : IO FileTree := do
  let directory : IO.FS.DirEntry := ⟨path, "."⟩
  (← directory.path.readDir).foldlM (fun tree entry => do
    if (← entry.path.isDir) && entry.fileName ≠ Path.dependencyDir then return tree
    else return tree.put (segments path ++ [entry.fileName]) (← readEntry entry)) tree

/-- Adds all that is below a directory, and what counts of the directories above it. -/
def addDirectory (tree : FileTree) (path : String) : IO FileTree := do
  let above := (Path.ancestors path).drop 1
  let tree ← above.reverse.foldlM addEntries tree
  return tree.put (segments path) (← readEntry ⟨path, "."⟩)

def chosenDirectory? (arguments : List String) : Option String :=
  match Command.Line.read arguments with
  | .ok line => line.value? .cwd
  | .error _ => none

end TsBuild.Disk

open TsBuild Disk in
def main (arguments : List String) : IO UInt32 := do
  let cwd : String := (← IO.currentDir).toString
  let directories : List String := cwd :: ((chosenDirectory? arguments).map fun path => Path.absolutize path cwd).toList
  let root ← directories.foldlM (fun tree (path : String) => do
    let directory : IO.FS.DirEntry := ⟨path, "."⟩
    if ← directory.path.isDir then addDirectory tree path else return tree) (FileTree.dir [])
  let result := Command.run { root, cwd } arguments
  IO.print result.stdout
  IO.eprint result.stderr
  return UInt32.ofNat result.status
