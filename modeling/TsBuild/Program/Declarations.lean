import TsBuild.FileTree

/-!
# Declaration files

Every program starts from the declaration files below its root directory, those
of installed packages apart.
-/

namespace TsBuild.Program

def isDeclarationName (name : String) : Bool :=
  Path.hasEnding ".d.ts" name

mutual
/-- The declaration files of a directory entry, spelled from `dir` on. A directory is opened by that
spelling, so one with too long a path is passed over. -/
def declarationsOf (dir name : String) : FileTree → List String
  | .file _ => if isDeclarationName name then [Path.join dir name] else []
  | .dir entries =>
    if name = Path.dependencyDir || (Path.join dir name).utf8ByteSize ≥ FileSystem.pathLimit then []
    else
      let below := declarationsIn (Path.join dir name) entries
      (below.mergeSort fun a b => a.1 ≤ b.1).flatMap Prod.snd
def declarationsIn (dir : String) : List (String × FileTree) → List (String × List String)
  | [] => []
  | (name, node) :: rest => (name, declarationsOf dir name node) :: declarationsIn dir rest
end

/-- The declaration files below `root`, depth first, the entries of a directory in name order. -/
def declarationFiles (fs : FileSystem) (root : String) : List String :=
  match fs.resolve root with
  | .ok (.dir entries) =>
    ((declarationsIn root entries).mergeSort fun a b => a.1 ≤ b.1).flatMap Prod.snd
  | _ => []

end TsBuild.Program
