import TsBuild.Json.Basic
import TsBuild.Path

/-!
# File trees

The files a build reads, as a value: directories of named entries, without links
or permissions. A path is resolved step by step from the root or the working
directory, `..` going back to the directory that holds the one reached.
-/

namespace TsBuild

/-- A regular file holds a text, or bytes that are no UTF-8. -/
inductive FileTree
  | file (text : Option String)
  | dir (entries : List (String × FileTree))
  deriving Repr, Inhabited

inductive FileError
  | notFound
  | notDirectory
  | isDirectory
  | nameTooLong
  | zeroByte
  | notText
  deriving DecidableEq, Repr

def FileError.message : FileError → String
  | notFound => "No such file or directory (os error 2)"
  | notDirectory => "Not a directory (os error 20)"
  | isDirectory => "Is a directory (os error 21)"
  | nameTooLong => "File name too long (os error 36)"
  | zeroByte => "file name contained an unexpected NUL byte"
  | notText => "stream did not contain valid UTF-8"

namespace FileTree

def entries : FileTree → List (String × FileTree)
  | file _ => []
  | dir entries => entries

def nameLimit : Nat := 255

/-- Follows segments from the node on top of a stack of nodes, each in the one below it. -/
def walk (top : FileTree) (below : List FileTree) : List (List Char) → Except FileError FileTree
  | [] => .ok top
  | segment :: rest =>
    match top with
    | file _ => .error .notDirectory
    | dir entries =>
      if segment = [] || segment = ['.'] then walk top below rest
      else if segment = ['.', '.'] then
        match below with
        | [] => walk top [] rest
        | up :: below => walk up below rest
      else if Text.byteLength segment > nameLimit then .error .nameTooLong
      else match entries.lookup (String.ofList segment) with
        | none => .error .notFound
        | some node => walk node (top :: below) rest

mutual
def fileCount : FileTree → Nat
  | file _ => 1
  | dir entries => fileCountAll entries
def fileCountAll : List (String × FileTree) → Nat
  | [] => 0
  | (_, node) :: rest => node.fileCount + fileCountAll rest
end

def put (tree : FileTree) (path : List String) (node : FileTree) : FileTree :=
  match path with
  | [] => node
  | name :: rest =>
    dir (Json.insert name (((tree.entries.lookup name).getD (dir [])).put rest node) tree.entries)

def remove (tree : FileTree) (path : List String) : FileTree :=
  match path with
  | [] => tree
  | [name] => dir (tree.entries.filter fun (other, _) => other ≠ name)
  | name :: rest =>
    match tree.entries.lookup name with
    | none => tree
    | some node => dir (Json.insert name (node.remove rest) tree.entries)

end FileTree

/-- A tree and the directory relative paths start from. -/
structure FileSystem where
  root : FileTree
  cwd : String
  deriving Repr, Inhabited

namespace FileSystem

def pathLimit : Nat := 4096

def resolve (fs : FileSystem) (path : String) : Except FileError FileTree :=
  if path = "" then .error .notFound
  else if path.toList.contains '\x00' then .error .zeroByte
  else if path.utf8ByteSize ≥ pathLimit then .error .nameTooLong
  else
    let segments := Text.splitOn '/' path.toList
    if Path.isAbsolute path then fs.root.walk [] segments
    else fs.root.walk [] (Text.splitOn '/' fs.cwd.toList ++ segments)

def isFile (fs : FileSystem) (path : String) : Bool :=
  match fs.resolve path with
  | .ok (.file _) => true
  | _ => false

def isDir (fs : FileSystem) (path : String) : Bool :=
  match fs.resolve path with
  | .ok (.dir _) => true
  | _ => false

def exists? (fs : FileSystem) (path : String) : Bool :=
  fs.resolve path matches .ok _

def readText (fs : FileSystem) (path : String) : Except FileError String := do
  match ← fs.resolve path with
  | .dir _ => throw .isDirectory
  | .file none => throw .notText
  | .file (some text) => pure text

def fileCount (fs : FileSystem) : Nat := fs.root.fileCount

end FileSystem

end TsBuild
