import TsBuild.Program.Facts
import TsBuild.Program.Packages
import TsBuild.Program.Reference
import TsBuild.Program.Resolve

/-!
# Loading files

A program holds the files reached from its roots and from the installed declaration
packages, by relative imports and by reference directives, in the order in which they are
met.
-/

namespace TsBuild.Program

/-- A file to load. Only a root is missed when it cannot be read. -/
structure Request where
  name : String
  isRoot : Bool
  deriving DecidableEq, Repr

structure LoadedFile where
  source : SourceFile
  facts : Facts
  deriving Repr

/-- The files loaded so far, last first, and the roots that could not be read, last first. -/
structure Loading where
  files : List LoadedFile
  missing : List String
  deriving Repr

namespace Loading

def empty : Loading := ⟨[], []⟩

def has (loading : Loading) (name : String) : Bool :=
  loading.files.any fun file => file.source.name = name

end Loading

def importerDir (name : String) : String :=
  (Path.parent? name).getD "/"

def readSource? (fs : FileSystem) (name : String) : Option SourceFile :=
  (fs.readText name).toOption.map fun text => ⟨name, Text.withoutByteOrderMark text⟩

def referenceTarget? (fs : FileSystem) (typeRoots : List String) (importer : String) :
    Reference → Option String
  | .path path =>
    let target := Path.normalize (Path.join (importerDir importer) path)
    if fs.isFile target then some target else none
  | .types package => typeRoots.findSome? fun root => entryFile? fs (Path.join root package)

/-- What an import means in the file that holds it; a bare specifier means no file. -/
def resolveImport? (fs : FileSystem) (importer : String) (import_ : Import) : Option Resolved :=
  if isRelative import_.specifier then resolveRelative? fs (importerDir importer) import_.specifier
  else none

def importTarget? (fs : FileSystem) (importer : String) (import_ : Import) : Option String :=
  match resolveImport? fs importer import_ with
  | some (.source path) => some path
  | _ => none

def targets (fs : FileSystem) (typeRoots : List String) (file : LoadedFile) : List String :=
  (Reference.ofText file.source.text).filterMap (referenceTarget? fs typeRoots file.source.name) ++
    file.facts.imports.filterMap (importTarget? fs file.source.name)

/-- Passes over requests up to one that a file can be loaded for. What comes with it are the requests
behind it; the roots among those passed over that cannot be read are noted. -/
def takeNext (fs : FileSystem) : List Request → Loading → Option (SourceFile × List Request) × Loading
  | [], loading => (none, loading)
  | request :: queue, loading =>
    if loading.has request.name then takeNext fs queue loading
    else
      match readSource? fs request.name with
      | some source => (some (source, queue), loading)
      | none =>
        takeNext fs queue
          (if request.isRoot then { loading with missing := request.name :: loading.missing }
           else loading)

/-- Loads requested files first come, first served; what a file leads to comes last. At most `fuel`
files are loaded. -/
def loadAll (fs : FileSystem) (analyse : SourceFile → Facts) (typeRoots : List String) :
    (fuel : Nat) → List Request → Loading → Loading
  | 0, queue, loading => (takeNext fs queue loading).2
  | fuel + 1, queue, loading =>
    match takeNext fs queue loading with
    | (none, loading) => loading
    | (some (source, queue), loading) =>
      let file : LoadedFile := ⟨source, analyse source⟩
      let found := (targets fs typeRoots file).map fun name => ⟨name, false⟩
      loadAll fs analyse typeRoots fuel (queue ++ found) { loading with files := file :: loading.files }

/-- More files than a program can have: one for each request, and those they lead to. A file has one
absolute name, and fewer relative ones than a path may have bytes. -/
def loadBound (fs : FileSystem) (requests : List Request) : Nat :=
  requests.length + fs.fileCount * FileSystem.pathLimit

def load (fs : FileSystem) (analyse : SourceFile → Facts) (typeRoots : List String)
    (requests : List Request) : Loading :=
  let loading := loadAll fs analyse typeRoots (loadBound fs requests) requests .empty
  ⟨loading.files.reverse, loading.missing.reverse⟩

end TsBuild.Program
