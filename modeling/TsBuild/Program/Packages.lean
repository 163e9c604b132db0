import TsBuild.FileTree
import TsBuild.Json.Reader

/-!
# Installed packages

Packages live in `node_modules` directories above a file; those below
`node_modules/@types` hold declarations only, and their entry files belong to every
program.
-/

namespace TsBuild.Program

def typesDir : String := "@types"

-- ---------------------------------------------------------------------------
-- Type roots
-- ---------------------------------------------------------------------------

/-- The directories above a file, nearest first, up to one already seen. -/
def newDirs (seen : List String) (file : String) : List String :=
  ((Path.ancestors file).drop 1).takeWhile fun dir => !seen.contains dir

def dirsAbove (seen : List String) : List String → List String
  | [] => []
  | file :: rest => newDirs seen file ++ dirsAbove (newDirs seen file ++ seen) rest

def typeRootOf (dir : String) : String :=
  Path.join (Path.join dir Path.dependencyDir) typesDir

def typeRoots (fs : FileSystem) (files : List String) : List String :=
  ((dirsAbove [] files).map typeRootOf).filter fs.isDir

-- ---------------------------------------------------------------------------
-- Entries
-- ---------------------------------------------------------------------------

/-- The entry a package manifest declares. A member `types` hides `typings` whatever it is. -/
def manifestTypes? (manifest : String) : Option String := do
  let value ← (Json.read manifest).toOption
  (← value.member? "types" <|> value.member? "typings").asString?

/-- The entry file of a declaration package: the one its manifest declares, else `index.d.ts`. -/
def entryFile? (fs : FileSystem) (dir : String) : Option String :=
  let declared := (fs.readText (Path.join dir "package.json")).toOption.bind manifestTypes?
  let entry := Path.normalize (Path.join dir (declared.getD "index.d.ts"))
  if fs.isFile entry then some entry else none

def packageNames (fs : FileSystem) (dir : String) : List String :=
  match fs.resolve dir with
  | .ok (.dir entries) =>
    ((entries.filter fun (_, node) => node matches .dir _).map Prod.fst).mergeSort fun a b => a ≤ b
  | _ => []

def entriesIn (fs : FileSystem) (typeRoot : String) (found : List (String × String)) :
    List String → List (String × String)
  | [] => []
  | name :: rest =>
    match (if (found.lookup name).isSome then none else entryFile? fs (Path.join typeRoot name)) with
    | none => entriesIn fs typeRoot found rest
    | some entry => (name, entry) :: entriesIn fs typeRoot ((name, entry) :: found) rest

/-- The entries of the packages of some type roots by name; the first root that has one for a name
gives it. -/
def entriesAcross (fs : FileSystem) (types : Option (List String)) (found : List (String × String)) :
    List String → List (String × String)
  | [] => []
  | typeRoot :: rest =>
    let entries := entriesIn fs typeRoot found (types.getD (packageNames fs typeRoot))
    entries ++ entriesAcross fs types (entries ++ found) rest

def typeEntries (fs : FileSystem) (typeRoots : List String) (types : Option (List String)) :
    List String :=
  (entriesAcross fs types [] typeRoots).map Prod.snd

-- ---------------------------------------------------------------------------
-- Bare imports
-- ---------------------------------------------------------------------------

/-- The package a bare specifier belongs to. Built-in modules belong to `node`. -/
def packageName (specifier : String) : List Char :=
  match Text.dropPrefix? "node:".toList specifier.toList with
  | some _ => "node".toList
  | none =>
    match Text.splitOn '/' specifier.toList with
    | ('@' :: scope) :: name :: _ => '@' :: scope ++ '/' :: name
    | name :: _ => name
    | [] => []

def typesPackageName (package : List Char) : List Char :=
  (package.dropWhile (· = '@')).flatMap fun c => if c = '/' then ['_', '_'] else [c]

def packageExists (fs : FileSystem) (specifier importer : String) : Bool :=
  let package := packageName specifier
  ((Path.ancestors importer).drop 1).any fun dir =>
    let installed := Path.join dir Path.dependencyDir
    fs.exists? (Path.join installed (String.ofList package)) ||
      fs.exists? (Path.join (Path.join installed typesDir) (String.ofList (typesPackageName package)))

end TsBuild.Program
