import TsBuild.Config.Text
import TsBuild.FileTree

/-!
# Configurations that extend others

A configuration names its bases under `extends`. Its expansion layers its own
options over those of its bases, a later base over an earlier one. A base that is
not found, is being expanded already, or cannot be read or parsed contributes an
error and nothing else.
-/

namespace TsBuild.Config

structure Expansion where
  options : OptionSet
  errors : List Diagnostic
  /-- The files that contributed, in the order they were met. -/
  files : List String

namespace Expansion

def empty : Expansion := ⟨.empty, [], []⟩

def failed (error : Diagnostic) : Expansion := { empty with errors := [error] }

def then' (inherited base : Expansion) : Expansion where
  options := base.options.layeredOver inherited.options
  errors := inherited.errors ++ base.errors
  files := inherited.files ++ base.files

end Expansion

/-- The bases an `extends` entry names, and an error if part of it is no string. -/
def extendsEntry (file : SourceFile) (value : Option Json) : List String × List Diagnostic :=
  let invalid := atKey
    (.error 5024 "Compiler option 'extends' requires a value of type string or Array.") ["extends"] file
  match value with
  | none => ([], [])
  | some (.string spec) => ([spec], [])
  | some (.array items) =>
    let specs := items.filterMap Json.asString?
    (specs, if specs.length = items.length then [] else [invalid])
  | some _ => ([], [invalid])

def isPathSpec (spec : String) : Bool :=
  Path.hasStart "./" spec || Path.hasStart "../" spec || Path.isAbsolute spec

/-- The file a base refers to: a path as written or with `.json` added, or a package looked up in
the `node_modules` directories upwards from `dir`. -/
def resolveBase? (fs : FileSystem) (dir spec : String) : Option String :=
  if isPathSpec spec then
    let candidate := Path.normalize (Path.join dir spec)
    if fs.isFile candidate then some candidate
    else if !Path.hasEnding ".json" spec && fs.isFile (candidate ++ ".json") then some (candidate ++ ".json")
    else none
  else
    (Path.ancestors dir).findSome? fun above =>
      let package := Path.join (Path.join above Path.dependencyDir) spec
      ([package, Path.join package "tsconfig.json", package ++ ".json"].find? fs.isFile).map
        Path.normalize

/-- A base of `file`, `stack` being the files under expansion, innermost last, and `expand` the
expansion of a parsed configuration under a longer stack. -/
def expandBase (fs : FileSystem) (expand : Json → SourceFile → List String → Expansion)
    (dir : String) (file : SourceFile) (stack : List String) (spec : String) : Expansion :=
  match resolveBase? fs dir spec with
  | none => .failed (atKey (.error 6053 ("File '" ++ spec ++ "' not found.")) ["extends"] file)
  | some path =>
    if stack.contains path then
      let chain := " -> ".intercalate (stack ++ [path])
      .failed (atKey
        (.error 18000 ("Circularity detected while resolving configuration: " ++ chain)) ["extends"] file)
    else
      match fs.readText path with
      | .error error =>
        .failed (.error 5083 ("Cannot read file '" ++ path ++ "': " ++ error.message ++ "."))
      | .ok text =>
        match parse path text with
        | .error diagnostic => .failed diagnostic
        | .ok (config, base) =>
          let expansion := expand config base (stack ++ [path])
          { expansion with files := path :: expansion.files }

def expandWith (fs : FileSystem) (expand : Json → SourceFile → List String → Expansion)
    (basePath : String) (config : Json) (file : SourceFile) (stack : List String) : Expansion :=
  match config.asObject? with
  | none =>
    .failed ((Diagnostic.error 5092
      "The root value of a 'tsconfig.json' file must be an object.").within file)
  | some members =>
    let dir := (Path.parent? file.name).getD basePath
    let (specs, malformed) := extendsEntry file (members.lookup "extends")
    let inherited := specs.foldl
      (fun inherited spec => inherited.then' (expandBase fs expand dir file stack spec))
      { Expansion.empty with errors := malformed }
    let (own, errors) := match members.lookup OptionSet.sectionName with
      | some raw => readOptions raw (some file)
      | none => (.empty, [])
    inherited.then' ⟨own, errors, []⟩

def expandTo (fs : FileSystem) (basePath : String) :
    (depth : Nat) → Json → SourceFile → List String → Expansion
  | 0, _, _, _ => .empty
  | depth + 1, config, file, stack => expandWith fs (expandTo fs basePath depth) basePath config file stack

/-- The levels below the root that a chain of bases can have: the files on it are distinct. A file
has one absolute name, and fewer relative ones than a path may have bytes. -/
def depthBound (fs : FileSystem) : Nat := fs.fileCount * FileSystem.pathLimit

/-- The expansion of the configuration `file`; `basePath` is its directory if its name has none. -/
def expand (fs : FileSystem) (config : Json) (file : SourceFile) (basePath : String) : Expansion :=
  let root := Path.normalize file.name
  let expansion := expandTo fs basePath (depthBound fs + 1) config file [root]
  { expansion with files := root :: expansion.files }

end TsBuild.Config
