import TsBuild.FileTree

/-!
# Resolving relative imports

A relative specifier names a script, a JSON file, or a script without its extension or
with the extension it has once compiled; a directory stands for its `index` script.
-/

namespace TsBuild.Program

def sourceExtensions : List String := [".ts", ".tsx", ".d.ts"]

/-- Extensions that stand for a script once it is compiled. -/
def compiledExtensions : List String := [".js", ".jsx", ".mjs", ".cjs"]

def isRelative (specifier : String) : Bool :=
  Path.hasStart "./" specifier || Path.hasStart "../" specifier || specifier == "." || specifier == ".."

inductive Resolved
  /-- A file of the program. -/
  | source (path : String)
  /-- A file that exists and is no script. -/
  | asset
  deriving DecidableEq, Repr

def withoutCompiledExtension (path : String) : String :=
  match compiledExtensions.findSome? fun ext => Text.dropSuffix? ext.toList path.toList with
  | some stem => String.ofList stem
  | none => path

/-- The files a specifier without source extension may mean, in order. -/
def candidates (base : String) : List String :=
  let index := String.ofList (Text.trimEnd (· = '/') base.toList) ++ "/index"
  [withoutCompiledExtension base, index].flatMap fun stem => sourceExtensions.map (stem ++ ·)

def resolveRelative? (fs : FileSystem) (dir specifier : String) : Option Resolved :=
  let base := Path.normalize (Path.join dir specifier)
  if sourceExtensions.any (Path.hasEnding · base) && fs.isFile base then some (.source base)
  else if Path.hasEnding ".json" base && fs.isFile base then some .asset
  else ((candidates base).find? fs.isFile).map .source

end TsBuild.Program
