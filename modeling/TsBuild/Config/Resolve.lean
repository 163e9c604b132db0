import TsBuild.Config.Expand
import TsBuild.Diagnostic.Report

/-!
# The options of a build

Options given inline win; otherwise `tsconfig.json` is read from the working
directory, and without one the baseline stands alone.
-/

namespace TsBuild.Config

def fileName : String := "tsconfig.json"

def readFile (fs : FileSystem) (cwd : String) : Except StandaloneError OptionSet :=
  let path := Path.join cwd fileName
  match fs.readText path with
  | .error .notFound => .ok .empty
  | .error error =>
    .error (.ofDiagnostic (.error 5083 ("Cannot read file '" ++ path ++ "': " ++ error.message ++ ".")))
  | .ok text =>
    match parse path text with
    | .error diagnostic => .error (.ofDiagnostic diagnostic)
    | .ok (config, file) =>
      let expansion := expand fs config file cwd
      match Diagnostic.failure? expansion.errors with
      | some error => .error error
      | none => .ok expansion.options

/-- The options of a build in `cwd`, the baseline below them, or the first error. -/
def resolve (fs : FileSystem) (inline : Option Json) (cwd : String) : Except StandaloneError OptionSet := do
  let explicit ← match inline with
    | none => readFile fs cwd
    | some value =>
      let (options, errors) := readOptions value none
      match Diagnostic.failure? errors with
      | some error => .error error
      | none => .ok options
  pure (explicit.layeredOver .baseline)

end TsBuild.Config
