import TsBuild.Bundle.Plugin
import TsBuild.Config.Resolve
import TsBuild.Program.Check
import TsBuild.Program.Declarations
import TsBuild.Transpile

/-!
# The plugin for scripts

Within one build the plugin resolves imports without extension, checks each script against
the program of the build, and transpiles it by itself. The options and the program are
computed once, when they are first needed.
-/

namespace TsBuild.Bundle

-- ---------------------------------------------------------------------------
-- Settings
-- ---------------------------------------------------------------------------

/-- Raw compiler options given inline, and whether files outside the program are checked on their own. -/
structure Settings where
  compilerOptions : Option Json
  checkUnlistedFiles : Bool
  deriving Repr

namespace Settings

def standard : Settings := ⟨none, false⟩

def readCompilerOptions (settings : Settings) : Json.Reader (Except Json.Cause Settings) := do
  match ← Json.value (Json.depthLimit - 1) with
  | .null => pure (.ok { settings with compilerOptions := none })
  | value => pure (.ok { settings with compilerOptions := some value })

def readCheckUnlistedFiles (settings : Settings) : Json.Reader (Except Json.Cause Settings) := do
  pure (.ok { settings with checkUnlistedFiles := ← Json.readFlag })

def read (text : String) : Except Json.ReadError Settings :=
  Json.readRecord "TypeScriptPluginOptions"
    [⟨"compilerOptions", readCompilerOptions⟩, ⟨"checkUnlistedFiles", readCheckUnlistedFiles⟩]
    standard text

end Settings

-- ---------------------------------------------------------------------------
-- Imports without extension
-- ---------------------------------------------------------------------------

def probe? (fs : FileSystem) (dir base : String) : Option String :=
  (Path.scriptExtensions.map fun extension => Path.absolutize (base ++ extension) dir).find? fs.isFile

/-- The file that `specifier` means in `importer`: a script of that name, or the `index` script of a
directory of that name. There is none when the specifier has an extension or the importer is no script. -/
def resolveImport? (fs : FileSystem) (cwd specifier : String) (importer : Option String) :
    Option String := do
  let importer ← importer
  guard ((Path.extensionOf? specifier).isNone && Path.isScript importer)
  let dir := (Path.parent? (Path.absolutize importer cwd)).getD cwd
  probe? fs dir specifier <|> probe? fs dir (Path.join specifier "index")

-- ---------------------------------------------------------------------------
-- Sessions
-- ---------------------------------------------------------------------------

structure Engine where
  createProgram : FileSystem → (roots : List String) → OptionSet → Program
  transpile : SourceFile → OptionSet → Except TranspileError Transpile.Output

def Engine.standard : Engine := ⟨Program.build, Transpile.run⟩

inductive Work
  | options
  | program
  /-- The program of a file that is not listed. -/
  | fileProgram
  deriving DecidableEq, Repr

structure Session where
  /-- The entries of the first input options that had any. -/
  inputs? : Option (List String) := none
  options : Cell OptionSet := .empty
  program : Cell Program := .empty
  /-- What was computed, first to last. -/
  work : List Work := []

namespace Session

def did (work : Work) (session : Session) : Session := { session with work := session.work ++ [work] }

def programCount (session : Session) : Nat := session.work.countP (· ≠ .options)

end Session

structure Access (W : Type) where
  files : W → FileSystem
  session : W → Session
  update : (Session → Session) → W → W

structure Workspace where
  files : FileSystem
  session : Session := {}

def Workspace.access : Access Workspace where
  files := Workspace.files
  session := Workspace.session
  update f w := { w with session := f w.session }

-- ---------------------------------------------------------------------------
-- The plugin
-- ---------------------------------------------------------------------------

structure ScriptPlugin (W : Type) where
  /-- The directory that the build runs in. -/
  root : String
  settings : Settings
  engine : Engine := .standard
  access : Access W

namespace ScriptPlugin

variable {W : Type}

def name : String := "typescript"

def failure (message : String) : PluginError := ⟨name, .transform, message⟩

def declaredInputs (plugin : ScriptPlugin W) (w : W) : List String :=
  (plugin.access.session w).inputs?.getD []

def optionsSlot (plugin : ScriptPlugin W) : Slot W OptionSet where
  get w := (plugin.access.session w).options
  set cell := plugin.access.update fun session => { session with options := cell }

def programSlot (plugin : ScriptPlugin W) : Slot W Program where
  get w := (plugin.access.session w).program
  set cell := plugin.access.update fun session => { session with program := cell }

/-- The options that the files of a build give, or the baseline if they give none. -/
def resolvedOptions (plugin : ScriptPlugin W) (w : W) : OptionSet :=
  match Config.resolve (plugin.access.files w) plugin.settings.compilerOptions plugin.root with
  | .ok options => options
  | .error _ => .baseline

def resolveOptions (plugin : ScriptPlugin W) : Task W OptionSet :=
  .act (fun _ => true) (plugin.access.update (·.did .options)) fun w => .done (plugin.resolvedOptions w)

def compilerOptions (plugin : ScriptPlugin W) : Task W OptionSet :=
  plugin.optionsSlot.once plugin.resolveOptions

def createProgram (plugin : ScriptPlugin W) (work : Work) (roots : List String) (options : OptionSet) :
    Task W Program := do
  Task.modify (plugin.access.update (·.did work))
  Task.read fun w => plugin.engine.createProgram (plugin.access.files w) roots options

/-- Makes the program of the build: of the declaration files below its root, then its entries. -/
def buildProgram (plugin : ScriptPlugin W) : Task W Program := do
  let options ← plugin.compilerOptions
  let inputs ← Task.read plugin.declaredInputs
  let declarations ← Task.read fun w =>
    Program.declarationFiles (plugin.access.files w) plugin.root
  plugin.createProgram .program
    (declarations ++ inputs.map fun input => Path.absolutize input plugin.root) options

def program (plugin : ScriptPlugin W) : Task W Program :=
  plugin.programSlot.once plugin.buildProgram

def reportDiagnostics (diagnostics : List Diagnostic) : Task W Unit :=
  Task.reportAll (Diagnostic.logEntries diagnostics)

def reportFile (program : Program) (fileName : String) : Task W Unit :=
  if (program.file? fileName).isSome then reportDiagnostics (program.diagnosticsOf fileName)
  else return ()

/-- Checks a file: in the program of the build, or in one of its own if it is not listed there. -/
def check (plugin : ScriptPlugin W) (fileName : String) : Task W Unit := do
  let program ← plugin.program
  if (program.file? fileName).isSome then reportFile program fileName
  else if plugin.settings.checkUnlistedFiles then
    let options ← plugin.compilerOptions
    reportFile (← plugin.createProgram .fileProgram [fileName] options) fileName
  else return ()

def transpile (plugin : ScriptPlugin W) (file : SourceFile) (options : OptionSet) :
    Task W (Except TranspileError Transpile.Output) :=
  Task.read fun _ => plugin.engine.transpile file options

def transformed (output : Transpile.Output) : Outcome Transformed :=
  match output.sourceMap.map Json.read with
  | none => .ok { code := output.code }
  | some (.ok sourceMap) => .ok { code := output.code, sourceMap := some sourceMap }
  | some (.error error) => .error (failure ("invalid source map: " ++ error.message))

def finish : Except TranspileError Transpile.Output → Task W (Outcome (Option Transformed))
  | .error error => return .error (failure error.display)
  | .ok output => do
    reportDiagnostics output.diagnostics
    return (transformed output).map some

def transform (plugin : ScriptPlugin W) (code id : String) : Task W (Outcome (Option Transformed)) :=
  if !Path.isScript id then return .ok none
  else do
    let options ← plugin.compilerOptions
    plugin.check (Path.absolutize id plugin.root)
    finish (← plugin.transpile ⟨id, code⟩ options)

def resolveId (plugin : ScriptPlugin W) (specifier : String) (importer : Option String) :
    Task W (Outcome (Option ResolvedId)) :=
  Task.read fun w =>
    .ok ((resolveImport? (plugin.access.files w) plugin.root specifier importer).map
      fun id => { id })

/-- Keeps the first entries that are declared. -/
def options (plugin : ScriptPlugin W) (input : InputOptions) : StateM W (Outcome Unit) := do
  if let some entries := input.input then
    modify (plugin.access.update fun session =>
      { session with inputs? := session.inputs? <|> some entries })
  return .ok ()

def plugin (scripts : ScriptPlugin W) : Plugin W where
  name := name
  options := scripts.options
  resolveId := scripts.resolveId
  transform := scripts.transform

end ScriptPlugin

end TsBuild.Bundle
