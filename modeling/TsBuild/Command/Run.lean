import TsBuild.Bundle.Container
import TsBuild.Bundle.ScriptPlugin
import TsBuild.Command.Arguments

/-!
# Running commands

A command reads files and comes to an exit status with two texts. Its reports are for people, or in
JSON for programs; whether errors were reported decides the status.
-/

namespace TsBuild.Command

open TsBuild.Bundle

structure Result where
  status : Nat
  stdout : String := ""
  stderr : String := ""
  deriving DecidableEq, Repr

namespace Result

def finished (isGood : Bool) (stdout : String) (stderr : String := "") : Result :=
  ⟨if isGood then 0 else 1, stdout, stderr⟩

def failed (message : String) (cause? : Option String := none) : Result :=
  let cause := match cause? with
    | some cause => "  ╰─▶ " ++ cause ++ "\n"
    | none => ""
  ⟨1, "", "Error:   × " ++ message ++ "\n" ++ cause⟩

def misused : Result := ⟨2, "", "error: invalid arguments\n\nFor more information, try '--help'.\n"⟩

end Result

def versionText : String := "tsplugin 0.1.0\n"

-- ---------------------------------------------------------------------------
-- Reports
-- ---------------------------------------------------------------------------

def schemaVersion : Json := .number (.int 1)

def orNull : Option Json → Json
  | some value => value
  | none => .null

def levelText : LogLevel → String
  | .warning => "warning"
  | .error => "error"

def locationReport (loc : Location) : Json :=
  .object [("file", .string loc.file), ("line", .number (.int loc.line)),
    ("column", .number (.int loc.column))]

def entryReport (entry : LogEntry) : Json :=
  .object [("level", .string (levelText entry.level)), ("message", .string entry.message),
    ("loc", orNull (entry.loc.map locationReport))]

def logReport (log : Log) : Json := .array (log.map entryReport)

def errorReport (error : StandaloneError) : Json :=
  .object [("message", .string error.message), ("id", orNull (error.id.map .string)),
    ("loc", orNull (error.loc.map locationReport)), ("frame", orNull (error.frame.map .string))]

def reportText (members : List (String × Json)) : String :=
  (Json.object (("schema_version", schemaVersion) :: members)).pretty ++ "\n"

def logText (log : Log) : String :=
  String.join (log.map fun entry => levelText entry.level ++ ": " ++ entry.text ++ "\n")

-- ---------------------------------------------------------------------------
-- Settings
-- ---------------------------------------------------------------------------

structure Context where
  files : FileSystem
  /-- The working directory, as it was given. -/
  cwd : String
  json : Bool

def inlineOptions : Option String → Except Result (Option Json)
  | none => .ok none
  | some text =>
    match Json.read text with
    | .error error => .error (.failed "--compiler-options is not valid JSON" error.message)
    | .ok (.object members) => .ok (some (.object members))
    | .ok _ => .error (.failed "--compiler-options must be a JSON object")

def scriptPlugin (context : Context) (settings : Settings) : ScriptPlugin Workspace :=
  { root := context.cwd, settings, access := Workspace.access }

def startBuild (context : Context) : Build Workspace := { world := { files := context.files } }

def declare (plugin : ScriptPlugin Workspace) (inputs : List String) (build : Build Workspace) :
    Build Workspace :=
  { build with world := ((plugin.options ⟨some inputs⟩).run build.world).2 }

/-- The result of a task that waits for ever; no command has one. -/
def stalled : Result := .failed "the build is stuck"

-- ---------------------------------------------------------------------------
-- Commands
-- ---------------------------------------------------------------------------

/-- Reads and transforms each entry. A failure is reported, and does not stop the others. -/
def checkInputs (context : Context) (container : Container Workspace) :
    List String → Task Workspace Unit
  | [] => return ()
  | input :: rest => do
    let path := Path.absolutize input context.cwd
    match ← Task.read fun w => w.files.readText path with
    | .error error =>
      Task.reportAll [{ level := .error, message := readFailure path error.message, loc := none }]
    | .ok code => discard (container.transform code path)
    checkInputs context container rest

def checkBuild (context : Context) (container : Container Workspace) (inputs : List String) :
    Task Workspace (Outcome Unit) := do
  match ← container.buildStart with
  | .error error => return .error error
  | .ok () =>
    checkInputs context container inputs
    container.buildEnd

def checkResult (context : Context) (inputs : List String) (log : Log) (isGood : Bool) : Result :=
  let errors := log.errors.length
  let warnings := log.warnings.length
  if context.json then
    .finished isGood (reportText [("ok", .bool isGood), ("files", .array (inputs.map .string)),
      ("errors", .number (.int errors)), ("warnings", .number (.int warnings)), ("logs", logReport log)])
  else
    .finished isGood
      ("checked " ++ toString inputs.length ++ " file(s): " ++ toString errors ++ " error(s), " ++
        toString warnings ++ " warning(s)\n")
      (logText log)

def checked? (context : Context) (inputs : List String) (settings : Settings) : Option (Log × Bool) :=
  let scripts := scriptPlugin context settings
  let build := declare scripts inputs (startBuild context)
  ((checkBuild context [scripts.plugin] inputs).run build).map fun (build, outcome) =>
    (build.log, outcome matches .ok _)

def check (context : Context) (inputs : List String) (settings : Settings) : Result :=
  match checked? context inputs settings with
  | none => stalled
  | some (log, isGood) => checkResult context inputs log isGood

def transformResult (context : Context) (id code : String) (showsMap : Bool) (log : Log)
    (result? : Option Transformed) : Result :=
  let isGood := log.errors.isEmpty
  if context.json then
    let sourceMap := if showsMap then result?.bind Transformed.sourceMap else none
    .finished isGood (reportText [("ok", .bool isGood), ("id", .string id),
      ("code", orNull (result?.map fun result => .string result.code)), ("map", orNull sourceMap),
      ("logs", logReport log)])
  else
    match result? with
    | none =>
      .finished isGood code (logText log ++ id ++ " is not a TypeScript file, nothing to do\n")
    | some result =>
      match showsMap, result.sourceMap with
      | true, some sourceMap =>
        .finished isGood (result.code ++ "\n" ++ sourceMap.compact ++ "\n") (logText log)
      | true, none =>
        .finished isGood result.code
          (logText log ++ "no source map emitted (enable sourceMap in compiler options)\n")
      | false, _ => .finished isGood result.code (logText log)

def transform (context : Context) (file : String) (showsMap : Bool) (settings : Settings) : Result :=
  let scripts := scriptPlugin context settings
  let build := declare scripts [file] (startBuild context)
  let id := Path.absolutize file context.cwd
  match context.files.readText id with
  | .error error => .failed (readFailure id error.message) error.message
  | .ok code =>
    match (scripts.transform code id).run build with
    | none => stalled
    | some (_, .error error) => .failed error.text
    | some (build, .ok result?) => transformResult context id code showsMap build.log result?

/-- Resolves one import; none means that the bundler resolves it by its own rules. -/
def resolve (context : Context) (specifier importer : String) : Result :=
  let scripts := scriptPlugin context .standard
  let importer := Path.absolutize importer context.cwd
  let task := Container.resolveId specifier (some importer) [scripts.plugin]
  match task.run (startBuild context) with
  | none => stalled
  | some (_, .error error) => .failed error.text
  | some (_, .ok found?) =>
    if context.json then
      .finished true (reportText [("specifier", .string specifier), ("importer", .string importer),
        ("resolved", orNull (found?.map fun found => .string found.id))])
    else
      match found? with
      | some found => .finished true (found.id ++ "\n")
      | none => .finished true (specifier ++ ": default resolution\n")

def showConfig (context : Context) (inline : Option Json) : Result :=
  let resolved := Config.resolve context.files inline context.cwd
  let isGood : Bool := resolved matches .ok _
  if context.json then
    let options := resolved.toOption.map OptionSet.toJson
    let error := match resolved with
      | .ok _ => none
      | .error error => some (errorReport error)
    .finished isGood
      (reportText [("ok", .bool isGood), ("options", orNull options), ("error", orNull error)])
  else
    match resolved with
    | .ok options => .finished isGood (options.toJson.pretty ++ "\n")
    | .error error => .finished isGood "" (error.render ++ "\n")

-- ---------------------------------------------------------------------------
-- Command lines
-- ---------------------------------------------------------------------------

def runNamed (context : Context) (line : Line) : Name → Except Result Result
  | .version => .ok (.finished true versionText)
  | .check => do
    let compilerOptions ← inlineOptions (line.value? .compilerOptions)
    return check context line.inner.operands ⟨compilerOptions, line.has .checkUnlisted⟩
  | .transform => do
    let compilerOptions ← inlineOptions (line.value? .compilerOptions)
    return transform context (line.inner.operands.headD "") (line.has .map) ⟨compilerOptions, false⟩
  | .resolve =>
    .ok (resolve context (line.inner.operands.headD "") ((line.value? .importer).getD ""))
  | .showConfig => do return showConfig context (← inlineOptions (line.value? .compilerOptions))

def runLine (files : FileSystem) (line : Line) : Result :=
  let context : Context :=
    { files, cwd := (line.value? .cwd).getD files.cwd, json := line.has .json }
  match runNamed context line (line.name?.getD .version) with
  | .ok result => result
  | .error result => result

def run (files : FileSystem) (arguments : List String) : Result :=
  match Line.read arguments with
  | .ok line => runLine files line
  | .error (.help none) => .finished true help
  | .error (.help (some name)) => .finished true name.help
  | .error .helpOnHelp => .finished true helpOnHelp
  | .error .version => .finished true versionText
  | .error .misuse => .misused

end TsBuild.Command
