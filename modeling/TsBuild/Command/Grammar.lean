/-!
# The grammar of the command line

Which commands there are, which arguments and switches each of them takes, and the help text that
says so.
-/

namespace TsBuild.Command

inductive Name
  | version
  | check
  | transform
  | resolve
  | showConfig
  deriving DecidableEq, Repr

namespace Name

def all : List Name := [version, check, transform, resolve, showConfig]

def text : Name → String
  | version => "version"
  | check => "check"
  | transform => "transform"
  | resolve => "resolve"
  | showConfig => "show-config"

def summary : Name → String
  | version => "Print version information"
  | check => "Declare entry inputs and type-check each of them"
  | transform => "Transpile one file and print the emitted code"
  | resolve => "Resolve an import specifier the way the plugin would"
  | showConfig => "Print the finalized compiler options"

def ofText? (text : String) : Option Name := all.find? fun name => name.text = text

end Name

inductive SwitchKind
  /-- Nothing, and it is given once at most. -/
  | flag
  /-- Nothing, and it may be given again. -/
  | counted
  /-- A value, shown under a name. -/
  | value (shown : String)
  deriving DecidableEq, Repr

inductive Switch
  | verbose
  | json
  | cwd
  | help
  | version
  | compilerOptions
  | checkUnlisted
  | map
  | importer
  deriving DecidableEq, Repr

namespace Switch

def long : Switch → String
  | verbose => "verbose"
  | json => "json"
  | cwd => "cwd"
  | help => "help"
  | version => "version"
  | compilerOptions => "compiler-options"
  | checkUnlisted => "check-unlisted"
  | map => "map"
  | importer => "from"

def short? : Switch → Option Char
  | verbose => some 'v'
  | help => some 'h'
  | version => some 'V'
  | _ => none

def kind : Switch → SwitchKind
  | verbose => .counted
  | cwd => .value "PATH"
  | compilerOptions => .value "JSON"
  | importer => .value "IMPORTER"
  | json | help | version | checkUnlisted | map => .flag

/-- Whether an empty value counts as none. -/
def needsText : Switch → Bool
  | cwd => true
  | _ => false

def isRequired : Switch → Bool
  | importer => true
  | _ => false

def summary : Switch → String
  | verbose => "Increase logging verbosity (-v for DEBUG, -vv for TRACE)"
  | json => "Emit JSON formatted output (stable, machine-readable)"
  | cwd => "Override the working directory"
  | help => "Print help"
  | version => "Print version"
  | compilerOptions => "Inline compiler options as a JSON object (replaces tsconfig.json)"
  | checkUnlisted => "Also check files that are not part of the program"
  | map => "Also print the source map"
  | importer => "Importing file"

def ofCommand : Option Name → List Switch
  | none => [verbose, json, cwd, help, version]
  | some .version => [verbose, json, cwd, help]
  | some .check => [compilerOptions, verbose, checkUnlisted, json, cwd, help]
  | some .transform => [map, verbose, compilerOptions, json, cwd, help]
  | some .resolve => [importer, verbose, json, cwd, help]
  | some .showConfig => [compilerOptions, verbose, json, cwd, help]

end Switch

structure Operand where
  name : String
  isRepeated : Bool
  summary : String

def Name.operand? : Name → Option Operand
  | .check => some ⟨"INPUTS", true, "Entry files, relative to the working directory"⟩
  | .transform => some ⟨"FILE", false, "File to transform"⟩
  | .resolve => some ⟨"SPECIFIER", false, "Import specifier, e.g. \"./util\""⟩
  | .version | .showConfig => none

-- ---------------------------------------------------------------------------
-- Help
-- ---------------------------------------------------------------------------

def Operand.shown (operand : Operand) : String :=
  "<" ++ operand.name ++ ">" ++ if operand.isRepeated then "..." else ""

def Switch.value? (switch : Switch) : Option String :=
  match switch.kind with
  | .value shown => some (" <" ++ shown ++ ">")
  | _ => none

def Switch.shown (switch : Switch) : String :=
  let short := match switch.short? with
    | some c => String.ofList ['-', c] ++ ", "
    | none => "    "
  let repeated := if switch.kind = .counted then "..." else ""
  short ++ "--" ++ switch.long ++ switch.value?.getD "" ++ repeated

def helpSection (heading : String) (entries : List (String × String)) : String :=
  let width := (entries.map fun (left, _) => left.length).foldl max 0
  let entry (left right : String) : String :=
    "  " ++ left ++ String.ofList (List.replicate (width + 2 - left.length) ' ') ++ right ++ "\n"
  "\n" ++ heading ++ ":\n" ++ String.join (entries.map fun (left, right) => entry left right)

def switchSection (command : Option Name) : String :=
  helpSection "Options" ((Switch.ofCommand command).map fun switch => (switch.shown, switch.summary))

def helpName : String := "help"

def helpSummary : String := "Print this message or the help of the given subcommand(s)"

def helpOnHelp : String :=
  helpSummary ++ "\n\nUsage: tsplugin " ++ helpName ++ " [COMMAND]...\n" ++
    helpSection "Arguments" [("[COMMAND]...", "Print help for the subcommand(s)")]

def help : String :=
  let commands := Name.all.map fun name => (name.text, name.summary)
  "Type-check and transpile TypeScript the way the bundler plugin does\n\n" ++
    "Usage: tsplugin [OPTIONS] [COMMAND]\n" ++
    helpSection "Commands"
      (commands ++ [(helpName, helpSummary)]) ++
    switchSection none

def Name.help (name : Name) : String :=
  let required := ((Switch.ofCommand (some name)).filter Switch.isRequired).map fun switch =>
    " --" ++ switch.long ++ switch.value?.getD ""
  let operand := match name.operand? with
    | some operand => " " ++ operand.shown
    | none => ""
  let operands := match name.operand? with
    | some operand => helpSection "Arguments" [(operand.shown, operand.summary)]
    | none => ""
  name.summary ++ "\n\nUsage: tsplugin " ++ name.text ++ " [OPTIONS]" ++ String.join required ++
    operand ++ "\n" ++ operands ++ switchSection (some name)

end TsBuild.Command
