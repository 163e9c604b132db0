import TsBuild.Options.Basic
import TsBuild.Program.Facts
import TsBuild.Script.Emit
import TsBuild.Script.SourceMap

/-!
# Transpiling one file

A file becomes a script without types by itself: no other file is looked at. A file with any
fault in it becomes nothing.
-/

namespace TsBuild

inductive TranspileStage
  | parse
  | emit
  deriving DecidableEq, Repr

structure TranspileError where
  stage : TranspileStage
  message : String
  diagnostics : List Diagnostic := []
  deriving Repr

namespace TranspileError

def code (error : TranspileError) : String :=
  match error.stage with
  | .parse => "COMPILER_PARSE_ERROR"
  | .emit => "COMPILER_EMIT_ERROR"

def display (error : TranspileError) : String :=
  error.code ++ ": " ++ error.message ++
    String.join (error.diagnostics.map fun d => "\n  - " ++ d.display)

end TranspileError

namespace Transpile

structure Output where
  code : String
  /-- A source map as JSON. -/
  sourceMap : Option String := none
  /-- Warnings about options that are not honoured. -/
  diagnostics : List Diagnostic := []
  deriving Repr

def moduleKindWarning? (options : OptionSet) : Option Diagnostic :=
  match options.value? .module with
  | some (kind : ModuleKind) =>
    if kind.isModule then none
    else some (.warning 90001
      ("Module kind '" ++ kind.text ++ "' is not supported here; emitting ES modules."))
  | none => none

def targetWarning? (options : OptionSet) : Option Diagnostic :=
  match options.value? .target with
  | some (target : Target) =>
    if target = .es3 || target = .es5 then
      some (.warning 90002
        ("Target '" ++ target.text ++ "' is not supported; emitting ES2015 or later syntax."))
    else none
  | none => none

def warnings (file : SourceFile) (options : OptionSet) : List Diagnostic :=
  ((moduleKindWarning? options).toList ++ (targetWarning? options).toList).map (·.within file)

/-- How the elements of a file are made; only one kind of file has any. -/
def runtime? (file : SourceFile) (options : OptionSet) : Option Script.Jsx.Runtime :=
  if Text.endsWith ".tsx".toList file.name.toList then
    (options.value? .jsx).bind (Script.Jsx.Runtime.ofMode (options.value? .jsxImportSource))
  else none

/-- Transpiles a file. Options that cannot be honoured are warned about. -/
def run (file : SourceFile) (options : OptionSet) : Except TranspileError Output :=
  let source := Text.withoutByteOrderMark file.text
  let parsed := Script.parse (Program.Facts.dialect file.name) source
  match parsed.module?, parsed.faults with
  | some module, [] =>
    let setting : Script.Emit.Setting :=
      { runtime? := runtime? file options, keepsComments := !options.isOn .removeComments }
    let (code, marks) := Script.Emit.text setting ⟨file.name, source⟩ ⟨parsed.leading, parsed.trailing⟩ module
    let sourceMap := if options.wantsSourceMap then
      some (Script.SourceMap.json file.name source marks).compact else none
    .ok { code, sourceMap, diagnostics := warnings file options }
  | _, _ =>
    .error { stage := .parse, message := "Failed to parse " ++ file.name
             diagnostics := Program.Facts.faultDiagnostics file parsed }

end Transpile

end TsBuild
