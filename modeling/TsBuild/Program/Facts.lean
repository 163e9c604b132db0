import TsBuild.Program.Literal
import TsBuild.Script.Parsed

/-!
# What a program takes from a file

A file contributes its syntax errors, the literals to check, the modules it
imports and the ambient modules it declares. A text that has no tree at all
contributes its syntax errors alone.
-/

namespace TsBuild.Program

open Script (Node)

structure Import where
  specifier : String
  /-- The byte range of the specifier. -/
  start : Nat
  length : Nat
  /-- Whether nothing is taken from the module. -/
  sideEffectOnly : Bool
  deriving DecidableEq, Repr

structure Facts where
  syntaxErrors : List Diagnostic
  literals : List AnnotatedLiteral
  imports : List Import
  ambientModules : List String
  deriving Repr

namespace Facts

def importOf? (sideEffectOnly : Bool) (source : Node) : Option Import :=
  match source with
  | .mk (.str specifier _) span _ =>
    some ⟨specifier, span.lo - 1, span.hi - span.lo, sideEffectOnly⟩
  | _ => none

def importAt? (node : Node) : Option Import :=
  match node with
  | .mk (.importDecl typeOnly _) _ (source :: _ :: specifiers) =>
    importOf? (specifiers.isEmpty && !typeOnly) source
  | .mk (.exportNamed _) _ (source :: _) => importOf? false source
  | .mk (.exportAll _) _ (source :: _) => importOf? false source
  | .mk .externalModule _ (source :: _) => importOf? false source
  | .mk .call _ (.mk (.importCallee _) _ _ :: .mk .list _ (argument :: _) :: _) =>
    match argument with
    | .mk .spread _ (argument :: _) => importOf? false argument
    | argument => importOf? false argument
  | _ => none

def ambientModuleAt? (node : Node) : Option String :=
  match node with
  | .mk (.namespaceDecl ..) _ (.mk (.str name _) _ _ :: _) => some name
  | _ => none

def syntaxError (file : SourceFile) (fault : Script.Fault) : Diagnostic :=
  (Diagnostic.error 1005 fault.cause.message).pointingAt file (fault.span.lo - 1)
    (fault.span.hi - fault.span.lo)

/-- The faults of a text in text order; those at one place stay in the order they were found. -/
def faultDiagnostics (file : SourceFile) (parsed : Script.Parsed) : List Diagnostic :=
  (parsed.faults.mergeSort fun a b => a.span.lo ≤ b.span.lo).map (syntaxError file)

def dialect (name : String) : Script.Dialect :=
  { jsx := Path.hasEnding ".tsx" name, declarations := Path.hasEnding ".d.ts" name }

def of (file : SourceFile) : Facts :=
  let parsed := Script.parse (dialect file.name) (Text.withoutByteOrderMark file.text)
  let nodes := (parsed.module?.map Node.subnodes).getD []
  let text := file.text.toList
  { syntaxErrors := faultDiagnostics file parsed
    literals := nodes.filterMap (annotatedLiteralAt? text)
    imports := nodes.filterMap importAt?
    ambientModules := nodes.filterMap ambientModuleAt? }

end Facts

end TsBuild.Program
