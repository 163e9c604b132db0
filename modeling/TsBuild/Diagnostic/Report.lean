import TsBuild.Diagnostic.Basic
import TsBuild.Diagnostic.Frame

/-!
# Reporting diagnostics

Inside a build, errors and warnings are logged and anything else is dropped.
Outside of one, the first diagnostic becomes an error of its own, with a code
frame around the place it points at.
-/

namespace TsBuild

inductive LogLevel
  | warning
  | error
  deriving DecidableEq, Repr

structure LogEntry where
  level : LogLevel
  message : String
  loc : Option Location
  deriving DecidableEq, Repr

structure StandaloneError where
  message : String
  /-- The file it is about. -/
  id : Option String
  loc : Option Location
  frame : Option String
  deriving DecidableEq, Repr

namespace StandaloneError

def ofDiagnostic (diagnostic : Diagnostic) : StandaloneError where
  message := diagnostic.messageText
  id := diagnostic.file.map SourceFile.name
  loc := diagnostic.location?
  frame := do
    let file ← diagnostic.file
    let loc ← diagnostic.location?
    pure (Diagnostic.codeFrame file.text loc.line loc.column)

def render (error : StandaloneError) : String :=
  let place := match error.loc, error.id with
    | some loc, _ => loc.text ++ ": "
    | none, some id => id ++ ": "
    | none, none => ""
  let frame := match error.frame with
    | some frame => "\n" ++ frame
    | none => ""
  place ++ error.message ++ frame

end StandaloneError

namespace Diagnostic

def logEntry? (diagnostic : Diagnostic) : Option LogEntry :=
  let entry level := some ⟨level, diagnostic.messageText, diagnostic.location?⟩
  match diagnostic.category with
  | .error => entry .error
  | .warning => entry .warning
  | .suggestion | .message => none

def logEntries (diagnostics : List Diagnostic) : List LogEntry :=
  diagnostics.filterMap logEntry?

/-- Outside a build the first diagnostic, of whatever category, is the failure. -/
def failure? (diagnostics : List Diagnostic) : Option StandaloneError :=
  diagnostics.head?.map StandaloneError.ofDiagnostic

end Diagnostic

end TsBuild
