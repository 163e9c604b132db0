import TsBuild.Config.Comments
import TsBuild.Config.Key
import TsBuild.Diagnostic.Basic
import TsBuild.Json.Reader
import TsBuild.Options.Basic

/-!
# Configuration text

Reads a configuration as JSON with comments and trailing commas, and turns the
faults and the rejected options into diagnostics that point into the text.
-/

namespace TsBuild.Config

def capitalize (s : String) : String :=
  match s.toList with
  | [] => ""
  | c :: cs => String.ofList (c.toUpper :: cs)

/-- A fault in the text. It points one byte before the place the reader had got to. -/
def syntaxDiagnostic (file : SourceFile) (fault : Json.ReadError) : Diagnostic :=
  (Diagnostic.error 1005 (capitalize fault.cause.message)).pointingAt file
    (file.offset ⟨fault.line - 1, fault.column - 1⟩) 1

def parse (name text : String) : Except Diagnostic (Json × SourceFile) :=
  let file := ⟨name, text⟩
  match Json.read (Comments.strip text) with
  | .ok value => .ok (value, file)
  | .error fault => .error (syntaxDiagnostic file fault)

/-- Points a diagnostic at a key of `file`, or at the whole file when the key is not there. -/
def atKey (diagnostic : Diagnostic) (path : List String) (file : SourceFile) : Diagnostic :=
  match Key.find? (Comments.strip file.text) path with
  | some span => diagnostic.pointingAt file span.start span.length
  | none => diagnostic.within file

def optionDiagnostic (file : Option SourceFile) (name : String) (error : OptionError) : Diagnostic :=
  let diagnostic := Diagnostic.error error.code error.message
  let path :=
    if name = OptionSet.sectionName then [OptionSet.sectionName] else [OptionSet.sectionName, name]
  file.elim diagnostic (atKey diagnostic path)

def readOptions (value : Json) (file : Option SourceFile) : OptionSet × List Diagnostic :=
  let (options, errors) := OptionSet.ofJson value
  (options, errors.map fun (name, error) => optionDiagnostic file name error)

end TsBuild.Config
