import TsBuild.Path
import TsBuild.Text.Position

/-!
# Diagnostics

A diagnostic is a category, a code and a message, with the place it is about
when there is one. Messages may be chains: a text with further messages below it.
-/

namespace TsBuild

structure SourceFile where
  name : String
  text : String
  deriving DecidableEq, Repr

namespace SourceFile

def isDeclaration (file : SourceFile) : Bool :=
  Path.hasEnding ".d.ts" file.name

def position (file : SourceFile) (offset : Nat) : Text.Position :=
  Text.position file.text.toList offset

def offset (file : SourceFile) (position : Text.Position) : Nat :=
  Text.offset file.text.toList position

end SourceFile

namespace Diagnostic

inductive Category
  | error
  | warning
  | suggestion
  | message
  deriving DecidableEq, Repr

def Category.text : Category → String
  | error => "error"
  | warning => "warning"
  | suggestion => "suggestion"
  | message => "message"

inductive Chain
  | link (text : String) (next : List Chain)
  deriving Repr

inductive Message
  | text (text : String)
  | chain (chain : Chain)
  deriving Repr

mutual
/-- One line for each link, in pre-order, indented two spaces for each level. -/
def Chain.flatten (newLine : String) (depth : Nat) : Chain → String
  | .link text next =>
    (if depth = 0 then "" else newLine ++ String.ofList (List.replicate (2 * depth) ' ')) ++ text ++
      flattenAll newLine (depth + 1) next
def Chain.flattenAll (newLine : String) (depth : Nat) : List Chain → String
  | [] => ""
  | first :: rest => first.flatten newLine depth ++ flattenAll newLine depth rest
end

def Message.flatten (newLine : String) : Message → String
  | .text line => line
  | .chain links => links.flatten newLine 0

end Diagnostic

structure Diagnostic where
  category : Diagnostic.Category
  code : Nat
  message : Diagnostic.Message
  file : Option SourceFile := none
  /-- Byte offset in `file`. -/
  start : Option Nat := none
  length : Option Nat := none
  deriving Repr

/-- Where a reported message points: the line from one, the column from zero. -/
structure Location where
  file : String
  line : Nat
  column : Nat
  deriving DecidableEq, Repr

def Location.text (loc : Location) : String :=
  loc.file ++ ":" ++ toString loc.line ++ ":" ++ toString loc.column

namespace Diagnostic

def error (code : Nat) (message : String) : Diagnostic :=
  { category := .error, code, message := .text message }

def warning (code : Nat) (message : String) : Diagnostic :=
  { category := .warning, code, message := .text message }

def pointingAt (diagnostic : Diagnostic) (file : SourceFile) (start length : Nat) : Diagnostic :=
  { diagnostic with file := some file, start := some start, length := some length }

def within (diagnostic : Diagnostic) (file : SourceFile) : Diagnostic :=
  { diagnostic with file := some file }

def messageText (diagnostic : Diagnostic) : String :=
  diagnostic.message.flatten "\n"

/-- There is a location when the diagnostic has a file and an offset in it. -/
def location? (diagnostic : Diagnostic) : Option Location := do
  let file ← diagnostic.file
  let start ← diagnostic.start
  let position := file.position start
  pure ⟨file.name, position.line + 1, position.character⟩

def display (diagnostic : Diagnostic) : String :=
  let place := match diagnostic.location? with
    | some loc => loc.file ++ "(" ++ toString loc.line ++ "," ++ toString (loc.column + 1) ++ "): "
    | none => ""
  place ++ diagnostic.category.text ++ " TS" ++ toString diagnostic.code ++ ": " ++ diagnostic.messageText

end Diagnostic

end TsBuild
