import TsBuild.Bundle.Task
import TsBuild.Json.Record

/-!
# Plugins

A plugin takes part in a build by hooks, each a task of its own. A hook may fail, and it may
report errors and succeed all the same. The first of them sees what the build is given as
`input`: one path, a list of paths or an object whose values are paths.
-/

namespace TsBuild.Bundle

-- ---------------------------------------------------------------------------
-- Build entries
-- ---------------------------------------------------------------------------

/-- The entries a build declares, if it declares any, in the order written. -/
structure InputOptions where
  input : Option (List String)
  deriving DecidableEq, Repr

def entries? : Json → Option (List String)
  | .string entry => some [entry]
  | .array items => items.mapM Json.asString?
  | .object members => members.mapM fun (_, value) => value.asString?
  | _ => none

def readInput (_ : InputOptions) : Json.Reader (Except Json.Cause InputOptions) := do
  match ← Json.value (Json.depthLimit - 1) with
  | .null => pure (.ok ⟨none⟩)
  | value =>
    match entries? value with
    | some entries => pure (.ok ⟨some entries⟩)
    | none => pure (.error (.other "data did not match any variant of untagged enum InputOption"))

def InputOptions.read (text : String) : Except Json.ReadError InputOptions :=
  Json.readRecord "InputOptions" [⟨"input", readInput⟩] ⟨none⟩ text

-- ---------------------------------------------------------------------------
-- Hooks
-- ---------------------------------------------------------------------------

inductive Hook
  | options
  | buildStart
  | resolveId
  | transform
  | buildEnd
  deriving DecidableEq, Repr

def Hook.text : Hook → String
  | options => "options"
  | buildStart => "build_start"
  | resolveId => "resolve_id"
  | transform => "transform"
  | buildEnd => "build_end"

structure PluginError where
  plugin : String
  hook : Hook
  message : String
  deriving DecidableEq, Repr

def PluginError.text (error : PluginError) : String :=
  "[" ++ error.plugin ++ "] " ++ error.hook.text ++ ": " ++ error.message

def readFailure (path reason : String) : String := "Failed to read " ++ path ++ ": " ++ reason

structure ResolvedId where
  id : String
  /-- Whether the module stays out of the bundle. -/
  isExternal : Bool := false
  deriving DecidableEq, Repr

structure Transformed where
  code : String
  sourceMap : Option Json := none
  deriving Repr

abbrev Outcome (α : Type) := Except PluginError α

/-- The hooks of a plugin; a hook that is left out does nothing. -/
structure Plugin (W : Type) where
  name : String
  /-- Looks at the options of the build before there is anything to report to. -/
  options : InputOptions → StateM W (Outcome Unit) := fun _ => return .ok ()
  buildStart : Task W (Outcome Unit) := return .ok ()
  resolveId : (specifier : String) → (importer : Option String) → Task W (Outcome (Option ResolvedId)) :=
    fun _ _ => return .ok none
  transform : (code id : String) → Task W (Outcome (Option Transformed)) := fun _ _ => return .ok none
  buildEnd : Task W (Outcome Unit) := return .ok ()

end TsBuild.Bundle
