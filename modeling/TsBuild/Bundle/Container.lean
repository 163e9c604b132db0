import TsBuild.Bundle.Plugin

/-!
# Containers of plugins

The plugins of a build are called in order. A hook that reports an error has failed, whatever its
result, and a hook that fails without reporting an error has its failure reported; so a build
whose hooks have failed fails at its end.
-/

namespace TsBuild.Bundle

abbrev Container (W : Type) := List (Plugin W)

namespace Container

variable {W α : Type}

/-- Reports a failure if no error was reported since there were `before` of them. -/
def reportFailure (error : PluginError) (before : Nat) : Task W (Outcome α) := do
  if (← Task.errors).length = before then
    Task.reportAll [{ level := .error, message := error.text, loc := none }]
  return .error error

def newFailure? (plugin : Plugin W) (hook : Hook) (before : Nat) (errors : Log) : Option PluginError :=
  errors[before]?.map fun first => ⟨plugin.name, hook, first.text⟩

/-- Runs a hook and fails if errors are reported while it runs. -/
def watched (plugin : Plugin W) (hook : Hook) (task : Task W (Outcome α)) : Task W (Outcome α) := do
  let before := (← Task.errors).length
  match ← task with
  | .error error => reportFailure error before
  | .ok result =>
    match newFailure? plugin hook before (← Task.errors) with
    | some error => return .error error
    | none => return .ok result

def options (input : InputOptions) : Container W → StateM W (Outcome Unit)
  | [] => return .ok ()
  | plugin :: rest => do
    match ← plugin.options input with
    | .error error => return .error error
    | .ok () => options input rest

def buildStart : Container W → Task W (Outcome Unit)
  | [] => return .ok ()
  | plugin :: rest => do
    match ← watched plugin .buildStart plugin.buildStart with
    | .error error => return .error error
    | .ok () => buildStart rest

def resolveId (specifier : String) (importer : Option String) :
    Container W → Task W (Outcome (Option ResolvedId))
  | [] => return .ok none
  | plugin :: rest => do
    match ← plugin.resolveId specifier importer with
    | .ok none => resolveId specifier importer rest
    | result => return result

/-- Passes code from plugin to plugin. The last source map stays. -/
def transformFrom (current : Transformed) (id : String) : Container W → Task W (Outcome Transformed)
  | [] => return .ok current
  | plugin :: rest => do
    match ← watched plugin .transform (plugin.transform current.code id) with
    | .error error => return .error error
    | .ok none => transformFrom current id rest
    | .ok (some result) =>
      let sourceMap := result.sourceMap <|> current.sourceMap
      transformFrom { code := result.code, sourceMap } id rest

def transform (container : Container W) (code id : String) : Task W (Outcome Transformed) :=
  transformFrom { code } id container

def endPlugins : Container W → Task W (Outcome Unit)
  | [] => return .ok ()
  | plugin :: rest => do
    match ← plugin.buildEnd with
    | .error error => return .error error
    | .ok () => endPlugins rest

def buildFailure (first : LogEntry) (count : Nat) : PluginError :=
  ⟨"build", .buildEnd, toString count ++ " error(s) reported, first: " ++ first.text⟩

def buildEnd (container : Container W) : Task W (Outcome Unit) := do
  match ← endPlugins container with
  | .error error => return .error error
  | .ok () =>
    match (← Task.errors).head? with
    | some first => return .error (buildFailure first (← Task.errors).length)
    | none => return .ok ()

end Container

end TsBuild.Bundle
