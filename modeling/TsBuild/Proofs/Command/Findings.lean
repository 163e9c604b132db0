import TsBuild.Command.Run
import TsBuild.Proofs.Bundle.Alone

/-!
# What a check finds

A check runs as a build, with options and a program that are computed when they are first needed. What
it comes to is the same as if there were one program from the start: the log of a check is put together
entry by entry from the findings on each input (`checked_eq`).
-/

namespace TsBuild.Command

open TsBuild.Bundle TsBuild.Bundle.Task

-- ---------------------------------------------------------------------------
-- Findings
-- ---------------------------------------------------------------------------

def checkOptions (context : Context) (settings : Settings) : OptionSet :=
  (scriptPlugin context settings).resolvedOptions { files := context.files }

/-- The name that an input is read by, and the root that it gives the program. -/
def entryName (context : Context) (input : String) : String := Path.absolutize input context.cwd

/-- The name that an input is looked up by in the program. -/
def lookupName (context : Context) (input : String) : String :=
  Path.absolutize (entryName context input) context.cwd

def checkProgram (context : Context) (inputs : List String) (settings : Settings) : Program :=
  Program.build context.files
    (Program.declarationFiles context.files context.cwd ++ inputs.map (entryName context))
    (checkOptions context settings)

def fileFindings (program : Program) (name : String) : Log :=
  if (program.file? name).isSome then Diagnostic.logEntries (program.diagnosticsOf name) else []

def preEmitFindings (context : Context) (inputs : List String) (settings : Settings) (name : String) :
    Log :=
  if ((checkProgram context inputs settings).file? name).isSome then
    fileFindings (checkProgram context inputs settings) name
  else if settings.checkUnlistedFiles then
    fileFindings (Program.build context.files [name] (checkOptions context settings)) name
  else []

def emitFindings : Except TranspileError Transpile.Output → Log
  | .error _ => []
  | .ok output => Diagnostic.logEntries output.diagnostics

def emitOutcome : Except TranspileError Transpile.Output → Outcome (Option Transformed)
  | .error error => .error (ScriptPlugin.failure error.display)
  | .ok output => (ScriptPlugin.transformed output).map some

/-- The findings on an input that is a script; that it cannot be transpiled is one if there is no error. -/
def scriptFindings (context : Context) (inputs : List String) (settings : Settings) (input code : String) :
    Log :=
  let output := Transpile.run ⟨entryName context input, code⟩ (checkOptions context settings)
  let findings := preEmitFindings context inputs settings (lookupName context input) ++ emitFindings output
  findings ++ Container.failureEntries findings (emitOutcome output)

def inputFindings (context : Context) (inputs : List String) (settings : Settings) (input : String) : Log :=
  match context.files.readText (entryName context input) with
  | .error error =>
    [{ level := .error, message := readFailure (entryName context input) error.message, loc := none }]
  | .ok code =>
    if Path.isScript (entryName context input) then scriptFindings context inputs settings input code
    else []

def findings (context : Context) (inputs : List String) (settings : Settings) : Log :=
  inputs.flatMap (inputFindings context inputs settings)

-- ---------------------------------------------------------------------------
-- The build of a check
-- ---------------------------------------------------------------------------

/-- The files and the inputs of a check are as they were, and so much is true of the two cells. -/
structure Settled (context : Context) (inputs : List String) (options : Cell OptionSet → Prop)
    (program : Cell Program → Prop) (w : Workspace) : Prop where
  files : w.files = context.files
  inputs : w.session.inputs? = some inputs
  options : options w.session.options
  program : program w.session.program

variable {context : Context} {inputs : List String} {settings : Settings}

abbrev Sound (context : Context) (inputs : List String) (settings : Settings) : Workspace → Prop :=
  Settled context inputs (·.Holds (checkOptions context settings))
    (·.Holds (checkProgram context inputs settings))

theorem adds_compilerOptions {program : Cell Program → Prop} :
    Adds (Settled context inputs (·.Holds (checkOptions context settings)) program)
      (scriptPlugin context settings).compilerOptions [] (checkOptions context settings) := by
  have hresolved : Adds (Settled context inputs (fun _ => True) program)
      (scriptPlugin context settings).resolveOptions [] (checkOptions context settings) := by
    refine adds_act (fun w hw => ?_) fun _ hw => ⟨hw.files, hw.inputs, hw.options, hw.program⟩
    have hfiles : (scriptPlugin context settings).access.files w = context.files := hw.files
    rw [checkOptions, ScriptPlugin.resolvedOptions, ScriptPlugin.resolvedOptions, hfiles]
    rfl
  refine Slot.adds_once (fun _ => rfl) (fun _ hw => hw.options) (fun _ hw => ?_) hresolved (fun _ hw => ?_)
  · exact ⟨hw.files, hw.inputs, trivial, hw.program⟩
  · exact ⟨hw.files, hw.inputs, .inr rfl, hw.program⟩

theorem adds_createProgram {options : Cell OptionSet → Prop} {program : Cell Program → Prop}
    (work : Work) (roots : List String) (given : OptionSet) :
    Adds (Settled context inputs options program)
      ((scriptPlugin context settings).createProgram work roots given) []
      (Program.build context.files roots given) := by
  refine Adds.then (adds_modify fun _ hw => ⟨hw.files, hw.inputs, hw.options, hw.program⟩) ?_
  refine adds_read fun w hw => ?_
  change Program.build w.files roots given = _
  rw [hw.files]

theorem adds_program :
    Adds (Sound context inputs settings) (scriptPlugin context settings).program []
      (checkProgram context inputs settings) := by
  -- While the program is made, its cell is not looked at.
  have hmade : Adds (Settled context inputs (·.Holds (checkOptions context settings)) fun _ => True)
      (scriptPlugin context settings).buildProgram [] (checkProgram context inputs settings) := by
    refine adds_compilerOptions.then ?_
    refine (adds_read (a := inputs) fun w hw => ?_).then ?_
    · change w.session.inputs?.getD [] = _
      rw [hw.inputs]
      rfl
    refine (adds_read (a := Program.declarationFiles context.files context.cwd) fun w hw => ?_).then ?_
    · change Program.declarationFiles w.files context.cwd = _
      rw [hw.files]
    exact adds_createProgram _ _ _
  refine Slot.adds_once (fun _ => rfl) (fun _ hw => hw.program) (fun _ hw => ?_) hmade (fun _ hw => ?_)
  · exact ⟨hw.files, hw.inputs, hw.options, trivial⟩
  · exact ⟨hw.files, hw.inputs, hw.options, .inr rfl⟩

theorem adds_reportFile {inv : Workspace → Prop} (program : Program) (name : String) :
    Adds inv (ScriptPlugin.reportFile program name) (fileFindings program name) () := by
  rw [ScriptPlugin.reportFile, fileFindings]
  split
  · exact adds_reportAll _
  · exact adds_pure ()

theorem adds_check (name : String) :
    Adds (Sound context inputs settings) ((scriptPlugin context settings).check name)
      (preEmitFindings context inputs settings name) () := by
  refine adds_program.then ?_
  rw [preEmitFindings]
  split
  · exact adds_reportFile _ _
  · change Adds _ (if settings.checkUnlistedFiles then _ else _) _ _
    split
    · exact adds_compilerOptions.then ((adds_createProgram _ _ _).then (adds_reportFile _ _))
    · exact adds_pure ()

theorem adds_finish {inv : Workspace → Prop} (output : Except TranspileError Transpile.Output) :
    Adds inv (ScriptPlugin.finish output) (emitFindings output) (emitOutcome output) := by
  cases output with
  | error error => exact adds_pure _
  | ok output =>
    rw [← List.append_nil (emitFindings _)]
    exact (adds_reportAll _).bind (adds_pure _)

theorem adds_transform_entry (context : Context) (inputs : List String) (settings : Settings)
    (input code : String) :
    ∃ result, Adds (Sound context inputs settings)
      (Container.transform [(scriptPlugin context settings).plugin] code (entryName context input))
      (if Path.isScript (entryName context input) then scriptFindings context inputs settings input code
        else [])
      result := by
  cases hscript : Path.isScript (entryName context input) with
  | false =>
    have hhook : Adds (Sound context inputs settings)
        ((scriptPlugin context settings).transform code (entryName context input)) [] (.ok none) := by
      rw [ScriptPlugin.transform, hscript]
      exact adds_pure _
    exact Container.adds_transform (scriptPlugin context settings).plugin hhook
  | true =>
    have hhook : Adds (Sound context inputs settings)
        ((scriptPlugin context settings).transform code (entryName context input))
        (preEmitFindings context inputs settings (lookupName context input) ++
          emitFindings (Transpile.run ⟨entryName context input, code⟩ (checkOptions context settings)))
        (emitOutcome (Transpile.run ⟨entryName context input, code⟩ (checkOptions context settings))) := by
      rw [ScriptPlugin.transform, hscript]
      refine adds_compilerOptions.then ((adds_check _).bind ?_)
      exact (adds_read fun _ _ => rfl).then (adds_finish _)
    exact Container.adds_transform (scriptPlugin context settings).plugin hhook

theorem adds_checkInputs (rest : List String) :
    Adds (Sound context inputs settings) (checkInputs context [(scriptPlugin context settings).plugin] rest)
      (rest.flatMap (inputFindings context inputs settings)) () := by
  induction rest with
  | nil => exact adds_pure ()
  | cons input rest ih =>
    rw [checkInputs, List.flatMap_cons]
    refine (adds_read (a := context.files.readText (entryName context input)) fun w hw => ?_).then ?_
    · rw [hw.files]
      rfl
    rw [inputFindings]
    cases context.files.readText (entryName context input) with
    | error error => exact (adds_reportAll _).bind ih
    | ok code =>
      obtain ⟨result, htransform⟩ := adds_transform_entry context inputs settings input code
      refine Adds.bind (a := ()) ?_ ih
      have hdiscard := htransform.bind (f := fun _ => pure ()) (adds_pure ())
      rwa [List.append_nil] at hdiscard

theorem run_buildStart (scripts : ScriptPlugin W) (build : Build W) :
    (Container.buildStart [scripts.plugin]).run build = some (build, .ok ()) := by
  obtain ⟨log, w⟩ := build
  have hhook : Adds (· = w) scripts.plugin.buildStart [] (.ok ()) := adds_pure _
  obtain ⟨_, rfl, hrun⟩ := Container.adds_watched scripts.plugin .buildStart hhook log w rfl
  rw [Container.buildStart, run_bind_of_run hrun]
  simp only [Container.failureEntries, List.append_nil]
  rfl

theorem run_buildEnd (scripts : ScriptPlugin W) (build : Build W) :
    ∃ outcome, (Container.buildEnd [scripts.plugin]).run build = some (build, outcome) ∧
      (outcome matches .ok _) = build.log.errors.isEmpty := by
  have hplugins : (Container.endPlugins [scripts.plugin]).run build = some (build, .ok ()) := rfl
  rw [Container.buildEnd, run_bind_of_run hplugins]
  simp only
  rw [run_bind_of_run (run_errors _)]
  cases build.log.errors with
  | nil => exact ⟨.ok (), rfl, rfl⟩
  | cons first rest => exact ⟨.error _, rfl, rfl⟩

/-- The log of a check is its findings, and it is good if there is no error among them. -/
theorem checked_eq (context : Context) (inputs : List String) (settings : Settings) :
    checked? context inputs settings =
      some (findings context inputs settings, (findings context inputs settings).errors.isEmpty) := by
  have hdeclared : Sound context inputs settings
      (declare (scriptPlugin context settings) inputs (startBuild context)).world :=
    ⟨rfl, rfl, .inl rfl, .inl rfl⟩
  obtain ⟨w, -, hrun⟩ := adds_checkInputs inputs [] _ hdeclared
  have hrun' : (checkInputs context [(scriptPlugin context settings).plugin] inputs).run
      (declare (scriptPlugin context settings) inputs (startBuild context)) =
        some (⟨findings context inputs settings, w⟩, ()) := hrun
  obtain ⟨outcome, hend, hgood⟩ :=
    run_buildEnd (scriptPlugin context settings) ⟨findings context inputs settings, w⟩
  have hbuild : (checkBuild context [(scriptPlugin context settings).plugin] inputs).run
      (declare (scriptPlugin context settings) inputs (startBuild context)) =
        some (⟨findings context inputs settings, w⟩, outcome) := by
    rw [checkBuild, run_bind_of_run (run_buildStart _ _)]
    simp only
    rw [run_bind_of_run hrun', hend]
  rw [checked?]
  simp only [hbuild, Option.map_some]
  exact congrArg (some <| Prod.mk _ ·) hgood

/-- A check never gets stuck; its report is that of its findings. -/
theorem check_eq (context : Context) (inputs : List String) (settings : Settings) :
    check context inputs settings =
      checkResult context inputs (findings context inputs settings)
        (findings context inputs settings).errors.isEmpty := by
  rw [check, checked_eq]

end TsBuild.Command
