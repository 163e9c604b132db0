import Mathlib.Data.List.Basic
import TsBuild.Proofs.Bundle.Reports
import TsBuild.Proofs.Command.Spelling
import TsBuild.Proofs.Program.RootOrder

/-!
# The verdict of a check

In an absolute working directory a check has each readable input in its program, under the name it is looked
up by (`holds_input`). So what is found on an input is known from its text and the diagnostics of the program,
each of which is one entry of the log (`inputFindings_eq`), and the log alone decides how the check ends
(`check_verdict`).
-/

namespace TsBuild.Command

open TsBuild.Bundle

-- ---------------------------------------------------------------------------
-- Entries
-- ---------------------------------------------------------------------------

def entryOf (level : LogLevel) (diagnostic : Diagnostic) : LogEntry :=
  ⟨level, diagnostic.messageText, diagnostic.location?⟩

theorem logEntries_eq_map {diagnostics : List Diagnostic}
    (h : ∀ diagnostic ∈ diagnostics, diagnostic.logEntry? = some (entryOf level diagnostic)) :
    Diagnostic.logEntries diagnostics = diagnostics.map (entryOf level) := by
  rw [Diagnostic.logEntries, List.filterMap_congr h, List.filterMap_eq_map']

theorem logEntry_of_error (h : diagnostic.category = .error) :
    diagnostic.logEntry? = some (entryOf .error diagnostic) := by
  simp only [Diagnostic.logEntry?, h, entryOf]

theorem logEntry_of_warning (h : diagnostic.category = .warning) :
    diagnostic.logEntry? = some (entryOf .warning diagnostic) := by
  simp only [Diagnostic.logEntry?, h, entryOf]

theorem category_of_mem_warnings (h : diagnostic ∈ Transpile.warnings file options) :
    diagnostic.category = .warning := by
  obtain ⟨warning, hwarning, rfl⟩ := List.mem_map.mp h
  simp only [List.mem_append, Option.mem_toList] at hwarning
  rcases hwarning with hkind | htarget
  · unfold Transpile.moduleKindWarning? at hkind
    split at hkind
    · split at hkind
      · cases hkind
      · cases hkind
        rfl
    · cases hkind
  · unfold Transpile.targetWarning? at htarget
    split at htarget
    · split at htarget
      · cases htarget
        rfl
      · cases htarget
    · cases htarget

theorem length_errors_add_warnings (log : Log) : log.errors.length + log.warnings.length = log.length := by
  induction log with
  | nil => rfl
  | cons entry log ih =>
    simp only [Log.errors, Log.warnings] at ih ⊢
    cases hlevel : entry.level
    all_goals
      simp [hlevel]
      omega

theorem failureEntries_eq_nil {outcome : Outcome α} (h : log.errors ≠ [] ∨ ∃ value, outcome = .ok value) :
    Container.failureEntries log outcome = [] := by
  rcases outcome with error | value
  · rcases h with herrors | ⟨value, hvalue⟩
    · rw [Container.failureEntries, if_neg herrors]
    · cases hvalue
  · rfl

-- ---------------------------------------------------------------------------
-- Inputs
-- ---------------------------------------------------------------------------

/-- What a check records for an input. -/
def inputLog (context : Context) (inputs : List String) (settings : Settings) (input : String) : Log :=
  let name := entryName context input
  match context.files.readText name with
  | .error error => [⟨.error, readFailure name error.message, none⟩]
  | .ok code =>
    if Path.isScript name then
      ((checkProgram context inputs settings).diagnosticsOf name).map (entryOf .error) ++
        if (Program.Facts.of ⟨name, code⟩).syntaxErrors = [] then
          (Transpile.warnings ⟨name, code⟩ (checkOptions context settings)).map (entryOf .warning)
        else []
    else []

variable {context : Context} {inputs : List String} {input code : String}

theorem normalize_entryName (context : Context) (input : String) :
    Path.normalize (entryName context input) = entryName context input := by
  rw [entryName, Path.absolutize_eq, Path.normalize_normalize]

theorem lookupName_eq (hcwd : Path.isAbsolute context.cwd = true) (input : String) :
    lookupName context input = entryName context input :=
  (lookupName_eq_iff context input).mpr (.inr (.inl hcwd))

theorem holds_input (settings : Settings) (hmem : input ∈ inputs)
    (hread : context.files.readText (entryName context input) = .ok code)
    (hmark : Text.withoutByteOrderMark code = code) :
    (checkProgram context inputs settings).Holds ⟨entryName context input, code⟩ := by
  have hsource : Program.readSource? context.files (entryName context input) =
      some ⟨entryName context input, code⟩ := by
    rw [Program.readSource?, hread, Except.toOption, Option.map_some, hmark]
  have hname : entryName context input ∈ (checkProgram context inputs settings).fileNames := by
    refine (Program.prefix_fileNames _ _ _ _).subset (List.mem_eraseDups.mpr (List.mem_filter.mpr ⟨?_, ?_⟩))
    · exact List.mem_map.mpr ⟨_, List.mem_append_right _ (List.mem_map_of_mem hmem), normalize_entryName _ _⟩
    · exact Program.readable_iff.mpr ⟨_, hsource⟩
  have hfile : ⟨entryName context input, code⟩ ∈ (checkProgram context inputs settings).files.map (·.source) := by
    rw [checkProgram, Program.build, Program.map_source_eq, List.mem_filterMap]
    exact ⟨_, hname, hsource⟩
  exact List.mem_map.mp hfile

/-- A script in the program has its diagnostics recorded. If it is not transpiled one of them is an error, so
that nothing more is recorded of that. -/
theorem scriptFindings_eq (settings : Settings) (hcwd : Path.isAbsolute context.cwd = true)
    (hheld : (checkProgram context inputs settings).Holds ⟨entryName context input, code⟩) :
    scriptFindings context inputs settings input code =
      ((checkProgram context inputs settings).diagnosticsOf (entryName context input)).map (entryOf .error) ++
        if (Program.Facts.of ⟨entryName context input, code⟩).syntaxErrors = [] then
          (Transpile.warnings ⟨entryName context input, code⟩ (checkOptions context settings)).map
            (entryOf .warning)
        else [] := by
  have hcategory : ∀ diagnostic ∈ (checkProgram context inputs settings).diagnosticsOf (entryName context input),
      diagnostic.category = .error :=
    fun _ hmem => Program.category_of_mem_diagnosticsOf hheld hmem
  have herrors : Diagnostic.logEntries
      ((checkProgram context inputs settings).diagnosticsOf (entryName context input)) =
        ((checkProgram context inputs settings).diagnosticsOf (entryName context input)).map (entryOf .error) :=
    logEntries_eq_map fun diagnostic hmem => logEntry_of_error (hcategory diagnostic hmem)
  have hwarnings : Diagnostic.logEntries
      (Transpile.warnings ⟨entryName context input, code⟩ (checkOptions context settings)) =
        (Transpile.warnings ⟨entryName context input, code⟩ (checkOptions context settings)).map
          (entryOf .warning) :=
    logEntries_eq_map fun _ hmem => logEntry_of_warning (category_of_mem_warnings hmem)
  have hpre : preEmitFindings context inputs settings (lookupName context input) =
      Diagnostic.logEntries ((checkProgram context inputs settings).diagnosticsOf (entryName context input)) := by
    have hfound := Program.isSome_file_of_holds hheld
    change ((checkProgram context inputs settings).file? (entryName context input)).isSome at hfound
    rw [lookupName_eq hcwd, preEmitFindings, if_pos hfound, fileFindings, if_pos hfound]
  have hengine : (scriptPlugin context settings).engine = .standard := rfl
  obtain ⟨hemit, hends⟩ :=
    ScriptPlugin.emits hengine (checkOptions context settings) ⟨entryName context input, code⟩
  change emitFindings (Transpile.run _ _) = _ at hemit
  simp only [scriptFindings, hpre, hemit, herrors, hwarnings]
  refine List.append_right_eq_self.mpr (failureEntries_eq_nil ?_)
  by_cases hparses : (Program.Facts.of ⟨entryName context input, code⟩).syntaxErrors = []
  · exact .inr (hends hparses)
  · obtain ⟨diagnostic, hsyntax⟩ := List.exists_mem_of_ne_nil _ hparses
    have hmem : diagnostic ∈ (checkProgram context inputs settings).diagnosticsOf (entryName context input) :=
      Program.syntaxErrors_subset hheld hsyntax
    have hne := errors_logEntries_ne_nil hmem (hcategory _ hmem)
    rw [herrors] at hne
    rw [Container.errors_append]
    exact .inl (List.append_ne_nil_of_left_ne_nil hne _)

theorem inputFindings_eq (settings : Settings) (hcwd : Path.isAbsolute context.cwd = true)
    (hheld : Path.isScript (entryName context input) = true → ∀ code,
      context.files.readText (entryName context input) = .ok code →
        (checkProgram context inputs settings).Holds ⟨entryName context input, code⟩) :
    inputFindings context inputs settings input = inputLog context inputs settings input := by
  rw [inputFindings, inputLog]
  cases hread : context.files.readText (entryName context input) with
  | error error => rfl
  | ok code =>
    cases hscript : Path.isScript (entryName context input) with
    | false => rfl
    | true => exact scriptFindings_eq settings hcwd (hheld hscript code hread)

-- ---------------------------------------------------------------------------
-- The verdict
-- ---------------------------------------------------------------------------

/-- In an absolute directory, and with no script that has a mark for its byte order, a check records for each
input in turn what there is to record for it, whatever the inputs before have come to. Each readable script is
in the program. The check is good exactly if no error is recorded, and every entry is an error or a warning. -/
theorem check_verdict (context : Context) (inputs : List String) (settings : Settings)
    (hcwd : Path.isAbsolute context.cwd = true)
    (hmarks : ∀ input ∈ inputs, Path.isScript (entryName context input) = true → ∀ code,
      context.files.readText (entryName context input) = .ok code → Text.withoutByteOrderMark code = code) :
    ∃ log isGood, checked? context inputs settings = some (log, isGood) ∧
      log = inputs.flatMap (inputLog context inputs settings) ∧
      (∀ input ∈ inputs, Path.isScript (entryName context input) = true → ∀ code,
        context.files.readText (entryName context input) = .ok code →
          (checkProgram context inputs settings).Holds ⟨entryName context input, code⟩) ∧
      check context inputs settings = checkResult context inputs log isGood ∧
      (context.json = true → (check context inputs settings).stdout =
        reportText [("ok", .bool isGood), ("files", .array (inputs.map .string)),
          ("errors", .number (.int log.errors.length)), ("warnings", .number (.int log.warnings.length)),
          ("logs", logReport log)]) ∧
      ((check context inputs settings).status = 0 ↔ isGood = true) ∧
      (isGood = true ↔ log.errors.length = 0) ∧
      (log.errors.length = 0 ↔ ∀ entry ∈ log, entry.level ≠ .error) ∧
      log.errors.length + log.warnings.length = log.length := by
  have hheld : ∀ input ∈ inputs, Path.isScript (entryName context input) = true → ∀ code,
      context.files.readText (entryName context input) = .ok code →
        (checkProgram context inputs settings).Holds ⟨entryName context input, code⟩ :=
    fun input hmem hscript code hread => holds_input settings hmem hread (hmarks input hmem hscript code hread)
  have hlog : findings context inputs settings = inputs.flatMap (inputLog context inputs settings) :=
    List.flatMap_congr fun input hmem => inputFindings_eq settings hcwd (hheld input hmem)
  refine ⟨_, _, checked_eq context inputs settings, hlog, hheld, check_eq context inputs settings, ?_, ?_, ?_,
    ?_, length_errors_add_warnings _⟩
  · intro hjson
    rw [check_eq, checkResult, if_pos hjson]
    rfl
  · rw [check_eq, status_checkResult]
    cases (findings context inputs settings).errors.isEmpty <;> decide
  · rw [List.isEmpty_iff, List.length_eq_zero_iff]
  · rw [List.length_eq_zero_iff, Log.errors, List.filter_eq_nil_iff]
    simp only [decide_eq_true_eq]

def mixedContext : Context where
  files.root := .dir [("good.ts", .file (some "let x = 1;\n")), ("wrong.ts", .file (some "let x: number = 'a';\n")),
    ("broken.ts", .file (some "let x = ;\n")), ("notes.md", .file (some "# Notes\n")), ("w", .dir [])]
  files.cwd := "/w"
  cwd := "/w"
  json := true

def mixedInputs : List String :=
  ["../wrong.ts", "../gone.ts", "../notes.md", "../wrong.ts", "../broken.ts", "../good.ts"]

def oldTarget : Settings := ⟨some (.object [("target", .string "es5")]), false⟩

set_option maxRecDepth 100000 in
theorem levels_mixedInputs :
    mixedInputs.map (fun input => (inputLog mixedContext mixedInputs oldTarget input).map (·.level)) =
      [[.error, .error, .warning], [.error], [], [.error, .error, .warning], [.error, .error],
        [.error, .warning]] := by
  decide +kernel

theorem unmarked_mixedInputs (hmem : input ∈ mixedInputs)
    (hread : mixedContext.files.readText (entryName mixedContext input) = .ok code) :
    Text.withoutByteOrderMark code = code := by
  have hall : ∀ input ∈ mixedInputs, (mixedContext.files.readText (entryName mixedContext input)).toOption.all
      fun code => decide (Text.withoutByteOrderMark code = code) := by
    decide +kernel
  have hunmarked := hall input hmem
  rw [hread] at hunmarked
  exact of_decide_eq_true hunmarked

/-- The file that is gone is an error of its own, and of the program in every script. -/
theorem check_verdict_mixed :
    Path.isAbsolute mixedContext.cwd = true ∧
      ∃ log, checked? mixedContext mixedInputs oldTarget = some (log, false) ∧
        log.map (·.level) =
          [.error, .error, .warning, .error, .error, .error, .warning, .error, .error, .error, .warning] ∧
        (check mixedContext mixedInputs oldTarget).status ≠ 0 := by
  have hcwd : Path.isAbsolute mixedContext.cwd = true := by decide
  obtain ⟨log, isGood, hchecked, hlog, -, -, -, hstatus, hgood, hnone, -⟩ :=
    check_verdict mixedContext mixedInputs oldTarget hcwd fun _ hmem _ _ hread => unmarked_mixedInputs hmem hread
  have hlevels : log.map (·.level) =
      [.error, .error, .warning, .error, .error, .error, .warning, .error, .error, .error, .warning] := by
    rw [hlog, List.map_flatMap, List.flatMap_def, levels_mixedInputs]
    rfl
  have hbad : isGood = false := by
    have herror : LogLevel.error ∈ log.map (·.level) := by
      rw [hlevels]
      decide
    obtain ⟨entry, hmem, hentry⟩ := List.mem_map.mp herror
    rw [← Bool.not_eq_true, hgood, hnone]
    exact fun h => h entry hmem hentry
  subst hbad
  refine ⟨hcwd, log, hchecked, hlevels, ?_⟩
  rw [ne_eq, hstatus]
  exact Bool.false_ne_true

end TsBuild.Command
