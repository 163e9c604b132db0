import TsBuild.Proofs.Bundle.Settled
import TsBuild.Proofs.Program.Unresolved
import TsBuild.Proofs.Script.Transpile

/-!
# What concurrent transforms report

Transforms that run at once share a log, and whether one of them reports that it failed depends on how
many errors the others report meanwhile. But a transform whose hook has reported an error finds more
errors than before, whatever the others do, so it fails and reports nothing more (`acts_watched`). For the
files of a program there is no hook that fails otherwise, so in every order of steps the log comes to the
same: for each call what is due for its file (`reports_due`).
-/

namespace TsBuild.Bundle

open TsBuild.Bundle.Task (Acts reportedIn acts_bind acts_done acts_errors)

-- ---------------------------------------------------------------------------
-- A hook that reports errors
-- ---------------------------------------------------------------------------

theorem InOrder.errors_le {moments : List (Moment W ε)} {last : Moment W ε} {log : Log}
    (h : InOrder (moments ++ [last])) (hfrom : ∀ moment ∈ moments ++ [last], log <+: moment.log) :
    log.errors.length + (reportedIn moments).errors.length ≤ last.log.errors.length := by
  -- What the first moment found and reported is behind the logs of all that follow.
  induction moments generalizing log with
  | nil => exact ((hfrom last (by simp)).filter _).length_le
  | cons moment rest ih =>
    obtain ⟨hlater, hrest⟩ := List.pairwise_cons.mp h
    have hbelow := ih hrest hlater
    have hlog := ((hfrom moment (by simp)).filter fun entry => entry.level = .error).length_le
    have hsplit : (reportedIn (moment :: rest)).errors.length =
        moment.reported.errors.length + (reportedIn rest).errors.length := by
      rw [reportedIn, List.flatMap_cons, Container.errors_append, List.length_append]
      rfl
    rw [Container.errors_append, List.length_append] at hbelow
    have hlog : log.errors.length ≤ moment.log.errors.length := hlog
    omega

theorem InOrder.errors_found {before look : Moment W ε} {own later : List (Moment W ε)}
    (h : InOrder ([before] ++ (own ++ ([look] ++ later)))) (hbefore : before.reported = []) :
    before.log.errors.length + (reportedIn own).errors.length ≤ look.log.errors.length := by
  have horder : InOrder ([before] ++ (own ++ [look])) := h.sublist (by simp)
  obtain ⟨hbehind, horder⟩ := List.pairwise_cons.mp horder
  refine InOrder.errors_le horder fun moment hmem => ?_
  have hmoment := hbehind moment hmem
  rwa [hbefore, List.append_nil] at hmoment

/-- A watched hook that reported errors fails, and if it reported some or returned a result, nothing is
reported of it. -/
theorem acts_watched {task : Task W (Outcome α)} {moments : List (Moment W ε)}
    (h : Acts (Container.watched plugin hook task) moments (.done result)) (horder : InOrder moments) :
    ∃ own outcome, own.Sublist moments ∧ Acts task own (.done outcome) ∧
      ((reportedIn own).errors ≠ [] → ∃ error, result = .error error) ∧
      ((reportedIn own).errors ≠ [] ∨ (∃ value, outcome = .ok value) →
        reportedIn moments = reportedIn own) := by
  obtain ⟨_, first, rest, rfl, hfirst, h⟩ := acts_bind h
  obtain ⟨before, rfl, hbefore, rfl⟩ := acts_errors hfirst
  obtain ⟨outcome, own, last, rfl, hown, h⟩ := acts_bind h
  refine ⟨own, outcome, (List.sublist_append_left ..).trans (List.sublist_append_right ..), hown, ?_⟩
  cases outcome with
  | ok value =>
    obtain ⟨_, looked, ending, rfl, hlooked, h⟩ := acts_bind h
    obtain ⟨look, rfl, hlook, rfl⟩ := acts_errors hlooked
    have hfound := horder.errors_found hbefore
    cases hfailure : Container.newFailure? plugin hook before.log.errors.length look.log.errors with
    | some error =>
      simp only [hfailure] at h
      obtain ⟨rfl, rfl⟩ := acts_done h
      exact ⟨fun _ => ⟨error, rfl⟩, fun _ => by simp [reportedIn, hbefore, hlook]⟩
    | none =>
      simp only [hfailure] at h
      obtain ⟨rfl, rfl⟩ := acts_done h
      refine ⟨fun hne => ?_, fun _ => by simp [reportedIn, hbefore, hlook]⟩
      have hlength := List.length_pos_iff.mpr hne
      rw [Container.newFailure?, Option.map_eq_none_iff, List.getElem?_eq_none_iff] at hfailure
      omega
  | error error =>
    obtain ⟨_, looked, ending, rfl, hlooked, h⟩ := acts_bind h
    obtain ⟨look, rfl, hlook, rfl⟩ := acts_errors hlooked
    have hfound := horder.errors_found hbefore
    by_cases hcount : look.log.errors.length = before.log.errors.length
    · -- The count is as it was, so the hook reported no error.
      simp only [hcount, ↓reduceIte] at h
      obtain ⟨_, told, ending, rfl, -, h⟩ := acts_bind h
      obtain ⟨rfl, rfl⟩ := acts_done h
      refine ⟨fun _ => ⟨error, rfl⟩, ?_⟩
      rintro (hne | ⟨value, hvalue⟩)
      · have hlength := List.length_pos_iff.mpr hne
        omega
      · cases hvalue
    · simp only [hcount, ↓reduceIte] at h
      obtain ⟨rfl, rfl⟩ := acts_done h
      exact ⟨fun _ => ⟨error, rfl⟩, fun _ => by simp [reportedIn, hbefore, hlook]⟩

theorem acts_transform_single {plugin : Plugin W} {code id : String} {moments : List (Moment W ε)}
    (h : Acts (Container.transform [plugin] code id) moments (.done outcome)) :
    ∃ result, Acts (Container.watched plugin .transform (plugin.transform code id)) moments (.done result) ∧
      ((∃ error, result = .error error) → ∃ error, outcome = .error error) := by
  obtain ⟨result, first, rest, rfl, hfirst, h⟩ := acts_bind h
  rcases result with error | _ | transformed
  all_goals
    obtain ⟨rfl, rfl⟩ := acts_done h
    rw [List.append_nil]
  · exact ⟨_, hfirst, fun _ => ⟨error, rfl⟩⟩
  · exact ⟨_, hfirst, nofun⟩
  · exact ⟨_, hfirst, nofun⟩

-- ---------------------------------------------------------------------------
-- What is due for a file
-- ---------------------------------------------------------------------------

theorem errors_logEntries_ne_nil {diagnostics : List Diagnostic} (hmem : diagnostic ∈ diagnostics)
    (hcategory : diagnostic.category = .error) : (Log.errors (Diagnostic.logEntries diagnostics)) ≠ [] := by
  have hentry : diagnostic.logEntry? = some ⟨.error, diagnostic.messageText, diagnostic.location?⟩ := by
    simp only [Diagnostic.logEntry?, hcategory]
  exact List.ne_nil_of_mem (List.mem_filter.mpr ⟨List.mem_filterMap.mpr ⟨diagnostic, hmem, hentry⟩, rfl⟩)

end TsBuild.Bundle

namespace TsBuild.Program

def Holds (program : Program) (file : SourceFile) : Prop := ∃ checked ∈ program.files, checked.source = file

instance (program : Program) (file : SourceFile) : Decidable (program.Holds file) :=
  inferInstanceAs (Decidable (∃ checked ∈ program.files, _))

theorem category_of_mem_diagnosticsOf {roots : List String} {options : OptionSet}
    (hfile : (build fs roots options).Holds file)
    (hmem : diagnostic ∈ (build fs roots options).diagnosticsOf file.name) :
    diagnostic.category = .error := by
  obtain ⟨checked, hchecked, rfl⟩ := hfile
  obtain ⟨-, hsyntactic, ambient, -, hsemantic⟩ := parts_of_mem_files hchecked
  rw [diagnosticsOf_eq hchecked, List.mem_append, List.mem_append] at hmem
  rcases hmem with (hmem | hmem) | hmem
  · rw [hsyntactic] at hmem
    exact Facts.category_of_mem_syntaxErrors hmem
  · obtain ⟨name, -, rfl⟩ := List.mem_map.mp hmem
    rfl
  · rw [hsemantic] at hmem
    rcases List.mem_append.mp ((inTextOrder_perm _).mem_iff.mp hmem) with hmem | hmem
    · unfold literalDiagnostics at hmem
      split at hmem
      · cases hmem
      · obtain ⟨literal, -, rfl⟩ := List.mem_map.mp hmem
        rfl
    · obtain ⟨import_, -, rfl⟩ := List.mem_map.mp hmem
      rfl

theorem syntaxErrors_subset {roots : List String} {options : OptionSet}
    (hfile : (build fs roots options).Holds file) :
    (Facts.of file).syntaxErrors ⊆ (build fs roots options).diagnosticsOf file.name := by
  obtain ⟨checked, hchecked, rfl⟩ := hfile
  obtain ⟨-, hsyntactic, -⟩ := parts_of_mem_files hchecked
  rw [diagnosticsOf_eq hchecked, hsyntactic, List.append_assoc]
  exact List.subset_append_left ..

theorem isSome_file_of_holds {roots : List String} {options : OptionSet}
    (hfile : (build fs roots options).Holds file) : ((build fs roots options).file? file.name).isSome := by
  obtain ⟨checked, hchecked, rfl⟩ := hfile
  rw [build, file_eq hchecked]
  rfl

theorem absolutize_of_holds {roots : List String} {options : OptionSet}
    (hfile : (build fs roots options).Holds file) (habsolute : Path.isAbsolute file.name = true)
    (cwd : String) : Path.absolutize file.name cwd = file.name := by
  obtain ⟨checked, hchecked, rfl⟩ := hfile
  rw [Path.absolutize_eq, Path.join_of_isAbsolute habsolute, (parts_of_mem_files hchecked).1]

end TsBuild.Program

namespace TsBuild.Bundle.ScriptPlugin

open TsBuild.Bundle.Task (Acts Goes Keeps reportedIn)
open TsBuild.Command (fileFindings emitFindings emitOutcome)

def transforming (plugin : ScriptPlugin W) (file : SourceFile) : Task W (Outcome Transformed) :=
  Container.transform [plugin.plugin] file.text file.name

def programAt (plugin : ScriptPlugin W) (w : W) : Program :=
  plugin.engine.createProgram (plugin.access.files w)
    (Program.declarationFiles (plugin.access.files w) plugin.root ++
      (plugin.declaredInputs w).map fun input => Path.absolutize input plugin.root)
    (plugin.resolvedOptions w)

/-- What is due for a file: its diagnostics before anything is emitted and, if its syntax is good, the
warnings about the options. -/
def due (program : Program) (options : OptionSet) (file : SourceFile) : Log :=
  Diagnostic.logEntries (program.diagnosticsOf file.name) ++
    if (Program.Facts.of file).syntaxErrors = [] then Diagnostic.logEntries (Transpile.warnings file options)
    else []

/-- The plugin transforms a file of this name, and finds it in the program. -/
structure Takes (plugin : ScriptPlugin W) (file : SourceFile) : Prop where
  script : Path.isScript file.name = true
  named : Path.absolutize file.name plugin.root = file.name

def IsMade (plugin : ScriptPlugin W) (program : Program) : Prop :=
  ∃ fs roots options, program = plugin.engine.createProgram fs roots options

section
variable {plugin : ScriptPlugin W} {options : OptionSet} {program : Program} {file : SourceFile}
  {past : List (Moment W ε)}

theorem errors_due_ne_nil (hengine : plugin.engine = .standard) (hmade : plugin.IsMade program)
    (hheld : program.Holds file) (hmem : diagnostic ∈ program.diagnosticsOf file.name) :
    (due program options file).errors ≠ [] := by
  obtain ⟨fs, roots, given, rfl⟩ := hmade
  rw [hengine] at hheld hmem ⊢
  have hcategory := Program.category_of_mem_diagnosticsOf hheld hmem
  rw [due, Container.errors_append]
  exact List.append_ne_nil_of_left_ne_nil (errors_logEntries_ne_nil hmem hcategory) _

/-- What is found in transpiling are the warnings about the options, if the syntax is good. -/
theorem emits (hengine : plugin.engine = .standard) (options : OptionSet) (file : SourceFile) :
    emitFindings (plugin.engine.transpile file options) =
        (if (Program.Facts.of file).syntaxErrors = [] then
          Diagnostic.logEntries (Transpile.warnings file options) else []) ∧
      ((Program.Facts.of file).syntaxErrors = [] →
        ∃ value, emitOutcome (plugin.engine.transpile file options) = .ok value) := by
  have htranspile : plugin.engine.transpile = Transpile.run := by rw [hengine, Engine.standard]
  rw [htranspile]
  rcases Transpile.run_cases file options with
    ⟨hparses, output, result, hrun, hwarnings, htransformed⟩ | ⟨hparses, error, hrun⟩
  · rw [hrun, if_pos hparses, emitFindings, hwarnings]
    exact ⟨rfl, fun _ => ⟨some result, by rw [emitOutcome, htransformed]; rfl⟩⟩
  · rw [hrun, if_neg hparses]
    exact ⟨rfl, fun hnil => absurd hnil hparses⟩

/-- The hook reports what is due for a file of the program, and if there is no error in that it succeeds. -/
theorem Treats.due (h : plugin.Treats options program past file.text file.name outcome entries)
    (hengine : plugin.engine = .standard) (hmade : plugin.IsMade program) (hheld : program.Holds file)
    (htakes : plugin.Takes file) :
    entries = due program options file ∧ (entries.errors ≠ [] ∨ ∃ value, outcome = .ok value) := by
  obtain ⟨rfl, checked, hchecks, rfl⟩ := h
  obtain ⟨hfindings, houtcome⟩ := emits hengine options file
  have hfound : (program.file? file.name).isSome := by
    obtain ⟨fs, roots, given, rfl⟩ := hmade
    rw [hengine] at hheld ⊢
    exact Program.isSome_file_of_holds hheld
  have hchecked : checked = Diagnostic.logEntries (program.diagnosticsOf file.name) := by
    rw [htakes.named] at hchecks
    cases hchecks with
    | listed => rw [fileFindings, if_pos hfound]
    | alone hnone | unchecked hnone =>
      rw [hnone] at hfound
      cases hfound
  have hdue : checked ++ emitFindings (plugin.engine.transpile file options) =
      ScriptPlugin.due program options file := by
    rw [hchecked, hfindings, ScriptPlugin.due]
  refine ⟨hdue, ?_⟩
  by_cases hparses : (Program.Facts.of file).syntaxErrors = []
  · exact .inr (houtcome hparses)
  · obtain ⟨diagnostic, hmem⟩ := List.exists_mem_of_ne_nil _ hparses
    have hdiagnostic : diagnostic ∈ program.diagnosticsOf file.name := by
      obtain ⟨fs, roots, given, rfl⟩ := hmade
      rw [hengine] at hheld ⊢
      exact Program.syntaxErrors_subset hheld hmem
    exact .inl (hdue ▸ errors_due_ne_nil hengine hmade hheld hdiagnostic)

theorem Treats.unchecked (h : plugin.Treats options program past file.text file.name outcome entries)
    (hengine : plugin.engine = .standard)
    (hnone : program.file? (Path.absolutize file.name plugin.root) = none)
    (hsetting : plugin.settings.checkUnlistedFiles = false)
    (hparses : (Program.Facts.of file).syntaxErrors = []) :
    entries = Diagnostic.logEntries (Transpile.warnings file options) ∧ ∃ value, outcome = .ok value := by
  obtain ⟨rfl, checked, hchecks, rfl⟩ := h
  obtain ⟨hfindings, houtcome⟩ := emits hengine options file
  rw [if_pos hparses] at hfindings
  refine ⟨?_, houtcome hparses⟩
  cases hchecks with
  | listed hfound =>
    rw [hnone] at hfound
    cases hfound
  | alone _ hsetting' =>
    rw [hsetting] at hsetting'
    cases hsetting'
  | unchecked => exact hfindings

end

-- ---------------------------------------------------------------------------
-- Calls of the container
-- ---------------------------------------------------------------------------

section
variable {plugin : ScriptPlugin W} {options : OptionSet} {program : Program} {file : SourceFile}
  {past : List (Moment W Outside)} {pool : Pool W SourceFile (Outcome Transformed)}

theorem closed_transforming {P : ∀ {α : Type}, Task W α → Prop} (h : Task.Closed P)
    (htransform : ∀ code id, P (plugin.transform code id)) (file : SourceFile) :
    P (plugin.transforming file) :=
  Container.closed_transform h (fun _ hmem => List.mem_singleton.mp hmem ▸ htransform) _ _

theorem fitsOptions_transforming (haccess : plugin.access.Lawful)
    (hsession : plugin.access.session w = { inputs? }) :
    (plugin.optionsOnce haccess).Fits plugin.transforming (Outside.Changes plugin) { world := w } :=
  fits_options haccess hsession (closed_transforming (Once.closed_uses _) (usesOptions_transform haccess))

theorem fitsProgram_transforming (haccess : plugin.access.Lawful)
    (hsession : plugin.access.session w = { inputs? }) :
    (plugin.programOnce haccess).Fits plugin.transforming (Outside.Changes plugin) { world := w } :=
  fits_program haccess hsession (closed_transforming (Once.closed_uses _) (usesProgram_transform haccess))

theorem fixed_of_history (haccess : plugin.access.Lawful) (hsession : plugin.access.session w = { inputs? })
    (h : History plugin.transforming (Outside.Changes plugin) { world := w } past pool)
    (hquiet : Undisturbed past) (hprogram : (plugin.access.session pool.world).program = .full program) :
    (plugin.access.session pool.world).options = .full (plugin.resolvedOptions w) ∧
      program = plugin.programAt w := by
  have hsame : ∀ moment ∈ past, plugin.surroundings moment.world = plugin.surroundings w :=
    (h.keeps rfl (closed_transforming Task.closed_each (surrounded_transform haccess)) hquiet).1
  have hfiles : ∀ moment ∈ past, plugin.access.files moment.world = plugin.access.files w :=
    fun moment hmem => congrArg Prod.fst (hsame moment hmem)
  have hinputs : ∀ moment ∈ past, plugin.declaredInputs moment.world = plugin.declaredInputs w :=
    fun moment hmem => congrArg (fun pair => pair.2.getD []) (hsame moment hmem)
  obtain ⟨options, making, hoptions, hmakes⟩ := made_of_history haccess h
    (fitsOptions_transforming haccess hsession) (fitsProgram_transforming haccess hsession) hprogram
  obtain ⟨resolving, hresolving, -, rfl⟩ :=
    resolved_of_history haccess h (fitsOptions_transforming haccess hsession) hoptions
  have hresolved : plugin.resolvedOptions resolving.world = plugin.resolvedOptions w := by
    rw [resolvedOptions, hfiles _ hresolving, resolvedOptions]
  have hdeclared := hinputs making.declared (hmakes.mem (by simp [Making.moments]))
  have hfound := hfiles making.found (hmakes.mem (by simp [Making.moments]))
  have hmade := hfiles making.made (hmakes.mem (by simp [Making.moments]))
  refine ⟨hresolved ▸ hoptions, ?_⟩
  rw [hmakes.program_eq, hresolved, hdeclared, hfound, hmade, programAt]

/-- What a call for a script has reported is what its hook has, if that has reported errors or succeeded. -/
theorem treats_of_finished (haccess : plugin.access.Lawful) (hsession : plugin.access.session w = { inputs? })
    (h : History plugin.transforming (Outside.Changes plugin) { world := w } past pool)
    (hfinished : pool.Finished who file outcome) (hscript : Path.isScript file.name = true) :
    ∃ options program hook entries, (plugin.access.session pool.world).options = .full options ∧
      (plugin.access.session pool.world).program = .full program ∧ plugin.IsMade program ∧
      plugin.Treats options program past file.text file.name hook entries ∧
      (entries.errors ≠ [] → ∃ error, outcome = .error error) ∧
      (entries.errors ≠ [] ∨ (∃ value, hook = .ok value) → pool.log.own who = entries) := by
  have hoptions := fitsOptions_transforming haccess hsession
  have hprogram := fitsProgram_transforming haccess hsession
  have hown : pool.log.own who = reportedIn (momentsOf who past) := h.own who
  obtain ⟨result, hwatched, hfailed⟩ := acts_transform_single (h.acts rfl hfinished)
  obtain ⟨own, hook, hwithin, hacts, herrors, hreported⟩ :=
    acts_watched hwatched (h.grows.1.sublist (momentsOf_sublist who past))
  obtain ⟨options, program, hcell, hcell', htreats⟩ :=
    acts_transform (finds_of_history haccess h hoptions hprogram)
      (hwithin.trans (momentsOf_sublist who past)) hscript hacts
  obtain ⟨given, making, -, hmakes⟩ := made_of_history haccess h hoptions hprogram hcell'
  exact ⟨options, program, hook, _, hcell, hcell', ⟨_, _, _, hmakes.program_eq⟩, htreats,
    fun hne => hfailed (herrors hne), fun hends => hown.trans (hreported hends)⟩

theorem due_of_finished (haccess : plugin.access.Lawful) (hengine : plugin.engine = .standard)
    (hsession : plugin.access.session w = { inputs? })
    (h : History plugin.transforming (Outside.Changes plugin) { world := w } past pool)
    (hfinished : pool.Finished who file outcome) (htakes : plugin.Takes file)
    (hheld : ∀ program, (plugin.access.session pool.world).program = .full program → program.Holds file) :
    ∃ options program, (plugin.access.session pool.world).options = .full options ∧
      (plugin.access.session pool.world).program = .full program ∧
      pool.log.own who = due program options file ∧
      (program.diagnosticsOf file.name ≠ [] → ∃ error, outcome = .error error) := by
  obtain ⟨options, program, hook, entries, hoptions, hprogram, hmade, htreats, hfailed, hown⟩ :=
    treats_of_finished haccess hsession h hfinished htakes.script
  obtain ⟨hdue, hends⟩ := htreats.due hengine hmade (hheld program hprogram) htakes
  refine ⟨options, program, hoptions, hprogram, (hown hends).trans hdue, fun hdiagnostics => hfailed ?_⟩
  obtain ⟨diagnostic, hmem⟩ := List.exists_mem_of_ne_nil _ hdiagnostics
  exact hdue ▸ errors_due_ne_nil hengine hmade (hheld program hprogram) hmem

theorem exists_outcome (haccess : plugin.access.Lawful) (hsession : plugin.access.session w = { inputs? })
    (h : History plugin.transforming (Outside.Changes plugin) { world := w } past pool)
    (hstill : pool.IsStill plugin.transforming) {who : Nat} {task : Task W (Outcome Transformed)}
    (hcall : pool.calls[who]? = some (file, task)) : ∃ outcome, task = .done outcome :=
  finished_of_still haccess h (fitsOptions_transforming haccess hsession)
    (fitsProgram_transforming haccess hsession)
    (closed_transforming Task.closed_each (goes_transform plugin)) hstill hcall

theorem own_of_passed (h : History plugin.transforming (Outside.Changes plugin) { world := w } past pool)
    (hfinished : pool.Finished who file outcome) (hscript : Path.isScript file.name = false) :
    pool.log.own who = [] := by
  have hown : pool.log.own who = reportedIn (momentsOf who past) := h.own who
  obtain ⟨result, hwatched, -⟩ := acts_transform_single (h.acts rfl hfinished)
  obtain ⟨own, hook, -, hacts, -, hreported⟩ :=
    acts_watched hwatched (h.grows.1.sublist (momentsOf_sublist who past))
  obtain ⟨rfl, hnothing⟩ := acts_passed hscript hacts
  rw [hown, hreported (.inr ⟨none, rfl⟩), hnothing]

/-- What the calls of a history have come to, with these options and this program: nothing that is due is
lost, and nothing else is reported. -/
structure Reports (plugin : ScriptPlugin W) (w : W) (past : List (Moment W Outside))
    (pool : Pool W SourceFile (Outcome Transformed)) (options : OptionSet) (program : Program) : Prop where
  options_full : (plugin.access.session pool.world).options = .full options
  program_full : (plugin.access.session pool.world).program = .full program
  fixed : Undisturbed past → options = plugin.resolvedOptions w ∧ program = plugin.programAt w
  log_perm : pool.log.entries.Perm ((pool.calls.map Prod.fst).flatMap (due program options))
  finished {who : Nat} {file : SourceFile} {task : Task W (Outcome Transformed)} :
    pool.calls[who]? = some (file, task) → ∃ outcome, task = .done outcome ∧
      (program.diagnosticsOf file.name ≠ [] → ∃ error, outcome = .error error)

/-- In any order of steps the calls for files of a program come to where none can go on. Then all of them
have come to their ends, those for files with diagnostics have failed, and the log has for each call what is
due for its file. -/
theorem reports_due (haccess : plugin.access.Lawful) (hengine : plugin.engine = .standard)
    (hsession : plugin.access.session w = { inputs? })
    (h : History plugin.transforming (Outside.Changes plugin) { world := w } past pool)
    (htakes : ∀ call ∈ pool.calls, plugin.Takes call.1)
    (hheld : ∀ program, (plugin.access.session pool.world).program = .full program →
      ∀ call ∈ pool.calls, program.Holds call.1) :
    WellFounded (Pool.Advances plugin.transforming) ∧
      (pool.IsStill plugin.transforming → pool.calls ≠ [] →
        ∃ options program, plugin.Reports w past pool options program) := by
  refine ⟨wellFounded_advances _, fun hstill hcalls => ?_⟩
  have hends : ∀ {who : Nat} {file : SourceFile} {task : Task W (Outcome Transformed)},
      pool.calls[who]? = some (file, task) →
      ∃ outcome options program, task = .done outcome ∧
        (plugin.access.session pool.world).options = .full options ∧
        (plugin.access.session pool.world).program = .full program ∧
        pool.log.own who = due program options file ∧
        (program.diagnosticsOf file.name ≠ [] → ∃ error, outcome = .error error) := by
    intro who file task hcall
    have hmem := List.mem_of_getElem? hcall
    obtain ⟨outcome, rfl⟩ := exists_outcome haccess hsession h hstill hcall
    obtain ⟨options, program, hend⟩ := due_of_finished haccess hengine hsession h hcall (htakes _ hmem)
      fun program hfull => hheld program hfull _ hmem
    exact ⟨outcome, options, program, rfl, hend⟩
  obtain ⟨⟨file, task⟩, hmem⟩ := List.exists_mem_of_ne_nil _ hcalls
  obtain ⟨first, hfirst⟩ := List.getElem?_of_mem hmem
  obtain ⟨-, options, program, -, hoptions, hprogram, -⟩ := hends hfirst
  -- Every other call has found the same options and the same program as the first.
  have hends : ∀ who file task, pool.calls[who]? = some (file, task) → ∃ outcome, task = .done outcome ∧
      pool.log.own who = due program options file ∧
      (program.diagnosticsOf file.name ≠ [] → ∃ error, outcome = .error error) := by
    intro who file task hcall
    obtain ⟨outcome, _, _, htask, hsame, hsame', hend⟩ := hends hcall
    rw [hoptions, Cell.full.injEq] at hsame
    rw [hprogram, Cell.full.injEq] at hsame'
    subst hsame hsame'
    exact ⟨outcome, htask, hend⟩
  refine ⟨options, program, hoptions, hprogram, fun hquiet => ?_, ?_, fun hcall => ?_⟩
  · obtain ⟨hresolved, hprogramAt⟩ := fixed_of_history haccess hsession h hquiet hprogram
    rw [hoptions, Cell.full.injEq] at hresolved
    exact ⟨hresolved, hprogramAt⟩
  · refine h.entries_perm fun who file task hcall => ?_
    obtain ⟨-, -, hdue, -⟩ := hends who file task hcall
    exact hdue
  · obtain ⟨outcome, htask, -, hfailed⟩ := hends _ _ _ hcall
    exact ⟨outcome, htask, hfailed⟩

end

-- ---------------------------------------------------------------------------
-- Builds
-- ---------------------------------------------------------------------------

def checker : ScriptPlugin Workspace where
  root := "/w"
  settings := .standard
  access := Workspace.access

def goodScript : SourceFile := ⟨"/good.ts", "let x: number = 1;\n"⟩

def badScript : SourceFile := ⟨"/bad.ts", "let x: number = 'a';\n"⟩

def otherScript : SourceFile := ⟨"/bad.js", "let x: number = 'a';\n"⟩

def mixedBuild : Workspace where
  files.root := .dir [("good.ts", .file (some goodScript.text)), ("bad.ts", .file (some badScript.text)),
    ("bad.js", .file (some otherScript.text)), ("w", .dir [])]
  files.cwd := "/"
  session.inputs? := some ["/good.ts", "/bad.ts", "/bad.js"]

set_option maxRecDepth 100000 in
theorem holds_mixedBuild : ∀ file ∈ [goodScript, badScript, otherScript],
    (checker.programAt mixedBuild).Holds file := by
  decide +kernel

set_option maxRecDepth 100000 in
theorem due_mixedBuild :
    due (checker.programAt mixedBuild) (checker.resolvedOptions mixedBuild) goodScript = [] ∧
      (checker.programAt mixedBuild).diagnosticsOf badScript.name ≠ [] ∧
      due (checker.programAt mixedBuild) (checker.resolvedOptions mixedBuild) otherScript ≠ [] := by
  decide +kernel

theorem takes_checker (hmem : file ∈ [goodScript, badScript]) : checker.Takes file where
  script := by
    revert file
    decide
  named := by
    have habsolute : Path.isAbsolute file.name = true := by
      revert file
      decide
    have hheld : (checker.programAt mixedBuild).Holds file :=
      holds_mixedBuild file (List.mem_append_left [otherScript] hmem)
    exact Program.absolutize_of_holds hheld habsolute "/w"

/-- Three calls at once, two of them for one file with an error. -/
theorem reports_due_mixed :
    ∃ past pool options program, checker.access.Lawful ∧ checker.engine = .standard ∧
      History checker.transforming (Outside.Changes checker) { world := mixedBuild } past pool ∧
      pool.IsStill checker.transforming ∧
      pool.calls.map Prod.fst = [goodScript, badScript, badScript] ∧
      program.diagnosticsOf badScript.name ≠ [] ∧
      checker.Reports mixedBuild past pool options program := by
  obtain ⟨past, pool, h, hquiet, hstill, hcalls⟩ := exists_history checker.transforming
    (Outside.Changes checker) mixedBuild [goodScript, badScript, badScript]
  have hfiles : ∀ call ∈ pool.calls, call.1 ∈ [goodScript, badScript] := by
    intro call hcall
    have hmem : call.1 ∈ pool.calls.map Prod.fst := List.mem_map_of_mem hcall
    rw [hcalls] at hmem
    simpa using hmem
  have hheld : ∀ program, (checker.access.session pool.world).program = .full program →
      ∀ call ∈ pool.calls, program.Holds call.1 := by
    intro program hfull call hcall
    rw [(fixed_of_history lawful_workspace rfl h hquiet hfull).2]
    exact holds_mixedBuild _ (List.mem_append_left [otherScript] (hfiles call hcall))
  have hne : pool.calls ≠ [] := by
    intro hnil
    rw [hnil] at hcalls
    cases hcalls
  obtain ⟨options, program, hreports⟩ := (reports_due lawful_workspace rfl rfl h
    (fun call hcall => takes_checker (hfiles call hcall)) hheld).2 hstill hne
  refine ⟨past, pool, options, program, lawful_workspace, rfl, h, hstill, hcalls, ?_, hreports⟩
  rw [(hreports.fixed hquiet).2]
  exact due_mixedBuild.2.1

/-- Calls for some files of the program have come to their ends, and the log has not what is due for them. -/
def Loses (plugin : ScriptPlugin W) (w : W) (files : List SourceFile) : Prop :=
  ∃ past pool options program,
    History plugin.transforming (Outside.Changes plugin) { world := w } past pool ∧
    pool.IsStill plugin.transforming ∧ pool.calls.map Prod.fst = files ∧
    (plugin.access.session pool.world).options = .full options ∧
    (plugin.access.session pool.world).program = .full program ∧ (∀ file ∈ files, program.Holds file) ∧
    ¬ pool.log.entries.Perm (files.flatMap (due program options))

section
variable {plugin : ScriptPlugin W} {file : SourceFile} {files : List SourceFile}

theorem loses_of_silent (haccess : plugin.access.Lawful) (hsession : plugin.access.session w = { inputs? })
    (hheld : ∀ file ∈ files, (plugin.programAt w).Holds file)
    (hdue : files.flatMap (due (plugin.programAt w) (plugin.resolvedOptions w)) ≠ [])
    (hmem : file ∈ files) (hscript : Path.isScript file.name = true)
    (hsilent : ∀ {past pool who file outcome},
      History plugin.transforming (Outside.Changes plugin) { world := w } past pool → Undisturbed past →
      pool.Finished who file outcome → file ∈ files → pool.log.own who = []) : plugin.Loses w files := by
  obtain ⟨past, pool, h, hquiet, hstill, hcalls⟩ :=
    exists_history plugin.transforming (Outside.Changes plugin) w files
  have hsilent : ∀ who file task, pool.calls[who]? = some (file, task) → pool.log.own who = [] := by
    intro who file task hcall
    have hfile : file ∈ pool.calls.map Prod.fst :=
      List.mem_map.mpr ⟨_, List.mem_of_getElem? hcall, rfl⟩
    obtain ⟨outcome, rfl⟩ := exists_outcome haccess hsession h hstill hcall
    exact hsilent h hquiet hcall (hcalls ▸ hfile)
  obtain ⟨who, hwho⟩ := List.getElem?_of_mem hmem
  obtain ⟨task, hcall⟩ := Pool.exists_task hcalls hwho
  obtain ⟨outcome, rfl⟩ := exists_outcome haccess hsession h hstill hcall
  obtain ⟨-, program, -, -, -, hprogram, -⟩ := treats_of_finished haccess hsession h hcall hscript
  obtain ⟨hoptions, rfl⟩ := fixed_of_history haccess hsession h hquiet hprogram
  refine ⟨past, pool, _, _, h, hstill, hcalls, hoptions, hprogram, hheld, fun hperm => hdue ?_⟩
  have hnothing := h.entries_perm hsilent
  rw [List.flatMap_eq_nil_iff.mpr fun _ _ => rfl] at hnothing
  rw [hnothing.eq_nil] at hperm
  exact hperm.nil_eq.symm

end

def insideScript : SourceFile := ⟨"w/bad.ts", badScript.text⟩

def besideChecker : ScriptPlugin Workspace := { checker with root := "w" }

def insideBuild : Workspace where
  files.root := .dir [("w", .dir [("bad.ts", .file (some badScript.text))])]
  files.cwd := "/"
  session.inputs? := some ["bad.ts"]

set_option maxRecDepth 100000 in
theorem lost_insideBuild :
    (besideChecker.programAt insideBuild).Holds insideScript ∧
      due (besideChecker.programAt insideBuild) (besideChecker.resolvedOptions insideBuild) insideScript ≠ [] ∧
      ((besideChecker.programAt insideBuild).file? "w/w/bad.ts").isNone ∧
      (Program.Facts.of insideScript).syntaxErrors = [] ∧
      (Transpile.warnings insideScript (besideChecker.resolvedOptions insideBuild)).isEmpty := by
  decide +kernel

/-- Errors are lost of a file that the plugin does not transform, and of one that it looks up by another name
than the program has. -/
theorem reports_lost :
    checker.Loses mixedBuild [goodScript, otherScript] ∧ besideChecker.Loses insideBuild [insideScript] := by
  constructor
  · obtain ⟨hgood, -, hother⟩ := due_mixedBuild
    have hheld : ∀ file ∈ [goodScript, otherScript], (checker.programAt mixedBuild).Holds file := by
      intro file hmem
      refine holds_mixedBuild file ?_
      rcases List.mem_cons.mp hmem with rfl | hmem
      · exact List.mem_cons_self
      · exact List.mem_append_right [goodScript, badScript] hmem
    refine loses_of_silent lawful_workspace rfl hheld ?_ List.mem_cons_self (by decide)
      fun {past pool who file outcome} h hquiet hfinished hmem => ?_
    · rw [List.flatMap_cons, hgood, List.flatMap_singleton, List.nil_append]
      exact hother
    · rcases List.mem_cons.mp hmem with rfl | hmem
      · obtain ⟨options, program, hoptions, hprogram, hown, -⟩ := due_of_finished lawful_workspace rfl rfl h
          hfinished (takes_checker List.mem_cons_self) fun program hfull =>
            (fixed_of_history lawful_workspace rfl h hquiet hfull).2 ▸ hheld _ List.mem_cons_self
        obtain ⟨hresolved, rfl⟩ := fixed_of_history lawful_workspace rfl h hquiet hprogram
        rw [hoptions, Cell.full.injEq] at hresolved
        rw [hown, hresolved, hgood]
      · obtain rfl := List.mem_singleton.mp hmem
        exact own_of_passed h hfinished (by decide)
  · obtain ⟨hheld, hdue, hnone, hparses, hwarnings⟩ := lost_insideBuild
    refine loses_of_silent lawful_workspace rfl (List.forall_mem_singleton.mpr hheld) ?_
      List.mem_cons_self (by decide) fun {past pool who file outcome} h hquiet hfinished hmem => ?_
    · rw [List.flatMap_singleton]
      exact hdue
    · obtain rfl := List.mem_singleton.mp hmem
      obtain ⟨options, program, hook, entries, hoptions, hprogram, -, htreats, -, hown⟩ :=
        treats_of_finished lawful_workspace rfl h hfinished (by decide)
      obtain ⟨hresolved, rfl⟩ := fixed_of_history lawful_workspace rfl h hquiet hprogram
      rw [hoptions, Cell.full.injEq] at hresolved
      subst hresolved
      obtain ⟨rfl, hends⟩ := htreats.unchecked rfl (Option.isNone_iff_eq_none.mp hnone) rfl hparses
      rw [hown (.inr hends), List.isEmpty_iff.mp hwarnings]
      rfl

end TsBuild.Bundle.ScriptPlugin
