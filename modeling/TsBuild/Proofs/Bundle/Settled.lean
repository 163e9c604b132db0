import TsBuild.Proofs.Bundle.Session

/-!
# What a build settles

Whatever the order in which scripts are transformed, options and program are asked for, entries are
declared and files change, the options and the program of a build are computed at most once, and the
entries are those declared first. A call that has returned has found the same options and the same
program as any other (`settled_of_history`).
-/

namespace TsBuild.Bundle

open TsBuild.Bundle.Task (Each Keeps Acts)

namespace ScriptPlugin

-- ---------------------------------------------------------------------------
-- Calls and what happens around them
-- ---------------------------------------------------------------------------

inductive Use
  | transform (code id : String)
  | compilerOptions
  | program
  deriving DecidableEq, Repr

inductive Answer
  | transformed (outcome : Outcome (Option Transformed))
  | options (options : OptionSet)
  | program (program : Program)

def Use.task (plugin : ScriptPlugin W) : Use → Task W Answer
  | .transform code id => do return .transformed (← plugin.transform code id)
  | .compilerOptions => do return .options (← plugin.compilerOptions)
  | .program => do return .program (← plugin.program)

/-- What happens to a build from outside: the plugin is shown options of a build, or files change. -/
inductive Outside
  | declare (input : InputOptions)
  | files

def Outside.Changes (plugin : ScriptPlugin W) : Outside → W → W → Prop
  | .declare input, w, w' => w' = ((plugin.options input).run w).2
  | .files, w, w' => plugin.access.session w' = plugin.access.session w

def declaredAt? (moment : Moment W Outside) : Option (List String) :=
  match moment.actor with
  | .outside (.declare input) => input.input
  | _ => none

/-- The entries that were declared first, none as long as none were. -/
def declaredIn (past : List (Moment W Outside)) : List String := (past.findSome? declaredAt?).getD []

variable {plugin : ScriptPlugin W} {options : OptionSet} {program : Program} {code id : String}

/-- An answer is what the session has, or what follows from the options and the program in it. -/
inductive Answers (plugin : ScriptPlugin W) (session : Session) (past : List (Moment W Outside))
    (entries : Log) : Use → Answer → Prop
  | compilerOptions {options : OptionSet} (h : session.options = .full options) :
      Answers plugin session past entries .compilerOptions (.options options)
  | program {program : Program} (h : session.program = .full program) :
      Answers plugin session past entries .program (.program program)
  | transform {code id : String} {options : OptionSet} {program : Program} (hscript : Path.isScript id = true)
      (hoptions : session.options = .full options) (hprogram : session.program = .full program)
      (h : plugin.Treats options program past code id outcome entries) :
      Answers plugin session past entries (.transform code id) (.transformed outcome)
  | passed {code id : String} (hscript : Path.isScript id = false) (h : entries = []) :
      Answers plugin session past entries (.transform code id) (.transformed (.ok none))

/-- The options that the plugin has of these files: those that they give, or the baseline. -/
inductive Gives (plugin : ScriptPlugin W) (files : FileSystem) : OptionSet → Prop
  | resolved {options : OptionSet}
      (h : Config.resolve files plugin.settings.compilerOptions plugin.root = .ok options) :
      Gives plugin files options
  | failed (h : Config.resolve files plugin.settings.compilerOptions plugin.root = .error error) :
      Gives plugin files .baseline

/-- What is settled when a build has this past: how often options and program were computed, from what,
which entries are declared, at the end and at each moment before, and what has been answered. -/
structure Settles (plugin : ScriptPlugin W) (past : List (Moment W Outside)) (pool : Pool W Use Answer) :
    Prop where
  options_once : (plugin.access.session pool.world).work.count .options ≤ 1
  program_once : (plugin.access.session pool.world).work.count .program ≤ 1
  options {options : OptionSet} : (plugin.access.session pool.world).options = .full options →
    ∃ moment ∈ past, moment.after = plugin.access.update (·.did .options) moment.world ∧
      plugin.Gives (plugin.access.files moment.world) options
  program {program : Program} : (plugin.access.session pool.world).program = .full program →
    ∃ options making before, (plugin.access.session pool.world).options = .full options ∧
      before ++ [making.declared] <+: past ∧ plugin.Makes options (declaredIn before) past making program
  inputs : plugin.declaredInputs pool.world = declaredIn past
  inputs_before : ∀ before moment, before ++ [moment] <+: past →
    plugin.declaredInputs moment.world = declaredIn before
  answers {who : Nat} {use : Use} {answer : Answer} : pool.Finished who use answer →
    plugin.Answers (plugin.access.session pool.world) past (pool.log.own who) use answer

theorem gives_resolvedOptions (plugin : ScriptPlugin W) (w : W) :
    plugin.Gives (plugin.access.files w) (plugin.resolvedOptions w) := by
  rw [resolvedOptions]
  split
  next h => exact .resolved h
  next h => exact .failed h

-- ---------------------------------------------------------------------------
-- The outside
-- ---------------------------------------------------------------------------

theorem options_session (haccess : plugin.access.Lawful) (input : InputOptions) (w : W) :
    plugin.access.session ((plugin.options input).run w).2 =
      { plugin.access.session w with inputs? := (plugin.access.session w).inputs? <|> input.input } := by
  obtain ⟨_ | entries⟩ := input
  · have hnone : ((plugin.access.session w).inputs? <|> none) = (plugin.access.session w).inputs? := by
      cases (plugin.access.session w).inputs? <;> rfl
    rw [hnone]
    rfl
  · exact haccess.session_update ..

theorem fits_options {begins : κ → Task W α} (haccess : plugin.access.Lawful)
    (hsession : plugin.access.session w = { inputs? })
    (huses : ∀ kind, (plugin.optionsOnce haccess).Uses (begins kind)) :
    (plugin.optionsOnce haccess).Fits begins (Outside.Changes plugin) { world := w } where
  calls := rfl
  empty := by simp [optionsOnce, optionsSlot, hsession]
  count := by simp [optionsOnce, hsession]
  uses := huses
  outside {cause w w'} hchange := by
    cases cause with
    | declare input =>
      subst hchange
      simp [optionsOnce, optionsSlot, options_session haccess]
    | files =>
      simp only [Outside.Changes] at hchange
      simp [optionsOnce, optionsSlot, hchange]

theorem fits_program {begins : κ → Task W α} (haccess : plugin.access.Lawful)
    (hsession : plugin.access.session w = { inputs? })
    (huses : ∀ kind, (plugin.programOnce haccess).Uses (begins kind)) :
    (plugin.programOnce haccess).Fits begins (Outside.Changes plugin) { world := w } where
  calls := rfl
  empty := by simp [programOnce, programSlot, hsession]
  count := by simp [programOnce, hsession]
  uses := huses
  outside {cause w w'} hchange := by
    cases cause with
    | declare input =>
      subst hchange
      simp [programOnce, programSlot, options_session haccess]
    | files =>
      simp only [Outside.Changes] at hchange
      simp [programOnce, programSlot, hchange]

theorem usesOptions_use (haccess : plugin.access.Lawful) (use : Use) :
    (plugin.optionsOnce haccess).Uses (use.task plugin) := by
  cases use with
  | transform code id => exact Once.uses_bind (usesOptions_transform haccess code id) fun _ => .done
  | compilerOptions => exact Once.uses_bind (Once.uses_get _) fun _ => .done
  | program => exact Once.uses_bind (usesOptions_program haccess) fun _ => .done

theorem usesProgram_use (haccess : plugin.access.Lawful) (use : Use) :
    (plugin.programOnce haccess).Uses (use.task plugin) := by
  cases use with
  | transform code id => exact Once.uses_bind (usesProgram_transform haccess code id) fun _ => .done
  | compilerOptions => exact Once.uses_bind (usesProgram_compilerOptions haccess) fun _ => .done
  | program => exact Once.uses_bind (Once.uses_get _) fun _ => .done

theorem surrounded_use (haccess : plugin.access.Lawful) (use : Use) :
    Keeps plugin.surroundings (use.task plugin) := by
  cases use with
  | transform code id => exact Task.each_bind (surrounded_transform haccess code id) fun _ => .done
  | compilerOptions => exact Task.each_bind (surrounded_compilerOptions haccess) fun _ => .done
  | program => exact Task.each_bind (surrounded_program haccess) fun _ => .done

theorem entries_of_history (haccess : plugin.access.Lawful) (hsession : plugin.access.session w = {})
    (h : History (Use.task plugin) (Outside.Changes plugin) { world := w } past pool) :
    (plugin.access.session pool.world).inputs? = past.findSome? declaredAt? := by
  induction h with
  | start => rw [hsession]; rfl
  | call _ _ ih => exact ih
  | @advance past pool who use task _ _ _ h hcall hstep ih =>
    have hkeeps : Keeps plugin.surroundings task := (h.acts rfl hcall).each (surrounded_use haccess use)
    have hinputs := congrArg Prod.snd (hkeeps.view_eq hstep)
    rw [List.findSome?_append, ← ih]
    exact hinputs.trans (Option.or_none ..).symm
  | @outside past pool cause world _ hchange ih =>
    rw [List.findSome?_append, ← ih]
    cases cause with
    | declare input =>
      subst hchange
      simp [options_session haccess, declaredAt?]
    | files =>
      simp only [Outside.Changes] at hchange
      simp [hchange, declaredAt?]

-- ---------------------------------------------------------------------------
-- Whole builds
-- ---------------------------------------------------------------------------

theorem inputs_of_history (haccess : plugin.access.Lawful) (hsession : plugin.access.session w = {})
    (h : History (Use.task plugin) (Outside.Changes plugin) { world := w } past pool) :
    plugin.declaredInputs pool.world = declaredIn past := by
  rw [declaredInputs, entries_of_history haccess hsession h, declaredIn]

theorem inputs_before_of_history (haccess : plugin.access.Lawful) (hsession : plugin.access.session w = {})
    (h : History (Use.task plugin) (Outside.Changes plugin) { world := w } past pool)
    (hbefore : before ++ [moment] <+: past) : plugin.declaredInputs moment.world = declaredIn before := by
  obtain ⟨earlier, hearlier, hworld⟩ := h.before hbefore
  rw [← hworld, inputs_of_history haccess hsession hearlier]

theorem settled_of_history (haccess : plugin.access.Lawful) (hsession : plugin.access.session w = {})
    (h : History (Use.task plugin) (Outside.Changes plugin) { world := w } past pool) :
    plugin.Settles past pool := by
  have hoptions := fits_options haccess hsession (usesOptions_use haccess)
  have hprogram := fits_program haccess hsession (usesProgram_use haccess)
  have hfinds := finds_of_history haccess h hoptions hprogram
  refine ⟨(Once.stage_of_history h hoptions).count_le, (Once.stage_of_history h hprogram).count_le,
    fun {options} hfull => ?_, fun {program} hfull => ?_, inputs_of_history haccess hsession h,
    fun before moment => inputs_before_of_history haccess hsession h,
    fun {who use answer} hfinished => ?_⟩
  · obtain ⟨moment, hmem, hafter, rfl⟩ := resolved_of_history haccess h hoptions hfull
    exact ⟨moment, hmem, hafter, gives_resolvedOptions plugin moment.world⟩
  · obtain ⟨options, making, hcell, hmakes⟩ := made_of_history haccess h hoptions hprogram hfull
    have hdeclared : making.declared ∈ past := hmakes.mem (by simp [Making.moments])
    obtain ⟨before, later, hpast⟩ := List.append_of_mem hdeclared
    have hbefore : before ++ [making.declared] <+: past := ⟨later, by simp [hpast]⟩
    rw [inputs_before_of_history haccess hsession h hbefore] at hmakes
    exact ⟨options, making, before, hcell, hbefore, hmakes⟩
  have hacts := h.acts rfl hfinished
  have hwithin := momentsOf_sublist who past
  have hown : pool.log.own who = Task.reportedIn (momentsOf who past) := h.own who
  rw [hown]
  cases use with
  | transform code id =>
    obtain ⟨outcome, rfl, htask⟩ := Task.acts_map hacts
    cases hscript : Path.isScript id with
    | true =>
      obtain ⟨options, program, hcell, hcell', htreats⟩ := acts_transform hfinds hwithin hscript htask
      exact .transform hscript hcell hcell' htreats
    | false =>
      obtain ⟨rfl, hentries⟩ := acts_passed hscript htask
      exact .passed hscript hentries
  | compilerOptions =>
    obtain ⟨options, rfl, htask⟩ := Task.acts_map hacts
    exact .compilerOptions (hfinds.options hwithin htask)
  | program =>
    obtain ⟨program, rfl, htask⟩ := Task.acts_map hacts
    exact .program (hfinds.program hwithin htask)

def bare : ScriptPlugin Workspace where
  root := "/"
  settings := .standard
  access := Workspace.access

def scripts : FileSystem :=
  ⟨.dir [("a.ts", .file "x;"), ("b.ts", .file "x;"), ("env.d.ts", .file "declare const x: number;")], "/"⟩

theorem declarationFiles_scripts : Program.declarationFiles scripts "/" = ["/env.d.ts"] := by
  have hroot : scripts.resolve "/" = .ok scripts.root := rfl
  rw [Program.declarationFiles, hroot]
  show ((Program.declarationsIn "/" _).mergeSort fun a b => a.1 ≤ b.1).flatMap Prod.snd = _
  rw [List.mergeSort_of_pairwise (by decide +kernel)]
  decide +kernel

/-- Two calls for the program, of which the second has to wait. The entries that are declared before the
first has its options count, those that are declared when it has looked at them do not. -/
theorem settled_of_history_racing :
    ∃ past pool program, bare.access.Lawful ∧
      History (Use.task bare) (Outside.Changes bare) { world := ⟨scripts, {}⟩ } past pool ∧
      pool.Finished 0 .program (.program program) ∧ pool.Finished 1 .program (.program program) ∧
      program.rootNames = ["/env.d.ts", "/a.ts"] ∧ bare.declaredInputs pool.world = ["a.ts"] ∧
      bare.Settles past pool := by
  have h : History (Use.task bare) (Outside.Changes bare) { world := ⟨scripts, {}⟩ } [] _ := .start
  have h := (h.call .program).call .program
  have h := h.advance (show _[0]? = some (_, _) from rfl) rfl
  have h := h.advance (show _[0]? = some (_, _) from rfl) rfl
  have h := h.outside (show Outside.Changes bare (.declare ⟨some ["a.ts"]⟩) _ _ from rfl)
  have h := h.advance (show _[0]? = some (_, _) from rfl) rfl
  have h := h.advance (show _[0]? = some (_, _) from rfl) rfl
  have h := h.advance (show _[0]? = some (_, _) from rfl) rfl
  have h := h.outside (show Outside.Changes bare (.declare ⟨some ["b.ts"]⟩) _ _ from rfl)
  have h := h.advance (show _[0]? = some (_, _) from rfl) rfl
  have h := h.advance (show _[0]? = some (_, _) from rfl) rfl
  have h := h.advance (show _[0]? = some (_, _) from rfl) rfl
  have h := h.advance (show _[0]? = some (_, _) from rfl) rfl
  have h := h.advance (show _[1]? = some (_, _) from rfl) rfl
  refine ⟨_, _, _, lawful_workspace, h, rfl, rfl, ?_, rfl, settled_of_history lawful_workspace rfl h⟩
  show (Program.declarationFiles scripts "/" ++ [Path.absolutize "a.ts" "/"]).map Path.normalize = _
  rw [declarationFiles_scripts]
  decide +kernel

end ScriptPlugin

end TsBuild.Bundle
