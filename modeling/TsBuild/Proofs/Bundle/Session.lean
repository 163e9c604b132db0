import TsBuild.Bundle.ScriptPlugin
import TsBuild.Proofs.Bundle.Once
import TsBuild.Proofs.Command.Findings

/-!
# The options and the program of a build

The options of a build and its program are values computed once, the program in part from the options.
In any history a task that asked for either has found what the session has (`finds_of_history`), so what
a transform comes to and what it reports follow from the two (`acts_transform`).
-/

namespace TsBuild.Bundle

open TsBuild.Command (fileFindings emitFindings emitOutcome)
open TsBuild.Bundle.Task (Closed Each Keeps Goes Spends Acts Silent reportedIn)

structure Access.Lawful (access : Access W) : Prop where
  session_update : ∀ f w, access.session (access.update f w) = f (access.session w)
  files_update : ∀ f w, access.files (access.update f w) = access.files w

theorem lawful_workspace : Workspace.access.Lawful where
  session_update _ _ := rfl
  files_update _ _ := rfl

/-- A property of claiming a cell, filling it and computing its value is one of asking for the value. -/
theorem Slot.each_once {slot : Slot W α} {compute : Task W α} {ok : (W → Bool) → (W → W) → Prop}
    (hclaim : ok (fun w => !(slot.get w).isBusy) fun w => slot.set (slot.get w).claimed w)
    (hfill : ∀ value, ok (fun _ => true) (slot.set (.full value))) (hcompute : Each ok compute) :
    Each ok (slot.once compute) := by
  refine .act hclaim fun w => ?_
  cases slot.get w with
  | full value => exact .done
  | empty | busy =>
    exact Task.each_bind hcompute fun value => Task.each_bind (Task.each_modify (hfill value)) fun _ => .done

theorem Slot.silent_once {slot : Slot W α} {compute : Task W α} (h : Silent compute) :
    Silent (slot.once compute) := by
  refine .act fun w => ?_
  cases slot.get w with
  | full value => exact .done
  | empty | busy => exact Task.silent_bind h fun value => .act fun _ => .done

namespace ScriptPlugin

-- ---------------------------------------------------------------------------
-- The tasks of the plugin
-- ---------------------------------------------------------------------------

section
variable {P : ∀ {α : Type}, Task W α → Prop} {plugin : ScriptPlugin W}

theorem closed_buildProgram (h : Closed P) (hoptions : P plugin.compilerOptions)
    (hread : ∀ {α : Type} (f : W → α), P (Task.read f))
    (hcreate : ∀ roots options, P (plugin.createProgram .program roots options)) :
    P plugin.buildProgram :=
  h.bind hoptions fun _ => h.bind (hread _) fun _ => h.bind (hread _) fun _ => hcreate _ _

theorem closed_reportFile (h : Closed P) (program : Program) (fileName : String) :
    P (reportFile program fileName : Task W Unit) := by
  unfold reportFile
  split
  · exact h.reportAll _
  · exact h.done _

theorem closed_transform (h : Closed P) (hoptions : P plugin.compilerOptions) (hprogram : P plugin.program)
    (hread : ∀ {α : Type} (f : W → α), P (Task.read f))
    (hcreate : ∀ roots options, P (plugin.createProgram .fileProgram roots options)) (code id : String) :
    P (plugin.transform code id) := by
  have hcheck : ∀ fileName, P (plugin.check fileName) := by
    refine fun fileName => h.bind hprogram fun program => ?_
    split
    · exact closed_reportFile h program fileName
    · split
      · exact h.bind hoptions fun _ => h.bind (hcreate _ _) fun made => closed_reportFile h made fileName
      · exact h.done _
  unfold transform
  split
  · exact h.done _
  · refine h.bind hoptions fun _ => h.bind (hcheck _) fun _ => h.bind (hread _) fun result => ?_
    cases result with
    | error error => exact h.done _
    | ok output => exact h.bind (h.reportAll _) fun _ => h.done _

end

section
variable {plugin : ScriptPlugin W} {ok : (W → Bool) → (W → W) → Prop}

theorem each_createProgram (hwork : ok (fun _ => true) (plugin.access.update (·.did work)))
    (hread : ok (fun _ => true) id) (roots : List String) (options : OptionSet) :
    Each ok (plugin.createProgram work roots options) :=
  Task.each_bind (Task.each_modify hwork) fun _ => Task.each_read hread

theorem each_compilerOptions
    (hclaim : ok (fun w => !(plugin.optionsSlot.get w).isBusy) fun w =>
      plugin.optionsSlot.set (plugin.optionsSlot.get w).claimed w)
    (hfill : ∀ value, ok (fun _ => true) (plugin.optionsSlot.set (.full value)))
    (hwork : ok (fun _ => true) (plugin.access.update (·.did .options))) : Each ok plugin.compilerOptions :=
  Slot.each_once hclaim hfill (.act hwork fun _ => .done)

end

-- ---------------------------------------------------------------------------
-- The options and the program as values computed once
-- ---------------------------------------------------------------------------

section
variable {plugin : ScriptPlugin W}

/-- No act of asking for the options changes what is seen of the files and of other parts of the session. -/
theorem keeps_compilerOptions (haccess : plugin.access.Lawful) (view : FileSystem → Session → σ)
    (hcell : ∀ files cell session, view files { session with options := cell } = view files session)
    (hwork : ∀ files session, view files (session.did .options) = view files session) :
    Keeps (fun w => view (plugin.access.files w) (plugin.access.session w)) plugin.compilerOptions :=
  have hset (cell : Cell OptionSet) (w : W) :
      view (plugin.access.files (plugin.optionsSlot.set cell w))
          (plugin.access.session (plugin.optionsSlot.set cell w)) =
        view (plugin.access.files w) (plugin.access.session w) := by
    rw [optionsSlot, haccess.session_update, haccess.files_update, hcell]
  each_compilerOptions (fun w => hset _ w) (fun value => hset (.full value))
    fun w => by simp only [haccess.session_update, haccess.files_update, hwork]

def optionsOnce (plugin : ScriptPlugin W) (haccess : plugin.access.Lawful) : Once W OptionSet where
  slot := plugin.optionsSlot
  compute := plugin.resolveOptions
  count w := (plugin.access.session w).work.count .options
  get_set cell w := by simp only [optionsSlot, haccess.session_update]
  count_set cell w := by simp only [optionsSlot, haccess.session_update]
  keeps := .act (fun w => by simp only [optionsSlot, haccess.session_update, Session.did]) fun _ => .done
  spends := .act (fun w => by simp [haccess.session_update, Session.did]) fun _ => .done (n := 0)

theorem keeps_buildProgram (haccess : plugin.access.Lawful) :
    Keeps plugin.programSlot.get plugin.buildProgram :=
  closed_buildProgram Task.closed_each
    (keeps_compilerOptions haccess (fun _ session => session.program) (fun _ _ _ => rfl) fun _ _ => rfl)
    (fun _ => Task.each_read fun _ => rfl)
    (each_createProgram (fun w => by simp only [programSlot, haccess.session_update, Session.did])
      fun _ => rfl)

theorem spends_buildProgram (haccess : plugin.access.Lawful) :
    Spends (fun w => (plugin.access.session w).work.count .program) 1 plugin.buildProgram := by
  have hoptions := keeps_compilerOptions haccess (fun _ session => session.work.count .program)
    (fun _ _ _ => rfl) fun _ session => by simp [Session.did]
  refine hoptions.spends_bind fun _ => ?_
  refine Keeps.spends_bind (Task.each_read fun _ => rfl) fun _ => ?_
  refine Keeps.spends_bind (Task.each_read fun _ => rfl) fun _ => ?_
  refine .act (fun w => ?_) fun _ => Task.spends_of_keeps (Task.each_read fun _ => rfl) 0
  simp [haccess.session_update, Session.did]

def programOnce (plugin : ScriptPlugin W) (haccess : plugin.access.Lawful) : Once W Program where
  slot := plugin.programSlot
  compute := plugin.buildProgram
  count w := (plugin.access.session w).work.count .program
  get_set cell w := by simp only [programSlot, haccess.session_update]
  count_set cell w := by simp only [programSlot, haccess.session_update]
  keeps := keeps_buildProgram haccess
  spends := spends_buildProgram haccess

end

section
variable {plugin : ScriptPlugin W} (haccess : plugin.access.Lawful)

theorem ignores_options {f : Session → Session} (hcell : ∀ session, (f session).options = session.options)
    (hcount : ∀ session, (f session).work.count .options = session.work.count .options) :
    (plugin.optionsOnce haccess).Ignores (plugin.access.update f) := by
  intro w
  simp only [optionsOnce, optionsSlot, haccess.session_update]
  exact ⟨hcell _, hcount _⟩

theorem ignores_program {f : Session → Session} (hcell : ∀ session, (f session).program = session.program)
    (hcount : ∀ session, (f session).work.count .program = session.work.count .program) :
    (plugin.programOnce haccess).Ignores (plugin.access.update f) := by
  intro w
  simp only [programOnce, programSlot, haccess.session_update]
  exact ⟨hcell _, hcount _⟩

theorem uses_read (once : Once W α) (f : W → β) : once.Uses (Task.read f) :=
  .act (fun _ => ⟨rfl, rfl⟩) fun _ => .done

theorem usesOptions_createProgram (hwork : work ≠ .options) (roots : List String) (options : OptionSet) :
    (plugin.optionsOnce haccess).Uses (plugin.createProgram work roots options) :=
  Once.uses_of_each (each_createProgram
    (ignores_options haccess (f := Session.did work) (fun _ => rfl) fun _ => by simp [Session.did, hwork])
    (fun _ => ⟨rfl, rfl⟩) roots options)

theorem usesOptions_program : (plugin.optionsOnce haccess).Uses plugin.program :=
  Once.uses_once (fun _ => ignores_options haccess (fun _ => rfl) fun _ => rfl)
    (closed_buildProgram (Once.closed_uses _) (Once.uses_get _) (uses_read _)
      (usesOptions_createProgram haccess nofun))

theorem usesOptions_transform (code id : String) :
    (plugin.optionsOnce haccess).Uses (plugin.transform code id) :=
  closed_transform (Once.closed_uses _) (Once.uses_get _) (usesOptions_program haccess) (uses_read _)
    (usesOptions_createProgram haccess nofun) code id

theorem usesProgram_compilerOptions : (plugin.programOnce haccess).Uses plugin.compilerOptions :=
  Once.uses_once (fun _ => ignores_program haccess (fun _ => rfl) fun _ => rfl)
    (.act (ignores_program haccess (fun _ => rfl) fun _ => by simp [Session.did]) fun _ => .done)

theorem usesProgram_transform (code id : String) :
    (plugin.programOnce haccess).Uses (plugin.transform code id) :=
  closed_transform (Once.closed_uses _) (usesProgram_compilerOptions haccess) (Once.uses_get _)
    (uses_read _)
    (fun roots options => Once.uses_of_each (each_createProgram
      (ignores_program haccess (f := Session.did .fileProgram) (fun _ => rfl) fun _ => by simp [Session.did])
      (fun _ => ⟨rfl, rfl⟩) roots options)) code id

end

-- ---------------------------------------------------------------------------
-- What the tasks wait for
-- ---------------------------------------------------------------------------

structure Rests (plugin : ScriptPlugin W) (w : W) : Prop where
  options : (plugin.access.session w).options ≠ .busy
  program : (plugin.access.session w).program ≠ .busy

section
variable {plugin : ScriptPlugin W}

theorem goes_read {calm : W → Prop} (f : W → α) : Goes calm (Task.read f) := Task.each_read fun _ _ => rfl

theorem goes_resolveOptions (plugin : ScriptPlugin W) : Goes (fun _ => True) plugin.resolveOptions :=
  .act (fun _ _ => rfl) fun _ => .done

theorem goes_createProgram {calm : W → Prop} (work : Work) (roots : List String) (options : OptionSet) :
    Goes calm (plugin.createProgram work roots options) :=
  each_createProgram (fun _ _ => rfl) (fun _ _ => rfl) roots options

theorem goes_compilerOptions (plugin : ScriptPlugin W) :
    Goes (fun w => (plugin.access.session w).options ≠ .busy) plugin.compilerOptions :=
  each_compilerOptions (fun _ hcalm => Cell.not_isBusy.mpr hcalm) (fun _ _ _ => rfl) fun _ _ => rfl

theorem goes_buildProgram (plugin : ScriptPlugin W) :
    Goes (fun w => (plugin.access.session w).options ≠ .busy) plugin.buildProgram :=
  closed_buildProgram Task.closed_each (goes_compilerOptions plugin) goes_read (goes_createProgram .program)

theorem goes_transform (plugin : ScriptPlugin W) (code id : String) :
    Goes plugin.Rests (plugin.transform code id) := by
  have hweaker (ready : W → Bool) (effect : W → W)
      (h : ∀ w, (plugin.access.session w).options ≠ .busy → ready w = true) :
      ∀ w, plugin.Rests w → ready w = true := fun w hrests => h w hrests.options
  have hprogram : Goes plugin.Rests plugin.program :=
    Slot.each_once (fun _ hrests => Cell.not_isBusy.mpr hrests.program) (fun _ _ _ => rfl)
      ((goes_buildProgram plugin).imp hweaker)
  exact closed_transform Task.closed_each ((goes_compilerOptions plugin).imp hweaker) hprogram goes_read
    (goes_createProgram .fileProgram) code id

end

-- ---------------------------------------------------------------------------
-- What no task changes
-- ---------------------------------------------------------------------------

/-- What the options and the program depend on: the files and the entries declared. -/
def surroundings (plugin : ScriptPlugin W) (w : W) : FileSystem × Option (List String) :=
  (plugin.access.files w, (plugin.access.session w).inputs?)

section
variable {plugin : ScriptPlugin W} (haccess : plugin.access.Lawful)
include haccess

theorem surroundings_update (f : Session → Session) (h : ∀ session, (f session).inputs? = session.inputs?)
    (w : W) : plugin.surroundings (plugin.access.update f w) = plugin.surroundings w := by
  rw [surroundings, haccess.files_update, haccess.session_update, h, surroundings]

theorem surrounded_createProgram (work : Work) (roots : List String) (options : OptionSet) :
    Keeps plugin.surroundings (plugin.createProgram work roots options) :=
  each_createProgram (surroundings_update haccess (·.did work) fun _ => rfl) (fun _ => rfl)
    roots options

theorem surrounded_compilerOptions : Keeps plugin.surroundings plugin.compilerOptions :=
  keeps_compilerOptions haccess (fun files session => (files, session.inputs?)) (fun _ _ _ => rfl)
    fun _ _ => rfl

theorem surrounded_program : Keeps plugin.surroundings plugin.program :=
  have hset (cell : Cell Program) (w : W) :
      plugin.surroundings (plugin.programSlot.set cell w) = plugin.surroundings w :=
    surroundings_update haccess (fun session => { session with program := cell }) (fun _ => rfl) w
  Slot.each_once (fun w => hset _ w) (fun value => hset (.full value))
    (closed_buildProgram Task.closed_each (surrounded_compilerOptions haccess)
      (fun _ => Task.each_read fun _ => rfl) (surrounded_createProgram haccess .program))

theorem surrounded_transform (code id : String) : Keeps plugin.surroundings (plugin.transform code id) :=
  closed_transform Task.closed_each (surrounded_compilerOptions haccess) (surrounded_program haccess)
    (fun _ => Task.each_read fun _ => rfl) (surrounded_createProgram haccess .fileProgram) code id

end

-- ---------------------------------------------------------------------------
-- What the tasks come to
-- ---------------------------------------------------------------------------

structure Making (W ε : Type) where
  claimed : Moment W ε
  /-- The call asks for the options. -/
  asked : List (Moment W ε)
  /-- It looks at the inputs declared, then for the declaration files. -/
  declared : Moment W ε
  found : Moment W ε
  counted : Moment W ε
  made : Moment W ε
  filled : Moment W ε

def Making.moments (making : Making W ε) : List (Moment W ε) :=
  making.claimed :: (making.asked ++
    [making.declared, making.found, making.counted, making.made, making.filled])

/-- How the program of a build is made of these inputs. A single call finds that there is none and claims
it, asks for the options, finds the declaration files, makes the program of the files that there are and
fills the cell with it. It does nothing else on the way. -/
structure Makes (plugin : ScriptPlugin W) (options : OptionSet) (inputs : List String)
    (past : List (Moment W ε)) (making : Making W ε) (program : Program) : Prop where
  own : ∃ who, making.moments <:+: momentsOf who past
  empty : (plugin.access.session making.claimed.world).program = .empty
  busy : (plugin.access.session making.claimed.after).program = .busy
  asks : Acts plugin.compilerOptions making.asked (.done options)
  counts : making.counted.after = plugin.access.update (·.did .program) making.counted.world
  program_eq : program = plugin.engine.createProgram (plugin.access.files making.made.world)
    (Program.declarationFiles (plugin.access.files making.found.world) plugin.root ++
      inputs.map fun input => Path.absolutize input plugin.root) options
  held : (plugin.access.session making.filled.world).program = .busy
  full : (plugin.access.session making.filled.after).program = .full program

theorem Makes.mem {plugin : ScriptPlugin W} {options : OptionSet} {program : Program}
    {past : List (Moment W ε)} {making : Making W ε}
    (h : plugin.Makes options inputs past making program) (hmem : moment ∈ making.moments) :
    moment ∈ past := by
  obtain ⟨who, hown⟩ := h.own
  exact (momentsOf_sublist who past).subset (hown.subset hmem)

/-- What is reported of a file that is checked: from the program of the build, from one that was made of
the file alone, or nothing if a file that is not listed goes unchecked. -/
inductive Checks (plugin : ScriptPlugin W) (options : OptionSet) (program : Program)
    (past : List (Moment W ε)) (fileName : String) : Log → Prop
  | listed (h : (program.file? fileName).isSome) :
      Checks plugin options program past fileName (fileFindings program fileName)
  | alone (h : program.file? fileName = none) (hsetting : plugin.settings.checkUnlistedFiles = true)
      (hmem : moment ∈ past) :
      Checks plugin options program past fileName (fileFindings
        (plugin.engine.createProgram (plugin.access.files moment.world) [fileName] options) fileName)
  | unchecked (h : program.file? fileName = none) (hsetting : plugin.settings.checkUnlistedFiles = false) :
      Checks plugin options program past fileName []

structure Treats (plugin : ScriptPlugin W) (options : OptionSet) (program : Program)
    (past : List (Moment W ε)) (code id : String) (outcome : Outcome (Option Transformed))
    (entries : Log) : Prop where
  outcome_eq : outcome = emitOutcome (plugin.engine.transpile ⟨id, code⟩ options)
  entries_eq : ∃ checked,
    plugin.Checks options program past (Path.absolutize id plugin.root) checked ∧
      entries = checked ++ emitFindings (plugin.engine.transpile ⟨id, code⟩ options)

section
variable {plugin : ScriptPlugin W} {options : OptionSet} {program : Program}
  {past moments : List (Moment W ε)} {session : Session}

theorem silent_compilerOptions (plugin : ScriptPlugin W) : Silent plugin.compilerOptions :=
  Slot.silent_once (.act fun _ => .done)

theorem silent_createProgram (plugin : ScriptPlugin W) (work : Work) (roots : List String)
    (options : OptionSet) : Silent (plugin.createProgram work roots options) :=
  Task.silent_bind (.act fun _ => .done) fun _ => .act fun _ => .done

theorem silent_program (plugin : ScriptPlugin W) : Silent plugin.program :=
  Slot.silent_once <| Task.silent_bind (silent_compilerOptions plugin) fun _ =>
    Task.silent_bind (.act fun _ => .done) fun _ => Task.silent_bind (.act fun _ => .done) fun _ =>
      silent_createProgram plugin ..

theorem acts_resolveOptions (h : Acts plugin.resolveOptions moments (.done options)) :
    ∃ moment, moments = [moment] ∧ moment.after = plugin.access.update (·.did .options) moment.world ∧
      options = plugin.resolvedOptions moment.world := by
  obtain ⟨moment, rest, rfl, -, hafter, h⟩ := Task.acts_act h
  obtain ⟨rfl, rfl⟩ := Task.acts_done h
  exact ⟨moment, rfl, hafter, rfl⟩

theorem acts_createProgram (h : Acts (plugin.createProgram work roots options) moments (.done program)) :
    ∃ counted made, moments = [counted, made] ∧
      counted.after = plugin.access.update (·.did work) counted.world ∧
      program = plugin.engine.createProgram (plugin.access.files made.world) roots options := by
  obtain ⟨_, first, rest, rfl, hfirst, hrest⟩ := Task.acts_bind h
  obtain ⟨counted, rfl, -, hcounted⟩ := Task.acts_modify hfirst
  obtain ⟨made, rfl, -, -, rfl⟩ := Task.acts_read hrest
  exact ⟨counted, made, rfl, hcounted, rfl⟩

theorem acts_buildProgram (h : Acts plugin.buildProgram moments (.done program)) :
    ∃ options asked declared found counted made, moments = asked ++ [declared, found, counted, made] ∧
      Acts plugin.compilerOptions asked (.done options) ∧
      counted.after = plugin.access.update (·.did .program) counted.world ∧
      program = plugin.engine.createProgram (plugin.access.files made.world)
        (Program.declarationFiles (plugin.access.files found.world) plugin.root ++
          (plugin.declaredInputs declared.world).map fun input => Path.absolutize input plugin.root)
        options := by
  obtain ⟨options, asked, later, rfl, hasked, h⟩ := Task.acts_bind h
  obtain ⟨_, second, later, rfl, hsecond, h⟩ := Task.acts_bind h
  obtain ⟨declared, rfl, -, -, rfl⟩ := Task.acts_read hsecond
  obtain ⟨_, third, later, rfl, hthird, h⟩ := Task.acts_bind h
  obtain ⟨found, rfl, -, -, rfl⟩ := Task.acts_read hthird
  obtain ⟨counted, made, rfl, hcounted, rfl⟩ := acts_createProgram h
  exact ⟨options, asked, declared, found, counted, made, rfl, hasked, hcounted, rfl⟩

theorem acts_reportFile {fileName : String} (h : Acts (reportFile program fileName) moments (.done ())) :
    reportedIn moments = fileFindings program fileName := by
  unfold reportFile at h
  rw [fileFindings]
  by_cases hheld : (program.file? fileName).isSome
  · rw [if_pos hheld] at h ⊢
    exact Task.acts_reportAll h
  · rw [if_neg hheld] at h ⊢
    obtain ⟨-, rfl⟩ := Task.acts_done h
    rfl

theorem acts_finish {result : Except TranspileError Transpile.Output}
    (h : Acts (finish result) moments (.done outcome)) :
    outcome = emitOutcome result ∧ reportedIn moments = emitFindings result := by
  cases result with
  | error error =>
    obtain ⟨rfl, rfl⟩ := Task.acts_done h
    exact ⟨rfl, rfl⟩
  | ok output =>
    obtain ⟨_, first, rest, rfl, hfirst, h⟩ := Task.acts_bind h
    obtain ⟨rfl, rfl⟩ := Task.acts_done h
    rw [List.append_nil]
    exact ⟨rfl, Task.acts_reportAll hfirst⟩

/-- The moments of the past in which options or program were asked for came to what a session has. -/
structure Finds (plugin : ScriptPlugin W) (past : List (Moment W ε)) (session : Session) : Prop where
  options {moments : List (Moment W ε)} {options : OptionSet} : moments.Sublist past →
    Acts plugin.compilerOptions moments (.done options) → session.options = .full options
  program {moments : List (Moment W ε)} {program : Program} : moments.Sublist past →
    Acts plugin.program moments (.done program) → session.program = .full program

theorem acts_check {fileName : String} (hfinds : plugin.Finds past session)
    (hwithin : moments.Sublist past) (hoptions : session.options = .full options)
    (h : Acts (plugin.check fileName) moments (.done ())) :
    ∃ program, session.program = .full program ∧
      plugin.Checks options program past fileName (reportedIn moments) := by
  obtain ⟨program, first, rest, rfl, hfirst, h⟩ := Task.acts_bind h
  have hfirst' : first.Sublist past := (List.sublist_append_left ..).trans hwithin
  have hrest : rest.Sublist past := (List.sublist_append_right ..).trans hwithin
  refine ⟨program, hfinds.program hfirst' hfirst, ?_⟩
  rw [Task.reportedIn_append, (silent_program plugin).reportedIn hfirst, List.nil_append]
  cases hheld : program.file? fileName with
  | some file =>
    rw [hheld] at h
    rw [acts_reportFile h]
    exact .listed (by rw [hheld]; rfl)
  | none =>
    rw [hheld] at h
    by_cases hsetting : plugin.settings.checkUnlistedFiles = true
    · simp only [Option.isSome_none, Bool.false_eq_true, ↓reduceIte, hsetting] at h
      obtain ⟨options', second, last, rfl, hsecond, h⟩ := Task.acts_bind h
      obtain ⟨made, third, last, rfl, hthird, h⟩ := Task.acts_bind h
      have hsame := hfinds.options ((List.sublist_append_left ..).trans hrest) hsecond
      rw [hoptions] at hsame
      cases hsame
      obtain ⟨counted, moment, rfl, -, rfl⟩ := acts_createProgram hthird
      rw [Task.reportedIn_append, Task.reportedIn_append, (silent_compilerOptions plugin).reportedIn hsecond,
        (silent_createProgram plugin ..).reportedIn hthird, acts_reportFile h]
      exact .alone hheld hsetting (hrest.subset (by simp))
    · simp only [Option.isSome_none, Bool.false_eq_true, ↓reduceIte, hsetting] at h
      obtain ⟨-, rfl⟩ := Task.acts_done h
      exact .unchecked hheld (Bool.eq_false_iff.mpr hsetting)

theorem acts_transform {code id : String} (hfinds : plugin.Finds past session)
    (hwithin : moments.Sublist past) (hscript : Path.isScript id = true)
    (h : Acts (plugin.transform code id) moments (.done outcome)) :
    ∃ options program, session.options = .full options ∧ session.program = .full program ∧
      plugin.Treats options program past code id outcome (reportedIn moments) := by
  simp only [transform, hscript, Bool.not_true, Bool.false_eq_true, ↓reduceIte] at h
  obtain ⟨options, first, rest, rfl, hfirst, h⟩ := Task.acts_bind h
  obtain ⟨_, second, last, rfl, hsecond, h⟩ := Task.acts_bind h
  obtain ⟨result, third, last, rfl, hthird, h⟩ := Task.acts_bind h
  obtain ⟨moment, rfl, hmoment, -, rfl⟩ := Task.acts_read hthird
  obtain ⟨rfl, hlast⟩ := acts_finish h
  have hoptions := hfinds.options ((List.sublist_append_left ..).trans hwithin) hfirst
  have hrest := (List.sublist_append_right ..).trans hwithin
  obtain ⟨program, hprogram, hchecks⟩ :=
    acts_check hfinds ((List.sublist_append_left ..).trans hrest) hoptions hsecond
  refine ⟨options, program, hoptions, hprogram, rfl, _, hchecks, ?_⟩
  rw [Task.reportedIn_append, Task.reportedIn_append, Task.reportedIn_append, hlast,
    (silent_compilerOptions plugin).reportedIn hfirst]
  simp [reportedIn, hmoment]

theorem acts_passed {code id : String} (hscript : Path.isScript id = false)
    (h : Acts (plugin.transform code id) moments (.done outcome)) :
    outcome = .ok none ∧ reportedIn moments = [] := by
  simp only [transform, hscript, Bool.not_false, ↓reduceIte] at h
  obtain ⟨rfl, rfl⟩ := Task.acts_done h
  exact ⟨rfl, rfl⟩

end

-- ---------------------------------------------------------------------------
-- Histories
-- ---------------------------------------------------------------------------

section
variable {plugin : ScriptPlugin W} {begins : κ → Task W α} {outside : ε → W → W → Prop}
  {start pool : Pool W κ α} {past : List (Moment W ε)}

theorem finds_of_history (haccess : plugin.access.Lawful) (h : History begins outside start past pool)
    (hoptions : (plugin.optionsOnce haccess).Fits begins outside start)
    (hprogram : (plugin.programOnce haccess).Fits begins outside start) :
    plugin.Finds past (plugin.access.session pool.world) where
  options hwithin hacts := (plugin.optionsOnce haccess).acts_get hacts fun moment hmem =>
    Once.cells_of_history h hoptions moment (hwithin.subset hmem)
  program hwithin hacts := (plugin.programOnce haccess).acts_get hacts fun moment hmem =>
    Once.cells_of_history h hprogram moment (hwithin.subset hmem)

theorem resolved_of_history {options : OptionSet} (haccess : plugin.access.Lawful)
    (h : History begins outside start past pool)
    (hoptions : (plugin.optionsOnce haccess).Fits begins outside start)
    (hfull : (plugin.access.session pool.world).options = .full options) :
    ∃ moment ∈ past, moment.after = plugin.access.update (·.did .options) moment.world ∧
      options = plugin.resolvedOptions moment.world := by
  obtain ⟨_, moments, _, hcomputes⟩ := (Once.stage_of_history h hoptions).computed_of_full hfull
  obtain ⟨moment, rfl, hafter, heq⟩ := acts_resolveOptions hcomputes.acts
  exact ⟨moment, hcomputes.within.subset (List.mem_singleton_self _), hafter, heq⟩

theorem made_of_history {program : Program} (haccess : plugin.access.Lawful)
    (h : History begins outside start past pool)
    (hoptions : (plugin.optionsOnce haccess).Fits begins outside start)
    (hprogram : (plugin.programOnce haccess).Fits begins outside start)
    (hfull : (plugin.access.session pool.world).program = .full program) :
    ∃ options making, (plugin.access.session pool.world).options = .full options ∧
      plugin.Makes options (plugin.declaredInputs making.declared.world) past making program := by
  obtain ⟨claimed, moments, filled, hcomputes⟩ := (Once.stage_of_history h hprogram).computed_of_full hfull
  obtain ⟨options, asked, declared, found, counted, made, rfl, hasked, hcounted, heq⟩ :=
    acts_buildProgram hcomputes.acts
  have hwithin : asked.Sublist past := (List.sublist_append_left ..).trans hcomputes.within
  refine ⟨options, ⟨claimed, asked, declared, found, counted, made, filled⟩,
    (finds_of_history haccess h hoptions hprogram).options hwithin hasked, ?_⟩
  exact
    { own := by simpa [Making.moments] using hcomputes.own
      empty := hcomputes.empty
      busy := hcomputes.busy
      asks := hasked
      counts := hcounted
      program_eq := heq
      held := hcomputes.held
      full := hcomputes.full }

/-- Calls that wait for the options and the program only have come to their ends when none can go on:
the call that the others wait for can. -/
theorem finished_of_still {who : Nat} {kind : κ} {task : Task W α} (haccess : plugin.access.Lawful)
    (h : History begins outside start past pool)
    (hoptions : (plugin.optionsOnce haccess).Fits begins outside start)
    (hprogram : (plugin.programOnce haccess).Fits begins outside start)
    (hgoes : ∀ kind, Goes plugin.Rests (begins kind)) (hstill : pool.IsStill begins)
    (hcall : pool.calls[who]? = some (kind, task)) : ∃ result, task = .done result := by
  have hoptionsCell : (plugin.access.session pool.world).options ≠ .busy := by
    intro hbusy
    obtain ⟨_, _, _, hother, hstep⟩ := (Once.stage_of_history h hoptions).holder_goes hbusy
      (goes_resolveOptions plugin) trivial
    exact hstill.step_isNone hother hstep
  have hprogramCell : (plugin.access.session pool.world).program ≠ .busy := by
    intro hbusy
    obtain ⟨_, _, _, hother, hstep⟩ := (Once.stage_of_history h hprogram).holder_goes hbusy
      (goes_buildProgram plugin) hoptionsCell
    exact hstill.step_isNone hother hstep
  have htask : Goes plugin.Rests task := (h.acts hoptions.calls hcall).each (hgoes kind)
  by_contra hdone
  exact hstill.step_isNone hcall
    (htask.step_isSome ⟨hoptionsCell, hprogramCell⟩ (fun result heq => hdone ⟨result, heq⟩) _)

end

end ScriptPlugin

end TsBuild.Bundle
