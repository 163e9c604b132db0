import TsBuild.Proofs.Bundle.Alone
import TsBuild.Proofs.Bundle.Settled

/-!
# What a transform comes to

A transform asks for the program, checks the script against it and reports what it finds, but what it
comes to is a function of the text, its name and the options alone (`emission`). By itself it always comes
to its end, unless a call that is not going on has begun to compute the options or the program
(`run_transform`). So two builds with the same options, whatever else is different, transform a script to
the same (`transform_sameEmission`).
-/

namespace TsBuild.Bundle

namespace Task

-- ---------------------------------------------------------------------------
-- Tasks that run by themselves
-- ---------------------------------------------------------------------------

/-- By itself, from a world with `pre`, the task comes to its end with a result and a world that `post`
tells of. -/
def Triple (pre : W → Prop) (task : Task W α) (post : α → W → Prop) : Prop :=
  ∀ log w, pre w → ∃ build a, task.run ⟨log, w⟩ = some (build, a) ∧ post a build.world

variable {pre : W → Prop} {task : Task W α} {post : α → W → Prop}

theorem Triple.imp {pre' : W → Prop} {post' : α → W → Prop} (h : Triple pre task post)
    (hpre : ∀ w, pre' w → pre w) (hpost : ∀ a w, post a w → post' a w) : Triple pre' task post' := by
  intro log w hw
  obtain ⟨build, a, hrun, ha⟩ := h log w (hpre w hw)
  exact ⟨build, a, hrun, hpost a _ ha⟩

theorem triple_done (h : ∀ w, pre w → post a w) : Triple pre (.done a) post :=
  fun log w hpre => ⟨⟨log, w⟩, a, rfl, h w hpre⟩

theorem triple_bind {f : α → Task W β} {last : β → W → Prop} (h : Triple pre task post)
    (h' : ∀ a, Triple (post a) (f a) last) : Triple pre (task >>= f) last := by
  intro log w hpre
  obtain ⟨⟨log', w'⟩, a, hrun, hpost⟩ := h log w hpre
  obtain ⟨later, b, hrun', hlast⟩ := h' a log' w' hpost
  exact ⟨later, b, by rw [run_bind_of_run hrun, hrun'], hlast⟩

theorem triple_act {effect : W → W} {next : W → Task W α} (hready : ∀ w, pre w → ready w = true)
    (h : ∀ w, pre w → Triple (· = effect w) (next w) post) : Triple pre (.act ready effect next) post := by
  intro log w hpre
  obtain ⟨build, a, hrun, hpost⟩ := h w hpre log (effect w) rfl
  exact ⟨build, a, by rw [run, if_pos (hready w hpre), hrun], hpost⟩

theorem triple_reportAll {post : Unit → W → Prop} (entries : Log) (h : ∀ w, pre w → post () w) :
    Triple pre (reportAll entries) post :=
  fun log w hpre => ⟨_, (), run_reportAll entries ⟨log, w⟩, h w hpre⟩

theorem triple_read (f : W → α) : Triple pre (read f) fun a w => pre w ∧ a = f w :=
  triple_act (fun _ _ => rfl) fun _ hpre => triple_done fun _ hw => hw ▸ ⟨hpre, rfl⟩

theorem triple_modify {f : W → W} {post : Unit → W → Prop} (h : ∀ w, pre w → post () (f w)) :
    Triple pre (modify f) post :=
  triple_act (fun _ _ => rfl) fun w hpre => triple_done fun _ hw => hw ▸ h w hpre

/-- A value computed once: it is there, or it is computed and put there. -/
theorem triple_once {slot : Slot W α} {compute : Task W α} (hbusy : ∀ w, pre w → slot.get w ≠ .busy)
    (hfull : ∀ w a, pre w → slot.get w = .full a → post a (slot.set (.full a) w))
    (hempty : ∀ w, pre w → slot.get w = .empty →
      Triple (· = slot.set .busy w) compute fun a w' => post a (slot.set (.full a) w')) :
    Triple pre (slot.once compute) post := by
  refine triple_act (fun w hpre => ?_) fun w hpre => ?_
  · cases hcell : slot.get w with
    | busy => exact absurd hcell (hbusy w hpre)
    | empty | full => rfl
  · cases hcell : slot.get w with
    | busy => exact absurd hcell (hbusy w hpre)
    | empty =>
      exact triple_bind (hempty w hpre hcell) fun a => triple_bind (triple_modify fun _ h => h)
        fun _ => triple_done fun _ h => h
    | full a => exact triple_done fun _ hw => hw ▸ hfull w a hpre hcell

end Task

namespace ScriptPlugin

open TsBuild.Command (emitOutcome)
open TsBuild.Bundle.Task (Triple triple_bind triple_done triple_read triple_modify triple_reportAll
  triple_once)

def emission (transpile : SourceFile → OptionSet → Except TranspileError Transpile.Output)
    (options : OptionSet) (code id : String) : Outcome (Option Transformed) :=
  if Path.isScript id then emitOutcome (transpile ⟨id, code⟩ options) else .ok none

/-- The options of a build: those there are, or those its files give when they are asked for. -/
def finalOptions (plugin : ScriptPlugin W) (w : W) : OptionSet :=
  (plugin.access.session w).options.value?.getD (plugin.resolvedOptions w)

def Has (plugin : ScriptPlugin W) (options : OptionSet) (w : W) : Prop :=
  (plugin.access.session w).options = .full options

section
variable {plugin : ScriptPlugin W} {options : OptionSet}

theorem triple_compilerOptions (haccess : plugin.access.Lawful) :
    Triple (plugin.Has options) plugin.compilerOptions
      fun found w => found = options ∧ plugin.Has options w := by
  have hcell (w : W) (h : plugin.Has options w) : plugin.optionsSlot.get w = .full options := h
  refine triple_once (fun w h => ?_) (fun w found h hfound => ?_) fun w h hempty => ?_
  · rw [hcell w h]
    nofun
  · rw [hcell w h, Cell.full.injEq] at hfound
    subst hfound
    exact ⟨rfl, by simp only [Has, optionsSlot, haccess.session_update]⟩
  · rw [hcell w h] at hempty
    cases hempty

theorem triple_compilerOptions_first (haccess : plugin.access.Lawful) :
    Triple (fun w => plugin.Rests w ∧ plugin.finalOptions w = options) plugin.compilerOptions
      fun found w => found = options ∧ plugin.Has options w ∧ (plugin.access.session w).program ≠ .busy := by
  refine triple_once (fun w h => h.1.options) (fun w found h hfound => ?_) fun w h hempty => ?_
  · have hfound : (plugin.access.session w).options = .full found := hfound
    have hfinal := h.2
    rw [finalOptions, hfound] at hfinal
    simp only [Has, optionsSlot, haccess.session_update]
    exact ⟨hfinal, congrArg _ hfinal, h.1.program⟩
  · have hempty : (plugin.access.session w).options = .empty := hempty
    have hfinal := h.2
    rw [finalOptions, hempty] at hfinal
    refine Task.triple_act (fun _ _ => rfl) fun w' hw' => triple_done fun last hlast => ?_
    subst hw' hlast
    have hresolved : plugin.resolvedOptions (plugin.optionsSlot.set .busy w) = options := by
      rw [← hfinal, resolvedOptions, optionsSlot, haccess.files_update]
      rfl
    simp only [Has, optionsSlot, haccess.session_update] at hresolved ⊢
    exact ⟨hresolved, congrArg _ hresolved, h.1.program⟩

theorem triple_createProgram (haccess : plugin.access.Lawful) (work : Work) (roots : List String)
    (given : OptionSet) :
    Triple (plugin.Has options) (plugin.createProgram work roots given) fun _ => plugin.Has options := by
  have hdid (w : W) (h : plugin.Has options w) :
      plugin.Has options (plugin.access.update (·.did work) w) := by
    rw [Has, haccess.session_update]
    exact h
  exact triple_bind (triple_modify hdid) fun _ => (triple_read _).imp (fun _ h => h) fun _ _ h => h.1

theorem triple_buildProgram (haccess : plugin.access.Lawful) :
    Triple (plugin.Has options) plugin.buildProgram fun _ => plugin.Has options :=
  triple_bind ((triple_compilerOptions haccess).imp (fun _ h => h) fun _ _ h => h.2) fun _ =>
    triple_bind (triple_read _) fun _ => triple_bind (triple_read _) fun _ =>
      (triple_createProgram haccess _ _ _).imp (fun _ h => h.1.1) fun _ _ h => h

theorem triple_program (haccess : plugin.access.Lawful) :
    Triple (fun w => plugin.Has options w ∧ (plugin.access.session w).program ≠ .busy) plugin.program
      fun _ => plugin.Has options := by
  have hset (cell : Cell Program) (w : W) (h : plugin.Has options w) :
      plugin.Has options (plugin.programSlot.set cell w) := by
    rw [Has, programSlot, haccess.session_update]
    exact h
  refine triple_once (fun w h => h.2) (fun w _ h _ => hset _ w h.1) fun w h _ => ?_
  refine (triple_buildProgram haccess).imp (fun w' hw' => ?_) fun _ w' h' => hset _ w' h'
  rw [hw']
  exact hset _ w h.1

theorem triple_reportFile {pre : W → Prop} (program : Program) (fileName : String) :
    Triple pre (reportFile program fileName) fun _ _ => True := by
  unfold reportFile
  split
  · exact triple_reportAll _ fun _ _ => trivial
  · exact triple_done fun _ _ => trivial

theorem triple_check (haccess : plugin.access.Lawful) (fileName : String) :
    Triple (fun w => plugin.Has options w ∧ (plugin.access.session w).program ≠ .busy)
      (plugin.check fileName) fun _ _ => True := by
  refine triple_bind (triple_program haccess) fun program => ?_
  split
  · exact triple_reportFile program fileName
  · split
    · exact triple_bind (triple_compilerOptions haccess) fun found =>
        triple_bind ((triple_createProgram haccess _ _ _).imp (fun _ h => h.2) fun _ _ h => h) fun made =>
          triple_reportFile made fileName
    · exact triple_done fun _ _ => trivial

theorem triple_finish {pre : W → Prop} (result : Except TranspileError Transpile.Output) :
    Triple pre (finish result) fun outcome _ => outcome = emitOutcome result := by
  cases result with
  | error error => exact triple_done fun _ _ => rfl
  | ok output =>
    have hreports : Triple pre (reportDiagnostics output.diagnostics : Task W Unit) fun _ _ => True :=
      triple_reportAll _ fun _ _ => trivial
    exact triple_bind hreports fun _ => triple_done fun _ _ => rfl

theorem triple_transform (haccess : plugin.access.Lawful) (code id : String) :
    Triple (fun w => plugin.Rests w ∧ plugin.finalOptions w = options) (plugin.transform code id)
      fun outcome _ => outcome = emission plugin.engine.transpile options code id := by
  unfold transform emission
  cases Path.isScript id with
  | false => exact triple_done fun _ _ => rfl
  | true =>
    refine triple_bind (triple_compilerOptions_first haccess) fun found => ?_
    by_cases hfound : found = options
    · subst hfound
      refine triple_bind ((triple_check haccess _).imp (fun _ h => h.2) fun _ _ h => h) fun _ => ?_
      refine triple_bind (triple_read _) fun result => ?_
      by_cases hresult : result = plugin.engine.transpile ⟨id, code⟩ found
      · subst hresult
        exact triple_finish _
      · exact fun _ _ h => absurd h.2 hresult
    · exact fun _ _ h => absurd h.1 hfound

theorem run_transform (haccess : plugin.access.Lawful) {build : Build W} (hrests : plugin.Rests build.world)
    (code id : String) :
    ∃ after, (plugin.transform code id).run build =
      some (after, emission plugin.engine.transpile (plugin.finalOptions build.world) code id) := by
  obtain ⟨after, outcome, hrun, rfl⟩ :=
    triple_transform haccess code id build.log build.world ⟨hrests, rfl⟩
  exact ⟨after, hrun⟩

/-- Among other calls a transform that has come to its end has come to the same. -/
theorem emission_of_history {outcome : Outcome (Option Transformed)} {code id : String}
    (haccess : plugin.access.Lawful) (hsession : plugin.access.session w = {})
    (h : History (Use.task plugin) (Outside.Changes plugin) { world := w } past pool)
    (hfinished : pool.Finished who (.transform code id) (.transformed outcome)) :
    (Path.isScript id = true → ∃ options, plugin.Has options pool.world) ∧
      ∀ options, (Path.isScript id = true → plugin.Has options pool.world) →
        outcome = emission plugin.engine.transpile options code id := by
  cases (settled_of_history haccess hsession h).answers hfinished with
  | transform hscript hfound _ htreats =>
    refine ⟨fun _ => ⟨_, hfound⟩, fun options hoptions => ?_⟩
    have hsame := hfound.symm.trans (hoptions hscript)
    rw [Cell.full.injEq] at hsame
    rw [emission, if_pos hscript, htreats.outcome_eq, hsame]
  | passed hscript =>
    rw [hscript]
    exact ⟨nofun, fun _ _ => by rw [emission, hscript]; rfl⟩

end

variable {left : ScriptPlugin W} {right : ScriptPlugin V}

/-- Two builds that transpile in the same way and have the same options transform a text to the same,
whatever else is different: by themselves, and in any histories of calls. -/
theorem transform_sameEmission (hleft : left.access.Lawful) (hright : right.access.Lawful)
    (htranspile : left.engine.transpile = right.engine.transpile) (code id : String) :
    (∀ build build', left.Rests build.world → right.Rests build'.world →
      left.finalOptions build.world = right.finalOptions build'.world →
      ∃ after after' outcome, (left.transform code id).run build = some (after, outcome) ∧
        (right.transform code id).run build' = some (after', outcome)) ∧
    ∀ {w v past past' pool pool' who who' outcome outcome'},
      left.access.session w = {} → right.access.session v = {} →
      History (Use.task left) (Outside.Changes left) { world := w } past pool →
      History (Use.task right) (Outside.Changes right) { world := v } past' pool' →
      (left.access.session pool.world).options = (right.access.session pool'.world).options →
      pool.Finished who (.transform code id) (.transformed outcome) →
      pool'.Finished who' (.transform code id) (.transformed outcome') → outcome = outcome' := by
  constructor
  · intro build build' hrests hrests' hfinal
    obtain ⟨after, hrun⟩ := run_transform hleft hrests code id
    obtain ⟨after', hrun'⟩ := run_transform hright hrests' code id
    rw [← hfinal, ← htranspile] at hrun'
    exact ⟨after, after', _, hrun, hrun'⟩
  · intro w v past past' pool pool' who who' outcome outcome' hw hv h h' hcell hfinished hfinished'
    obtain ⟨hhas, hemission⟩ := emission_of_history hleft hw h hfinished
    obtain ⟨-, hemission'⟩ := emission_of_history hright hv h' hfinished'
    cases hscript : Path.isScript id with
    | false =>
      rw [hemission .baseline (by simp [hscript]), hemission' .baseline (by simp [hscript]), htranspile]
    | true =>
      obtain ⟨options, hoptions⟩ := hhas hscript
      rw [hemission options fun _ => hoptions, hemission' options fun _ => hcell.symm.trans hoptions,
        htranspile]

def thorough : ScriptPlugin Workspace := { bare with settings := ⟨none, true⟩ }

/-- No files on one side, a file that is declared on the other, and the same options. -/
theorem transform_sameEmission_declared :
    ∃ build build' after after', ∃ outcome : Outcome (Option Transformed),
      build.world.files.root.entries = [] ∧ thorough.declaredInputs build'.world = ["a.ts"] ∧
      (bare.transform "let x = 1;" "/a.ts").run build = some (after, outcome) ∧
      (thorough.transform "let x = 1;" "/a.ts").run build' = some (after', outcome) := by
  let build : Build Workspace := { world := ⟨⟨.dir [], "/"⟩, { options := .full .baseline }⟩ }
  let build' : Build Workspace :=
    { world := ⟨⟨.dir [("a.ts", .file (some "let x = ;"))], "/"⟩,
        { inputs? := some ["a.ts"], options := .full .baseline }⟩ }
  obtain ⟨after, after', outcome, hrun, hrun'⟩ :=
    (@transform_sameEmission _ _ bare thorough lawful_workspace lawful_workspace rfl "let x = 1;"
      "/a.ts").1 build build' ⟨nofun, nofun⟩ ⟨nofun, nofun⟩ rfl
  exact ⟨build, build', after, after', outcome, rfl, rfl, hrun, hrun'⟩

end ScriptPlugin

end TsBuild.Bundle
