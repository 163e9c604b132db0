import TsBuild.Proofs.Bundle.Sequence

/-!
# Transforms as chains of hooks

A transform that no other call interrupts hands code from hook to hook, up to the first that offends: that fails,
or reports an error. `Chained` follows the container plugin by plugin. From it come the code and the build that
each hook was given (`Chained.handed`), the result of a chain without offence (`Chained.end_of_ok`) and the error
of any other (`Chained.end_of_error`). Errors that were in the log before the transform count for nothing.
-/

namespace TsBuild.Bundle

open TsBuild.Bundle.Task (run_bind_of_run run_bind_eq_some run_pure run_errors prefix_log)
open TsBuild.Bundle.Container (failureEntries judged)

/-- A transform hook that ran by itself: the code and the build it was given, what it reported, the world it
left and what it came to. -/
structure HookRun (W : Type) where
  plugin : Plugin W
  code : String
  before : Build W
  entries : Log
  world : W
  outcome : Outcome (Option Transformed)

namespace HookRun

variable {W : Type}

def after (run : HookRun W) : Build W := ⟨run.before.log ++ run.entries, run.world⟩

def Ran (id : String) (run : HookRun W) : Prop :=
  (run.plugin.transform run.code id).run run.before = some (run.after, run.outcome)

structure Is (id : String) (plugin : Plugin W) (code : String) (build : Build W) (run : HookRun W) : Prop where
  plugin : run.plugin = plugin
  code : run.code = code
  before : run.before = build
  ran : run.Ran id

def IsOffending (run : HookRun W) : Prop :=
  (∃ error, run.outcome = .error error) ∨ run.entries.errors ≠ []

/-- The error of a hook that offends: its own, or else one for the first error it reported. -/
def failure? (run : HookRun W) : Option PluginError :=
  match run.outcome with
  | .error error => some error
  | .ok _ => run.entries.errors.head?.map fun first => ⟨run.plugin.name, .transform, first.text⟩

def result? (run : HookRun W) : Option Transformed :=
  match run.outcome with
  | .ok result? => result?
  | .error _ => none

def next (run : HookRun W) (current : Transformed) : Transformed :=
  match run.result? with
  | none => current
  | some result => ⟨result.code, result.sourceMap <|> current.sourceMap⟩

theorem code_next (run : HookRun W) (current : Transformed) :
    (run.next current).code = (run.result?.map Transformed.code).getD current.code := by
  rw [next]
  cases run.result? <;> rfl

theorem sourceMap_next (run : HookRun W) (current : Transformed) :
    (run.next current).sourceMap = (run.result?.bind Transformed.sourceMap <|> current.sourceMap) := by
  rw [next]
  cases run.result? <;> rfl

theorem failure_eq_none {run : HookRun W} : run.failure? = none ↔ ¬run.IsOffending := by
  rw [failure?, IsOffending]
  cases run.outcome <;> simp

theorem isOffending_of_failure {run : HookRun W} (h : run.failure? = some error) : run.IsOffending := by
  refine Classical.byContradiction fun hclean => ?_
  rw [failure_eq_none.mpr hclean] at h
  cases h

theorem judged_eq (run : HookRun W) :
    judged run.plugin .transform run.entries run.outcome =
      match run.failure? with
      | some error => .error error
      | none => .ok run.result? := by
  rw [failure?, result?]
  cases run.outcome with
  | error => rfl
  | ok => cases h : run.entries.errors.head? <;> simp [judged, h]

theorem failureEntries_eq_nil {run : HookRun W} (h : run.failure? = none) :
    failureEntries run.entries run.outcome = [] := by
  rw [failure?] at h
  cases houtcome : run.outcome with
  | error => simp [houtcome] at h
  | ok => rfl

end HookRun

-- ---------------------------------------------------------------------------
-- What runs leave behind
-- ---------------------------------------------------------------------------

section
variable {W : Type} {run : HookRun W} {runs : List (HookRun W)}

def codeAfter (code : String) (runs : List (HookRun W)) : String :=
  ((runs.filterMap HookRun.result?).getLast?.map Transformed.code).getD code

def mapAfter? (runs : List (HookRun W)) : Option Json :=
  (runs.filterMap fun run => run.result?.bind Transformed.sourceMap).getLast?

def buildAfter (build : Build W) (runs : List (HookRun W)) : Build W :=
  (runs.getLast?.map HookRun.after).getD build

theorem codeAfter_cons (code : String) (run : HookRun W) (runs : List (HookRun W)) :
    codeAfter code (run :: runs) = codeAfter ((run.result?.map Transformed.code).getD code) runs := by
  rw [codeAfter, codeAfter, List.filterMap_cons]
  cases run.result? with
  | none => rfl
  | some result =>
    simp only [List.getLast?_cons, Option.map_some, Option.getD_some]
    cases (runs.filterMap HookRun.result?).getLast? <;> rfl

theorem mapAfter_cons (run : HookRun W) (runs : List (HookRun W)) :
    mapAfter? (run :: runs) = (mapAfter? runs <|> run.result?.bind Transformed.sourceMap) := by
  rw [mapAfter?, mapAfter?, List.filterMap_cons]
  cases run.result?.bind Transformed.sourceMap with
  | none => cases List.getLast? _ <;> rfl
  | some map =>
    simp only [List.getLast?_cons]
    cases List.getLast? _ <;> rfl

theorem buildAfter_cons (build : Build W) (run : HookRun W) (runs : List (HookRun W)) :
    buildAfter build (run :: runs) = buildAfter run.after runs := by
  rw [buildAfter, buildAfter, List.getLast?_cons]
  cases runs.getLast? <;> rfl

end

-- ---------------------------------------------------------------------------
-- Chains
-- ---------------------------------------------------------------------------

variable {W : Type}

/-- A transform passes its code through the hooks of a container, up to the first that offends. -/
inductive Chained (id : String) :
    Container W → Transformed → Build W → List (HookRun W) → Build W → Outcome Transformed → Prop
  | ended : Chained id [] current build [] build (.ok current)
  | stopped (first : run.Is id plugin current.code build) (fails : run.failure? = some error) :
      Chained id (plugin :: rest) current build [run]
        ⟨run.after.log ++ failureEntries run.entries run.outcome, run.world⟩ (.error error)
  | passed (first : run.Is id plugin current.code build) (passes : run.failure? = none)
      (chained : Chained id rest (run.next current) run.after runs later outcome) :
      Chained id (plugin :: rest) current build (run :: runs) later outcome

variable {id : String} {current : Transformed}

theorem exists_run_of_watched {task : Task W (Outcome α)} {plugin : Plugin W}
    (h : (Container.watched plugin hook task).run build = some (later, verdict)) :
    ∃ entries w outcome, task.run build = some (⟨build.log ++ entries, w⟩, outcome) ∧
      later = ⟨build.log ++ entries ++ failureEntries entries outcome, w⟩ ∧
      verdict = judged plugin hook entries outcome := by
  have hbind := h
  rw [Container.watched, run_bind_of_run (run_errors _), run_bind_eq_some] at hbind
  obtain ⟨⟨log, w⟩, outcome, hrun, -⟩ := hbind
  obtain ⟨entries, rfl⟩ := prefix_log hrun
  rw [Container.run_watched plugin hook hrun] at h
  cases h
  exact ⟨entries, w, outcome, hrun, rfl, rfl⟩

theorem exists_chained {container : Container W}
    (h : (Container.transformFrom current id container).run build = some (later, outcome)) :
    ∃ runs, Chained id container current build runs later outcome := by
  induction container generalizing current build with
  | nil =>
    obtain ⟨rfl, rfl⟩ := run_pure.mp h
    exact ⟨[], .ended⟩
  | cons plugin rest ih =>
    rw [Container.transformFrom, run_bind_eq_some] at h
    obtain ⟨mid, verdict, hwatched, h⟩ := h
    obtain ⟨entries, w, came, hrun, rfl, rfl⟩ := exists_run_of_watched hwatched
    let run : HookRun W := ⟨plugin, current.code, build, entries, w, came⟩
    have hfirst : run.Is id plugin current.code build := ⟨rfl, rfl, rfl, hrun⟩
    rw [show judged plugin .transform entries came = _ from run.judged_eq] at h
    cases hfailure : run.failure? with
    | some error =>
      rw [hfailure] at h
      obtain ⟨rfl, rfl⟩ := run_pure.mp h
      exact ⟨[run], .stopped hfirst hfailure⟩
    | none =>
      rw [hfailure] at h
      have hnothing : failureEntries entries came = [] := HookRun.failureEntries_eq_nil hfailure
      rw [hnothing, List.append_nil] at h
      have hrest : (Container.transformFrom (run.next current) id rest).run run.after = some (later, outcome) := by
        rw [HookRun.next]
        cases hresult : run.result? <;> rw [hresult] at h <;> exact h
      obtain ⟨runs, hchained⟩ := ih hrest
      exact ⟨run :: runs, .passed hfirst hfailure hchained⟩

theorem isSome_run_transformFrom {container : Container W}
    (h : ∀ plugin ∈ container, ∀ code build, ((plugin.transform code id).run build).isSome)
    (current : Transformed) (build : Build W) :
    ((Container.transformFrom current id container).run build).isSome := by
  induction container generalizing current build with
  | nil => rfl
  | cons plugin rest ih =>
    have hrest := ih fun other hmem => h other (List.mem_cons_of_mem _ hmem)
    obtain ⟨⟨⟨log, w⟩, outcome⟩, hrun⟩ :=
      Option.isSome_iff_exists.mp (h plugin List.mem_cons_self current.code build)
    obtain ⟨entries, rfl⟩ := prefix_log hrun
    rw [Container.transformFrom, run_bind_of_run (Container.run_watched plugin .transform hrun)]
    rcases judged plugin .transform entries outcome with error | _ | result
    · rfl
    · exact hrest ..
    · exact hrest ..

-- ---------------------------------------------------------------------------
-- What a chain says
-- ---------------------------------------------------------------------------

namespace Chained

variable {container : Container W} {runs : List (HookRun W)} {build later : Build W}

theorem plugins_prefix (h : Chained id container current build runs later outcome) :
    runs.map HookRun.plugin <+: container := by
  induction h with
  | ended => exact List.prefix_rfl
  | stopped first =>
    rw [List.map_singleton, first.plugin]
    exact ⟨_, rfl⟩
  | passed first _ _ ih =>
    rw [List.map_cons, first.plugin]
    exact List.cons_prefix_cons.mpr ⟨rfl, ih⟩

/-- Each hook is given the code and the build that the hooks before it left; only the last may offend. -/
theorem handed (h : Chained id container current build runs later outcome)
    (hruns : runs = earlier ++ run :: rest) :
    run.Ran id ∧ run.code = codeAfter current.code earlier ∧ run.before = buildAfter build earlier ∧
      (rest ≠ [] → ¬run.IsOffending) := by
  induction h generalizing earlier with
  | ended => simp at hruns
  | stopped first =>
    cases earlier with
    | nil =>
      cases hruns
      exact ⟨first.ran, first.code, first.before, fun hrest => absurd rfl hrest⟩
    | cons => simp at hruns
  | passed first passes _ ih =>
    cases earlier with
    | nil =>
      cases hruns
      exact ⟨first.ran, first.code, first.before, fun _ => HookRun.failure_eq_none.mp passes⟩
    | cons other earlier =>
      rw [List.cons_append, List.cons.injEq] at hruns
      obtain ⟨rfl, hruns⟩ := hruns
      rw [codeAfter_cons, ← HookRun.code_next, buildAfter_cons]
      exact ih hruns

theorem log_buildAfter (h : Chained id container current build runs later outcome) :
    (buildAfter build runs).log = build.log ++ runs.flatMap HookRun.entries := by
  induction h with
  | ended => exact (List.append_nil _).symm
  | stopped first =>
    rw [← first.before]
    simp [buildAfter, HookRun.after]
  | passed first _ _ ih =>
    rw [buildAfter_cons, ih, List.flatMap_cons, ← List.append_assoc, ← first.before]
    rfl

theorem end_of_ok (h : Chained id container current build runs later (.ok result)) :
    runs.map HookRun.plugin = container ∧ (∀ run ∈ runs, ¬run.IsOffending) ∧
      result = ⟨codeAfter current.code runs, mapAfter? runs <|> current.sourceMap⟩ ∧
      later = buildAfter build runs := by
  generalize houtcome : (Except.ok result : Outcome Transformed) = outcome at h
  induction h with
  | ended =>
    cases houtcome
    exact ⟨rfl, nofun, rfl, rfl⟩
  | stopped => cases houtcome
  | passed first passes _ ih =>
    obtain ⟨hplugins, hclean, hresult, hlater⟩ := ih houtcome
    refine ⟨?_, ?_, ?_, ?_⟩
    · rw [List.map_cons, first.plugin, hplugins]
    · exact List.forall_mem_cons.mpr ⟨HookRun.failure_eq_none.mp passes, hclean⟩
    · rw [hresult, HookRun.code_next, HookRun.sourceMap_next, codeAfter_cons, mapAfter_cons]
      simp only [Option.orElse_eq_orElse, Option.orElse_eq_or, Option.or_assoc]
    · rw [buildAfter_cons, hlater]

theorem end_of_error (h : Chained id container current build runs later (.error error)) :
    ∃ offending, runs.getLast? = some offending ∧ offending.IsOffending ∧ offending.failure? = some error ∧
      later = ⟨(buildAfter build runs).log ++ failureEntries offending.entries offending.outcome,
        (buildAfter build runs).world⟩ := by
  generalize houtcome : (Except.error error : Outcome Transformed) = outcome at h
  induction h with
  | ended => cases houtcome
  | stopped _ fails =>
    cases houtcome
    exact ⟨_, rfl, HookRun.isOffending_of_failure fails, fails, rfl⟩
  | passed _ _ _ ih =>
    obtain ⟨offending, hlast, hoffends, hfailure, hlater⟩ := ih houtcome
    refine ⟨offending, ?_, hoffends, hfailure, ?_⟩
    · rw [List.getLast?_cons, hlast]
      rfl
    · rw [buildAfter_cons, hlater]

end Chained

/-- A transform by itself is the chain of its hooks, and comes to its end if they do. The hooks that ran are those
of the first plugins, each given the code and the build that the ones before it left. The transform is well if none
of them offends, which is all that counts: then every plugin has its turn, the code is what the last hook that
changed it made of it, with the last source map. Otherwise it fails as the first hook that offends, which is the
last that ran. The log gets the entries of the hooks, and one for a failure that its hook did not report. -/
theorem transform_chain (container : Container W) (code id : String) (build : Build W) :
    ((∀ plugin ∈ container, ∀ code build, ((plugin.transform code id).run build).isSome) →
      ((container.transform code id).run build).isSome) ∧
    ∀ later outcome, (container.transform code id).run build = some (later, outcome) →
      ∃ runs : List (HookRun W), runs.map HookRun.plugin <+: container ∧
        (∀ earlier run rest, runs = earlier ++ run :: rest →
          run.Ran id ∧ run.code = codeAfter code earlier ∧ run.before = buildAfter build earlier ∧
            (rest ≠ [] → ¬run.IsOffending)) ∧
        (buildAfter build runs).log = build.log ++ runs.flatMap HookRun.entries ∧
        ((∃ result, outcome = .ok result) ↔ ∀ run ∈ runs, ¬run.IsOffending) ∧
        (∀ result, outcome = .ok result → runs.map HookRun.plugin = container ∧
          result = ⟨codeAfter code runs, mapAfter? runs⟩ ∧ later = buildAfter build runs) ∧
        ∀ error, outcome = .error error → ∃ offending, runs.getLast? = some offending ∧
          offending.IsOffending ∧ offending.failure? = some error ∧
          later = ⟨(buildAfter build runs).log ++ failureEntries offending.entries offending.outcome,
            (buildAfter build runs).world⟩ := by
  refine ⟨fun h => isSome_run_transformFrom h { code } build, fun later outcome hrun => ?_⟩
  obtain ⟨runs, hchained⟩ : ∃ runs, Chained id container { code } build runs later outcome := exists_chained hrun
  refine ⟨runs, hchained.plugins_prefix, fun earlier run rest => hchained.handed, hchained.log_buildAfter, ?_, ?_, ?_⟩
  · constructor
    · rintro ⟨result, rfl⟩
      exact hchained.end_of_ok.2.1
    · intro hclean
      cases outcome with
      | ok result => exact ⟨result, rfl⟩
      | error error =>
        obtain ⟨offending, hlast, hoffends, -⟩ := hchained.end_of_error
        exact absurd hoffends (hclean offending (List.mem_of_getLast? hlast))
  · rintro result rfl
    obtain ⟨hplugins, -, hresult, hlater⟩ := hchained.end_of_ok
    rw [Option.orElse_eq_orElse, Option.orElse_eq_or, Option.or_none] at hresult
    exact ⟨hplugins, hresult, hlater⟩
  · rintro error rfl
    exact hchained.end_of_error

def annotating : Plugin Unit where
  name := "annotating"
  transform code _ := do
    Task.reportAll [{ level := .warning, message := "annotated", loc := none }]
    return .ok (some { code := code ++ " // seen" })

def declining : Plugin Unit where
  name := "declining"
  transform _ id := return .error ⟨"declining", .transform, id ++ " is declined"⟩

def marredBuild : Build Unit where
  log := [{ level := .error, message := "not found", loc := none }]
  world := ()

/-- The first plugin passes though there is an error in the log. The second fails, which is reported, and the
third has no turn. -/
theorem transform_chain_declined :
    ((Container.transform [annotating, declining, annotating] "x" "a.ts").run marredBuild).isSome ∧
      ∃ later error, ∃ offending : HookRun Unit,
        (Container.transform [annotating, declining, annotating] "x" "a.ts").run marredBuild =
          some (later, .error error) ∧
        offending.IsOffending ∧ offending.failure? = some error ∧
        later.log.map LogEntry.level = [.error, .warning, .error] := by
  obtain ⟨hends, hchain⟩ := transform_chain [annotating, declining, annotating] "x" "a.ts" marredBuild
  obtain ⟨later, error, hrun, hlevels⟩ :
      ∃ later error, (Container.transform [annotating, declining, annotating] "x" "a.ts").run marredBuild =
        some (later, .error error) ∧ later.log.map LogEntry.level = [.error, .warning, .error] :=
    ⟨_, _, rfl, by decide⟩
  obtain ⟨runs, -, -, -, -, -, hfailed⟩ := hchain later (.error error) hrun
  obtain ⟨offending, -, hoffends, hfailure, -⟩ := hfailed error rfl
  have hhooks : ∀ plugin ∈ [annotating, declining, annotating], ∀ code build,
      ((plugin.transform code "a.ts").run build).isSome := by
    simp only [List.mem_cons, List.not_mem_nil, or_false]
    rintro plugin (rfl | rfl | rfl) code build <;> rfl
  exact ⟨hends hhooks, later, error, offending, hrun, hoffends, hfailure, hlevels⟩

end TsBuild.Bundle
