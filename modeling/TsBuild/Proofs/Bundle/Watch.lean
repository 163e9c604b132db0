import TsBuild.Proofs.Bundle.Pool

/-!
# What a call sees of its hooks

A call of a container counts the errors of the log before a hook and looks at the log after it. The
entries in between are its window: those the hook reported, and whatever other calls reported in the
meantime (`watched_ran`). A call passes through the plugins up to the first hook whose watch fails
(`run_went`), so a call that fails leaves an error in the log (`Went.errors`), and once there is one
no build ends well (`buildEnd_fails`).
-/

namespace TsBuild.Bundle

open SignedLog (Waits)
open TsBuild.Bundle.Task (Ran ran_bind ran_pure ran_report ran_errors)

def Outcome.error? : Outcome α → Option PluginError
  | .error error => some error
  | .ok _ => none

def PluginError.entry (error : PluginError) : LogEntry :=
  { level := .error, message := error.text, loc := none }

-- ---------------------------------------------------------------------------
-- A hook and its window
-- ---------------------------------------------------------------------------

/-- How a hook went: what it returned, the log at the count before it, and the entries from there to
the look after it. -/
structure Watch where
  plugin : String
  hook : Hook
  error? : Option PluginError
  before : SignedLog
  window : SignedLog

namespace Watch

def seen (watch : Watch) : SignedLog := watch.before ++ watch.window

/-- What the call fails with: the error of the hook, else one for the first error in the window. -/
def failure? (watch : Watch) : Option PluginError :=
  watch.error? <|>
    watch.window.errors.head?.map fun first => ⟨watch.plugin, watch.hook, first.2.text⟩

def recorded (watch : Watch) : Log :=
  match watch.error? with
  | some error => if watch.window.errors = [] then [error.entry] else []
  | none => []

def verdict (watch : Watch) (outcome : Outcome α) : Outcome α :=
  match watch.failure? with
  | some error => .error error
  | none => outcome

structure Tells (who : Nat) (name : String) (hook : Hook) (task : Task W (Outcome α)) (watch : Watch)
    (start : SignedLog) (outcome : Outcome α) (now : SignedLog) : Prop where
  plugin : watch.plugin = name
  hook : watch.hook = hook
  error? : watch.error? = outcome.error?
  counted : Waits who start watch.before
  ran : ∃ ended, task.Ran who watch.before outcome ended ∧ Waits who ended watch.seen
  told : ∃ later, Waits who watch.seen later ∧ Waits who (later ++ watch.recorded.map (who, ·)) now

end Watch

open Watch (Tells)

/-- A failure is reported if the count of errors is still what it was. -/
theorem reportFailure_ran {outcome : Outcome α}
    (h : (Container.reportFailure error count : Task W (Outcome α)).Ran who ended outcome now) :
    outcome = .error error ∧ ∃ looked told reported, Waits who ended looked ∧ Waits who looked told ∧
      reported = (if looked.errors.length = count then [error.entry] else []) ∧
      Waits who (told ++ reported.map (who, ·)) now := by
  obtain ⟨seen, mid, hseen, h⟩ := ran_bind h
  obtain ⟨looked, hlooked, rfl, hmid⟩ := ran_errors hseen
  rw [SignedLog.length_errors] at h
  by_cases hcount : looked.errors.length = count
  · simp only [hcount, ↓reduceIte] at h
    obtain ⟨_, last, hreport, h⟩ := ran_bind h
    obtain ⟨told, htold, hreport⟩ := ran_report hreport
    obtain ⟨-, hlast⟩ := ran_pure hreport
    obtain ⟨rfl, hnow⟩ := ran_pure h
    exact ⟨rfl, looked, told, _, hlooked, hmid.trans htold, (if_pos hcount).symm, hlast.trans hnow⟩
  · simp only [hcount, ↓reduceIte] at h
    obtain ⟨rfl, hnow⟩ := ran_pure h
    exact ⟨rfl, looked, mid, _, hlooked, hmid, (if_neg hcount).symm,
      by rwa [List.map_nil, List.append_nil]⟩

theorem errors_during (before during : SignedLog) :
    (SignedLog.errors (before ++ during)).length = before.errors.length ↔ during.errors = [] := by
  rw [SignedLog.errors_append, List.length_append, ← List.length_eq_zero_iff]
  omega

theorem newFailure_eq {plugin : Plugin W} (before during : SignedLog) :
    Container.newFailure? plugin hook before.errors.length (SignedLog.entries (before ++ during)).errors =
      during.errors.head?.map fun first => ⟨plugin.name, hook, first.2.text⟩ := by
  rw [Container.newFailure?, SignedLog.entries_errors, SignedLog.errors_append, SignedLog.entries_append,
    List.getElem?_append_right (by simp [SignedLog.entries]), SignedLog.entries, SignedLog.entries,
    List.length_map, Nat.sub_self, ← List.head?_eq_getElem?, List.head?_map, Option.map_map]
  rfl

/-- A watched hook runs in its window; the watch decides what the call goes on with. -/
theorem watched_ran {task : Task W (Outcome α)}
    (h : (Container.watched plugin hook task).Ran who start result now) :
    ∃ watch outcome, Tells who plugin.name hook task watch start outcome now ∧
      result = watch.verdict outcome := by
  obtain ⟨seen, first, hseen, h⟩ := ran_bind h
  obtain ⟨before, hbefore, rfl, hfirst⟩ := ran_errors hseen
  obtain ⟨outcome, ended, hran, h⟩ := ran_bind h
  rw [SignedLog.length_errors] at h
  have hran' := Task.Leads.others hfirst hran
  obtain ⟨own, rfl⟩ := hran'.grows
  cases outcome with
  | error error =>
    obtain ⟨rfl, _, told, reported, ⟨more, hmore, rfl⟩, htold, hreported, hnow⟩ := reportFailure_ran h
    simp only [List.append_assoc, errors_during] at htold hreported
    refine ⟨⟨plugin.name, hook, some error, before, own ++ more⟩, .error error,
      ⟨rfl, rfl, rfl, hbefore, ⟨_, hran', more, hmore, ?_⟩, told, htold, ?_⟩, rfl⟩
    · exact (List.append_assoc ..).symm
    · subst hreported
      exact hnow
  | ok value =>
    obtain ⟨seen, last, hseen, h⟩ := ran_bind h
    obtain ⟨_, ⟨more, hmore, rfl⟩, rfl, hlast⟩ := ran_errors hseen
    rw [List.append_assoc] at h hlast
    rw [newFailure_eq] at h
    let watch : Watch := ⟨plugin.name, hook, none, before, own ++ more⟩
    have hdecided : result = watch.verdict (.ok value) ∧ Waits who last now := by
      unfold Watch.verdict Watch.failure?
      generalize (SignedLog.errors (own ++ more)).head? = head at h ⊢
      cases head with
      | none => exact ran_pure h
      | some first => exact ran_pure h
    refine ⟨watch, .ok value,
      ⟨rfl, rfl, rfl, hbefore, ⟨_, hran', more, hmore, ?_⟩, last, hlast, ?_⟩, hdecided.1⟩
    · exact (List.append_assoc ..).symm
    · rw [show watch.recorded = [] from rfl, List.map_nil, List.append_nil]
      exact hdecided.2

theorem Watch.Tells.of_pure {watch : Watch}
    (h : Tells who name named (pure returned : Task W (Outcome α)) watch start outcome now) :
    outcome = returned ∧ watch.window.Without who := by
  obtain ⟨ended, hran, hlooked⟩ := h.ran
  obtain ⟨rfl, hended⟩ := ran_pure hran
  obtain ⟨added, hadded, heq⟩ := hended.trans hlooked
  have hwindow : watch.window = added := List.append_cancel_left heq
  exact ⟨rfl, hwindow ▸ hadded⟩

-- ---------------------------------------------------------------------------
-- Passing through the plugins
-- ---------------------------------------------------------------------------

/-- A way through the plugins: the hook that is watched, and what goes from one to the next. -/
structure Route (W σ β : Type) where
  hook : Hook
  task : Plugin W → σ → Task W (Outcome β)
  next : σ → β → σ

namespace Route

def run (route : Route W σ β) (state : σ) : Container W → Task W (Outcome σ)
  | [] => return .ok state
  | plugin :: rest => do
    match ← Container.watched plugin route.hook (route.task plugin state) with
    | .error error => return .error error
    | .ok result => route.run (route.next state result) rest

def buildStart : Route W Unit Unit where
  hook := .buildStart
  task plugin _ := plugin.buildStart
  next _ _ := ()

def transform (id : String) : Route W Transformed (Option Transformed) where
  hook := .transform
  task plugin current := plugin.transform current.code id
  next
    | current, none => current
    | current, some result => ⟨result.code, result.sourceMap <|> current.sourceMap⟩

theorem run_buildStart (container : Container W) : container.buildStart = buildStart.run () container := by
  induction container with
  | nil => rfl
  | cons plugin rest ih =>
    simp only [Container.buildStart, run, ih]
    congr 1
    funext outcome
    cases outcome <;> rfl

theorem run_transform (container : Container W) (current : Transformed) (id : String) :
    Container.transformFrom current id container = (transform id).run current container := by
  induction container generalizing current with
  | nil => rfl
  | cons plugin rest ih =>
    simp only [Container.transformFrom, run, ih]
    congr 1
    funext outcome
    rcases outcome with error | _ | result <;> rfl

end Route

/-- The call `who` went through the plugins, up to the first whose watch fails. -/
inductive Went (who : Nat) (route : Route W σ β) :
    Container W → σ → SignedLog → List Watch → Outcome σ → SignedLog → Prop
  | ended (h : Waits who start now) : Went who route [] state start [] (.ok state) now
  | failed (tells : Tells who plugin.name route.hook (route.task plugin state) watch start outcome mid)
      (fails : watch.failure? = some error) (after : Waits who mid now) :
      Went who route (plugin :: rest) state start [watch] (.error error) now
  | passed (tells : Tells who plugin.name route.hook (route.task plugin state) watch start (.ok result) mid)
      (passes : watch.failure? = none)
      (went : Went who route rest (route.next state result) mid watches outcome now) :
      Went who route (plugin :: rest) state start (watch :: watches) outcome now

theorem Went.waits (h : Went who route container state start watches outcome mid) (h' : Waits who mid now) :
    Went who route container state start watches outcome now := by
  induction h with
  | ended h => exact .ended (h.trans h')
  | failed tells fails after => exact .failed tells fails (after.trans h')
  | passed tells passes _ ih => exact .passed tells passes (ih h')

theorem Watch.failure_of_error {watch : Watch} (h : watch.error? = some error) :
    watch.failure? = some error := by
  rw [Watch.failure?, h]
  rfl

theorem run_went {route : Route W σ β} {container : Container W}
    (h : (route.run state container).Ran who start outcome now) :
    ∃ watches, Went who route container state start watches outcome now := by
  induction container generalizing state start with
  | nil =>
    obtain ⟨rfl, hnow⟩ := ran_pure h
    exact ⟨[], .ended hnow⟩
  | cons plugin rest ih =>
    obtain ⟨result, mid, hwatched, h⟩ := ran_bind h
    obtain ⟨watch, returned, htells, rfl⟩ := watched_ran hwatched
    cases hfailure : watch.failure? with
    | some error =>
      simp only [Watch.verdict, hfailure] at h
      obtain ⟨rfl, hnow⟩ := ran_pure h
      exact ⟨[watch], .failed htells hfailure hnow⟩
    | none =>
      cases returned with
      | error error =>
        have herror : watch.error? = some error := by
          rw [htells.error?]
          rfl
        rw [Watch.failure_of_error herror] at hfailure
        cases hfailure
      | ok value =>
        simp only [Watch.verdict, hfailure] at h
        obtain ⟨watches, hwent⟩ := ih h
        exact ⟨watch :: watches, .passed htells hfailure hwent⟩

-- ---------------------------------------------------------------------------
-- Failures and the log
-- ---------------------------------------------------------------------------

theorem errors_ne_nil_of_grows {log now : SignedLog} (h : log <+: now) (herrors : log.errors ≠ []) :
    now.errors ≠ [] := by
  intro hnil
  have hgrows := SignedLog.errors_grows h
  rw [hnil, List.prefix_nil] at hgrows
  exact herrors hgrows

theorem Watch.Tells.errors (h : Tells who name named task watch start outcome now)
    (hfails : watch.failure? = some error) : now.errors ≠ [] := by
  obtain ⟨later, hlater, hnow⟩ := h.told
  by_cases hwindow : watch.window.errors = []
  · obtain ⟨own, hown⟩ : ∃ own, watch.error? = some own := by
      cases herror : watch.error? with
      | some own => exact ⟨own, rfl⟩
      | none => simp [failure?, herror, hwindow] at hfails
    have hrecorded : watch.recorded = [own.entry] := by simp [recorded, hown, hwindow]
    refine errors_ne_nil_of_grows hnow.grows ?_
    rw [hrecorded, SignedLog.errors_append]
    exact List.append_ne_nil_of_right_ne_nil _ (List.cons_ne_nil _ _)
  · refine errors_ne_nil_of_grows (hlater.grows.trans ((List.prefix_append _ _).trans hnow.grows)) ?_
    rw [seen, SignedLog.errors_append]
    exact List.append_ne_nil_of_right_ne_nil _ hwindow

theorem Went.errors (h : Went who route container state start watches outcome now)
    (herror : outcome = .error error) : now.errors ≠ [] := by
  induction h with
  | ended => cases herror
  | failed tells fails after => exact errors_ne_nil_of_grows after.grows (tells.errors fails)
  | passed _ _ _ ih => exact ih herror

theorem buildEnd_fails {container : Container W} (h : container.buildEnd.Ran who start outcome now)
    (herrors : start.errors ≠ []) : ∃ error, outcome = .error error := by
  obtain ⟨result, mid, hplugins, h⟩ := ran_bind h
  cases result with
  | error error =>
    obtain ⟨rfl, -⟩ := ran_pure h
    exact ⟨error, rfl⟩
  | ok =>
    obtain ⟨seen, last, hseen, h⟩ := ran_bind h
    obtain ⟨looked, hlooked, rfl, hlast⟩ := ran_errors hseen
    have hne : looked.errors ≠ [] :=
      errors_ne_nil_of_grows (hplugins.grows.trans hlooked.grows) herrors
    obtain ⟨first, rest, hfirst⟩ := List.exists_cons_of_ne_nil hne
    rw [SignedLog.entries_errors, hfirst] at h
    obtain ⟨_, _, -, h⟩ := ran_bind h
    obtain ⟨rfl, -⟩ := ran_pure h
    exact ⟨_, rfl⟩

theorem prompt_endPlugins {container : Container W} (h : ∀ plugin ∈ container, plugin.buildEnd.Prompt) :
    container.endPlugins.Prompt := by
  induction container with
  | nil => exact .done
  | cons plugin rest ih =>
    refine Task.prompt_bind (h plugin List.mem_cons_self) ?_
    rintro (error | _)
    · exact .done
    · exact ih fun plugin hmem => h plugin (List.mem_cons_of_mem _ hmem)

theorem prompt_buildEnd {container : Container W} (h : ∀ plugin ∈ container, plugin.buildEnd.Prompt) :
    container.buildEnd.Prompt := by
  refine Task.prompt_bind (prompt_endPlugins h) ?_
  rintro (error | _)
  · exact .done
  · refine Task.prompt_bind Task.prompt_errors fun errors => ?_
    cases errors.head? with
    | none => exact .done
    | some first => exact Task.prompt_bind Task.prompt_errors fun _ => .done

-- ---------------------------------------------------------------------------
-- Calls of a container
-- ---------------------------------------------------------------------------

inductive Call
  | buildStart
  | resolveId (specifier : String) (importer : Option String)
  | transform (code id : String)
  | buildEnd
  deriving DecidableEq, Repr

inductive Reply
  | nothing
  | resolved (answer : Option ResolvedId)
  | transformed (result : Transformed)
  deriving Repr

def Call.task (container : Container W) : Call → Task W (Outcome Reply)
  | .buildStart => do return (← container.buildStart).map fun _ => .nothing
  | .resolveId specifier importer => do
    return (← container.resolveId specifier importer).map .resolved
  | .transform code id => do return (← container.transform code id).map .transformed
  | .buildEnd => do return (← container.buildEnd).map fun _ => .nothing

theorem buildStartCall_went {container : Container W}
    (h : (Call.buildStart.task container).Ran who start reply now) :
    ∃ watches outcome, Went who Route.buildStart container () start watches outcome now ∧
      reply = outcome.map fun _ => .nothing := by
  obtain ⟨outcome, mid, hrun, h⟩ := ran_bind h
  obtain ⟨hreply, hnow⟩ := ran_pure h
  rw [Route.run_buildStart] at hrun
  obtain ⟨watches, hwent⟩ := run_went hrun
  exact ⟨watches, outcome, hwent.waits hnow, hreply⟩

theorem transformCall_went {container : Container W} {code id : String}
    (h : ((Call.transform code id).task container).Ran who start reply now) :
    ∃ watches outcome, Went who (Route.transform id) container { code } start watches outcome now ∧
      reply = outcome.map .transformed := by
  obtain ⟨outcome, mid, hrun, h⟩ := ran_bind h
  obtain ⟨hreply, hnow⟩ := ran_pure h
  rw [Container.transform, Route.run_transform] at hrun
  obtain ⟨watches, hwent⟩ := run_went hrun
  exact ⟨watches, outcome, hwent.waits hnow, hreply⟩

end TsBuild.Bundle
