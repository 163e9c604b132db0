import TsBuild.Proofs.Bundle.Alone
import TsBuild.Proofs.Bundle.Failure

/-!
# Calls one after another

When no two calls of a container run at once, the errors that are found after a hook and not before it are its
own. So a build start or a transform that fails leaves more errors than it found (`errors_lt_of_run_watched`).
An import is resolved without such a watch: a hook that fails in silence leaves nothing in the log, and the
build goes on to a good end (`failedDispatch_reported`, `failedResolution_lost`).
-/

namespace TsBuild.Bundle

open TsBuild.Bundle.Task

namespace Task

variable {task : Task W α} {build later : Build W}

theorem run_bind_eq_some {f : α → Task W β} :
    (task >>= f).run build = some (later, b) ↔
      ∃ mid a, task.run build = some (mid, a) ∧ (f a).run mid = some (later, b) := by
  simp [run_bind, Option.bind_eq_some_iff]

theorem run_pure : (pure a : Task W α).run build = some (later, b) ↔ later = build ∧ b = a := by
  simp [pure, run, eq_comm]

theorem prefix_log (h : task.run build = some (later, a)) : build.log <+: later.log := by
  induction task generalizing build with
  | done a =>
    cases h
    exact List.prefix_rfl
  | report entry next ih => exact (List.prefix_append _ _).trans (ih h)
  | observe next ih => exact ih _ h
  | act ready effect next ih =>
    simp only [run] at h
    split at h
    · have hlater := ih _ h
      exact hlater
    · cases h

theorem errors_length_le (h : task.run build = some (later, a)) :
    build.log.errors.length ≤ later.log.errors.length :=
  ((prefix_log h).filter _).length_le

end Task

-- ---------------------------------------------------------------------------
-- Hooks that are watched
-- ---------------------------------------------------------------------------

section
variable {build later : Build W} {container : Container W}

theorem run_reportFailure {outcome : Outcome α}
    (h : (Container.reportFailure error count : Task W (Outcome α)).run build = some (later, outcome)) :
    later.log = build.log ++ if build.log.errors.length = count then [error.entry] else [] := by
  simp only [Container.reportFailure, run_bind_eq_some, run_errors, Option.some.injEq, Prod.mk.injEq] at h
  obtain ⟨_, _, ⟨rfl, rfl⟩, h⟩ := h
  split at h
  · simp only [run_bind_eq_some, run_reportAll, run_pure, Option.some.injEq, Prod.mk.injEq] at h
    obtain ⟨_, _, ⟨rfl, -⟩, rfl, -⟩ := h
    simp [*, PluginError.entry]
  · obtain ⟨rfl, -⟩ := run_pure.mp h
    simp [*]

theorem errors_lt_of_run_watched {task : Task W (Outcome α)}
    (h : (Container.watched plugin hook task).run build = some (later, .error error)) :
    build.log.errors.length < later.log.errors.length := by
  simp only [Container.watched, run_bind_eq_some, run_errors, Option.some.injEq, Prod.mk.injEq] at h
  obtain ⟨_, _, ⟨rfl, rfl⟩, mid, outcome, hrun, h⟩ := h
  have hle := errors_length_le hrun
  cases outcome with
  | error =>
    rw [run_reportFailure h, Container.errors_append, List.length_append]
    split
    · rw [show Log.errors [_] = [_] from rfl, List.length_singleton]
      omega
    · rw [show Log.errors [] = [] from rfl, List.length_nil]
      omega
  | ok result =>
    simp only [run_bind_eq_some, run_errors, Option.some.injEq, Prod.mk.injEq] at h
    obtain ⟨_, _, ⟨rfl, rfl⟩, h⟩ := h
    -- The hook fails only for an error that stands behind those counted before it.
    cases hfirst : mid.log.errors[build.log.errors.length]? with
    | none => simp [Container.newFailure?, hfirst, run_pure] at h
    | some first =>
      simp only [Container.newFailure?, hfirst, Option.map_some, run_pure] at h
      obtain ⟨rfl, -⟩ := h
      exact (List.getElem?_eq_some_iff.mp hfirst).1

theorem Route.errors_lt_of_run {route : Route W σ β}
    (h : (route.run state container).run build = some (later, .error error)) :
    build.log.errors.length < later.log.errors.length := by
  induction container generalizing state build with
  | nil => simp [Route.run, run_pure] at h
  | cons plugin rest ih =>
    simp only [Route.run, run_bind_eq_some] at h
    obtain ⟨mid, outcome, hwatched, h⟩ := h
    cases outcome with
    | error =>
      obtain ⟨rfl, -⟩ := run_pure.mp h
      exact errors_lt_of_run_watched hwatched
    | ok => exact Nat.lt_of_le_of_lt (errors_length_le hwatched) (ih h)

theorem errors_lt_of_watchedCall {call : Call} (hcall : call.IsWatched)
    (h : (call.task container).run build = some (later, .error error)) :
    build.log.errors.length < later.log.errors.length := by
  cases call with
  | resolveId | buildEnd => cases hcall
  | buildStart =>
    simp only [Call.task, Route.run_buildStart, run_bind_eq_some, run_pure] at h
    obtain ⟨mid, outcome, hrun, rfl, hreply⟩ := h
    cases outcome with
    | error => exact Route.errors_lt_of_run hrun
    | ok => cases hreply
  | transform code id =>
    simp only [Call.task, Container.transform, Route.run_transform, run_bind_eq_some, run_pure] at h
    obtain ⟨mid, outcome, hrun, rfl, hreply⟩ := h
    cases outcome with
    | error => exact Route.errors_lt_of_run hrun
    | ok => cases hreply

end

-- ---------------------------------------------------------------------------
-- Hooks that are asked
-- ---------------------------------------------------------------------------

structure Answer where
  reported : Log
  outcome : Outcome (Option ResolvedId)

/-- The hooks of the plugins are asked in order, up to the first that answers or fails. -/
inductive Asked (specifier : String) (importer : Option String) :
    Container W → Build W → List Answer → Build W → Prop
  | nobody : Asked specifier importer [] build [] build
  | passed (h : (plugin.resolveId specifier importer).run build =
        some (⟨build.log ++ reported, world⟩, .ok none))
      (rest : Asked specifier importer container ⟨build.log ++ reported, world⟩ answers later) :
      Asked specifier importer (plugin :: container) build (⟨reported, .ok none⟩ :: answers) later
  | last (h : (plugin.resolveId specifier importer).run build =
        some (⟨build.log ++ reported, world⟩, outcome)) (ends : outcome ≠ .ok none) :
      Asked specifier importer (plugin :: container) build [⟨reported, outcome⟩] ⟨build.log ++ reported, world⟩

section
variable {build later : Build W} {container : Container W}

/-- What resolving comes to is the answer of the hook that was asked last. -/
def finalAnswer (answers : List Answer) : Outcome (Option ResolvedId) :=
  (answers.getLast?.map Answer.outcome).getD (.ok none)

theorem finalAnswer_cons (reported : Log) (answers : List Answer) :
    finalAnswer (⟨reported, .ok none⟩ :: answers) = finalAnswer answers := by
  cases answers with
  | nil => rfl
  | cons answer rest => simp [finalAnswer, List.getLast?_cons_cons]

theorem asked_of_run (h : (container.resolveId specifier importer).run build = some (later, outcome)) :
    ∃ answers, Asked specifier importer container build answers later ∧ finalAnswer answers = outcome := by
  induction container generalizing build with
  | nil =>
    obtain ⟨rfl, rfl⟩ := run_pure.mp h
    exact ⟨[], .nobody, rfl⟩
  | cons plugin rest ih =>
    simp only [Container.resolveId, run_bind_eq_some] at h
    obtain ⟨⟨log, world⟩, answer, hhook, h⟩ := h
    obtain ⟨reported, rfl⟩ := prefix_log hhook
    rcases answer with error | _ | found
    · obtain ⟨rfl, rfl⟩ := run_pure.mp h
      exact ⟨_, .last hhook nofun, rfl⟩
    · obtain ⟨answers, hasked, rfl⟩ := ih h
      exact ⟨_, .passed hhook hasked, finalAnswer_cons reported answers⟩
    · obtain ⟨rfl, rfl⟩ := run_pure.mp h
      exact ⟨_, .last hhook nofun, rfl⟩

theorem Asked.log_eq (h : Asked specifier importer container build answers later) :
    later.log = build.log ++ answers.flatMap Answer.reported := by
  induction h with
  | nobody => simp
  | passed _ _ ih => simp [ih]
  | last => simp

theorem Asked.errors_lt_iff (h : Asked specifier importer container build answers later) :
    build.log.errors.length < later.log.errors.length ↔
      ∃ answer ∈ answers, answer.reported.errors ≠ [] := by
  rw [h.log_eq, Container.errors_append, List.length_append, Nat.lt_add_right_iff_pos, List.length_pos_iff,
    Log.errors, List.filter_flatMap, Ne, List.flatMap_eq_nil_iff]
  simp only [Classical.not_forall, exists_prop]
  rfl

-- ---------------------------------------------------------------------------
-- The end of a build
-- ---------------------------------------------------------------------------

theorem run_buildEnd_eq (h : container.endPlugins.run build = some (later, .ok ())) :
    container.buildEnd.run build = some (later, match later.log.errors.head? with
      | some first => .error (Container.buildFailure first later.log.errors.length)
      | none => .ok ()) := by
  rw [Container.buildEnd, run_bind_of_run h]
  simp only
  rw [run_bind_of_run (run_errors _)]
  cases later.log.errors.head? <;> rfl

theorem run_buildEnd_of_error (h : container.endPlugins.run build = some (later, .error error)) :
    container.buildEnd.run build = some (later, .error error) := by
  rw [Container.buildEnd, run_bind_of_run h]
  rfl

theorem isSome_run_buildEnd (h : ∀ plugin ∈ container, ∀ build, (plugin.buildEnd.run build).isSome)
    (build : Build W) : (container.buildEnd.run build).isSome := by
  obtain ⟨later, outcome, hplugins⟩ :
      ∃ later outcome, container.endPlugins.run build = some (later, outcome) := by
    induction container generalizing build with
    | nil => exact ⟨build, .ok (), rfl⟩
    | cons plugin rest ih =>
      obtain ⟨⟨mid, outcome⟩, hhook⟩ := Option.isSome_iff_exists.mp (h plugin List.mem_cons_self build)
      rw [Container.endPlugins, run_bind_of_run hhook]
      cases outcome with
      | error error => exact ⟨mid, .error error, rfl⟩
      | ok => exact ih (fun plugin hmem => h plugin (List.mem_cons_of_mem _ hmem)) mid
  cases outcome with
  | error => simp [run_buildEnd_of_error hplugins]
  | ok => simp [run_buildEnd_eq hplugins]

/-- A build that has errors in its log does not end well. -/
theorem error_of_run_buildEnd (h : container.buildEnd.run build = some (later, outcome))
    (herrors : build.log.errors ≠ []) : ∃ failure, outcome = .error failure := by
  obtain ⟨mid, result, hplugins, -⟩ := run_bind_eq_some.mp h
  cases result with
  | error error =>
    rw [run_buildEnd_of_error hplugins] at h
    cases h
    exact ⟨error, rfl⟩
  | ok =>
    have hle := errors_length_le hplugins
    have hpos := List.length_pos_iff.mpr herrors
    obtain ⟨first, rest, hfirst⟩ := List.exists_cons_of_length_pos (Nat.lt_of_lt_of_le hpos hle)
    rw [run_buildEnd_eq hplugins, hfirst] at h
    cases h
    exact ⟨_, rfl⟩

end

-- ---------------------------------------------------------------------------
-- Sequences of calls
-- ---------------------------------------------------------------------------

structure CallRun (W : Type) where
  call : Call
  before : Build W
  reply : Outcome Reply
  after : Build W

inductive InTurn (container : Container W) : Build W → List (CallRun W) → Build W → Prop
  | nil : InTurn container build [] build
  | cons (h : (call.task container).run before = some (after, reply))
      (rest : InTurn container after runs last) :
      InTurn container before (⟨call, before, reply, after⟩ :: runs) last

section
variable {build later : Build W} {container : Container W} {runs : List (CallRun W)} {run : CallRun W}

namespace InTurn

theorem prefix_log (h : InTurn container build runs later) : build.log <+: later.log := by
  induction h with
  | nil => exact List.prefix_rfl
  | cons h _ ih => exact (Task.prefix_log h).trans ih

theorem ran (h : InTurn container build runs later) (hmem : run ∈ runs) :
    (run.call.task container).run run.before = some (run.after, run.reply) ∧ run.after.log <+: later.log := by
  induction h with
  | nil => cases hmem
  | cons hrun rest ih =>
    rcases List.mem_cons.mp hmem with rfl | hmem
    · exact ⟨hrun, rest.prefix_log⟩
    · exact ih hmem

end InTurn

/-- A call in a sequence that fails. A build start or a transform leaves more errors than it found. An attempt
to resolve an import fails as the last hook that was asked, and leaves what the hooks reported; that may be no
error. Where a failed call has left more errors, the build fails whenever it comes to its end, and it comes to
its end if the last hooks of the plugins do. -/
theorem failedDispatch_reported
    (h : InTurn container build runs later) (hmem : run ∈ runs) (hfailed : run.reply = .error error) :
    (run.call.IsWatched → run.before.log.errors.length < run.after.log.errors.length) ∧
    (∀ specifier importer, run.call = .resolveId specifier importer →
      ∃ answers, Asked specifier importer container run.before answers run.after ∧
        finalAnswer answers = .error error ∧
        run.after.log = run.before.log ++ answers.flatMap Answer.reported ∧
        (run.before.log.errors.length < run.after.log.errors.length ↔
          ∃ answer ∈ answers, answer.reported.errors ≠ [])) ∧
    (run.before.log.errors.length < run.after.log.errors.length →
      ∀ ended outcome, container.buildEnd.run later = some (ended, outcome) →
        ∃ failure, outcome = .error failure) ∧
    ((∀ plugin ∈ container, ∀ build, (plugin.buildEnd.run build).isSome) →
      (container.buildEnd.run later).isSome) := by
  obtain ⟨hrun, hkept⟩ := h.ran hmem
  refine ⟨fun hcall => ?_, fun specifier importer hcall => ?_, fun hlt ended outcome hend => ?_,
    fun hends => isSome_run_buildEnd hends later⟩
  · rw [hfailed] at hrun
    exact errors_lt_of_watchedCall hcall hrun
  · rw [hcall, Call.task, run_bind_eq_some] at hrun
    obtain ⟨mid, outcome, hresolve, hreply⟩ := hrun
    obtain ⟨hafter, hreply⟩ := run_pure.mp hreply
    obtain ⟨answers, hasked, hfinal⟩ := asked_of_run hresolve
    have houtcome : outcome = .error error := by
      rw [hfailed] at hreply
      cases outcome <;> cases hreply
      rfl
    rw [← hafter] at hasked
    exact ⟨answers, hasked, hfinal.trans houtcome, hasked.log_eq, hasked.errors_lt_iff⟩
  · refine error_of_run_buildEnd hend fun hnil => ?_
    have hle := (hkept.filter fun entry => entry.level = .error).length_le
    change run.after.log.errors.length ≤ later.log.errors.length at hle
    rw [hnil, List.length_nil] at hle
    omega

end

def unresolving : Plugin Unit where
  name := "unresolving"
  resolveId specifier _ := return .error ⟨"unresolving", .resolveId, specifier ++ " leads nowhere"⟩

def complaining : Plugin Unit where
  name := "complaining"
  resolveId specifier _ := do
    Task.reportAll [{ level := .error, message := specifier ++ " is imported", loc := none }]
    return .ok none

/-- One hook reports the import, the next one fails. -/
theorem failedDispatch_reported_complaining :
    ∃ run : CallRun Unit, ∃ later error,
      InTurn [complaining, unresolving] { world := () } [run] later ∧
      run.call = .resolveId "x" none ∧ run.reply = .error error ∧
      (∃ answers, Asked "x" none [complaining, unresolving] run.before answers run.after ∧
        ∃ answer ∈ answers, answer.reported.errors ≠ []) ∧
      ∃ ended failure,
        (Container.buildEnd [complaining, unresolving]).run later = some (ended, .error failure) := by
  obtain ⟨run, later, error, h, hcall, hreply, hlt⟩ : ∃ run : CallRun Unit, ∃ later error,
      InTurn [complaining, unresolving] { world := () } [run] later ∧ run.call = .resolveId "x" none ∧
      run.reply = .error error ∧ run.before.log.errors.length < run.after.log.errors.length :=
    ⟨⟨.resolveId "x" none, { world := () }, _, _⟩, _, _, .cons rfl .nil, rfl, rfl, by decide⟩
  obtain ⟨-, hasked, hfails, hends⟩ := failedDispatch_reported h List.mem_cons_self hreply
  obtain ⟨answers, hanswers, -, -, hiff⟩ := hasked "x" none hcall
  refine ⟨run, later, error, h, hcall, hreply, ⟨answers, hanswers, hiff.mp hlt⟩, ?_⟩
  obtain ⟨⟨ended, outcome⟩, hend⟩ := Option.isSome_iff_exists.mp
    (hends (by simp [complaining, unresolving, pure, Task.run]))
  obtain ⟨failure, rfl⟩ := hfails hlt ended outcome hend
  exact ⟨ended, failure, hend⟩

/-- A resolution that fails in silence leaves the log as it was, and the build ends well. -/
theorem failedResolution_lost :
    ¬(∀ (container : Container Unit) build runs later, InTurn container build runs later →
        ∀ run ∈ runs, run.call ≠ .buildEnd → ∀ error, run.reply = .error error →
          run.before.log.errors.length < run.after.log.errors.length) ∧
      ¬(∀ (container : Container Unit) build runs later, InTurn container build runs later →
        ∀ run ∈ runs, run.call ≠ .buildEnd → ∀ error, run.reply = .error error →
          ∀ ended outcome, container.buildEnd.run later = some (ended, outcome) →
            ∃ failure, outcome = .error failure) := by
  have hturn : InTurn [unresolving] { world := () }
      [⟨.resolveId "x" none, { world := () },
        .error ⟨"unresolving", .resolveId, "x leads nowhere"⟩, { world := () }⟩] { world := () } :=
    .cons rfl .nil
  constructor
  · intro hgrows
    have hlt := hgrows _ _ _ _ hturn _ List.mem_cons_self (by decide) _ rfl
    exact absurd hlt (by decide)
  · intro hfails
    obtain ⟨failure, hfailure⟩ := hfails _ _ _ _ hturn _ List.mem_cons_self (by decide) _ rfl _ (.ok ()) rfl
    cases hfailure

end TsBuild.Bundle
