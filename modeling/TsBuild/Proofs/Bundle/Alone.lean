import TsBuild.Bundle.Container

/-!
# One task by itself

`Adds inv task entries result`: run by itself in a world with `inv`, the task adds `entries` to the log,
comes to `result` and leaves a world with `inv`. What it does may not depend on the log it finds; a hook
that is watched looks at the log, but only at what was added since (`adds_watched`).
-/

namespace TsBuild.Bundle

namespace Task

variable {inv : W → Prop}

theorem run_bind (task : Task W α) (f : α → Task W β) (build : Build W) :
    (task >>= f).run build = (task.run build).bind fun (build, a) => (f a).run build := by
  induction task generalizing build with
  | done a => rfl
  | report entry next ih => exact ih _
  | observe next ih => exact ih _ _
  | act ready effect next ih =>
    change (if ready build.world then _ else _) = (if ready build.world then _ else _ : Option _).bind _
    split
    · exact ih _ _
    · rfl

theorem run_bind_of_run {task : Task W α} (h : task.run build = some (later, a)) (f : α → Task W β) :
    (task >>= f).run build = (f a).run later := by
  rw [run_bind, h, Option.bind_some]

theorem run_errors (build : Build W) : (errors : Task W Log).run build = some (build, build.log.errors) :=
  rfl

theorem run_reportAll (entries : Log) (build : Build W) :
    (reportAll entries).run build = some ({ build with log := build.log ++ entries }, ()) := by
  induction entries generalizing build with
  | nil => simp [reportAll, run]
  | cons entry rest ih =>
    rw [reportAll, run, ih]
    simp

/-- In a world with `inv` the task adds these entries and comes to this result. -/
def Adds (inv : W → Prop) (task : Task W α) (entries : Log) (result : α) : Prop :=
  ∀ log w, inv w → ∃ w', inv w' ∧ task.run ⟨log, w⟩ = some (⟨log ++ entries, w'⟩, result)

theorem adds_pure (a : α) : Adds inv (pure a) [] a := by
  intro log w hinv
  exact ⟨w, hinv, by simp [pure, run]⟩

theorem Adds.bind {task : Task W α} {f : α → Task W β} (h : Adds inv task entries a)
    (h' : Adds inv (f a) later b) : Adds inv (task >>= f) (entries ++ later) b := by
  intro log w hinv
  obtain ⟨mid, hmid, hrun⟩ := h log w hinv
  obtain ⟨w', hinv', hrun'⟩ := h' (log ++ entries) mid hmid
  refine ⟨w', hinv', ?_⟩
  rw [run_bind_of_run hrun, hrun', List.append_assoc]

theorem Adds.then {task : Task W α} {f : α → Task W β} (h : Adds inv task [] a)
    (h' : Adds inv (f a) entries b) : Adds inv (task >>= f) entries b := h.bind h'

theorem adds_reportAll (entries : Log) : Adds inv (reportAll entries) entries () :=
  fun _ w hinv => ⟨w, hinv, run_reportAll ..⟩

theorem adds_act {effect : W → W} {f : W → α} (h : ∀ w, inv w → f w = a)
    (h' : ∀ w, inv w → inv (effect w)) :
    Adds inv (.act (fun _ => true) effect fun w => .done (f w)) [] a := by
  intro log w hinv
  refine ⟨effect w, h' w hinv, ?_⟩
  rw [← h w hinv, List.append_nil]
  rfl

theorem adds_read {f : W → α} (h : ∀ w, inv w → f w = a) : Adds inv (read f) [] a :=
  adds_act h fun _ hinv => hinv

theorem adds_modify {f : W → W} (h : ∀ w, inv w → inv (f w)) : Adds inv (modify f) [] () :=
  adds_act (fun _ _ => rfl) h

end Task

open TsBuild.Bundle.Task

-- ---------------------------------------------------------------------------
-- Values computed once
-- ---------------------------------------------------------------------------

/-- No task is about to fill the cell, and no other value than `a` is in it. -/
def Cell.Holds (cell : Cell α) (a : α) : Prop := cell = .empty ∨ cell = .full a

/-- A value computed once is the same at every call. `base` is what is true while it is computed. -/
theorem Slot.adds_once {slot : Slot W α} {inv base : W → Prop} {compute : Task W α}
    (hsame : ∀ w, slot.set (slot.get w) w = w) (hholds : ∀ w, inv w → (slot.get w).Holds a)
    (hbusy : ∀ w, inv w → base (slot.set .busy w)) (hcompute : Adds base compute [] a)
    (hfull : ∀ w, base w → inv (slot.set (.full a) w)) : Adds inv (slot.once compute) [] a := by
  intro log w hinv
  rcases hholds w hinv with hempty | hfilled
  · obtain ⟨mid, hmid, hrun⟩ := hcompute log (slot.set .busy w) (hbusy w hinv)
    refine ⟨slot.set (.full a) mid, hfull mid hmid, ?_⟩
    simp only [once, run, hempty, Cell.isBusy, Cell.claimed, Bool.not_false, ↓reduceIte]
    rw [run_bind_of_run hrun, List.append_nil]
    rfl
  · refine ⟨w, hinv, ?_⟩
    have hclaimed : slot.set (slot.get w).claimed w = w := by
      have hcell : (slot.get w).claimed = slot.get w := by
        rw [hfilled]
        rfl
      rw [hcell, hsame]
    simp only [once, run, hclaimed]
    simp [hfilled, Cell.isBusy, run]

-- ---------------------------------------------------------------------------
-- Hooks
-- ---------------------------------------------------------------------------

namespace Container

def failureEntries (entries : Log) : Outcome α → Log
  | .error error =>
    if entries.errors = [] then [{ level := .error, message := error.text, loc := none }] else []
  | .ok _ => []

/-- What a hook has come to when errors among its entries count as failures. -/
def judged (plugin : Plugin W) (hook : Hook) (entries : Log) : Outcome α → Outcome α
  | .error error => .error error
  | .ok result =>
    match entries.errors.head? with
    | some first => .error ⟨plugin.name, hook, first.text⟩
    | none => .ok result

theorem errors_append (log entries : Log) : (log ++ entries).errors = log.errors ++ entries.errors :=
  List.filter_append ..

/-- A watched hook adds what it reports, and its failure if it reports no error. -/
theorem run_watched {task : Task W (Outcome α)} {build : Build W} (plugin : Plugin W) (hook : Hook)
    (h : task.run build = some (⟨build.log ++ entries, w⟩, outcome)) :
    (watched plugin hook task).run build =
      some (⟨build.log ++ entries ++ failureEntries entries outcome, w⟩, judged plugin hook entries outcome) := by
  rw [watched, run_bind_of_run (run_errors _), run_bind_of_run h]
  cases outcome with
  | error error =>
    simp only
    rw [reportFailure, run_bind_of_run (run_errors _), errors_append, List.length_append]
    by_cases hnone : entries.errors = []
    · simp only [hnone, List.length_nil, Nat.add_zero, ↓reduceIte, failureEntries, judged]
      rw [run_bind_of_run (run_reportAll _ _)]
      rfl
    · have hlength : build.log.errors.length + entries.errors.length ≠ build.log.errors.length := by
        simpa using hnone
      simp only [hlength, hnone, ↓reduceIte, failureEntries, judged, List.append_nil]
      rfl
  | ok result =>
    simp only
    rw [run_bind_of_run (run_errors _), errors_append, newFailure?,
      List.getElem?_append_right (Nat.le_refl _), Nat.sub_self, ← List.head?_eq_getElem?, failureEntries,
      List.append_nil, judged]
    cases entries.errors.head? <;> rfl

theorem adds_watched {task : Task W (Outcome α)} (plugin : Plugin W) (hook : Hook)
    (h : Adds inv task entries outcome) :
    Adds inv (watched plugin hook task) (entries ++ failureEntries entries outcome)
      (judged plugin hook entries outcome) := by
  intro log w hinv
  obtain ⟨w', hinv', hrun⟩ := h log w hinv
  exact ⟨w', hinv', List.append_assoc .. ▸ run_watched plugin hook hrun⟩

theorem adds_transform (plugin : Plugin W) {id : String}
    (h : Adds inv (plugin.transform code id) entries outcome) :
    ∃ result, Adds inv (transform [plugin] code id) (entries ++ failureEntries entries outcome) result := by
  have hwatched := adds_watched plugin .transform h
  rw [transform, transformFrom, ← List.append_nil (entries ++ _)]
  cases hjudged : judged plugin .transform entries outcome with
  | error error => exact ⟨_, (hjudged ▸ hwatched).bind (adds_pure _)⟩
  | ok result? =>
    cases result? with
    | none => exact ⟨_, (hjudged ▸ hwatched).bind (adds_pure _)⟩
    | some result => exact ⟨_, (hjudged ▸ hwatched).bind (adds_pure _)⟩

end Container

end TsBuild.Bundle
