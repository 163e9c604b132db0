import TsBuild.Proofs.Bundle.Watch

/-!
# Transforms and each other's errors

A transform judges its hooks by the log that all calls share, so it may fail for the error of another.
Which of its hooks fail depends on their windows alone: a transform keeps to its own errors exactly if
no hook that returned a result has the error of another call first in its window
(`isolated_iff`). Two transforms of which one reports an error can be so interleaved that both fail
(`transform_notIsolated`).
-/

namespace TsBuild.Bundle

open Watch (Tells)

def Watch.IsAtFault (watch : Watch) (who : Nat) : Prop :=
  watch.error?.isSome ∨ ∃ signed ∈ watch.window.errors, signed.1 = who

/-- The first error in the window, if there is one, is by the call itself. -/
def Watch.IsOwn (watch : Watch) (who : Nat) : Prop :=
  ∀ first, watch.window.errors.head? = some first → first.1 = who

/-- A call fails only if a hook of its own is at fault, and a recorded error that it fails with is its
own. -/
structure Isolated (who : Nat) (watches : List Watch) (outcome : Outcome α) : Prop where
  blamed : outcome = .error error → ∃ watch ∈ watches, watch.IsAtFault who
  named : watch ∈ watches → watch.error? = none → watch.failure? = some error → watch.IsOwn who

theorem Watch.failure_of_returned {watch : Watch} (h : watch.error? = none) :
    watch.failure? =
      watch.window.errors.head?.map fun first => ⟨watch.plugin, watch.hook, first.2.text⟩ := by
  rw [failure?, h]
  rfl

theorem Went.outcome_error (h : Went who route container state start watches outcome now) :
    outcome = .error error ↔ ∃ watch ∈ watches, watch.failure? = some error := by
  induction h with
  | ended => simp
  | failed tells fails after => simp [fails]
  | passed tells passes went ih => simp [passes, ih]

theorem Went.isolated_iff (h : Went who route container state start watches outcome now) :
    Isolated who watches outcome ↔ ∀ watch ∈ watches, watch.error? = none → watch.IsOwn who := by
  constructor
  · intro hisolated watch hmem hreturned first hfirst
    have hfails : watch.failure? = some ⟨watch.plugin, watch.hook, first.2.text⟩ := by
      rw [Watch.failure_of_returned hreturned, hfirst]
      rfl
    exact hisolated.named hmem hreturned hfails first hfirst
  · intro hown
    refine ⟨fun herror => ?_, fun hmem hreturned _ => hown _ hmem hreturned⟩
    obtain ⟨watch, hmem, hfails⟩ := h.outcome_error.mp herror
    refine ⟨watch, hmem, ?_⟩
    cases hreturned : watch.error? with
    | some _ => exact .inl (by rw [hreturned]; rfl)
    | none =>
      rw [Watch.failure_of_returned hreturned, Option.map_eq_some_iff] at hfails
      obtain ⟨first, hfirst, -⟩ := hfails
      exact .inr ⟨first, List.mem_of_mem_head? hfirst, hown watch hmem hreturned first hfirst⟩

/-- A call none of whose hooks is at fault fails exactly if another's error lands in a window. -/
theorem Went.fails_iff_of_blameless (h : Went who route container state start watches outcome now)
    (hblameless : ∀ watch ∈ watches, ¬watch.IsAtFault who) :
    (∃ error, outcome = .error error) ↔
      ∃ watch ∈ watches, ∃ signed ∈ watch.window.errors, signed.1 ≠ who := by
  constructor
  · rintro ⟨error, herror⟩
    obtain ⟨watch, hmem, hfails⟩ := h.outcome_error.mp herror
    have hreturned : watch.error? = none :=
      Option.not_isSome_iff_eq_none.mp fun hsome => hblameless watch hmem (.inl hsome)
    rw [Watch.failure_of_returned hreturned, Option.map_eq_some_iff] at hfails
    obtain ⟨first, hfirst, -⟩ := hfails
    have hfirst := List.mem_of_mem_head? hfirst
    exact ⟨watch, hmem, first, hfirst, fun hown => hblameless watch hmem (.inr ⟨first, hfirst, hown⟩)⟩
  · rintro ⟨watch, hmem, signed, hsigned, -⟩
    obtain ⟨first, rest, hcons⟩ := List.exists_cons_of_ne_nil (List.ne_nil_of_mem hsigned)
    have hreturned : watch.error? = none :=
      Option.not_isSome_iff_eq_none.mp fun hsome => hblameless watch hmem (.inl hsome)
    refine ⟨⟨watch.plugin, watch.hook, first.2.text⟩, h.outcome_error.mpr ⟨watch, hmem, ?_⟩⟩
    rw [Watch.failure_of_returned hreturned, hcons]
    rfl

/-- Whatever the interleaving, a transform keeps to its own errors exactly if no hook of its that
returned a result has another call's error first in its window; and one whose hooks are not at fault
fails exactly if such an error is in a window. -/
theorem transform_isolated_iff {container : Container W} {world : W}
    {pool : Pool W Call (Outcome Reply)} {code id : String}
    (hrun : Pool.run? (Call.task container) { world } events = some pool)
    (hfinished : pool.Finished who (.transform code id) reply) :
    ∃ start watches outcome, reply = outcome.map .transformed ∧
      Went who (Route.transform id) container { code } start watches outcome pool.log ∧
      (Isolated who watches outcome ↔ ∀ watch ∈ watches, watch.error? = none → watch.IsOwn who) ∧
      ((∀ watch ∈ watches, ¬watch.IsAtFault who) →
        ((∃ error, outcome = .error error) ↔
          ∃ watch ∈ watches, ∃ signed ∈ watch.window.errors, signed.1 ≠ who)) := by
  obtain ⟨start, -, hran⟩ := (Pool.run_later hrun).ran (Nat.zero_le _) hfinished
  obtain ⟨watches, outcome, hwent, hreply⟩ := transformCall_went hran
  exact ⟨start, watches, outcome, hreply, hwent, hwent.isolated_iff, hwent.fails_iff_of_blameless⟩

-- ---------------------------------------------------------------------------
-- Two transforms that fail together
-- ---------------------------------------------------------------------------

def reporting : Plugin Unit where
  name := "reporting"
  transform code id := do
    if code = "bad" then Task.reportAll [{ level := .error, message := id ++ " is bad", loc := none }]
    return .ok none

/-- Bad and good code at once: an error is reported while the good call is at its hook. -/
def reporting.crossing : List (Event Unit Call) :=
  [.call (.transform "bad" "a.ts"), .call (.transform "good" "b.ts"),
    .advance 0, .advance 1, .advance 0, .advance 1]

theorem Watch.Tells.blameless
    (h : Tells who name named (pure (.ok a) : Task W (Outcome α)) watch start outcome now) :
    ¬watch.IsAtFault who := by
  obtain ⟨rfl, hwindow⟩ := h.of_pure
  rintro (herror | ⟨signed, hmem, hown⟩)
  · rw [h.error?] at herror
    cases herror
  · exact hwindow signed (List.mem_filter.mp hmem).1 hown

theorem reporting_crossing :
    ∃ pool, Pool.run? (Call.task [reporting]) { world := () } reporting.crossing = some pool ∧
      pool.Finished 1 (.transform "good" "b.ts") (.error ⟨"reporting", .transform, "a.ts is bad"⟩) :=
  ⟨_, rfl, rfl⟩

theorem transform_isolated_iff_crossing :
    ∃ pool : Pool Unit Call (Outcome Reply), ∃ start watches, ∃ outcome : Outcome Transformed,
      pool.Finished 1 (.transform "good" "b.ts") (outcome.map .transformed) ∧
      Went 1 (Route.transform "b.ts") [reporting] { code := "good" } start watches outcome pool.log ∧
      (Isolated 1 watches outcome ↔ ∀ watch ∈ watches, watch.error? = none → watch.IsOwn 1) := by
  obtain ⟨pool, hrun, hfinished⟩ := reporting_crossing
  obtain ⟨start, watches, outcome, hreply, hwent, hiff, -⟩ := transform_isolated_iff hrun hfinished
  exact ⟨pool, start, watches, outcome, hreply ▸ hfinished, hwent, hiff⟩

/-- The hook that is given good code is not at fault, but its call fails. -/
theorem transform_notIsolated :
    ¬∀ (events : List (Event Unit Call)) pool who code id reply,
      Pool.run? (Call.task [reporting]) { world := () } events = some pool →
      pool.Finished who (.transform code id) reply →
      ∃ start watches outcome, reply = outcome.map .transformed ∧
        Went who (Route.transform id) [reporting] { code } start watches outcome pool.log ∧
        Isolated who watches outcome := by
  intro hall
  obtain ⟨pool, hrun, hfinished⟩ := reporting_crossing
  obtain ⟨start, watches, outcome, hreply, hwent, hisolated⟩ := hall _ _ _ _ _ _ hrun hfinished
  cases hwent with
  | failed tells fails after =>
    obtain ⟨watch, hmem, hfault⟩ := hisolated.blamed rfl
    rw [List.mem_singleton] at hmem
    subst hmem
    exact Tells.blameless tells hfault
  | passed tells passes went =>
    cases went with
    | ended => cases hreply

end TsBuild.Bundle
