import TsBuild.Proofs.Bundle.Watch

/-!
# Hooks that fail in silence

A hook may fail without reporting anything. The call then reports the failure, but it takes a count of
errors that is no longer what it was for a report of the hook, and the error of another call changes the
count as well. So the failure is reported exactly if no error of another call is in the window
(`silentFailure_reported`), and of two hooks that fail at once one may be lost (`silentFailure_lost`).
-/

namespace TsBuild.Bundle

open SignedLog (Waits)
open Watch (Tells)

structure Watch.FailsSilently (watch : Watch) (who : Nat) (error : PluginError) : Prop where
  returned : watch.error? = some error
  unreported : ∀ signed ∈ watch.window.errors, signed.1 ≠ who

theorem Watch.recorded_of_error {watch : Watch} (h : watch.error? = some error) :
    watch.recorded = if watch.window.errors = [] then [error.entry] else [] := by
  rw [recorded, h]

/-- After a hook that returned an error a call adds to the log what it reports of the failure, and
nothing else. -/
theorem Went.reported (h : Went who route container state start watches outcome now)
    (hmem : watch ∈ watches) (herror : watch.error? = some error) :
    ∃ after, now = watch.seen ++ after ∧ after.own who = watch.recorded := by
  induction h with
  | ended => cases hmem
  | failed tells _ after =>
    rw [List.mem_singleton] at hmem
    subst hmem
    obtain ⟨_, ⟨before, hbefore, rfl⟩, hmid⟩ := tells.told
    obtain ⟨behind, hbehind, rfl⟩ := hmid.trans after
    refine ⟨before ++ watch.recorded.map (who, ·) ++ behind, by simp only [List.append_assoc], ?_⟩
    rw [SignedLog.own_append, SignedLog.own_append, SignedLog.own_of_without hbefore,
      SignedLog.own_of_without hbehind, SignedLog.own_signed, List.nil_append, List.append_nil]
  | passed _ passes _ ih =>
    rcases List.mem_cons.mp hmem with rfl | hmem
    · rw [Watch.failure_of_error herror] at passes
      cases passes
    · exact ih hmem

/-- Whatever the interleaving, a transform reports the failure of a hook that failed in silence if the
window of the hook has no error; if it has one, which is another call's, the transform adds nothing to
the log. -/
theorem silentFailure_reported {container : Container W} {world : W}
    {pool : Pool W Call (Outcome Reply)} {code id : String}
    (hrun : Pool.run? (Call.task container) { world } events = some pool)
    (hfinished : pool.Finished who (.transform code id) reply) :
    ∃ start watches outcome, reply = outcome.map .transformed ∧
      Went who (Route.transform id) container { code } start watches outcome pool.log ∧
      ∀ watch ∈ watches, ∀ error, watch.FailsSilently who error →
        (∃ after, pool.log = watch.seen ++ after ∧
          (watch.window.errors = [] → after.own who = [error.entry]) ∧
          ((∃ signed ∈ watch.window.errors, signed.1 ≠ who) → after.own who = [])) ∧
        (watch.window.errors = [] → error.entry ∈ pool.log.entries) := by
  obtain ⟨start, -, hran⟩ := (Pool.run_later hrun).ran (Nat.zero_le _) hfinished
  obtain ⟨watches, outcome, hwent, hreply⟩ := transformCall_went hran
  refine ⟨start, watches, outcome, hreply, hwent, fun watch hmem error hsilent => ?_⟩
  obtain ⟨after, hlog, hown⟩ := hwent.reported hmem hsilent.returned
  rw [Watch.recorded_of_error hsilent.returned] at hown
  refine ⟨⟨after, hlog, fun hnone => ?_, ?_⟩, fun hnone => ?_⟩
  · rw [hown, if_pos hnone]
  · rintro ⟨signed, hsigned, -⟩
    rw [hown, if_neg (List.ne_nil_of_mem hsigned)]
  · rw [if_pos hnone] at hown
    have hentry : error.entry ∈ after.own who := hown ▸ List.mem_singleton_self _
    obtain ⟨signed, hsigned, heq⟩ := List.mem_map.mp hentry
    rw [hlog, SignedLog.entries_append, ← heq]
    exact List.mem_append_right _ (List.mem_map_of_mem (List.mem_filter.mp hsigned).1)

-- ---------------------------------------------------------------------------
-- A failure that is lost
-- ---------------------------------------------------------------------------

def refusingOther : Plugin Unit where
  name := "refusing"
  transform code id := do
    if code = "bad" then
      Task.reportAll [{ level := .error, message := id ++ " is bad", loc := none }]
      return .ok none
    return .error ⟨"refusing", .transform, id ++ " is refused"⟩

/-- Two calls at once: the first reports its error while the second is at its hook. -/
def refusingOther.crossing : List (Event Unit Call) :=
  [.call (.transform "bad" "a.ts"), .call (.transform "good" "b.ts"),
    .advance 0, .advance 1, .advance 0, .advance 1]

def refusingOther.refusal : PluginError := ⟨"refusing", .transform, "b.ts is refused"⟩

theorem refusingOther_crossing :
    ∃ pool, Pool.run? (Call.task [refusingOther]) { world := () } refusingOther.crossing = some pool ∧
      pool.Finished 1 (.transform "good" "b.ts") (.error refusingOther.refusal) ∧
      pool.log.entries = [{ level := .error, message := "a.ts is bad", loc := none }] :=
  ⟨_, rfl, rfl, rfl⟩

theorem Watch.Tells.failsSilently
    (h : Tells who name named (pure (.error error) : Task W (Outcome α)) watch start outcome now) :
    watch.FailsSilently who error := by
  obtain ⟨rfl, hwindow⟩ := h.of_pure
  exact ⟨h.error?, fun signed hmem => hwindow signed (List.mem_filter.mp hmem).1⟩

theorem Went.failsSilently {id : String}
    (h : Went who (Route.transform id) [refusingOther] { code := "good" } start watches outcome now) :
    ∃ watch ∈ watches, watch.FailsSilently who ⟨"refusing", .transform, id ++ " is refused"⟩ := by
  cases h with
  | failed tells => exact ⟨_, List.mem_singleton_self _, tells.failsSilently⟩
  | passed tells passes =>
    rw [Watch.failure_of_error (Tells.failsSilently tells).returned] at passes
    cases passes

theorem silentFailure_reported_crossing :
    ∃ pool : Pool Unit Call (Outcome Reply), ∃ start watches, ∃ outcome : Outcome Transformed,
      pool.Finished 1 (.transform "good" "b.ts") (outcome.map .transformed) ∧
      Went 1 (Route.transform "b.ts") [refusingOther] { code := "good" } start watches outcome pool.log ∧
      ∃ watch ∈ watches, watch.FailsSilently 1 refusingOther.refusal ∧
        ∃ after, pool.log = watch.seen ++ after ∧
          (watch.window.errors = [] → after.own 1 = [refusingOther.refusal.entry]) ∧
          ((∃ signed ∈ watch.window.errors, signed.1 ≠ 1) → after.own 1 = []) := by
  obtain ⟨pool, hrun, hfinished, -⟩ := refusingOther_crossing
  obtain ⟨start, watches, outcome, hreply, hwent, hall⟩ := silentFailure_reported hrun hfinished
  obtain ⟨watch, hmem, hsilent⟩ := hwent.failsSilently
  exact ⟨pool, start, watches, outcome, hreply ▸ hfinished, hwent, watch, hmem, hsilent,
    (hall watch hmem _ hsilent).1⟩

/-- The call for good code fails in silence, and no entry tells of it. -/
theorem silentFailure_lost :
    ¬∀ (events : List (Event Unit Call)) pool who code id reply,
      Pool.run? (Call.task [refusingOther]) { world := () } events = some pool →
      pool.Finished who (.transform code id) reply →
      ∃ start watches outcome, reply = outcome.map .transformed ∧
        Went who (Route.transform id) [refusingOther] { code } start watches outcome pool.log ∧
        ∀ watch ∈ watches, ∀ error, watch.FailsSilently who error →
          ∃ entry ∈ pool.log.entries, entry.level = .error ∧ entry.message = error.text := by
  intro hall
  obtain ⟨pool, hrun, hfinished, hlog⟩ := refusingOther_crossing
  obtain ⟨start, watches, outcome, -, hwent, hreported⟩ := hall _ _ _ _ _ _ hrun hfinished
  obtain ⟨watch, hmem, hsilent⟩ := hwent.failsSilently
  obtain ⟨entry, hentry, -, hmessage⟩ := hreported watch hmem _ hsilent
  rw [hlog, List.mem_singleton] at hentry
  subst hentry
  revert hmessage
  decide

end TsBuild.Bundle
