import TsBuild.Proofs.Bundle.Watch

/-!
# Failed calls fail the build

However the calls of a container are interleaved, once one of its build starts or transforms has
failed there is an error in the log, and a build that is ended later fails
(`failedCall_failsBuild`). Calls that resolve imports may take part in the interleaving, but a failure
of theirs need not be in the log and is left out here.
-/

namespace TsBuild.Bundle

open TsBuild.Bundle.Task (ran_bind ran_pure)

def Call.IsWatched : Call → Prop
  | .buildStart | .transform .. => True
  | .resolveId .. | .buildEnd => False

theorem errors_of_failedCall {container : Container W} {call : Call} (hcall : call.IsWatched)
    (h : (call.task container).Ran who start (.error error) now) : now.errors ≠ [] := by
  cases call with
  | resolveId | buildEnd => cases hcall
  | buildStart =>
    obtain ⟨watches, outcome, hwent, heq⟩ := buildStartCall_went h
    cases outcome with
    | error => exact hwent.errors rfl
    | ok => cases heq
  | transform code id =>
    obtain ⟨watches, outcome, hwent, heq⟩ := transformCall_went h
    cases outcome with
    | error => exact hwent.errors rfl
    | ok => cases heq

theorem endCall_fails {container : Container W} (herrors : start.errors ≠ [])
    (h : (Call.buildEnd.task container).Ran who start reply now) : ∃ failure, reply = .error failure := by
  obtain ⟨outcome, mid, hrun, h⟩ := ran_bind h
  obtain ⟨rfl, -⟩ := ran_pure h
  obtain ⟨failure, rfl⟩ := buildEnd_fails hrun herrors
  exact ⟨failure, rfl⟩

theorem prompt_endCall {container : Container W} (h : ∀ plugin ∈ container, plugin.buildEnd.Prompt) :
    (Call.buildEnd.task container).Prompt :=
  Task.prompt_bind (prompt_buildEnd h) fun _ => .done

/-- After a call has failed there is an error in the log, and every end of the build that begins from
then on fails: it comes to its end if the last hooks of the plugins do not wait, and not without an
error. -/
theorem failedCall_failsBuild {container : Container W} {world : W}
    {pool later : Pool W Call (Outcome Reply)}
    (hrun : Pool.run? (Call.task container) { world } events = some pool) (hcall : call.IsWatched)
    (hfailed : pool.Finished who call (.error error))
    (hlater : pool.run? (Call.task container) rest = some later) :
    1 ≤ later.log.entries.errors.length ∧
      ∀ last, pool.calls.length ≤ last →
        (∀ reply, later.Finished last .buildEnd reply → ∃ failure, reply = .error failure) ∧
        (∀ task, later.calls[last]? = some (.buildEnd, task) →
          (∀ plugin ∈ container, plugin.buildEnd.Prompt) → later.Returns (Call.task container) last) := by
  obtain ⟨start, -, hran⟩ := (Pool.run_later hrun).ran (Nat.zero_le _) hfailed
  have herrors : pool.log.errors ≠ [] := errors_of_failedCall hcall hran
  have hkept := Pool.run_later hlater
  refine ⟨?_, fun last hlast => ⟨fun reply hreply => ?_, fun task htask hprompt => ?_⟩⟩
  · rw [SignedLog.length_errors]
    exact List.length_pos_iff.mpr (errors_ne_nil_of_grows hkept.log herrors)
  · obtain ⟨begun, hbegun, hran⟩ := hkept.ran hlast hreply
    exact endCall_fails (errors_ne_nil_of_grows hbegun herrors) hran
  · obtain ⟨begun, -, hleads⟩ := hkept.begun hlast htask
    exact Pool.returns_of_prompt (hleads.prompt (prompt_endCall hprompt)) htask

def refusing : Plugin Unit where
  name := "refusing"
  transform code id :=
    return if code = "" then .error ⟨"refusing", .transform, id ++ " is empty"⟩ else .ok none

/-- Two transforms at once, up to the failure of the first. -/
def refusing.failing : List (Event Unit Call) :=
  [.call (.transform "" "a.ts"), .call (.transform "x" "b.ts"),
    .advance 0, .advance 1, .advance 0, .advance 0]

def refusing.ending : List (Event Unit Call) := [.advance 1, .call .buildEnd, .advance 2]

theorem failedCall_failsBuild_refusing :
    ∃ pool later : Pool Unit Call (Outcome Reply),
      Pool.run? (Call.task [refusing]) { world := () } refusing.failing = some pool ∧
      pool.Finished 0 (.transform "" "a.ts") (.error ⟨"refusing", .transform, "a.ts is empty"⟩) ∧
      pool.run? (Call.task [refusing]) refusing.ending = some later ∧
      1 ≤ later.log.entries.errors.length ∧
      ∀ last, pool.calls.length ≤ last →
        (∀ reply, later.Finished last .buildEnd reply → ∃ failure, reply = .error failure) ∧
        (∀ task, later.calls[last]? = some (.buildEnd, task) →
          (∀ plugin ∈ [refusing], plugin.buildEnd.Prompt) →
            later.Returns (Call.task [refusing]) last) := by
  obtain ⟨pool, later, hrun, hfailed, hlater⟩ : ∃ pool later : Pool Unit Call (Outcome Reply),
      Pool.run? (Call.task [refusing]) { world := () } refusing.failing = some pool ∧
      pool.Finished 0 (.transform "" "a.ts") (.error ⟨"refusing", .transform, "a.ts is empty"⟩) ∧
      pool.run? (Call.task [refusing]) refusing.ending = some later := ⟨_, _, rfl, rfl, rfl⟩
  exact ⟨pool, later, hrun, hfailed, hlater, failedCall_failsBuild hrun (by trivial) hfailed hlater⟩

end TsBuild.Bundle
