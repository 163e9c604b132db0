import TsBuild.Bundle.Container
import TsBuild.Proofs.Bundle.Interference

/-!
# Pools of calls

Calls that share a build, at whatever stage each has come to. An event begins a call, takes a single
step of one, or changes the world from outside; a list of events is one interleaving, and there are no
others. From any pool to a later one each call goes its own way among entries of other calls
(`run_later`), and a call that never waits for the world comes to its end whatever the others do
(`returns_of_prompt`).
-/

namespace TsBuild.Bundle

/-- The calls of a build, each with its kind and what is left of it. -/
structure Pool (W κ α : Type) where
  log : SignedLog := []
  world : W
  calls : List (κ × Task W α) := []

inductive Event (W κ : Type)
  | call (kind : κ)
  | advance (who : Nat)
  | change (world : W)

namespace Pool

variable {W κ α : Type} (begins : κ → Task W α)

def after? (pool : Pool W κ α) : Event W κ → Option (Pool W κ α)
  | .call kind => some { pool with calls := pool.calls ++ [(kind, begins kind)] }
  | .advance who => do
    let (kind, task) ← pool.calls[who]?
    let (reported, world, left) ← task.step? pool.log.entries pool.world
    return {
      log := pool.log ++ reported.map (who, ·)
      world
      calls := pool.calls.set who (kind, left) }
  | .change world => some { pool with world }

def run? (pool : Pool W κ α) : List (Event W κ) → Option (Pool W κ α)
  | [] => some pool
  | event :: rest => do (← pool.after? begins event).run? rest

def Finished (pool : Pool W κ α) (who : Nat) (kind : κ) (result : α) : Prop :=
  pool.calls[who]? = some (kind, .done result)

variable {begins}

theorem after_advance {pool next : Pool W κ α} (h : pool.after? begins (.advance who) = some next) :
    ∃ kind task reported world left, pool.calls[who]? = some (kind, task) ∧
      task.step? pool.log.entries pool.world = some (reported, world, left) ∧
      next = ⟨pool.log ++ reported.map (who, ·), world, pool.calls.set who (kind, left)⟩ := by
  simp only [after?, bind, Option.bind_eq_some_iff, pure, Option.some.injEq] at h
  obtain ⟨⟨kind, task⟩, hcall, ⟨reported, world, left⟩, hstep, rfl⟩ := h
  exact ⟨kind, task, reported, world, left, hcall, hstep, rfl⟩

-- ---------------------------------------------------------------------------
-- What a later pool keeps
-- ---------------------------------------------------------------------------

/-- What a pool leads to: entries are added, calls go on, and new calls begin. -/
structure Later (begins : κ → Task W α) (pool now : Pool W κ α) : Prop where
  log : pool.log <+: now.log
  kept {who : Nat} {kind : κ} {task : Task W α} : pool.calls[who]? = some (kind, task) →
    ∃ left, now.calls[who]? = some (kind, left) ∧ task.Leads who pool.log left now.log
  begun {who : Nat} {kind : κ} {left : Task W α} : pool.calls.length ≤ who →
    now.calls[who]? = some (kind, left) →
    ∃ start, pool.log <+: start ∧ (begins kind).Leads who start left now.log

theorem Later.refl (pool : Pool W κ α) : Later begins pool pool where
  log := List.prefix_refl _
  kept h := ⟨_, h, .here⟩
  begun hlen h := by
    rw [List.getElem?_eq_none hlen] at h
    cases h

theorem Later.trans {pool mid now : Pool W κ α} (h : Later begins pool mid)
    (h' : Later begins mid now) : Later begins pool now where
  log := h.log.trans h'.log
  kept hcall := by
    obtain ⟨left, hmid, hleads⟩ := h.kept hcall
    obtain ⟨last, hnow, hleads'⟩ := h'.kept hmid
    exact ⟨last, hnow, hleads.trans hleads'⟩
  begun {who kind last} hlen hcall := by
    rcases Nat.lt_or_ge who mid.calls.length with hlt | hge
    · -- The call was there in the middle, so it began on the way to it.
      obtain ⟨left, hmid, hleads⟩ := h'.kept (List.getElem?_eq_getElem hlt)
      rw [hcall, Option.some.injEq, Prod.mk.injEq] at hmid
      obtain ⟨rfl, rfl⟩ := hmid
      obtain ⟨start, hstart, hfirst⟩ := h.begun hlen (List.getElem?_eq_getElem hlt)
      exact ⟨start, hstart, hfirst.trans hleads⟩
    · obtain ⟨start, hstart, hleads⟩ := h'.begun hge hcall
      exact ⟨start, h.log.trans hstart, hleads⟩

theorem after_later {pool now : Pool W κ α} (h : pool.after? begins event = some now) :
    Later begins pool now := by
  cases event with
  | call kind =>
    cases h
    refine ⟨List.prefix_refl _, ?_, ?_⟩
    · intro who old task hcall
      have hlt : who < pool.calls.length := (List.getElem?_eq_some_iff.mp hcall).1
      exact ⟨task, by rw [List.getElem?_append_left hlt, hcall], .here⟩
    · intro who new left hlen hcall
      rw [List.getElem?_append_right hlen, List.getElem?_singleton] at hcall
      split at hcall
      · cases hcall
        exact ⟨pool.log, List.prefix_refl _, .here⟩
      · cases hcall
  | change world =>
    cases h
    refine ⟨List.prefix_refl _, fun h => ⟨_, h, .here⟩, ?_⟩
    intro who kind left hlen hcall
    rw [List.getElem?_eq_none hlen] at hcall
    cases hcall
  | advance who =>
    obtain ⟨kind, task, reported, world, left, hcall, hstep, rfl⟩ := after_advance h
    have hlt : who < pool.calls.length := (List.getElem?_eq_some_iff.mp hcall).1
    refine ⟨List.prefix_append _ _, ?_, ?_⟩
    · intro other kind' task' hother
      by_cases hwho : who = other
      · subst hwho
        rw [hcall, Option.some.injEq, Prod.mk.injEq] at hother
        obtain ⟨rfl, rfl⟩ := hother
        exact ⟨left, List.getElem?_set_self hlt, Task.leads_step hstep⟩
      · refine ⟨task', by rw [List.getElem?_set_ne hwho, hother], .others ⟨_, ?_, rfl⟩ .here⟩
        intro signed hmem
        obtain ⟨entry, -, rfl⟩ := List.mem_map.mp hmem
        exact hwho
    · intro other kind' left' hlen hother
      rw [List.getElem?_eq_none (by rwa [List.length_set])] at hother
      cases hother

theorem run_later {pool now : Pool W κ α} (h : pool.run? begins events = some now) :
    Later begins pool now := by
  induction events generalizing pool with
  | nil =>
    cases h
    exact .refl _
  | cons event rest ih =>
    simp only [run?, bind, Option.bind_eq_some_iff] at h
    obtain ⟨mid, hmid, hnow⟩ := h
    exact (after_later hmid).trans (ih hnow)

/-- A call that began on the way and has come to its end ran its task, from a log it found there. -/
theorem Later.ran {pool now : Pool W κ α} (h : Later begins pool now) (hlen : pool.calls.length ≤ who)
    (hfinished : now.Finished who kind result) :
    ∃ start, pool.log <+: start ∧ (begins kind).Ran who start result now.log :=
  h.begun hlen hfinished

-- ---------------------------------------------------------------------------
-- Calls that never wait
-- ---------------------------------------------------------------------------

/-- The call `who` comes to its end after finitely many steps of its own, whatever happens between
them. -/
inductive Returns (begins : κ → Task W α) (who : Nat) : Pool W κ α → Prop
  | finished (h : pool.Finished who kind result) : Returns begins who pool
  | advance
    (goes : ∀ events mid, .advance who ∉ events → pool.run? begins events = some mid →
      (mid.after? begins (.advance who)).isSome)
    (rest : ∀ events mid next, .advance who ∉ events → pool.run? begins events = some mid →
      mid.after? begins (.advance who) = some next → Returns begins who next) :
    Returns begins who pool

theorem after_calls {pool now : Pool W κ α} (h : pool.after? begins event = some now)
    (hevent : event ≠ .advance who) (hcall : pool.calls[who]? = some (kind, task)) :
    now.calls[who]? = some (kind, task) := by
  have hlt : who < pool.calls.length := (List.getElem?_eq_some_iff.mp hcall).1
  cases event with
  | call kind' =>
    cases h
    rw [List.getElem?_append_left hlt, hcall]
  | change world =>
    cases h
    exact hcall
  | advance other =>
    obtain ⟨-, -, -, -, -, -, -, rfl⟩ := after_advance h
    have hne : other ≠ who := fun heq => hevent (heq ▸ rfl)
    rw [List.getElem?_set_ne hne, hcall]

theorem run_calls {pool now : Pool W κ α} (h : pool.run? begins events = some now)
    (hevents : .advance who ∉ events) (hcall : pool.calls[who]? = some (kind, task)) :
    now.calls[who]? = some (kind, task) := by
  induction events generalizing pool with
  | nil =>
    cases h
    exact hcall
  | cons event rest ih =>
    simp only [run?, bind, Option.bind_eq_some_iff] at h
    obtain ⟨mid, hmid, hnow⟩ := h
    rw [List.mem_cons, not_or] at hevents
    exact ih hnow hevents.2 (after_calls hmid (Ne.symm hevents.1) hcall)

theorem returns_of_step {pool : Pool W κ α} (hcall : pool.calls[who]? = some (kind, task))
    (hsteps : ∀ seen w, ∃ reported w' left, task.step? seen w = some (reported, w', left))
    (hrest : ∀ {seen w reported w' left} {next : Pool W κ α},
      task.step? seen w = some (reported, w', left) → next.calls[who]? = some (kind, left) →
      Returns begins who next) : Returns begins who pool := by
  refine .advance ?_ ?_
  · intro events mid hevents hrun
    obtain ⟨reported, w', left, hstep⟩ := hsteps mid.log.entries mid.world
    simp [after?, run_calls hrun hevents hcall, hstep]
  · intro events mid next hevents hrun hnext
    have hmid := run_calls hrun hevents hcall
    obtain ⟨kind', task', reported, world, left, hcall', hstep, rfl⟩ := after_advance hnext
    rw [hmid, Option.some.injEq, Prod.mk.injEq] at hcall'
    obtain ⟨rfl, rfl⟩ := hcall'
    exact hrest hstep (List.getElem?_set_self (List.getElem?_eq_some_iff.mp hmid).1)

theorem returns_of_prompt {task : Task W α} {pool : Pool W κ α} (h : task.Prompt)
    (hcall : pool.calls[who]? = some (kind, task)) : Returns begins who pool := by
  induction h generalizing pool with
  | done => exact .finished hcall
  | report _ ih =>
    refine returns_of_step hcall (fun _ _ => ⟨_, _, _, rfl⟩) fun hstep hnext => ?_
    cases hstep
    exact ih hnext
  | observe _ ih =>
    refine returns_of_step hcall (fun _ _ => ⟨_, _, _, rfl⟩) fun hstep hnext => ?_
    cases hstep
    exact ih _ hnext
  | act hready _ ih =>
    refine returns_of_step hcall (fun _ w => ⟨_, _, _, if_pos (hready w)⟩) fun hstep hnext => ?_
    rw [Task.step?, if_pos (hready _)] at hstep
    cases hstep
    exact ih _ hnext

end Pool

end TsBuild.Bundle
