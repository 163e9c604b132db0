import TsBuild.Bundle.Task

/-!
# One call among others

`Leads who task log left now`: a call that has `task` to do when the log is `log` has `left` to do
when it is `now`, while other calls report and change the world as they like. Each entry carries the
number of the call that reported it. What a call does is taken apart at the binds of its task
(`ran_bind`); the log of a call that runs alone is a special case. Nothing is said here about which
order of steps is taken, only that every order of them leads to a derivation (see the pool of calls).
-/

namespace TsBuild.Bundle

abbrev SignedLog := List (Nat × LogEntry)

namespace SignedLog

def entries (log : SignedLog) : Log := log.map Prod.snd

def errors (log : SignedLog) : SignedLog := log.filter fun signed => signed.2.level = .error

def own (who : Nat) (log : SignedLog) : Log := entries (log.filter (·.1 = who))

def Without (log : SignedLog) (who : Nat) : Prop := ∀ signed ∈ log, signed.1 ≠ who

/-- Entries were added to a log, none of them by the call `who`. -/
def Waits (who : Nat) (log now : SignedLog) : Prop := ∃ added, added.Without who ∧ now = log ++ added

theorem entries_append (log added : SignedLog) :
    entries (log ++ added) = entries log ++ entries added := List.map_append

theorem errors_append (log added : SignedLog) :
    errors (log ++ added) = errors log ++ errors added := List.filter_append _ _

theorem entries_errors (log : SignedLog) : (entries log).errors = entries (errors log) := by
  simp only [Log.errors, entries, errors, List.filter_map]
  rfl

theorem length_errors (log : SignedLog) : (entries log).errors.length = (errors log).length := by
  rw [entries_errors, entries, List.length_map]

theorem own_append (who : Nat) (log added : SignedLog) :
    own who (log ++ added) = own who log ++ own who added := by
  rw [own, List.filter_append, entries_append]
  rfl

theorem own_of_without {log : SignedLog} (h : log.Without who) : own who log = [] := by
  rw [own, List.filter_eq_nil_iff.mpr fun signed hmem => by simpa using h signed hmem]
  rfl

theorem own_signed (who : Nat) (reported : Log) : own who (reported.map (who, ·)) = reported := by
  simp [own, entries, List.filter_map, Function.comp_def]

theorem errors_grows {log now : SignedLog} (h : log <+: now) : errors log <+: errors now := h.filter _

theorem without_append {log added : SignedLog} (h : log.Without who) (h' : added.Without who) :
    Without (log ++ added) who := by
  intro signed hmem
  rcases List.mem_append.mp hmem with hmem | hmem
  · exact h signed hmem
  · exact h' signed hmem

theorem Waits.refl : Waits who log log := ⟨[], by simp [Without], by simp⟩

theorem Waits.trans (h : Waits who log mid) (h' : Waits who mid now) : Waits who log now := by
  obtain ⟨first, hfirst, rfl⟩ := h
  obtain ⟨second, hsecond, rfl⟩ := h'
  exact ⟨first ++ second, without_append hfirst hsecond, List.append_assoc ..⟩

theorem Waits.grows (h : Waits who log now) : log <+: now := by
  obtain ⟨added, -, rfl⟩ := h
  exact List.prefix_append log added

end SignedLog

open SignedLog (Waits)

namespace Task

/-- The call `who` comes from `task` to `left`; in between other calls may add entries. -/
inductive Leads (who : Nat) : Task W α → SignedLog → Task W α → SignedLog → Prop
  | here : Leads who task start task start
  | others (h : Waits who start mid) (rest : Leads who task mid left now) : Leads who task start left now
  | report (rest : Leads who next (start ++ [(who, entry)]) left now) :
      Leads who (.report entry next) start left now
  | observe (rest : Leads who (next start.entries) start left now) :
      Leads who (.observe next) start left now
  | act (h : ready w = true) (rest : Leads who (next w) start left now) :
      Leads who (.act ready effect next) start left now

abbrev Ran (who : Nat) (task : Task W α) (start : SignedLog) (result : α) (now : SignedLog) : Prop :=
  Leads who task start (.done result) now

theorem Leads.trans (h : Leads who task start left mid) (h' : Leads who left mid last now) :
    Leads who task start last now := by
  induction h with
  | here => exact h'
  | others h _ ih => exact .others h (ih h')
  | report _ ih => exact .report (ih h')
  | observe _ ih => exact .observe (ih h')
  | act h _ ih => exact .act h (ih h')

theorem Leads.grows (h : Leads who task start left now) : start <+: now := by
  induction h with
  | here => exact List.prefix_refl _
  | others h _ ih => exact h.grows.trans ih
  | report _ ih => exact (List.prefix_append _ _).trans ih
  | observe _ ih => exact ih
  | act _ _ ih => exact ih

/-- A single step of a task in a pool of calls is one of those that `Leads` allows. -/
theorem leads_step {start : SignedLog} (h : step? task start.entries w = some (reported, w', left)) :
    Leads who task start left (start ++ reported.map (who, ·)) := by
  cases task with
  | done _ => simp [step?] at h
  | report entry next =>
    simp only [step?, Option.some.injEq, Prod.mk.injEq] at h
    obtain ⟨rfl, rfl, rfl⟩ := h
    exact .report .here
  | observe next =>
    simp only [step?, Option.some.injEq, Prod.mk.injEq] at h
    obtain ⟨rfl, rfl, rfl⟩ := h
    rw [List.map_nil, List.append_nil]
    exact .observe .here
  | act ready effect next =>
    simp only [step?, Option.ite_none_right_eq_some, Option.some.injEq, Prod.mk.injEq] at h
    obtain ⟨hready, rfl, rfl, rfl⟩ := h
    rw [List.map_nil, List.append_nil]
    exact .act hready .here

-- ---------------------------------------------------------------------------
-- What a run says, by the head of its task
-- ---------------------------------------------------------------------------

theorem ran_done (h : Ran who (.done a : Task W α) start result now) :
    result = a ∧ Waits who start now := by
  unfold Ran at h
  generalize htask : (Task.done a : Task W α) = task at h
  generalize hleft : (Task.done result : Task W α) = left at h
  induction h with
  | here =>
    subst htask
    cases hleft
    exact ⟨rfl, .refl⟩
  | others h _ ih =>
    obtain ⟨hresult, hrest⟩ := ih htask hleft
    exact ⟨hresult, h.trans hrest⟩
  | report | observe | act => cases htask

theorem ran_report (h : Ran who (.report entry next : Task W α) start result now) :
    ∃ mid, Waits who start mid ∧ Ran who next (mid ++ [(who, entry)]) result now := by
  unfold Ran at h
  generalize htask : (Task.report entry next : Task W α) = task at h
  generalize hleft : (Task.done result : Task W α) = left at h
  induction h with
  | here =>
    subst htask
    cases hleft
  | others h _ ih =>
    obtain ⟨mid, hmid, hrest⟩ := ih htask hleft
    exact ⟨mid, h.trans hmid, hrest⟩
  | report rest =>
    cases htask
    subst hleft
    exact ⟨_, .refl, rest⟩
  | observe | act => cases htask

theorem ran_observe (h : Ran who (.observe next : Task W α) start result now) :
    ∃ seen : SignedLog, Waits who start seen ∧ Ran who (next seen.entries) seen result now := by
  unfold Ran at h
  generalize htask : (Task.observe next : Task W α) = task at h
  generalize hleft : (Task.done result : Task W α) = left at h
  induction h with
  | here =>
    subst htask
    cases hleft
  | others h _ ih =>
    obtain ⟨seen, hseen, hrest⟩ := ih htask hleft
    exact ⟨seen, h.trans hseen, hrest⟩
  | observe rest =>
    cases htask
    subst hleft
    exact ⟨_, .refl, rest⟩
  | report | act => cases htask

theorem ran_bind {task : Task W α} {f : α → Task W β} (h : Ran who (task >>= f) start result now) :
    ∃ a mid, Ran who task start a mid ∧ Ran who (f a) mid result now := by
  change Leads who (task.bind f) start (.done result) now at h
  generalize hwhole : task.bind f = whole at h
  generalize hleft : (Task.done result : Task W β) = left at h
  -- Steps of the whole are steps of the first task until that is done.
  induction h with
  | here =>
    subst hleft
    cases task with
    | done a => exact ⟨a, _, .here, (show f a = _ from hwhole) ▸ .here⟩
    | report | observe | act => cases hwhole
  | others h _ ih =>
    obtain ⟨a, mid, hfirst, hsecond⟩ := ih hwhole hleft
    exact ⟨a, mid, .others h hfirst, hsecond⟩
  | report rest ih =>
    cases task with
    | done a =>
      subst hleft
      exact ⟨a, _, .here, (show f a = _ from hwhole) ▸ .report rest⟩
    | report entry next =>
      cases hwhole
      obtain ⟨a, mid, hfirst, hsecond⟩ := ih rfl hleft
      exact ⟨a, mid, .report hfirst, hsecond⟩
    | observe | act => cases hwhole
  | observe rest ih =>
    cases task with
    | done a =>
      subst hleft
      exact ⟨a, _, .here, (show f a = _ from hwhole) ▸ .observe rest⟩
    | observe next =>
      cases hwhole
      obtain ⟨a, mid, hfirst, hsecond⟩ := ih rfl hleft
      exact ⟨a, mid, .observe hfirst, hsecond⟩
    | report | act => cases hwhole
  | act h rest ih =>
    cases task with
    | done a =>
      subst hleft
      exact ⟨a, _, .here, (show f a = _ from hwhole) ▸ .act h rest⟩
    | act ready effect next =>
      cases hwhole
      obtain ⟨a, mid, hfirst, hsecond⟩ := ih rfl hleft
      exact ⟨a, mid, .act h hfirst, hsecond⟩
    | report | observe => cases hwhole

theorem ran_pure {a : α} (h : Ran who (pure a : Task W α) start result now) :
    result = a ∧ Waits who start now := ran_done h

theorem ran_errors (h : Ran who (errors : Task W Log) start seen now) :
    ∃ mid, Waits who start mid ∧ seen = mid.entries.errors ∧ Waits who mid now := by
  obtain ⟨mid, hmid, hrest⟩ := ran_observe h
  obtain ⟨hseen, hnow⟩ := ran_done hrest
  exact ⟨mid, hmid, hseen, hnow⟩

-- ---------------------------------------------------------------------------
-- Tasks that never wait
-- ---------------------------------------------------------------------------

/-- The task never waits for the world, whatever it finds on its way. -/
inductive Prompt : Task W α → Prop
  | done : Prompt (.done a)
  | report (rest : Prompt next) : Prompt (.report entry next)
  | observe (rest : ∀ seen, Prompt (next seen)) : Prompt (.observe next)
  | act (h : ∀ w, ready w = true) (rest : ∀ w, Prompt (next w)) : Prompt (.act ready effect next)

theorem prompt_bind {task : Task W α} {f : α → Task W β} (h : Prompt task) (h' : ∀ a, Prompt (f a)) :
    Prompt (task >>= f) := by
  induction h with
  | done => exact h' _
  | report _ ih => exact .report ih
  | observe _ ih => exact .observe ih
  | act hready _ ih => exact .act hready ih

theorem prompt_errors : Prompt (errors : Task W Log) := .observe fun _ => .done

theorem Leads.prompt (h : Leads who task start left now) (htask : Prompt task) : Prompt left := by
  induction h with
  | here => exact htask
  | others _ _ ih => exact ih htask
  | report _ ih =>
    cases htask with
    | report rest => exact ih rest
  | observe _ ih =>
    cases htask with
    | observe rest => exact ih (rest _)
  | act _ _ ih =>
    cases htask with
    | act _ rest => exact ih (rest _)

end Task

end TsBuild.Bundle
