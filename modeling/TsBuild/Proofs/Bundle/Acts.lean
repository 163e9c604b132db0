import TsBuild.Bundle.Container

/-!
# The acts of a task

All that a task does to the world it does in its acts. Here are properties that a task has if each of its
acts has them (`Each`), a bound on what the acts come to together (`Spends`), and the moments on the way
from one stage of a task to another (`Acts`). Each is taken through the bind of tasks, and kept when the
task takes a step.
-/

namespace TsBuild.Bundle

-- ---------------------------------------------------------------------------
-- Single steps
-- ---------------------------------------------------------------------------

namespace Task

theorem bind_bind (task : Task W α) (f : α → Task W β) (g : β → Task W γ) :
    task >>= f >>= g = task >>= fun a => f a >>= g := by
  induction task with
  | done a => rfl
  | report entry next ih => exact congrArg (report entry) ih
  | observe next ih => exact congrArg observe (funext ih)
  | act ready effect next ih => exact congrArg (act ready effect) (funext ih)

theorem step_act {seen : Log} {next : W → Task W α} :
    (act ready effect next).step? seen w = some (reported, w', left) ↔
      ready w = true ∧ reported = [] ∧ w' = effect w ∧ left = next w := by
  simp only [step?, Option.ite_none_right_eq_some, Option.some.injEq, Prod.mk.injEq]
  constructor
  · rintro ⟨hready, rfl, rfl, rfl⟩
    exact ⟨hready, rfl, rfl, rfl⟩
  · rintro ⟨hready, rfl, rfl, rfl⟩
    exact ⟨hready, rfl, rfl, rfl⟩

theorem step_bind {task : Task W α} {f : α → Task W β} {seen : Log}
    (h : (task >>= f).step? seen w = some (reported, w', left)) :
    (∃ a, task = .done a ∧ (f a).step? seen w = some (reported, w', left)) ∨
      ∃ mid, task.step? seen w = some (reported, w', mid) ∧ left = mid >>= f := by
  cases task with
  | done a => exact .inl ⟨a, rfl, h⟩
  | report entry next =>
    cases h
    exact .inr ⟨next, rfl, rfl⟩
  | observe next =>
    cases h
    exact .inr ⟨next seen, rfl, rfl⟩
  | act ready effect next =>
    obtain ⟨hready, rfl, rfl, rfl⟩ := step_act.mp h
    exact .inr ⟨next w, step_act.mpr ⟨hready, rfl, rfl, rfl⟩, rfl⟩

-- ---------------------------------------------------------------------------
-- Properties of each act
-- ---------------------------------------------------------------------------

/-- A property of tasks that is not lost by reports, looks at the log and what comes after. -/
structure Closed (P : ∀ {α : Type}, Task W α → Prop) : Prop where
  done {α : Type} (a : α) : P (.done a)
  report {α : Type} {entry : LogEntry} {next : Task W α} : P next → P (.report entry next)
  observe {α : Type} {next : Log → Task W α} : (∀ seen, P (next seen)) → P (.observe next)
  bind {α β : Type} {task : Task W α} {f : α → Task W β} : P task → (∀ a, P (f a)) → P (task >>= f)

theorem Closed.reportAll {P : ∀ {α : Type}, Task W α → Prop} (h : Closed P) (entries : Log) :
    P (reportAll entries : Task W Unit) := by
  induction entries with
  | nil => exact h.done ()
  | cons entry rest ih => exact h.report ih

inductive Each (ok : (W → Bool) → (W → W) → Prop) : Task W α → Prop
  | done : Each ok (.done a)
  | report (rest : Each ok next) : Each ok (.report entry next)
  | observe (rest : ∀ seen, Each ok (next seen)) : Each ok (.observe next)
  | act (h : ok ready effect) (rest : ∀ w, Each ok (next w)) : Each ok (.act ready effect next)

/-- No act of the task changes `view`. -/
abbrev Keeps (view : W → σ) : Task W α → Prop := Each fun _ effect => ∀ w, view (effect w) = view w

/-- No act of the task waits for a world that is calm already. -/
abbrev Goes (calm : W → Prop) : Task W α → Prop := Each fun ready _ => ∀ w, calm w → ready w = true

variable {ok : (W → Bool) → (W → W) → Prop}

theorem each_bind {task : Task W α} {f : α → Task W β} (h : Each ok task) (h' : ∀ a, Each ok (f a)) :
    Each ok (task >>= f) := by
  induction task with
  | done a => exact h' a
  | report entry next ih =>
    cases h with
    | report rest => exact .report (ih rest)
  | observe next ih =>
    cases h with
    | observe rest => exact .observe fun seen => ih seen (rest seen)
  | act ready effect next ih =>
    cases h with
    | act hok rest => exact .act hok fun w => ih w (rest w)

theorem closed_each : Closed (W := W) (Each ok) where
  done _ := .done
  report := .report
  observe := .observe
  bind := each_bind

theorem each_modify {f : W → W} (h : ok (fun _ => true) f) : Each ok (modify f) := .act h fun _ => .done

theorem each_read {f : W → α} (h : ok (fun _ => true) id) : Each ok (read f) := .act h fun _ => .done

theorem Each.imp {ok' : (W → Bool) → (W → W) → Prop} {task : Task W α} (h : Each ok task)
    (himp : ∀ ready effect, ok ready effect → ok' ready effect) : Each ok' task := by
  induction h with
  | done => exact .done
  | report _ ih => exact .report ih
  | observe _ ih => exact .observe ih
  | act hok _ ih => exact .act (himp _ _ hok) ih

theorem Each.step {task : Task W α} {seen : Log} (h : Each ok task)
    (hstep : task.step? seen w = some (reported, w', left)) : Each ok left := by
  cases h with
  | done => cases hstep
  | report rest =>
    cases hstep
    exact rest
  | observe rest =>
    cases hstep
    exact rest seen
  | act _ rest =>
    obtain ⟨-, rfl, rfl, rfl⟩ := step_act.mp hstep
    exact rest w

theorem Keeps.view_eq {task : Task W α} {seen : Log} {view : W → σ} (h : Keeps view task)
    (hstep : task.step? seen w = some (reported, w', left)) : view w' = view w := by
  cases h with
  | done => cases hstep
  | report | observe =>
    cases hstep
    rfl
  | act heffect =>
    obtain ⟨-, rfl, rfl, rfl⟩ := step_act.mp hstep
    exact heffect w

/-- A task that does not wait for a calm world goes on in one, unless it is done. -/
theorem Goes.step_isSome {task : Task W α} {calm : W → Prop} (h : Goes calm task) (hcalm : calm w)
    (hdone : ∀ a, task ≠ .done a) (seen : Log) : (task.step? seen w).isSome := by
  cases h with
  | done => exact absurd rfl (hdone _)
  | report | observe => rfl
  | act hready =>
    rw [step?, if_pos (hready w hcalm)]
    rfl

-- ---------------------------------------------------------------------------
-- Bounds
-- ---------------------------------------------------------------------------

/-- Whatever it finds, the acts of the task raise `count` by at most `n` in all. -/
inductive Spends (count : W → Nat) : Nat → Task W α → Prop
  | done : Spends count n (.done a)
  | report (rest : Spends count n next) : Spends count n (.report entry next)
  | observe (rest : ∀ seen, Spends count n (next seen)) : Spends count n (.observe next)
  | act (h : ∀ w, count (effect w) + n ≤ count w + m) (rest : ∀ w, Spends count n (next w)) :
      Spends count m (.act ready effect next)

theorem spends_of_keeps {count : W → Nat} {task : Task W α} (h : Keeps count task) (n : Nat) :
    Spends count n task := by
  induction h with
  | done => exact .done
  | report _ ih => exact .report ih
  | observe _ ih => exact .observe ih
  | act heffect _ ih => exact .act (fun w => Nat.le_of_eq (by rw [heffect w])) ih

theorem Keeps.spends_bind {count : W → Nat} {task : Task W α} {f : α → Task W β} (h : Keeps count task)
    (h' : ∀ a, Spends count n (f a)) : Spends count n (task >>= f) := by
  induction task with
  | done a => exact h' a
  | report entry next ih =>
    cases h with
    | report rest => exact .report (ih rest)
  | observe next ih =>
    cases h with
    | observe rest => exact .observe fun seen => ih seen (rest seen)
  | act ready effect next ih =>
    cases h with
    | act hkeeps rest => exact .act (fun w => Nat.le_of_eq (by rw [hkeeps w])) fun w => ih w (rest w)

theorem Spends.step {count : W → Nat} {task : Task W α} {seen : Log} (h : Spends count m task)
    (hstep : task.step? seen w = some (reported, w', left)) :
    ∃ n, Spends count n left ∧ count w' + n ≤ count w + m := by
  cases h with
  | done => cases hstep
  | report rest =>
    cases hstep
    exact ⟨m, rest, Nat.le_refl _⟩
  | observe rest =>
    cases hstep
    exact ⟨m, rest seen, Nat.le_refl _⟩
  | act heffect rest =>
    obtain ⟨-, rfl, rfl, rfl⟩ := step_act.mp hstep
    exact ⟨_, rest w, heffect w⟩

end Task

-- ---------------------------------------------------------------------------
-- The way from one stage to another
-- ---------------------------------------------------------------------------

inductive Actor (ε : Type)
  | call (who : Nat)
  | outside (cause : ε)
  deriving DecidableEq, Repr

/-- A step as it was made: by whom, the log and the world it found, what it reported and the world it
left. -/
structure Moment (W ε : Type) where
  actor : Actor ε
  log : Log
  world : W
  reported : Log := []
  after : W

namespace Task

/-- The moments in which a task comes to what is left of it. -/
inductive Acts : Task W α → List (Moment W ε) → Task W α → Prop
  | here : Acts task [] task
  | next {moment : Moment W ε} {later : List (Moment W ε)}
      (h : task.step? moment.log moment.world = some (moment.reported, moment.after, mid))
      (rest : Acts mid later left) : Acts task (moment :: later) left

variable {task left mid : Task W α} {moments : List (Moment W ε)}

theorem Acts.snoc {moment : Moment W ε} (h : Acts task moments mid)
    (hstep : mid.step? moment.log moment.world = some (moment.reported, moment.after, left)) :
    Acts task (moments ++ [moment]) left := by
  induction h with
  | here => exact .next hstep .here
  | next hfirst _ ih => exact .next hfirst (ih hstep)

theorem Acts.each (h : Acts task moments left) (heach : Each ok task) : Each ok left := by
  induction h with
  | here => exact heach
  | next hstep _ ih => exact ih (heach.step hstep)

theorem acts_done {a : α} (h : Acts (.done a : Task W α) moments (.done b)) : b = a ∧ moments = [] := by
  cases h with
  | here => exact ⟨rfl, rfl⟩
  | next hstep => cases hstep

theorem acts_report {next : Task W α} (h : Acts (.report entry next) moments (.done a)) :
    ∃ moment rest, moments = moment :: rest ∧ moment.reported = [entry] ∧
      Acts next rest (.done a) := by
  cases h with
  | @next _ _ _ _ _ moment rest hstep hrest =>
    simp only [step?, Option.some.injEq, Prod.mk.injEq] at hstep
    obtain ⟨hreported, -, rfl⟩ := hstep
    exact ⟨moment, rest, rfl, hreported.symm, hrest⟩

theorem acts_observe {next : Log → Task W α} (h : Acts (.observe next) moments (.done a)) :
    ∃ moment rest, moments = moment :: rest ∧ moment.reported = [] ∧
      Acts (next moment.log) rest (.done a) := by
  cases h with
  | @next _ _ _ _ _ moment rest hstep hrest =>
    simp only [step?, Option.some.injEq, Prod.mk.injEq] at hstep
    obtain ⟨hreported, -, rfl⟩ := hstep
    exact ⟨moment, rest, rfl, hreported.symm, hrest⟩

theorem acts_act {next : W → Task W α} (h : Acts (.act ready effect next) moments (.done a)) :
    ∃ moment rest, moments = moment :: rest ∧ moment.reported = [] ∧
      moment.after = effect moment.world ∧ Acts (next moment.world) rest (.done a) := by
  cases h with
  | @next _ _ _ _ _ moment rest hstep hrest =>
    obtain ⟨-, hreported, hafter, rfl⟩ := step_act.mp hstep
    exact ⟨moment, rest, rfl, hreported, hafter, hrest⟩

theorem acts_read {f : W → α} (h : Acts (read f) moments (.done a)) :
    ∃ moment, moments = [moment] ∧ moment.reported = [] ∧ moment.after = moment.world ∧
      a = f moment.world := by
  obtain ⟨moment, rest, rfl, hreported, hafter, hrest⟩ := acts_act h
  obtain ⟨rfl, rfl⟩ := acts_done hrest
  exact ⟨moment, rfl, hreported, hafter, rfl⟩

theorem acts_modify {f : W → W} (h : Acts (modify f) moments (.done a)) :
    ∃ moment, moments = [moment] ∧ moment.reported = [] ∧ moment.after = f moment.world := by
  obtain ⟨moment, rest, rfl, hreported, hafter, hrest⟩ := acts_act h
  obtain ⟨-, rfl⟩ := acts_done hrest
  exact ⟨moment, rfl, hreported, hafter⟩

theorem acts_errors (h : Acts errors moments (.done seen)) :
    ∃ moment, moments = [moment] ∧ moment.reported = [] ∧ seen = moment.log.errors := by
  obtain ⟨moment, rest, rfl, hreported, h⟩ := acts_observe h
  obtain ⟨rfl, rfl⟩ := acts_done h
  exact ⟨moment, rfl, hreported, rfl⟩

theorem acts_bind {task : Task W α} {f : α → Task W β} (h : Acts (task >>= f) moments (.done b)) :
    ∃ a first rest, moments = first ++ rest ∧ Acts task first (.done a) ∧ Acts (f a) rest (.done b) := by
  generalize hwhole : task >>= f = whole at h
  generalize hlast : (Task.done b : Task W β) = last at h
  induction h generalizing task with
  | here =>
    subst hlast
    cases task with
    | done a => exact ⟨a, [], [], rfl, .here, (show f a = _ from hwhole) ▸ .here⟩
    | report | observe | act => cases hwhole
  | next hstep rest ih =>
    subst hwhole
    rcases step_bind hstep with ⟨a, rfl, hsecond⟩ | ⟨mid, hfirst, rfl⟩
    · exact ⟨a, [], _, rfl, .here, .next hsecond (hlast ▸ rest)⟩
    · obtain ⟨a, first, later, rfl, hacts, hlater⟩ := ih rfl hlast
      exact ⟨a, _, later, rfl, .next hfirst hacts, hlater⟩

theorem acts_map {task : Task W α} {f : α → β} (h : Acts (do return f (← task)) moments (.done b)) :
    ∃ a, b = f a ∧ Acts task moments (.done a) := by
  obtain ⟨a, first, rest, rfl, hfirst, h⟩ := acts_bind h
  obtain ⟨rfl, rfl⟩ := acts_done h
  rw [List.append_nil]
  exact ⟨a, rfl, hfirst⟩

def reportedIn (moments : List (Moment W ε)) : Log := moments.flatMap (·.reported)

theorem reportedIn_append (first rest : List (Moment W ε)) :
    reportedIn (first ++ rest) = reportedIn first ++ reportedIn rest := List.flatMap_append

inductive Silent : Task W α → Prop
  | done : Silent (.done a)
  | act (rest : ∀ w, Silent (next w)) : Silent (.act ready effect next)

theorem silent_bind {task : Task W α} {f : α → Task W β} (h : Silent task) (h' : ∀ a, Silent (f a)) :
    Silent (task >>= f) := by
  induction h with
  | done => exact h' _
  | act _ ih => exact .act ih

theorem Silent.reportedIn (h : Silent task) (hacts : Acts task moments left) : reportedIn moments = [] := by
  induction hacts with
  | here => rfl
  | next hstep _ ih =>
    cases h with
    | done => cases hstep
    | act rest =>
      obtain ⟨-, hreported, -, rfl⟩ := step_act.mp hstep
      rw [Task.reportedIn, List.flatMap_cons, hreported, ← Task.reportedIn, ih (rest _)]
      rfl

theorem acts_reportAll {entries : Log} (h : Acts (reportAll entries) moments (.done ())) :
    reportedIn moments = entries := by
  induction entries generalizing moments with
  | nil =>
    obtain ⟨-, rfl⟩ := acts_done h
    rfl
  | cons entry rest ih =>
    obtain ⟨moment, later, rfl, hreported, hrest⟩ := acts_report h
    rw [reportedIn, List.flatMap_cons, hreported, ← reportedIn, ih hrest]
    rfl

end Task

-- ---------------------------------------------------------------------------
-- Calls of a container
-- ---------------------------------------------------------------------------

namespace Container

open TsBuild.Bundle.Task (Closed)

variable {P : ∀ {α : Type}, Task W α → Prop}

theorem closed_watched {task : Task W (Outcome α)} (h : Closed P) (plugin : Plugin W) (hook : Hook)
    (htask : P task) : P (watched plugin hook task) := by
  have herrors : P (Task.errors : Task W Log) := h.observe fun _ => h.done _
  refine h.bind herrors fun before => h.bind htask ?_
  rintro (error | result)
  · refine h.bind herrors fun errors => ?_
    by_cases hcount : errors.length = before.length
    · simp only [hcount, ↓reduceIte]
      exact h.bind (h.reportAll _) fun _ => h.done _
    · simp only [hcount, ↓reduceIte]
      exact h.done _
  · refine h.bind herrors fun errors => ?_
    cases newFailure? plugin hook before.length errors <;> exact h.done _

theorem closed_transform {container : Container W} (h : Closed P)
    (hplugins : ∀ plugin ∈ container, ∀ code id, P (plugin.transform code id)) (code id : String) :
    P (container.transform code id) := by
  suffices hfrom : ∀ current, P (transformFrom current id container) from hfrom _
  induction container with
  | nil => exact fun _ => h.done _
  | cons plugin rest ih =>
    intro current
    have hrest := ih fun plugin hmem => hplugins plugin (List.mem_cons_of_mem _ hmem)
    refine h.bind (closed_watched h plugin .transform (hplugins plugin List.mem_cons_self _ _)) ?_
    rintro (error | _ | result)
    · exact h.done _
    · exact hrest _
    · exact hrest _

end Container

end TsBuild.Bundle
